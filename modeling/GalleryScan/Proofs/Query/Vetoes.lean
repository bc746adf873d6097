import GalleryScan.Proofs.Text.Pieces
import GalleryScan.Query.Filter
import Mathlib

/-!
# Exclusions one by one

An exclude list is taken apart at its commas. Each entry bars the prompts in which its term occurs;
a blank one, or one of nothing but quotes, bars none. A filter lets pass what its tree holds of and
no entry bars:

> `accepts p = (!(x.splitOn ',').any (bars · p) && wants p)`

So lists come together as their entries do, and nothing counts but which entries there are: not
their order, not how often they come, and not in which list they stand.
-/

set_option autoImplicit false

namespace GalleryScan

/-! ## Entries -/

/-- Does an entry of an exclude list keep a prompt out? -/
def bars (entry prompt : Text) : Bool :=
  unquote entry.strip ≠ [] && (Pattern.excluding (unquote entry.strip)).occurs prompt

/-- The entries of an exclude list, as they stand between its commas. -/
def entriesOf (list : Text) : List Text := list.splitOn (.scalar ',')

theorem any_exclusions (list prompt : Text) :
    (exclusions list).any (·.occurs prompt) = (entriesOf list).any (bars · prompt) := by
  rw [exclusions, List.any_map, List.any_filter, List.any_map]
  rfl

theorem entriesOf_joined (x y : Text) : entriesOf (x ++ "," ++ y) = entriesOf x ++ entriesOf y := by
  rw [entriesOf, List.append_assoc]
  exact Text.splitOn_append_separator (.scalar ',') x y

/-- No list has no entry, but that of an empty list is blank. -/
theorem any_bars_nil (prompt : Text) : (entriesOf []).any (bars · prompt) = false := rfl

theorem any_bars_mono {xs ys : List Text} (h : xs ⊆ ys) {prompt : Text}
    (hx : xs.any (bars · prompt) = true) : ys.any (bars · prompt) = true := by
  rw [List.any_eq_true] at hx ⊢
  obtain ⟨entry, hentry, hbars⟩ := hx
  exact ⟨entry, h hentry, hbars⟩

namespace Filter

variable {f : Filter} {q x : Text} {e : Option Expr}

/-! ## Filters of one query -/

theorem exists_tree (h : compile? q x = .ok f) :
    ∃ e, Expr.compile? q = .ok e ∧ f = ⟨q, x, GalleryScan.exclusions x, e⟩ := by
  rw [compile?] at h
  cases he : Expr.compile? q with
  | error fault =>
    rw [he] at h
    cases h
  | ok e =>
    rw [he] at h
    cases h
    exact ⟨e, rfl, rfl⟩

theorem compile?_of_tree (h : Expr.compile? q = .ok e) (x : Text) :
    compile? q x = .ok ⟨q, x, GalleryScan.exclusions x, e⟩ := by
  rw [compile?, h]
  rfl

/-- What a tree wants has nothing to do with the exclude list. -/
theorem accepts_of_tree (q x : Text) (e : Option Expr) (p : Option Text) :
    (Filter.mk q x (GalleryScan.exclusions x) e).accepts p
      = (!(entriesOf x).any (bars · (p.getD [])) && (Filter.mk [] [] [] e).wants (p.getD [])) := by
  rw [accepts, vetoes, any_exclusions]
  rfl

/-- **Entries of an exclude list are vetoes of their own.** With two lists joined by a comma a query
lets pass what it does with each of them; with one list it lets pass what it does without, as far as
the list alone does too. More entries let nothing more pass, and the same ones let the same pass, in
whatever order, however often and in however many lists. -/
theorem accepts_excluding (h : compile? q [] = .ok f) (x y : Text) :
    ∃ fx fy both alone, compile? q x = .ok fx ∧ compile? q y = .ok fy
      ∧ compile? q (x ++ "," ++ y) = .ok both ∧ compile? [] x = .ok alone
      ∧ (∀ p, both.accepts p = (fx.accepts p && fy.accepts p))
      ∧ (∀ p, fx.accepts p = (f.accepts p && alone.accepts p))
      ∧ (entriesOf x ⊆ entriesOf y → ∀ p, fy.accepts p = true → fx.accepts p = true)
      ∧ (entriesOf x ⊆ entriesOf y → entriesOf y ⊆ entriesOf x →
        ∀ p, fy.accepts p = fx.accepts p) := by
  obtain ⟨e, he, rfl⟩ := exists_tree h
  have hmono : ∀ {x y : Text}, entriesOf x ⊆ entriesOf y → ∀ p,
      (Filter.mk q y (GalleryScan.exclusions y) e).accepts p = true →
        (Filter.mk q x (GalleryScan.exclusions x) e).accepts p = true := by
    intro x y hsub p hy
    rw [accepts_of_tree, Bool.and_eq_true, Bool.not_eq_true'] at hy ⊢
    exact ⟨Bool.eq_false_iff.mpr fun hx => Bool.eq_false_iff.mp hy.1 (any_bars_mono hsub hx), hy.2⟩
  refine ⟨_, _, _, _, compile?_of_tree he x, compile?_of_tree he y, compile?_of_tree he _,
    compile?_of_tree rfl x, fun p => ?_, fun p => ?_, hmono, fun hsub hsub' p => ?_⟩
  · -- One list bars or the other does, and what is wanted is the same.
    have hlaw : ∀ a b w : Bool, (!(a || b) && w) = (!a && w && (!b && w)) := by decide
    rw [accepts_of_tree, accepts_of_tree, accepts_of_tree, entriesOf_joined, List.any_append, hlaw]
  · have hall : (Filter.mk [] [] [] none).wants (p.getD []) = true := rfl
    rw [accepts_of_tree, accepts_of_tree, accepts_of_tree, any_bars_nil, hall, Bool.not_false,
      Bool.true_and, Bool.and_true, Bool.and_comm]
  · exact Bool.eq_iff_iff.mpr ⟨hmono hsub p, hmono hsub' p⟩

/-- At lists with a quoted entry and blank ones, and at one that holds another's entry twice. -/
theorem accepts_excluding_dog : ∃ f fx fy both alone, compile? "cat" [] = .ok f
    ∧ compile? "cat" "dog" = .ok fx ∧ compile? "cat" " , 'elf',dog,,dog" = .ok fy
    ∧ compile? "cat" "dog, , 'elf',dog,,dog" = .ok both ∧ compile? [] "dog" = .ok alone
    ∧ (∀ p, both.accepts p = (fx.accepts p && fy.accepts p))
    ∧ (∀ p, fx.accepts p = (f.accepts p && alone.accepts p))
    ∧ entriesOf "dog" ⊆ entriesOf " , 'elf',dog,,dog"
    ∧ ∀ p, fy.accepts p = true → fx.accepts p = true := by
  have hf : compile? "cat" [] = .ok ⟨"cat", [], [], some (.term "cat")⟩ := by cbv
  have hsub : entriesOf "dog" ⊆ entriesOf " , 'elf',dog,,dog" := by decide
  obtain ⟨fx, fy, both, alone, hx, hy, hboth, halone, hjoined, hsplit, hmono, -⟩ :=
    accepts_excluding hf "dog" " , 'elf',dog,,dog"
  exact ⟨_, fx, fy, both, alone, hf, hx, hy, hboth, halone, hjoined, hsplit, hsub, hmono hsub⟩

end Filter

end GalleryScan
