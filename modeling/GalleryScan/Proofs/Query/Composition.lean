import GalleryScan.Proofs.Query.Grammar
import GalleryScan.Proofs.Query.Separation
import GalleryScan.Query.Filter
import Mathlib

/-!
# Queries made of queries

Queries are put together as texts: two of them in parentheses with `AND` between, two of them bare
with `OR` between, one in parentheses after `NOT`. The tokens of such a text are those of its parts
(`Separation`), and what the parts' tokens spell is spelled again in the whole (`Grammar`).

Only the bare `OR` changes a tree: its right side is taken apart and joined to the left one
conjunction at a time. What that leaves is the same disjunction, which is `Spells.or_append`.
-/

set_option autoImplicit false

namespace GalleryScan

namespace Expr

/-! ## Trees of joined tokens -/

/-- The disjunction that two lists of tokens spell with `OR` between them. -/
theorem Spells.or_append {ts us : List Token} {l r : Expr} (hl : Spells .or ts l)
    (hr : Spells .or us r) :
    ∃ e, Spells .or (ts ++ .or :: us) e ∧
      ∀ holds, e.eval holds = (l.eval holds || r.eval holds) := by
  generalize hk : Level.or = k at hr
  induction hr with
  | term | group | not | ofNot | and => cases hk
  | ofAnd h => exact ⟨.or l _, .or hl h, fun _ => rfl⟩
  | @or vs ws a b _ hb iha _ =>
    obtain ⟨e, he, heval⟩ := iha hk
    refine ⟨.or e b, ?_, ?_⟩
    · rw [← List.cons_append, ← List.append_assoc]
      exact .or he hb
    · intro holds
      rw [eval, eval, heval, Bool.or_assoc]

end Expr

namespace Filter

/-! ## Filters without exclusions -/

/-- A query that is not blank compiles where its tokens spell a tree. -/
theorem compile?_eq_ok_iff {q : Text} {f : Filter} (hq : q.isBlank = false) :
    compile? q [] = .ok f ↔
      ∃ e, Expr.Spells .or (tokenize q) e ∧ f = ⟨q, [], [], some e⟩ := by
  have hx : GalleryScan.exclusions [] = [] := rfl
  unfold compile? Expr.compile?
  rw [if_neg (by simp [hq]), hx]
  cases h : Expr.ofTokens (tokenize q) with
  | error fault =>
    constructor
    · intro h'
      cases h'
    · rintro ⟨e, he, -⟩
      rw [Expr.ofTokens_eq_ok_iff.mpr he] at h
      cases h
  | ok e =>
    constructor
    · intro h'
      cases h'
      exact ⟨e, Expr.ofTokens_eq_ok_iff.mp h, rfl⟩
    · rintro ⟨e', he', rfl⟩
      rw [Expr.ofTokens_eq_ok_iff.mpr he'] at h
      cases h
      rfl

/-- Without exclusions the tree decides. -/
theorem accepts_eq_eval (q : Text) (e : Expr) (p : Option Text) :
    (Filter.mk q [] [] (some e)).accepts p
      = e.eval fun t => (Pattern.including t).occurs (p.getD []) := by
  simp [accepts, vetoes, wants]

/-! ## The tokens of the three texts -/

theorem tokenize_and_groups (q₁ q₂ : Text) :
    tokenize ("(" ++ q₁ ++ ") AND (" ++ q₂ ++ ")")
      = (.opening :: tokenize q₁ ++ [.closing])
        ++ .and :: (.opening :: tokenize q₂ ++ [.closing]) := by
  have htext : ("(" ++ q₁ ++ ") AND (" ++ q₂ ++ ")" : Text)
      = .scalar '(' :: q₁ ++ .scalar ')' ::
          ([] ++ .scalar ' ' :: Token.and.text ++ .scalar ' ' ::
            (.scalar '(' :: q₂ ++ .scalar ')' :: [])) := by
    simp [Text.ofString, Token.text]
  rw [htext, Token.tokenize_group, Token.tokenize_joined rfl, Token.tokenize_group,
    Token.tokenize_nil]
  simp

theorem tokenize_or_bare (q₁ q₂ : Text) :
    tokenize (q₁ ++ " OR " ++ q₂) = tokenize q₁ ++ .or :: tokenize q₂ := by
  have htext : (q₁ ++ " OR " ++ q₂ : Text)
      = q₁ ++ .scalar ' ' :: Token.or.text ++ .scalar ' ' :: q₂ := by
    simp [Text.ofString, Token.text]
  rw [htext, Token.tokenize_joined rfl]

theorem tokenize_not_group (q : Text) :
    tokenize ("NOT (" ++ q ++ ")") = .not :: (.opening :: tokenize q ++ [.closing]) := by
  have htext : ("NOT (" ++ q ++ ")" : Text)
      = Token.not.text ++ .scalar ' ' :: (.scalar '(' :: q ++ .scalar ')' :: []) := by
    simp [Text.ofString, Token.text]
  rw [htext, Token.tokenize_keyword rfl, Token.tokenize_group, Token.tokenize_nil]

/-- **A query made of queries means what its parts mean**: of two queries in parentheses joined by
`AND`, of two bare ones joined by `OR`, and of one in parentheses after `NOT`. -/
theorem accepts_composed {q₁ q₂ : Text} {f₁ f₂ : Filter} (hq₁ : q₁.isBlank = false)
    (hq₂ : q₂.isBlank = false) (h₁ : compile? q₁ [] = .ok f₁) (h₂ : compile? q₂ [] = .ok f₂) :
    (∃ f, compile? ("(" ++ q₁ ++ ") AND (" ++ q₂ ++ ")") [] = .ok f ∧
      ∀ p, f.accepts p = (f₁.accepts p && f₂.accepts p)) ∧
    (∃ f, compile? (q₁ ++ " OR " ++ q₂) [] = .ok f ∧
      ∀ p, f.accepts p = (f₁.accepts p || f₂.accepts p)) ∧
    (∃ f, compile? ("NOT (" ++ q₁ ++ ")") [] = .ok f ∧ ∀ p, f.accepts p = !f₁.accepts p) := by
  obtain ⟨e₁, he₁, rfl⟩ := (compile?_eq_ok_iff hq₁).mp h₁
  obtain ⟨e₂, he₂, rfl⟩ := (compile?_eq_ok_iff hq₂).mp h₂
  refine ⟨?_, ?_, ?_⟩
  · have he : Expr.Spells .or (tokenize ("(" ++ q₁ ++ ") AND (" ++ q₂ ++ ")"))
        (.and (.group e₁) (.group e₂)) := by
      rw [tokenize_and_groups]
      exact .ofAnd (.and (.ofNot (.group he₁)) (.group he₂))
    refine ⟨_, (compile?_eq_ok_iff rfl).mpr ⟨_, he, rfl⟩, ?_⟩
    intro p
    simp only [accepts_eq_eval, Expr.eval]
  · obtain ⟨e, he, heval⟩ := he₁.or_append he₂
    rw [← tokenize_or_bare] at he
    have hq : Text.isBlank (q₁ ++ " OR " ++ q₂) = false := by
      have := hq₁
      simp_all [Text.isBlank]
    refine ⟨_, (compile?_eq_ok_iff hq).mpr ⟨_, he, rfl⟩, ?_⟩
    intro p
    simp only [accepts_eq_eval, heval]
  · have he : Expr.Spells .or (tokenize ("NOT (" ++ q₁ ++ ")")) (.not (.group e₁)) := by
      rw [tokenize_not_group]
      exact .ofAnd (.ofNot (.not (.group he₁)))
    refine ⟨_, (compile?_eq_ok_iff rfl).mpr ⟨_, he, rfl⟩, ?_⟩
    intro p
    simp only [accepts_eq_eval, Expr.eval]

/-- At one term and a query with an `or` of its own. -/
theorem accepts_composed_cat_or_elf :
    ∃ f₁ f₂, compile? "cat" [] = .ok f₁ ∧ compile? "elf or 'a b'" [] = .ok f₂ ∧
      (∃ f, compile? "(cat) AND (elf or 'a b')" [] = .ok f ∧
        ∀ p, f.accepts p = (f₁.accepts p && f₂.accepts p)) ∧
      (∃ f, compile? "cat OR elf or 'a b'" [] = .ok f ∧
        ∀ p, f.accepts p = (f₁.accepts p || f₂.accepts p)) ∧
      (∃ f, compile? "NOT (cat)" [] = .ok f ∧ ∀ p, f.accepts p = !f₁.accepts p) := by
  have h₁ : compile? "cat" [] = .ok ⟨"cat", [], [], some (.term "cat")⟩ := by cbv
  have h₂ : compile? "elf or 'a b'" [] = .ok ⟨"elf or 'a b'", [], [],
      some (.or (.term "elf") (.term "a b"))⟩ := by cbv
  exact ⟨_, _, h₁, h₂, accepts_composed rfl rfl h₁ h₂⟩

end Filter

end GalleryScan
