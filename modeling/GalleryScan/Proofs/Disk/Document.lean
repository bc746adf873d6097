import GalleryScan.Disk.Document
import GalleryScan.Proofs.Json.RoundTrip

/-!
# Files of written values

A value's text holds line feeds and no other control character, for within texts these are escaped.
So the line ends that a file's reader makes one of are not touched, and with the bytes read back as
the text the value is that of the file:

> `Bytes.document (x.written 0).bytes = .ok x`
-/

set_option autoImplicit false

namespace GalleryScan

/-- Line feeds and no other control characters. -/
def Text.Tidy (t : Text) : Prop := ∀ c ∈ t, c = .scalar '\n' ∨ 32 ≤ c.val

namespace Text

instance (t : Text) : Decidable t.Tidy :=
  inferInstanceAs (Decidable (∀ c ∈ t, c = .scalar '\n' ∨ 32 ≤ c.val))

theorem Tidy.append {t u : Text} (ht : t.Tidy) (hu : u.Tidy) : (t ++ u).Tidy := by
  intro c hc
  rcases List.mem_append.mp hc with hc | hc
  · exact ht c hc
  · exact hu c hc

theorem Tidy.cons {c : CodePoint} {t : Text} (hc : c = .scalar '\n' ∨ 32 ≤ c.val) (ht : t.Tidy) :
    Tidy (c :: t) := by
  intro d hd
  rcases List.mem_cons.mp hd with rfl | hd
  · exact hc
  · exact ht d hd

theorem Tidy.flatMap {α : Type} {f : α → Text} {xs : List α} (h : ∀ x ∈ xs, (f x).Tidy) :
    Tidy (xs.flatMap f) := by
  intro c hc
  obtain ⟨x, hx, hc⟩ := List.mem_flatMap.mp hc
  exact h x hx c hc

/-- Where there is no carriage return, every line ends as it did. -/
theorem withLineFeeds_of_tidy {t : Text} (h : t.Tidy) : t.withLineFeeds = t := by
  induction t with
  | nil => rfl
  | cons c t ih =>
    have hc : c ≠ .scalar '\r' := by
      rintro rfl
      rcases h _ (List.mem_cons_self ..) with h | h
      · cases h
      · revert h
        decide
    have ht := ih fun d hd => h d (List.mem_cons_of_mem _ hd)
    rw [withLineFeeds.eq_def]
    split
    · rename_i heq
      cases heq
    · rename_i heq
      cases heq
      exact absurd rfl hc
    · rename_i heq
      cases heq
      rw [if_neg hc, ht]

end Text

namespace Json

theorem tidy_control : ∀ n < 32, (Text.hex 4 n).Tidy := by decide

theorem tidy_inJson (c : CodePoint) : c.inJson.Tidy := by
  rcases inJson_cases c with ⟨d, _, hd, _, hshown⟩ | ⟨hc, hshown⟩ | ⟨_, _, hc, hshown⟩
  · rw [hshown]
    exact .cons (.inr (by decide)) (.cons (.inr hd) (by decide))
  · rw [hshown]
    exact .cons (.inr (by decide)) (.cons (.inr (by decide)) (tidy_control c.val hc))
  · rw [hshown]
    exact .cons (.inr hc) (by decide)

theorem tidy_writeText (t : Text) : (writeText t).Tidy :=
  (Text.Tidy.append (by decide) (Text.Tidy.flatMap fun c _ => tidy_inJson c)).append (by decide)

theorem tidy_newLine (level : Nat) : (newLine level).Tidy := by
  apply Text.Tidy.cons (.inl rfl)
  intro c hc
  rw [List.eq_of_mem_replicate hc]
  exact .inr (by decide)

theorem tidy_writeAtom {x : Json} (h : x.isAtom = true) : x.writeAtom.Tidy := by
  have hdigits : ∀ n, (Text.ofNat n).Tidy := by
    intro n c hc
    have hdigit := isAsciiDigit_of_mem hc
    rw [CodePoint.isAsciiDigit, Bool.and_eq_true, decide_eq_true_eq] at hdigit
    exact .inr (Nat.le_trans (by decide) hdigit.1)
  cases x with
  | null => exact (by decide : Text.Tidy "null")
  | bool b =>
    cases b with
    | true => exact (by decide : Text.Tidy "true")
    | false => exact (by decide : Text.Tidy "false")
  | int n =>
    cases n with
    | ofNat n => exact hdigits n
    | negSucc n => exact Text.Tidy.cons (.inr (by decide)) (hdigits (n + 1))
  | real x =>
    intro c hc
    exact .inr (Nat.le_of_lt (ink_of_mem_write hc))
  | text t => exact tidy_writeText t
  | array xs => cases h
  | object ms => cases h

/-- By induction on the value: all that stands between its parts is blanks, line feeds and signs. -/
theorem Proper.tidy {x : Json} (h : x.Proper) : ∀ level, (x.written level).Tidy := by
  have hatom : ∀ y : Json, y.isAtom = true → ∀ level, (y.written level).Tidy := by
    intro y hy level
    rw [written_of_isAtom hy]
    exact tidy_writeAtom hy
  induction h with
  | null => exact hatom _ rfl
  | bool b => exact hatom _ rfl
  | int n few => exact hatom _ rfl
  | real x => exact hatom _ rfl
  | text t => exact hatom _ rfl
  | array xs items ih =>
    intro level
    cases xs with
    | nil => exact (by decide : Text.Tidy "[]")
    | cons x xs =>
      have hmore : (moreItems (level + 1) xs).Tidy := by
        apply Text.Tidy.flatMap
        intro y hy
        exact .append (.cons (.inr (by decide)) (tidy_newLine _))
          (ih y (List.mem_cons_of_mem _ hy) _)
      rw [written_array]
      exact .cons (.inr (by decide)) ((tidy_newLine _).append
        ((ih x (List.mem_cons_self ..) _).append
          (hmore.append ((tidy_newLine _).append (.cons (.inr (by decide)) (by decide))))))
  | object ms names values ih =>
    intro level
    cases ms with
    | nil => exact (by decide : Text.Tidy "\x7b\x7d")
    | cons m ms =>
      have hmember : ∀ l ∈ m :: ms, (writtenMember (level + 1) l).Tidy := by
        intro l hl
        exact (tidy_writeText l.1).append
          (.cons (.inr (by decide)) (.cons (.inr (by decide)) (ih l hl _)))
      have hmore : (moreMembers (level + 1) ms).Tidy := by
        apply Text.Tidy.flatMap
        intro l hl
        exact .append (.cons (.inr (by decide)) (tidy_newLine _))
          (hmember l (List.mem_cons_of_mem _ hl))
      rw [written_object]
      exact .cons (.inr (by decide)) ((tidy_newLine _).append
        ((hmember m (List.mem_cons_self ..)).append
          (hmore.append ((tidy_newLine _).append (.cons (.inr (by decide)) (by decide))))))

/-- A file into which a proper value was written holds that value. -/
theorem Proper.document {x : Json} (h : x.Proper) (hreals : ∀ y, x.HasReal y → ReadsBack y)
    (hbytes : (x.written 0).isEncodable = true) : (x.written 0).bytes.document = .ok x := by
  rw [Bytes.document, Bytes.decode_bytes hbytes]
  dsimp only
  rw [Text.withLineFeeds_of_tidy (h.tidy 0), h.read_written hreals]

end Json

end GalleryScan
