import GalleryScan.Proofs.Text.Pieces
import GalleryScan.Query.Token

/-!
# Tokens of texts put together

`scan` carries the free text since the last separator and looks one word ahead, so the tokens of a
concatenation are not in general the tokens of its parts: `AN` and `D` are two terms and together a
keyword. They are wherever the second part begins at an edge and gives up the free text held before
it at once. `Detached` says just that of a text, and a parenthesis and a keyword between blanks
have it.
-/

set_option autoImplicit false

namespace GalleryScan

namespace Token

/-! ## Blanks around free text -/

theorem isBlank_space : CodePoint.isBlank (.scalar ' ') = true := by decide

theorem isEdge_space : isEdge (.scalar ' ') = true := by decide

theorem ofFreeText_cons_blank {b : CodePoint} (hb : b.isBlank = true) (t : Text) :
    ofFreeText (b :: t) = ofFreeText t := by
  simp only [ofFreeText, Text.strip_cons_blank hb]

theorem ofFreeText_append_blank {b : CodePoint} (hb : b.isBlank = true) (t : Text) :
    ofFreeText (t ++ [b]) = ofFreeText t := by
  simp only [ofFreeText, Text.strip_append_blank hb]

/-! ## One step of the scan -/

theorem scan_separator {atEdge : Bool} {t : Text} {k : Token} {r : Text}
    (h : separator? atEdge t = some (k, r)) (held : Text) :
    scan atEdge held t = ofFreeText held.reverse ++ k :: scan k.isParenthesis [] r := by
  rw [scan]
  split
  · rename_i k' r' h'
    rw [h] at h'
    cases h'
    rfl
  · rename_i h'
    rw [h] at h'
    cases h'

theorem scan_nil (atEdge : Bool) (held : Text) :
    scan atEdge held [] = ofFreeText held.reverse := by
  rw [scan]
  rfl

theorem scan_free {atEdge : Bool} {c : CodePoint} {t : Text}
    (h : separator? atEdge (c :: t) = none) (held : Text) :
    scan atEdge held (c :: t) = scan (isEdge c) (c :: held) t := by
  rw [scan]
  split
  · rename_i k' r' h'
    rw [h] at h'
    cases h'
  · rfl

/-- A blank at the front of the free text makes no difference. -/
theorem scan_held_blank {b : CodePoint} (hb : b.isBlank = true) (atEdge : Bool) (held t : Text) :
    scan atEdge (held ++ [b]) t = scan atEdge held t := by
  fun_induction scan atEdge held t with
  | case1 atEdge held t k r h _ ih =>
    rw [scan_separator h, List.reverse_append, List.reverse_singleton, List.singleton_append,
      ofFreeText_cons_blank hb]
  | case2 atEdge held h =>
    rw [scan_nil, List.reverse_append, List.reverse_singleton, List.singleton_append,
      ofFreeText_cons_blank hb]
  | case3 atEdge held c t h ih =>
    rw [scan_free h, ← List.cons_append, ih]

theorem scan_blank {b : CodePoint} (hb : b.isBlank = true) (t : Text) :
    scan true [b] t = scan true [] t :=
  scan_held_blank hb true [] t

/-! ## A text that begins at an edge -/

/-- Looking one word ahead stops at an edge, so what follows it is not seen. -/
theorem separator?_append {c d : CodePoint} (hd : isEdge d = true) (atEdge : Bool) (t u : Text) :
    separator? atEdge (c :: t ++ d :: u)
      = (separator? atEdge (c :: t)).map fun x => (x.1, x.2 ++ d :: u) := by
  have htake : ∀ s : Text, (s ++ d :: u).takeWhile (!isEdge ·) = s.takeWhile (!isEdge ·) := by
    intro s
    rw [List.takeWhile_append]
    split
    · rename_i h
      rw [(List.takeWhile_prefix _).eq_of_length h]
      simp [hd]
    · rfl
  have hdrop : ∀ s : Text,
      (s ++ d :: u).dropWhile (!isEdge ·) = s.dropWhile (!isEdge ·) ++ d :: u := by
    intro s
    rw [List.dropWhile_append]
    split <;> simp_all
  simp only [List.cons_append, separator?, firstWord]
  rw [← List.cons_append, htake, hdrop]
  split
  · rfl
  · split
    · rfl
    · split
      · cases ofWord? ((c :: t).takeWhile (!isEdge ·)) <;> rfl
      · rfl

/-- The text begins at an edge, and after any free text its tokens are `ts`, whatever stood before
that free text. -/
def Detached (u : Text) (ts : List Token) : Prop :=
  (∃ d v, u = d :: v ∧ isEdge d = true) ∧
    ∀ atEdge held, scan atEdge held u = ofFreeText held.reverse ++ ts

theorem scan_append {u : Text} {ts : List Token} (hu : Detached u ts) (atEdge : Bool)
    (held t : Text) : scan atEdge held (t ++ u) = scan atEdge held t ++ ts := by
  obtain ⟨⟨d, v, rfl, hd⟩, hts⟩ := hu
  fun_induction scan atEdge held t with
  | case1 atEdge held t k r h _ ih =>
    cases t with
    | nil => simp [separator?] at h
    | cons c t =>
      rw [scan_separator (by rw [separator?_append hd, h]; rfl), ih, List.append_assoc,
        List.cons_append]
  | case2 atEdge held h => exact hts atEdge held
  | case3 atEdge held c t h ih =>
    rw [List.cons_append, scan_free (by rw [← List.cons_append, separator?_append hd, h]; rfl), ih]

theorem tokenize_append {u : Text} {ts : List Token} (hu : Detached u ts) (t : Text) :
    tokenize (t ++ u) = tokenize t ++ ts :=
  scan_append hu true [] t

/-! ## Texts that do -/

theorem detached_closing (v : Text) :
    Detached (.scalar ')' :: v) (.closing :: tokenize v) := by
  refine ⟨⟨_, _, rfl, by decide⟩, ?_⟩
  intro atEdge held
  rw [scan_separator (k := .closing) (r := v) rfl]
  rfl

/-- The three words that join and negate. -/
def isKeyword : Token → Bool
  | and | or | not => true
  | _ => false

/-- A keyword and a blank, where one may begin. -/
theorem scan_keyword {k : Token} (hk : k.isKeyword = true) (held v : Text) :
    scan true held (k.text ++ .scalar ' ' :: v) = ofFreeText held.reverse ++ k :: tokenize v := by
  have hsep : separator? true (k.text ++ .scalar ' ' :: v) = some (k, .scalar ' ' :: v) := by
    cases k with
    | and | or | not => rfl
    | opening | closing | term => cases hk
  have hpar : k.isParenthesis = false := by
    cases k <;> first | rfl | cases hk
  rw [scan_separator hsep, hpar, scan_free (by rfl), isEdge_space, scan_blank isBlank_space]
  rfl

theorem detached_keyword {k : Token} (hk : k.isKeyword = true) (v : Text) :
    Detached (.scalar ' ' :: k.text ++ .scalar ' ' :: v) (k :: tokenize v) := by
  refine ⟨⟨_, _, rfl, isEdge_space⟩, ?_⟩
  intro atEdge held
  have hsep : separator? atEdge (.scalar ' ' :: (k.text ++ .scalar ' ' :: v)) = none := by
    cases atEdge <;> rfl
  rw [List.cons_append, scan_free hsep, isEdge_space, scan_keyword hk, List.reverse_cons,
    ofFreeText_append_blank isBlank_space]

/-! ## Whole queries -/

theorem tokenize_nil : tokenize [] = [] := scan_nil true []

theorem tokenize_group (q v : Text) :
    tokenize (.scalar '(' :: q ++ .scalar ')' :: v)
      = .opening :: tokenize q ++ .closing :: tokenize v := by
  rw [List.cons_append, tokenize, scan_separator (k := .opening) rfl]
  exact congrArg (Token.opening :: ·) (tokenize_append (detached_closing v) q)

theorem tokenize_keyword {k : Token} (hk : k.isKeyword = true) (v : Text) :
    tokenize (k.text ++ .scalar ' ' :: v) = k :: tokenize v :=
  scan_keyword hk [] v

theorem tokenize_joined {k : Token} (hk : k.isKeyword = true) (q v : Text) :
    tokenize (q ++ .scalar ' ' :: k.text ++ .scalar ' ' :: v) = tokenize q ++ k :: tokenize v := by
  rw [List.append_assoc]
  exact tokenize_append (detached_keyword hk v) q

end Token

end GalleryScan
