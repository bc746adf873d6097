import GalleryScan.Proofs.Query.FreeText
import GalleryScan.Proofs.Text.Caseless
import Mathlib.Data.List.Chain

/-!
# The words of a query

Tokens are found by looking for separators from place to place, with the free text since the last
one in hand. What is found can be told in words: a query is parentheses and runs of signs that are
neither blanks nor parentheses. A run that spells a keyword is that keyword, and the others are free
words. Free words with nothing but blanks between them make up one term, which is the slice of the
query from the first of them to the last:

> `tokenize q = (Lexeme.joined (Lexeme.ofText 0 q)).map (Lexeme.token q)`

The free text in hand is one such stretch of words among blanks. What the scan has passed in it is
no separator at any place, so no term holds a parenthesis or a keyword that stands free.
-/

set_option autoImplicit false

namespace GalleryScan

/-- A parenthesis or a word of a query. -/
inductive Lexeme where
  /-- A parenthesis or a keyword. -/
  | mark (k : Token)
  /-- Free words, from the place where they begin to the place behind them. -/
  | words (start stop : Nat)

namespace Lexeme

/-- A word that begins at a place: a keyword, or free. -/
def ofWord (n : Nat) (w : Text) : Lexeme :=
  match Token.ofWord? w with
  | some k => .mark k
  | none => .words n (n + w.length)

/-- The parentheses and words of a text that begins at a place of a query. -/
def ofText (n : Nat) : Text → List Lexeme
  | [] => []
  | c :: t =>
    if c = .scalar '(' then .mark .opening :: ofText (n + 1) t
    else if c = .scalar ')' then .mark .closing :: ofText (n + 1) t
    else if c.isBlank then ofText (n + 1) t
    else
      let w := Token.firstWord (c :: t)
      ofWord n w :: ofText (n + w.length) (t.dropWhile (!Token.isEdge ·))
termination_by t => t.length
decreasing_by
  all_goals have := (List.dropWhile_suffix (l := t) (!Token.isEdge ·)).length_le
  all_goals simp only [List.length_cons]
  all_goals omega

/-- Free words next to each other are one stretch, from the first to the last. -/
def joined : List Lexeme → List Lexeme
  | [] => []
  | .mark k :: ls => .mark k :: joined ls
  | .words start stop :: ls =>
    match joined ls with
    | .words _ stop' :: more => .words start stop' :: more
    | more => .words start stop :: more

/-- The token of a mark or of a stretch of words, which is that slice of the query. -/
def token (q : Text) : Lexeme → Token
  | .mark k => k
  | .words start stop => .term (q.extract start stop)

/-! ## Joining -/

theorem joined_words (i j k l : Nat) (ls : List Lexeme) :
    joined (.words i j :: .words k l :: ls) = joined (.words i l :: ls) := by
  simp only [joined]
  cases joined ls with
  | nil => rfl
  | cons m more => cases m <;> rfl

theorem joined_append_mark (ls ms : List Lexeme) (k : Token) :
    joined (ls ++ .mark k :: ms) = joined ls ++ .mark k :: joined ms := by
  induction ls with
  | nil => rfl
  | cons l ls ih =>
    cases l with
    | mark k' => simp [joined, ih]
    | words i j =>
      simp only [List.cons_append, joined, ih]
      cases joined ls with
      | nil => rfl
      | cons m more => cases m <;> rfl

/-! ## The stretch of words in hand -/

/-- The stretch of words that free text from a place of the query has begun. -/
def opened (n : Nat) (held : Text) : List Lexeme :=
  if held.strip = [] then []
  else
    let start := n + (held.takeWhile CodePoint.isBlank).length
    [.words start (start + held.strip.length)]

theorem opened_nil (n : Nat) : opened n [] = [] := rfl

theorem joined_opened (n : Nat) (held : Text) : joined (opened n held) = opened n held := by
  unfold opened
  split <;> rfl

theorem opened_append_blank {b : CodePoint} (hb : b.isBlank = true) (n : Nat) (held : Text) :
    opened n (held ++ [b]) = opened n held := by
  simp only [opened, Text.strip_append_blank hb]
  split
  · rfl
  · rename_i hstrip
    rw [List.takeWhile_append, if_neg]
    intro hall
    have hself : held.takeWhile CodePoint.isBlank = held :=
      (List.takeWhile_prefix _).eq_of_length hall
    exact hstrip (Text.strip_eq_nil (List.takeWhile_eq_self_iff.mp hself))

/-- A word is the first of a stretch, or the stretch now reaches behind it. -/
theorem joined_opened_word {w : Text} (hne : w ≠ []) (hw : ∀ c ∈ w, c.isBlank = false) (n : Nat)
    (held : Text) (ls : List Lexeme) :
    joined (opened n held ++
        .words (n + held.length) (n + held.length + w.length) :: ls)
      = joined (opened n (held ++ w) ++ ls) := by
  have hlen := congrArg List.length (List.takeWhile_append_dropWhile (p := CodePoint.isBlank)
    (l := held))
  rw [List.length_append] at hlen
  have htake : (held ++ w).takeWhile CodePoint.isBlank = held.takeWhile CodePoint.isBlank := by
    obtain ⟨c, u, rfl⟩ := List.exists_cons_of_ne_nil hne
    rw [List.takeWhile_append]
    split
    · rename_i hall
      rw [List.takeWhile_cons_of_neg (by simp [hw]), List.append_nil,
        (List.takeWhile_prefix _).eq_of_length hall]
    · rfl
  have hopened : opened n (held ++ w) = [.words (n + (held.takeWhile CodePoint.isBlank).length)
      (n + held.length + w.length)] := by
    simp only [opened, Text.strip_append_word hne hw, htake, List.append_eq_nil_iff, hne, and_false,
      if_false, List.length_append, ← hlen, Nat.add_assoc]
  rw [hopened]
  by_cases hheld : held.strip = []
  · have hall := Text.isBlank_of_strip hheld
    rw [opened, if_pos hheld, List.takeWhile_eq_self_iff.mpr hall]
    rfl
  · rw [opened, if_neg hheld]
    exact joined_words _ _ _ _ ls

/-- The stretch in hand is the term of the free text. -/
theorem token_opened (f held t : Text) :
    (opened f.length held).map (token (f ++ held ++ t)) = Token.ofFreeText held := by
  unfold opened Token.ofFreeText
  split
  · rfl
  · have hdrop : (f ++ held ++ t).drop (f.length + (held.takeWhile CodePoint.isBlank).length)
        = held.dropWhile CodePoint.isBlank ++ t := by
      have hcut : f ++ held ++ t = f ++ (held.takeWhile CodePoint.isBlank
          ++ (held.dropWhile CodePoint.isBlank ++ t)) := by
        rw [← List.append_assoc (List.takeWhile _ _), List.takeWhile_append_dropWhile,
          List.append_assoc]
      rw [hcut, List.drop_length_add_append, List.drop_left]
    have hstrip : held.strip <+: held.dropWhile CodePoint.isBlank :=
      List.rdropWhile_prefix CodePoint.isBlank _
    simp only [List.map_cons, List.map_nil, token, List.extract, hdrop, Nat.add_sub_cancel_left]
    rw [List.take_append_of_le_length hstrip.length_le, ← List.prefix_iff_eq_take.mp hstrip]

end Lexeme

/-! ## Scanning over a word -/

namespace Token

/-- No keyword begins inside a word. -/
theorem scan_inside {u : Text} (hu : ∀ c ∈ u, isEdge c = false) (held t : Text) :
    scan false held (u ++ t) = scan false (u.reverse ++ held) t := by
  induction u generalizing held with
  | nil => rfl
  | cons c u ih =>
    have hc : isEdge c = false := hu c (List.mem_cons_self ..)
    have hsep : separator? false (c :: (u ++ t)) = none := by
      simp only [isEdge, Bool.or_eq_false_iff, beq_eq_false_iff_ne] at hc
      simp [separator?, hc]
    rw [List.cons_append, scan_free hsep, hc, ih fun d hd => hu d (List.mem_cons_of_mem c hd),
      List.reverse_cons, List.append_assoc]
    rfl

theorem separator?_word {c : CodePoint} (hc : isEdge c = false) (t : Text) :
    separator? true (c :: t)
      = (ofWord? (firstWord (c :: t))).map fun k => (k, t.dropWhile (!isEdge ·)) := by
  simp only [isEdge, Bool.or_eq_false_iff, beq_eq_false_iff_ne] at hc
  simp [separator?, hc]

/-- A word that spells a keyword is that keyword. -/
theorem scan_keyword_word {c : CodePoint} {t : Text} {k : Token} (hc : isEdge c = false)
    (hk : ofWord? (firstWord (c :: t)) = some k) (held : Text) :
    scan true held (c :: t)
      = ofFreeText held.reverse ++ k :: scan true [] (t.dropWhile (!isEdge ·)) := by
  have hsep : separator? true (c :: t) = some (k, t.dropWhile (!isEdge ·)) := by
    rw [separator?_word hc, hk]
    rfl
  rw [scan_separator hsep, scan_congr (separator?_isParenthesis hsep)]

/-- Any other word goes to the free text. -/
theorem scan_free_word {c : CodePoint} {t : Text} (hc : isEdge c = false)
    (hk : ofWord? (firstWord (c :: t)) = none) (held : Text) :
    scan true held (c :: t)
      = scan true ((firstWord (c :: t)).reverse ++ held) (t.dropWhile (!isEdge ·)) := by
  have hsep : separator? true (c :: t) = none := by
    rw [separator?_word hc, hk]
    rfl
  have hcut : t = firstWord t ++ t.dropWhile (!isEdge ·) := List.takeWhile_append_dropWhile.symm
  calc scan true held (c :: t)
      = scan false (c :: held) t := by rw [scan_free hsep, hc]
    _ = scan false (c :: held) (firstWord t ++ t.dropWhile (!isEdge ·)) := by rw [← hcut]
    _ = scan false ((firstWord t).reverse ++ c :: held) (t.dropWhile (!isEdge ·)) := by
        rw [scan_inside fun d hd => isEdge_firstWord hd]
    _ = scan true ((firstWord t).reverse ++ c :: held) (t.dropWhile (!isEdge ·)) := by
        rw [scan_congr (separator?_edge (isEdge_head_dropWhile t) false)]
    _ = scan true ((firstWord (c :: t)).reverse ++ held) (t.dropWhile (!isEdge ·)) := by
        rw [firstWord_cons hc, List.reverse_cons, List.append_assoc]
        rfl

end Token

/-! ## The scan in words -/

namespace Lexeme

open Token (isEdge scan scan_nil scan_free scan_separator separator?_blank
  firstWord_cons firstWord_append_rest isBlank_firstWord scan_keyword_word scan_free_word)

/-- A mark gives up the stretch in hand and begins anew. -/
theorem scan_mark {f held t r : Text} {k : Token} {ls : List Lexeme}
    (hscan : scan true held.reverse t = Token.ofFreeText held ++ k :: scan true [] r)
    (hrest : scan true [] r = (joined ls).map (token (f ++ held ++ t))) :
    scan true held.reverse t
      = (joined (opened f.length held ++ .mark k :: ls)).map (token (f ++ held ++ t)) := by
  rw [hscan, hrest, joined_append_mark, joined_opened, List.map_append, token_opened]
  rfl

theorem scan_eq {n : Nat} {t f h : Text} (hn : n = f.length + h.length) :
    scan true h.reverse t
      = (joined (opened f.length h ++ ofText n t)).map (token (f ++ h ++ t)) := by
  fun_induction ofText n t generalizing f h with
  | case1 n =>
    rw [scan_nil, List.reverse_reverse, ← token_opened f h [], List.append_nil (opened _ _),
      joined_opened]
  | case2 n t ih =>
    have hrest := ih (f := f ++ h ++ [.scalar '(']) (h := []) (by simp [hn, Nat.add_assoc])
    refine scan_mark (r := t) ?_ (by simpa [opened_nil] using hrest)
    rw [scan_separator (k := .opening) (r := t) rfl, List.reverse_reverse]
    rfl
  | case3 n t hopen ih =>
    have hrest := ih (f := f ++ h ++ [.scalar ')']) (h := []) (by simp [hn, Nat.add_assoc])
    refine scan_mark (r := t) ?_ (by simpa [opened_nil] using hrest)
    rw [scan_separator (k := .closing) (r := t) rfl, List.reverse_reverse]
    rfl
  | case4 n b t hopen hclose hb ih =>
    have hedge : isEdge b = true := by simp [isEdge, hb]
    rw [scan_free (separator?_blank hb true t), hedge, ← List.reverse_concat,
      ih (f := f) (h := h ++ [b]) (by simp [hn, Nat.add_assoc]), opened_append_blank hb]
    simp
  | case5 n c t hopen hclose hblank w =>
    rename_i ih
    have hc : isEdge c = false := by simp [isEdge, hopen, hclose, hblank]
    have hne : w ≠ [] := by simp [w, firstWord_cons hc]
    have hcut : c :: t = w ++ t.dropWhile (!isEdge ·) := (firstWord_append_rest hc t).symm
    cases hk : Token.ofWord? w with
    | some k =>
      have hrest := ih (f := f ++ h ++ w) (h := []) (by simp [hn, Nat.add_assoc])
      rw [ofWord, hk]
      refine scan_mark (r := t.dropWhile (!isEdge ·)) ?_ ?_
      · rw [scan_keyword_word hc hk, List.reverse_reverse]
      · simpa [opened_nil, ← hcut] using hrest
    | none =>
      have hrest := ih (f := f) (h := h ++ w) (by simp [hn, Nat.add_assoc])
      have hw : ∀ d ∈ w, d.isBlank = false := fun d hd => isBlank_firstWord hd
      rw [List.append_assoc f, List.append_assoc h, ← hcut] at hrest
      rw [ofWord, hk, hn, joined_opened_word hne hw, scan_free_word hc hk, ← List.reverse_append,
        List.append_assoc f, ← hn]
      exact hrest

end Lexeme

namespace Text

/-- The text without its blanks. -/
def solid (t : Text) : Text := t.filter (!·.isBlank)

@[simp]
theorem solid_append (s t : Text) : solid (s ++ t) = s.solid ++ t.solid := List.filter_append ..

theorem solid_of_isBlank {t : Text} (h : ∀ c ∈ t, c.isBlank = true) : t.solid = [] := by
  rw [solid, List.filter_eq_nil_iff]
  intro c hc
  simp [h c hc]

theorem solid_of_not_isBlank {t : Text} (h : ∀ c ∈ t, c.isBlank = false) : t.solid = t := by
  rw [solid, List.filter_eq_self]
  intro c hc
  simp [h c hc]

theorem solid_strip (t : Text) : t.strip.solid = t.solid := by
  obtain ⟨b, e, hcut, hb, he⟩ := t.exists_strip
  have h := congrArg solid hcut
  rw [solid_append, solid_append, solid_of_isBlank hb, solid_of_isBlank he, List.append_nil] at h
  exact h.symm

end Text

namespace Token

/-! ## All the signs -/

theorem solid_ofFreeText (h : Text) : Text.solid ((ofFreeText h).flatMap text) = h.solid := by
  rw [← Text.solid_strip h, ofFreeText]
  split
  · rename_i hnil
    rw [hnil]
    rfl
  · simp [text]

theorem solid_text_of_separator? {atEdge : Bool} {t r : Text} {k : Token}
    (h : separator? atEdge t = some (k, r)) :
    ∃ w, t.solid = w ++ r.solid ∧ w.sameLetters k.text.solid = true := by
  obtain ⟨w, rfl, hletters, hw, hk⟩ := separator?_eq_some h
  have hself : k.text.solid = k.text := by
    cases k with
    | opening | closing | and | or | not => rfl
    | term s => simp [isParenthesis, isKeyword] at hk
  exact ⟨w, by rw [Text.solid_append, Text.solid_of_not_isBlank hw], by rw [hself, hletters]⟩

/-- What is read and what was in hand are told again by the tokens. -/
theorem solid_scan (a : Bool) (held t : Text) :
    Text.sameLetters (Text.solid (held.reverse ++ t))
      (Text.solid ((scan a held t).flatMap text)) = true := by
  fun_induction scan a held t with
  | case1 a held t k r h _ ih =>
    obtain ⟨w, hcut, hw⟩ := solid_text_of_separator? h
    rw [Text.solid_append, hcut, List.flatMap_append, Text.solid_append, solid_ofFreeText,
      List.flatMap_cons, Text.solid_append]
    exact Text.sameLetters_append (Text.sameLetters_refl _) (Text.sameLetters_append hw ih)
  | case2 a held h =>
    rw [List.append_nil, solid_ofFreeText]
    exact Text.sameLetters_refl _
  | case3 a held c t h ih => rwa [List.append_cons, ← List.reverse_cons]

/-! ## Terms next to each other -/

def isTerm : Token → Bool
  | term _ => true
  | _ => false

theorem isTerm_of_separator? {atEdge : Bool} {t r : Text} {k : Token}
    (h : separator? atEdge t = some (k, r)) : k.isTerm = false := by
  cases k with
  | term s => exact absurd rfl (separator_ne_term h s)
  | opening | closing | and | or | not => rfl

/-- Between two terms stands what separates them. -/
theorem isChain_scan (a : Bool) (held t : Text) :
    (scan a held t).IsChain fun k k' => ¬(k.isTerm = true ∧ k'.isTerm = true) := by
  have hfree : ∀ h : Text,
      (ofFreeText h).IsChain fun k k' => ¬(k.isTerm = true ∧ k'.isTerm = true) := by
    intro h
    unfold ofFreeText
    split
    · exact .nil
    · exact .singleton _
  fun_induction scan a held t with
  | case1 a held t k r h _ ih =>
    have hk := isTerm_of_separator? h
    refine List.isChain_append.mpr ⟨hfree _, ?_, ?_⟩
    · refine List.isChain_cons.mpr ⟨?_, ih⟩
      intro k' _
      simp [hk]
    · intro k₀ _ k' hk'
      cases hk'
      simp [hk]
  | case2 a held h => exact hfree _
  | case3 a held c t h ih => exact ih

/-- **The tokens of a query are its parentheses and its words**, where free words with nothing but
blanks between them are one term, the slice of the query from the first to the last. Every sign that
is no blank comes back, keywords in upper case; no term holds a parenthesis or a word that spells a
keyword; and no two terms are next to each other. -/
theorem tokenize_eq_words (q : Text) :
    tokenize q = (Lexeme.joined (Lexeme.ofText 0 q)).map (Lexeme.token q) ∧
    q.solid.sameLetters (Text.solid ((tokenize q).flatMap text)) = true ∧
    (∀ s, .term s ∈ tokenize q → (∀ c ∈ s, c ≠ .scalar '(' ∧ c ≠ .scalar ')') ∧
      ∀ w, WordOf w s → ofWord? w = none) ∧
    (tokenize q).IsChain fun k k' => ¬(k.isTerm = true ∧ k'.isTerm = true) := by
  refine ⟨?_, solid_scan true [] q, ?_, isChain_scan true [] q⟩
  · exact Lexeme.scan_eq (f := []) (h := []) rfl
  · intro s hs
    obtain ⟨-, hwhole⟩ := undivided_of_mem_tokenize hs
    exact ⟨(undivided_iff.mp hwhole).1, fun w hw => hwhole.ofWord?_eq_none hw⟩

example : tokenize "black  cat AND(not or)android" = [.term "black  cat", .and, .opening, .not,
    .or, .closing, .term "android"] := by cbv

end Token

end GalleryScan
