import GalleryScan.Proofs.Query.Derivation
import GalleryScan.Proofs.Query.FreeText
import GalleryScan.Proofs.Text.Caseless

/-!
# Queries printed

A tree is printed with its terms between double quotes and its groups between parentheses. Read
again, that is the same tree, if some query was read to it in the first place. Two things could go
wrong. A term could fall apart: its text may hold quotes and blanks, and it may begin or end with a
word that spells a keyword once the quotes are gone that kept it one word. The new quotes are beside
such a word, and the words further inside are those of the query's own term, which was undivided
(`undivided_quoted`). And the tree could be joined otherwise: but the tokens of the print are those
of the query with other quotes, and what they spell goes by the rules one by one (`Spells.render`).
-/

set_option autoImplicit false

namespace GalleryScan

/-! ## Quotes -/

/-- The double quote, which a term is printed between. -/
def quote : CodePoint := .scalar '\x22'

theorem exists_unquoteFront (t : Text) : ∃ a, t = a ++ unquoteFront t := by
  cases t with
  | nil => exact ⟨[], rfl⟩
  | cons c t =>
    by_cases hc : isQuote c = true
    · exact ⟨[c], by simp [unquoteFront, hc]⟩
    · exact ⟨[], by simp [unquoteFront, hc]⟩

/-- A text without its quotes is a part of it. -/
theorem exists_unquote (t : Text) : ∃ a b, t = a ++ unquote t ++ b := by
  obtain ⟨a, ha⟩ := exists_unquoteFront t
  obtain ⟨b, hb⟩ := exists_unquoteFront (unquoteFront t).reverse
  have hback : unquoteFront t = unquote t ++ b.reverse := by
    have h := congrArg List.reverse hb
    rwa [List.reverse_reverse, List.reverse_append] at h
  refine ⟨a, b.reverse, ?_⟩
  rw [List.append_assoc, ← hback, ← ha]

theorem unquote_quoted (t : Text) : unquote (quote :: t ++ [quote]) = t := by
  have hquote : isQuote quote = true := rfl
  simp [unquote, unquoteFront, hquote]

namespace Token

theorem isEdge_quote : isEdge quote = false := rfl

/-- A word with a quote in it spells no keyword. -/
theorem ofWord?_of_quote {w : Text} (hw : quote ∈ w) : ofWord? w = none := by
  cases hk : ofWord? w with
  | none => rfl
  | some k =>
    obtain ⟨hkey, hletters⟩ := ofWord?_eq_some hk
    obtain ⟨d, hd, hsame⟩ := Text.mem_of_sameLetters hletters hw
    have hno : ∀ d ∈ k.text, quote.sameLetter d = false := by
      cases k with
      | and | or | not => decide
      | opening | closing | term => cases hkey
    rw [hno d hd] at hsame
    cases hsame

/-- A word that quotes follow has one in it, or it is over before them. -/
theorem ofWord?_before_quote {v : Text}
    (h : (∃ c ∈ v, isEdge c = true) → ofWord? (firstWord v) = none) :
    ofWord? (firstWord (v ++ [quote])) = none := by
  by_cases hv : ∃ c ∈ v, isEdge c = true
  · obtain ⟨c, hc, hedge⟩ := hv
    rw [firstWord_append_edge hc hedge]
    exact h ⟨c, hc, hedge⟩
  · have hword : ∀ c ∈ v, isEdge c = false := by
      intro c hc
      exact Bool.eq_false_iff.mpr fun hedge => hv ⟨c, hc, hedge⟩
    rw [firstWord_append hword, firstWord_cons isEdge_quote]
    exact ofWord?_of_quote (by simp)

/-- The words inside are words of the term, and the first and the last have a quote in them. -/
theorem undivided_quoted {s : Text} (hs : Undivided s []) :
    Undivided (quote :: unquote s ++ [quote]) [] := by
  obtain ⟨a, b, hcut⟩ := exists_unquote s
  obtain ⟨hparen, hkey⟩ := undivided_iff.mp hs
  refine undivided_iff.mpr ⟨?_, ?_⟩
  · intro c hc
    simp only [List.cons_append, List.mem_cons, List.mem_append, List.not_mem_nil, or_false] at hc
    rcases hc with rfl | hc | rfl
    · decide
    · exact hparen c (by rw [hcut]; simp [hc])
    · decide
  · intro u v huv hv hu
    -- The last quote is the end of what follows this place.
    obtain ⟨w, d, hwd⟩ := v.eq_nil_or_concat.resolve_left hv
    rw [List.concat_eq_append] at hwd
    rw [hwd, ← List.append_assoc] at huv
    obtain ⟨hplace, hd⟩ := List.append_inj' huv rfl
    cases hd
    rw [hwd, List.append_nil]
    refine ofWord?_before_quote ?_
    rintro ⟨x, hx, hedge⟩
    cases u with
    | nil =>
      rw [← show quote :: unquote s = w from hplace, firstWord_cons isEdge_quote]
      exact ofWord?_of_quote (by simp)
    | cons q u =>
      obtain ⟨rfl, hinside⟩ := List.cons.inj hplace
      have hne : u ≠ [] := by
        rintro rfl
        cases hu
      rw [← List.singleton_append, atEdge_append hne, ← atEdge_append (u := a) hne] at hu
      have hnone := hkey (a ++ u) (w ++ b) (by rw [hcut, hinside]; simp)
        (by simp [List.ne_nil_of_mem hx]) hu
      rwa [List.append_nil, firstWord_append_edge hx hedge] at hnone

theorem ofFreeText_quoted (t : Text) :
    ofFreeText (quote :: t ++ [quote]) = [.term (quote :: t ++ [quote])] := by
  have hquote : CodePoint.isBlank quote = false := rfl
  have hself : Text.strip (quote :: t ++ [quote]) = quote :: t ++ [quote] := by
    simp [Text.strip, Text.trim, hquote]
  rw [ofFreeText, hself, if_neg (by simp)]

end Token

namespace Expr

/-! ## Trees printed -/

/-- By induction on the rules: a term keeps its text, and what joins parts joins their prints. -/
theorem Spells.render {k : Level} {ts : List Token} {e : Expr} (h : Spells k ts e)
    (hterms : ∀ s, .term s ∈ ts → Token.Undivided s []) : Spells k (tokenize e.render) e := by
  induction h with
  | @term s hs =>
    have hself : tokenize (Expr.term (unquote s)).render
        = [.term (quote :: unquote s ++ [quote])] := by
      rw [show (Expr.term (unquote s)).render = quote :: unquote s ++ [quote] from rfl,
        Token.tokenize_of_undivided (Token.undivided_quoted (hterms s (by simp))),
        Token.ofFreeText_quoted]
    have hspells := Spells.term (t := quote :: unquote s ++ [quote]) (by rwa [unquote_quoted])
    rwa [unquote_quoted, ← hself] at hspells
  | @group ts e _ ih =>
    have htext : (Expr.group e).render = .scalar '(' :: e.render ++ .scalar ')' :: [] := rfl
    rw [htext, Token.tokenize_group, Token.tokenize_nil]
    exact .group (ih fun s hs => hterms s (by simp [hs]))
  | @not ts e _ ih =>
    have htext : (Expr.not e).render = Token.not.text ++ .scalar ' ' :: e.render := by
      simp [Expr.render, Token.text, Text.ofString]
    rw [htext, Token.tokenize_keyword rfl]
    exact .not (ih fun s hs => hterms s (by simp [hs]))
  | ofNot _ ih => exact .ofNot (ih hterms)
  | ofAnd _ ih => exact .ofAnd (ih hterms)
  | @and ts us l r _ _ ihl ihr =>
    have htext : (Expr.and l r).render
        = l.render ++ .scalar ' ' :: Token.and.text ++ .scalar ' ' :: r.render := by
      simp [Expr.render, Token.text, Text.ofString]
    rw [htext, Token.tokenize_joined rfl]
    exact .and (ihl fun s hs => hterms s (by simp [hs])) (ihr fun s hs => hterms s (by simp [hs]))
  | @or ts us l r _ _ ihl ihr =>
    have htext : (Expr.or l r).render
        = l.render ++ .scalar ' ' :: Token.or.text ++ .scalar ' ' :: r.render := by
      simp [Expr.render, Token.text, Text.ofString]
    rw [htext, Token.tokenize_joined rfl]
    exact .or (ihl fun s hs => hterms s (by simp [hs])) (ihr fun s hs => hterms s (by simp [hs]))

theorem isBlank_render (e : Expr) : e.render.isBlank = false := by
  induction e with
  | term t | not e _ | group e _ => rfl
  | and l r ihl _ | or l r ihl _ =>
    rw [Text.isBlank] at ihl ⊢
    simp only [render, List.all_append, ihl, Bool.false_and]

theorem compile?_eq_some_iff {q : Text} {e : Expr} :
    compile? q = .ok (some e) ↔ q.isBlank = false ∧ Spells .or (tokenize q) e := by
  cases hq : q.isBlank with
  | true => simp [compile?, hq]
  | false =>
    rw [compile?_of_not_blank hq, ← ofTokens_eq_ok_iff]
    cases ofTokens (tokenize q) <;> simp

/-- **A compiled query printed and compiled again is the same tree.** -/
theorem compile?_render {q : Text} {e : Expr} (h : compile? q = .ok (some e)) :
    compile? e.render = .ok (some e) := by
  obtain ⟨-, hspells⟩ := compile?_eq_some_iff.mp h
  refine compile?_eq_some_iff.mpr ⟨isBlank_render e, hspells.render ?_⟩
  intro s hs
  exact (Token.undivided_of_mem_tokenize hs).2

/-- At terms with a quote inside, with a keyword that quotes keep a word, and with a group. -/
theorem compile?_render_shielded :
    compile? "not 'cat\x22s  tail' or (\x22and x or elf)" = .ok (some
      (.or (.not (.term "cat\x22s  tail")) (.group (.or (.term "and x") (.term "elf"))))) ∧
    compile? "NOT \x22cat\x22s  tail\x22 OR (\x22and x\x22 OR \x22elf\x22)" = .ok (some
      (.or (.not (.term "cat\x22s  tail")) (.group (.or (.term "and x") (.term "elf"))))) := by
  have h : compile? "not 'cat\x22s  tail' or (\x22and x or elf)" = .ok (some
      (.or (.not (.term "cat\x22s  tail")) (.group (.or (.term "and x") (.term "elf"))))) := by
    cbv
  exact ⟨h, compile?_render h⟩

end Expr

end GalleryScan
