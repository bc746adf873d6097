import GalleryScan.Proofs.Query.Occurrence
import GalleryScan.Proofs.Query.Printing
import GalleryScan.Proofs.Query.Vetoes
import GalleryScan.Proofs.Query.Words
import GalleryScan.Proofs.Text.Lowering
import GalleryScan.Query.Filter

/-!
# Filters in lower case

A query is cut in the same places, and its tokens spell the same tree, when its ASCII letters are in
another case. Only the case of the terms is different then, and the search for a term looks at no
case, neither the term's nor the prompt's:

> `p.lowered.occurs t.lowered = p.occurs t`

So filters made from texts that differ in the case of ASCII letters let the same prompts pass, in
whatever case these are.
-/

set_option autoImplicit false

namespace GalleryScan

open CodePoint (lower)

/-! ## Tokens -/

namespace Token

/-- The token with its term in lower case. -/
def lowered : Token → Token
  | term t => term t.lowered
  | k => k

theorem isEdge_lower (c : CodePoint) : isEdge c.lower = isEdge c :=
  CodePoint.lower_congr (by decide) c

theorem not_isEdge_lower (c : CodePoint) : (!isEdge c.lower) = !isEdge c := by
  rw [isEdge_lower]

theorem ofWord?_lowered (w : Text) : ofWord? w.lowered = ofWord? w := by
  unfold ofWord?
  rw [Text.sameLetters_lowered, Text.sameLetters_lowered, Text.sameLetters_lowered]

theorem firstWord_lowered (t : Text) : firstWord t.lowered = (firstWord t).lowered :=
  Text.takeWhile_lowered not_isEdge_lower t

theorem lower_eq_opening (c : CodePoint) : c.lower = .scalar '(' ↔ c = .scalar '(' :=
  CodePoint.lower_eq_iff (by decide) c

theorem lower_eq_closing (c : CodePoint) : c.lower = .scalar ')' ↔ c = .scalar ')' :=
  CodePoint.lower_eq_iff (by decide) c

theorem separator?_lowered (atEdge : Bool) (t : Text) : separator? atEdge t.lowered
    = (separator? atEdge t).map fun (k, r) => (k, r.lowered) := by
  cases t with
  | nil => rfl
  | cons c t =>
    have hword :
        ofWord? (firstWord (c.lower :: Text.lowered t)) = ofWord? (firstWord (c :: t)) := by
      rw [← Text.lowered_cons, firstWord_lowered, ofWord?_lowered]
    rw [Text.lowered_cons, separator?, separator?, if_congr (lower_eq_opening c) rfl rfl,
      if_congr (lower_eq_closing c) rfl rfl, hword, Text.dropWhile_lowered not_isEdge_lower]
    repeat' split
    · rfl
    · rfl
    · rw [Option.map_map]
      rfl
    · rfl

theorem lowered_of_isTerm {k : Token} (hk : k.isTerm = false) : k.lowered = k := by
  cases k with
  | term t => cases hk
  | opening | closing | and | or | not => rfl

theorem ofFreeText_lowered (held : Text) :
    ofFreeText held.lowered = (ofFreeText held).map lowered := by
  rw [ofFreeText, Text.strip_lowered, ofFreeText]
  by_cases hheld : held.strip = []
  · rw [if_pos hheld, if_pos (Text.lowered_eq_nil_iff.mpr hheld)]
    rfl
  · rw [if_neg hheld, if_neg (mt Text.lowered_eq_nil_iff.mp hheld)]
    rfl

theorem scan_lowered (atEdge : Bool) (held t : Text) :
    scan atEdge held.lowered t.lowered = (scan atEdge held t).map lowered := by
  fun_induction scan atEdge held t with
  | case1 atEdge held t k r h _ ih =>
    have hlow : separator? atEdge t.lowered = some (k, r.lowered) := by
      rw [separator?_lowered, h]
      rfl
    have ih' : scan k.isParenthesis [] r.lowered = _ := ih
    rw [scan_separator hlow, ih', ← Text.lowered_reverse, ofFreeText_lowered, List.map_append,
      List.map_cons, lowered_of_isTerm (isTerm_of_separator? h)]
  | case2 atEdge held h =>
    rw [← ofFreeText_lowered, Text.lowered_reverse]
    exact scan_nil atEdge held.lowered
  | case3 atEdge held c t h ih =>
    have hlow : separator? atEdge (c.lower :: Text.lowered t) = none := by
      rw [← Text.lowered_cons, separator?_lowered, h]
      rfl
    rw [Text.lowered_cons, scan_free hlow, isEdge_lower, ← Text.lowered_cons, ih]

theorem tokenize_lowered (q : Text) : tokenize q.lowered = (tokenize q).map lowered :=
  scan_lowered true [] q

end Token

/-! ## Quotes -/

theorem isQuote_lower (c : CodePoint) : isQuote c.lower = isQuote c :=
  CodePoint.lower_congr (by decide) c

theorem unquoteFront_lowered (t : Text) : unquoteFront t.lowered = (unquoteFront t).lowered := by
  cases t with
  | nil => rfl
  | cons c t =>
    rw [Text.lowered_cons, unquoteFront, unquoteFront, isQuote_lower]
    split <;> rfl

theorem unquote_lowered (t : Text) : unquote t.lowered = (unquote t).lowered := by
  rw [unquote, unquoteFront_lowered, ← Text.lowered_reverse, unquoteFront_lowered,
    ← Text.lowered_reverse, unquote]

/-! ## Trees -/

namespace Expr

/-- The tree with its terms in lower case. -/
def lowered : Expr → Expr
  | term t => term t.lowered
  | and l r => and l.lowered r.lowered
  | or l r => or l.lowered r.lowered
  | not e => not e.lowered
  | group e => group e.lowered

/-- A tree is as true as its lower case, if its terms are. -/
theorem eval_lowered {holds holds' : Text → Bool} (h : ∀ t : Text, holds' t.lowered = holds t)
    (e : Expr) : e.lowered.eval holds' = e.eval holds := by
  induction e with
  | term t => exact h t
  | and l r ihl ihr => rw [lowered, eval, eval, ihl, ihr]
  | or l r ihl ihr => rw [lowered, eval, eval, ihl, ihr]
  | not e ih => rw [lowered, eval, eval, ih]
  | group e ih => rw [lowered, eval, eval, ih]

section Parts

variable {ts ts' us : List Token} {k : Token}

/-- Only terms have another lower case. -/
theorem eq_of_lowered {k' : Token} (h : k'.lowered = k.lowered) (hk : k.isTerm = false) :
    k' = k := by
  cases k with
  | term t => cases hk
  | opening | closing | and | or | not => cases k' <;> first | rfl | cases h

theorem exists_cons (h : ts'.map Token.lowered = (k :: ts).map Token.lowered)
    (hk : k.isTerm = false) :
    ∃ us, ts' = k :: us ∧ us.map Token.lowered = ts.map Token.lowered := by
  obtain ⟨k', us, rfl, hk', hus⟩ := List.map_eq_cons_iff.mp h
  exact ⟨us, by rw [eq_of_lowered hk' hk], hus⟩

theorem exists_append (h : ts'.map Token.lowered = (ts ++ us).map Token.lowered) :
    ∃ ts'' us', ts' = ts'' ++ us' ∧ ts''.map Token.lowered = ts.map Token.lowered
      ∧ us'.map Token.lowered = us.map Token.lowered := by
  rw [List.map_append] at h
  exact List.map_eq_append_iff.mp h

/-- An operator between two parts, or the end of a group, stands where it stood. -/
theorem exists_joined (h : ts'.map Token.lowered = (ts ++ k :: us).map Token.lowered)
    (hk : k.isTerm = false) :
    ∃ ts'' us', ts' = ts'' ++ k :: us' ∧ ts''.map Token.lowered = ts.map Token.lowered
      ∧ us'.map Token.lowered = us.map Token.lowered := by
  obtain ⟨ts'', rest, rfl, hts, hrest⟩ := exists_append h
  obtain ⟨us', rfl, hus⟩ := exists_cons hrest hk
  exact ⟨ts'', us', rfl, hts, hus⟩

end Parts

/-- Tokens that differ in the case of their terms spell trees that do. -/
theorem Spells.recased {k : Level} {ts ts' : List Token} {e : Expr} (h : Spells k ts e)
    (hts : ts'.map Token.lowered = ts.map Token.lowered) :
    ∃ e', Spells k ts' e' ∧ e'.lowered = e.lowered := by
  induction h generalizing ts' with
  | @term t hsome =>
    obtain ⟨k', rest, rfl, hk, hrest⟩ := List.map_eq_cons_iff.mp hts
    obtain rfl := List.map_eq_nil_iff.mp hrest
    cases k' with
    | term s =>
      have hs : s.lowered = t.lowered := Token.term.inj hk
      have hunquoted : (unquote s).lowered = (unquote t).lowered := by
        rw [← unquote_lowered, hs, unquote_lowered]
      refine ⟨.term (unquote s), .term ?_, congrArg Expr.term hunquoted⟩
      rwa [Ne, ← Text.lowered_eq_nil_iff, hunquoted, Text.lowered_eq_nil_iff]
    | opening | closing | and | or | not => cases hk
  | group _ ih =>
    rw [List.cons_append] at hts
    obtain ⟨us, rfl, hus⟩ := exists_cons hts rfl
    obtain ⟨vs, ws, rfl, hvs, hws⟩ := exists_joined hus rfl
    obtain rfl := List.map_eq_nil_iff.mp hws
    obtain ⟨e', he', hlow⟩ := ih hvs
    exact ⟨.group e', .group he', congrArg Expr.group hlow⟩
  | not _ ih =>
    obtain ⟨us, rfl, hus⟩ := exists_cons hts rfl
    obtain ⟨e', he', hlow⟩ := ih hus
    exact ⟨.not e', .not he', congrArg Expr.not hlow⟩
  | ofNot _ ih =>
    obtain ⟨e', he', hlow⟩ := ih hts
    exact ⟨e', .ofNot he', hlow⟩
  | and _ _ ihl ihr =>
    obtain ⟨us, vs, rfl, hus, hvs⟩ := exists_joined hts rfl
    obtain ⟨l', hl', hl⟩ := ihl hus
    obtain ⟨r', hr', hr⟩ := ihr hvs
    exact ⟨.and l' r', .and hl' hr', congrArg₂ Expr.and hl hr⟩
  | ofAnd _ ih =>
    obtain ⟨e', he', hlow⟩ := ih hts
    exact ⟨e', .ofAnd he', hlow⟩
  | or _ _ ihl ihr =>
    obtain ⟨us, vs, rfl, hus, hvs⟩ := exists_joined hts rfl
    obtain ⟨l', hl', hl⟩ := ihl hus
    obtain ⟨r', hr', hr⟩ := ihr hvs
    exact ⟨.or l' r', .or hl' hr', congrArg₂ Expr.or hl hr⟩

theorem compile?_eq_none_iff {q : Text} : compile? q = .ok none ↔ q.isBlank = true := by
  constructor
  · intro h
    by_contra hq
    rw [compile?_of_not_blank (Bool.not_eq_true _ ▸ hq)] at h
    cases hread : ofTokens (tokenize q) <;> rw [hread] at h <;> cases h
  · intro hq
    rw [compile?, if_pos hq]

/-- Queries that differ in case compile to trees that do. -/
theorem compile?_recased {q q' : Text} (hq : q'.lowered = q.lowered) {x : Option Expr}
    (h : compile? q = .ok x) :
    ∃ x', compile? q' = .ok x' ∧ x'.map lowered = x.map lowered := by
  have hblank : q'.isBlank = q.isBlank := by
    rw [← Text.isBlank_lowered, hq, Text.isBlank_lowered]
  cases x with
  | none =>
    rw [compile?_eq_none_iff, ← hblank] at h
    exact ⟨none, compile?_eq_none_iff.mpr h, rfl⟩
  | some e =>
    obtain ⟨hsome, hspells⟩ := compile?_eq_some_iff.mp h
    have htokens : (tokenize q').map Token.lowered = (tokenize q).map Token.lowered := by
      rw [← Token.tokenize_lowered, hq, Token.tokenize_lowered]
    obtain ⟨e', he', hlow⟩ := hspells.recased htokens
    exact ⟨some e', compile?_eq_some_iff.mpr ⟨hblank.trans hsome, he'⟩, congrArg some hlow⟩

end Expr

/-! ## Terms in a prompt -/

namespace Pattern

/-- The pattern with its term in lower case. -/
def lowered (p : Pattern) : Pattern := { p with term := p.term.lowered }

theorem isBoundary_lower (before after : Option CodePoint) :
    CodePoint.isBoundary (before.map lower) (after.map lower)
      = CodePoint.isBoundary before after := by
  have hword : ∀ c : Option CodePoint, (c.map lower).any CodePoint.isWord = c.any CodePoint.isWord
    | none => rfl
    | some c => CodePoint.isWord_lower c
  rw [CodePoint.isBoundary, hword, hword, CodePoint.isBoundary]

/-- The boundary in front of a text. -/
theorem isBoundary_lowered (before : Option CodePoint) (t : Text) :
    CodePoint.isBoundary (before.map lower) t.lowered.head?
      = CodePoint.isBoundary before t.head? := by
  rw [Text.lowered_eq, List.head?_map, isBoundary_lower]

theorem passLetters_lowered (before : Option CodePoint) (cs t : Text) :
    passLetters (before.map lower) cs.lowered t.lowered
      = (passLetters before cs t).map fun (b, r) => (b.map lower, r.lowered) := by
  induction cs generalizing before t with
  | nil => rfl
  | cons c cs ih =>
    cases t with
    | nil => rfl
    | cons d t =>
      rw [Text.lowered_cons, Text.lowered_cons, passLetters, passLetters,
        CodePoint.sameLetter_lower]
      split
      · exact ih (some d) t
      · rfl

theorem ending?_lowered (plural : Bool) (before : Option CodePoint) (t : Text) :
    ending? plural (before.map lower) t.lowered = ending? plural before t := by
  have hplain : (if CodePoint.isBoundary (before.map lower) t.lowered.head? then some 0 else none)
      = if CodePoint.isBoundary before t.head? then some 0 else none := by
    rw [isBoundary_lowered]
  cases plural with
  | false => exact hplain
  | true =>
    cases t with
    | nil => exact hplain
    | cons c t =>
      have hs : CodePoint.sameLetter (.scalar 's') c.lower = CodePoint.sameLetter (.scalar 's') c :=
        CodePoint.sameLetter_lower (.scalar 's') c
      have hbehind : CodePoint.isBoundary (some c.lower) (Text.lowered t).head?
          = CodePoint.isBoundary (some c) t.head? := isBoundary_lowered (some c) t
      rw [Text.lowered_cons] at hplain ⊢
      rw [ending?, hs, hbehind, hplain, ending?]

theorem bare?_lowered (p : Pattern) (before : Option CodePoint) (t : Text) :
    p.lowered.bare? (before.map lower) t.lowered = p.bare? before t := by
  rw [bare?_eq, bare?_eq, lowered, passLetters_lowered, Option.bind_map]
  refine congrArg _ (funext fun (b, r) => ?_)
  dsimp only [Function.comp_apply]
  rw [ending?_lowered, Text.lowered_eq, List.length_map]

theorem length?_lowered (p : Pattern) (before : Option CodePoint) (t : Text) :
    p.lowered.length? (before.map lower) t.lowered = p.length? before t := by
  induction t generalizing before with
  | nil => exact p.bare?_lowered before []
  | cons c t ih =>
    rw [length?_cons, ← p.bare?_lowered, Text.lowered_cons, length?_cons, CodePoint.isDecimal_lower]
    rw [show some c.lower = (some c).map lower from rfl, ih]

theorem here?_lowered (p : Pattern) (before : Option CodePoint) (t : Text) :
    p.lowered.here? (before.map lower) t.lowered = p.here? before t := by
  rw [here?, isBoundary_lowered, length?_lowered, here?]

theorem findFrom_lowered (p : Pattern) (before : Option CodePoint) (t : Text) :
    p.lowered.findFrom (before.map lower) t.lowered = p.findFrom before t := by
  induction t generalizing before with
  | nil =>
    have hhere := p.here?_lowered before []
    rw [findFrom_nil, ← hhere]
    exact findFrom_nil _ _
  | cons c t ih =>
    have hhere := p.here?_lowered before (c :: t)
    rw [findFrom_cons, ← hhere, ← ih, Text.lowered_cons, findFrom_cons]
    rfl

theorem occurs_lowered (p : Pattern) (t : Text) : p.lowered.occurs t.lowered = p.occurs t :=
  congrArg Option.isSome (p.findFrom_lowered none t)

end Pattern

/-! ## Filters -/

theorem lower_eq_comma (c : CodePoint) : c.lower = .scalar ',' ↔ c = .scalar ',' :=
  CodePoint.lower_eq_iff (by decide) c

theorem exclusions_lowered (list : Text) :
    exclusions list.lowered = (exclusions list).map Pattern.lowered := by
  have hentry : (fun entry : Text => unquote entry.strip) ∘ Text.lowered
      = Text.lowered ∘ fun entry => unquote entry.strip := by
    funext entry
    rw [Function.comp_apply, Text.strip_lowered, unquote_lowered, Function.comp_apply]
  have hsome : (fun entry : Text => decide (entry ≠ [])) ∘ Text.lowered
      = fun entry => decide (entry ≠ []) := by
    funext entry
    rw [Function.comp_apply, decide_eq_decide, Ne, Text.lowered_eq_nil_iff]
  rw [exclusions, exclusions, Text.splitOn_lowered lower_eq_comma, List.map_map, hentry,
    ← List.map_map, List.filter_map, hsome, List.map_map, List.map_map]
  rfl

namespace Filter

variable {f f' : Filter} {p p' : Option Text}

theorem vetoes_eq (f : Filter) (t : Text) :
    f.vetoes t = (f.exclusions.map Pattern.lowered).any (·.occurs t.lowered) := by
  rw [vetoes, List.any_map]
  exact congrArg f.exclusions.any (funext fun x => (x.occurs_lowered t).symm)

theorem wants_eq (f : Filter) (t : Text) :
    f.wants t = (f.expression.map Expr.lowered).all
      fun e => e.eval fun s => (Pattern.including s).occurs t.lowered := by
  have hterm : ∀ s : Text, (Pattern.including s.lowered).occurs t.lowered
      = (Pattern.including s).occurs t := fun s => (Pattern.including s).occurs_lowered t
  rw [wants, Option.all_map]
  exact congrArg f.expression.all (funext fun e => (e.eval_lowered hterm).symm)

/-- Filters whose exclusions and trees differ in case let the same prompts pass, whatever case these
are in. -/
theorem accepts_congr (hx : f'.exclusions.map Pattern.lowered = f.exclusions.map Pattern.lowered)
    (he : f'.expression.map Expr.lowered = f.expression.map Expr.lowered)
    (hp : p'.map Text.lowered = p.map Text.lowered) : f'.accepts p' = f.accepts p := by
  have hprompt : (p'.getD []).lowered = (p.getD []).lowered := by
    have hget : ∀ p : Option Text, (p.getD []).lowered = (p.map Text.lowered).getD []
      | none => rfl
      | some _ => rfl
    rw [hget, hp, hget]
  rw [accepts, vetoes_eq, wants_eq, hx, he, hprompt, ← vetoes_eq, ← wants_eq, accepts]

/-- From queries and exclude lists that differ in case come filters that do. -/
theorem compile?_recased {q q' x x' : Text} (hq : q'.lowered = q.lowered)
    (hx : x'.lowered = x.lowered) (h : compile? q x = .ok f) :
    ∃ f', compile? q' x' = .ok f'
      ∧ f'.exclusions.map Pattern.lowered = f.exclusions.map Pattern.lowered
      ∧ f'.expression.map Expr.lowered = f.expression.map Expr.lowered := by
  obtain ⟨e, he, rfl⟩ := exists_tree h
  obtain ⟨e', he', hlow⟩ := Expr.compile?_recased hq he
  refine ⟨_, compile?_of_tree he' x', ?_, hlow⟩
  rw [← exclusions_lowered, hx, exclusions_lowered]

/-- A query, an exclude list and a prompt may be in any case: whether there is a filter, and what it
lets pass, is the same. -/
theorem accepts_recased {q q' x x' : Text} {p p' : Option Text} (hq : q.Recased q')
    (hx : x.Recased x') (hp : Option.Rel Text.Recased p p') :
    ((∃ f', compile? q' x' = .ok f') ↔ ∃ f, compile? q x = .ok f)
      ∧ ∀ f f', compile? q x = .ok f → compile? q' x' = .ok f' → f'.accepts p' = f.accepts p := by
  have hprompt : p'.map Text.lowered = p.map Text.lowered := by
    cases hp with
    | none => rfl
    | some h => exact congrArg some h.lowered.symm
  refine ⟨⟨?_, ?_⟩, ?_⟩
  · rintro ⟨f', hf'⟩
    obtain ⟨f, hf, -⟩ := compile?_recased hq.lowered hx.lowered hf'
    exact ⟨f, hf⟩
  · rintro ⟨f, hf⟩
    obtain ⟨f', hf', -⟩ := compile?_recased hq.lowered.symm hx.lowered.symm hf
    exact ⟨f', hf'⟩
  · intro f f' hf hf'
    obtain ⟨g, hg, hexclusions, hexpression⟩ :=
      compile?_recased hq.lowered.symm hx.lowered.symm hf
    obtain rfl : g = f' := Except.ok.inj (hg.symm.trans hf')
    exact accepts_congr hexclusions hexpression hprompt

/-- A term with its plural, keywords and an exclusion, each in two cases. -/
theorem accepts_recased_cats : ∃ f f', compile? "cat AND NOT elf" "dog, 'x'" = .ok f
    ∧ compile? "CAT aNd not Elf" "Dog, 'X'" = .ok f'
    ∧ f.accepts (some "2Cats, sit") = true ∧ f'.accepts (some "2cATS, Sit") = true := by
  have hf : compile? "cat AND NOT elf" "dog, 'x'" = .ok ⟨"cat AND NOT elf", "dog, 'x'",
      [.excluding "dog", .excluding "x"], some (.and (.term "cat") (.not (.term "elf")))⟩ := by
    cbv
  have hq : Text.Recased "cat AND NOT elf" "CAT aNd not Elf" := by decide
  have hx : Text.Recased "dog, 'x'" "Dog, 'X'" := by decide
  have hp : Option.Rel Text.Recased (some "2Cats, sit") (some "2cATS, Sit") := .some (by decide)
  obtain ⟨hcompiles, haccepts⟩ := accepts_recased hq hx hp
  obtain ⟨f', hf'⟩ := hcompiles.mpr ⟨_, hf⟩
  have htrue : accepts ⟨"cat AND NOT elf", "dog, 'x'", [.excluding "dog", .excluding "x"],
      some (.and (.term "cat") (.not (.term "elf")))⟩ (some "2Cats, sit") = true := by
    decide +kernel
  exact ⟨_, f', hf, hf', htrue, (haccepts _ f' hf hf').trans htrue⟩

end Filter

end GalleryScan
