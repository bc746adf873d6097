import GalleryScan.Proofs.Query.Grammar
import Mathlib.Data.List.Permutation

/-!
# Derivations of queries

The grammar of queries as it is written down has chains in it:

    or  := and (OR and)*
    and := not (AND not)*
    not := NOT not | TERM | ( or )

A derivation by it is a tree with flat chains, whose tokens are a sentence. Here that grammar is set
beside the compiled queries: a query that is not blank compiles where its tokens have a derivation
and no term in them is empty without its quotes, and the chains of the derivation then lean to the
left:

> `compile? q = .ok (some e) ↔ ∃ d, d.tokens = tokenize q ∧ … ∧ d.tree = e`

A sentence has one derivation, because each of the three kinds ends where its chain cannot go on.
-/

set_option autoImplicit false

namespace GalleryScan

/-- A token as it stands in a tree, where terms have lost their quotes. -/
def Token.unquoted : Token → Token
  | .term t => .term (unquote t)
  | k => k

/-- No term is empty without its quotes. -/
def Token.NoEmptyTerm (ts : List Token) : Prop := ∀ t, .term t ∈ ts → unquote t ≠ []

mutual

/-- Conjunctions with `OR` between each two. -/
inductive Disjunction where
  | of (first : Conjunction) (more : List Conjunction)

/-- Negations with `AND` between each two. -/
inductive Conjunction where
  | of (first : Negation) (more : List Negation)

/-- A term or a group under any number of `NOT`. -/
inductive Negation where
  | not (operand : Negation)
  | term (text : Text)
  | group (inner : Disjunction)

end

/-! ## The sentence of a derivation -/

mutual

def Disjunction.tokens : Disjunction → List Token
  | .of c cs => c.tokens ++ Disjunction.moreTokens cs

def Disjunction.moreTokens : List Conjunction → List Token
  | [] => []
  | c :: cs => .or :: (c.tokens ++ Disjunction.moreTokens cs)

def Conjunction.tokens : Conjunction → List Token
  | .of n ns => n.tokens ++ Conjunction.moreTokens ns

def Conjunction.moreTokens : List Negation → List Token
  | [] => []
  | n :: ns => .and :: (n.tokens ++ Conjunction.moreTokens ns)

def Negation.tokens : Negation → List Token
  | .not n => .not :: n.tokens
  | .term t => [.term t]
  | .group d => .opening :: d.tokens ++ [.closing]

end

/-! ## The tree of a derivation -/

mutual

/-- The tree in which both chains lean to the left. -/
def Disjunction.tree : Disjunction → Expr
  | .of c cs => (Disjunction.moreTrees cs).foldl .or c.tree

def Disjunction.moreTrees : List Conjunction → List Expr
  | [] => []
  | c :: cs => c.tree :: Disjunction.moreTrees cs

def Conjunction.tree : Conjunction → Expr
  | .of n ns => (Conjunction.moreTrees ns).foldl .and n.tree

def Conjunction.moreTrees : List Negation → List Expr
  | [] => []
  | n :: ns => n.tree :: Conjunction.moreTrees ns

def Negation.tree : Negation → Expr
  | .not n => .not n.tree
  | .term t => .term (unquote t)
  | .group d => .group d.tree

end

theorem Disjunction.moreTokens_append (cs ds : List Conjunction) :
    moreTokens (cs ++ ds) = moreTokens cs ++ moreTokens ds := by
  induction cs with
  | nil => rfl
  | cons c cs ih => rw [List.cons_append, moreTokens, moreTokens, ih]; simp

theorem Conjunction.moreTokens_append (ns ms : List Negation) :
    moreTokens (ns ++ ms) = moreTokens ns ++ moreTokens ms := by
  induction ns with
  | nil => rfl
  | cons n ns ih => rw [List.cons_append, moreTokens, moreTokens, ih]; simp

theorem Disjunction.moreTrees_eq_map (cs : List Conjunction) :
    moreTrees cs = cs.map Conjunction.tree := by
  induction cs with
  | nil => rfl
  | cons c cs ih => rw [moreTrees, ih, List.map_cons]

theorem Conjunction.moreTrees_eq_map (ns : List Negation) :
    moreTrees ns = ns.map Negation.tree := by
  induction ns with
  | nil => rfl
  | cons n ns ih => rw [moreTrees, ih, List.map_cons]

/-! ## A sentence has one derivation -/

/-- None of these operators comes next. -/
def Clear (ops rest : List Token) : Prop := ∀ op ∈ ops, rest.head? ≠ some op

theorem clear_nil (ops : List Token) : Clear ops [] := by
  intro op _ h
  cases h

theorem clear_cons {ops : List Token} {t : Token} (h : t ∉ ops) (ts : List Token) :
    Clear ops (t :: ts) := by
  intro op hop heq
  cases heq
  exact h hop

/-- The operands and their tokens in front of a rest tell each other apart, where none of these
operators goes on with the rest. -/
def Parted {α : Type} (tokens : α → List Token) (ops : List Token) (a : α) : Prop :=
  ∀ b u v, Clear ops u → Clear ops v → tokens a ++ u = tokens b ++ v → a = b ∧ u = v

section Chain

variable {α : Type} (tokens : α → List Token) {more : List α → List Token} {ops : List Token}
  {op : Token}

variable (hnil : more [] = []) (hcons : ∀ a as, more (a :: as) = op :: (tokens a ++ more as))

include hnil hcons

theorem clear_chain (hop : op ∉ ops) (as : List α) {r : List Token} (hr : Clear (op :: ops) r) :
    Clear ops (more as ++ r) := by
  cases as with
  | nil =>
    rw [hnil]
    exact fun o ho => hr o (List.mem_cons_of_mem _ ho)
  | cons a as =>
    rw [hcons]
    exact clear_cons hop _

/-- By induction on the chain: both chains go on at the operator and end where it does not come. -/
theorem parted_chain (hop : op ∉ ops) {as bs : List α}
    (hparted : ∀ a ∈ as, Parted tokens ops a) {r r' : List Token} (hr : Clear (op :: ops) r)
    (hr' : Clear (op :: ops) r') (h : more as ++ r = more bs ++ r') : as = bs ∧ r = r' := by
  induction as generalizing bs with
  | nil =>
    cases bs with
    | nil =>
      rw [hnil] at h
      exact ⟨rfl, h⟩
    | cons b bs =>
      rw [hnil, hcons] at h
      subst h
      exact absurd rfl (hr op (List.mem_cons_self ..))
  | cons a as ih =>
    cases bs with
    | nil =>
      rw [hnil, hcons] at h
      subst h
      exact absurd rfl (hr' op (List.mem_cons_self ..))
    | cons b bs =>
      rw [hcons, hcons, List.cons_append, List.cons_append, List.append_assoc, List.append_assoc,
        List.cons.injEq] at h
      obtain ⟨rfl, hrest⟩ := hparted a (List.mem_cons_self ..) b _ _
        (clear_chain tokens hnil hcons hop as hr) (clear_chain tokens hnil hcons hop bs hr') h.2
      obtain ⟨rfl, rfl⟩ := ih (fun c hc => hparted c (List.mem_cons_of_mem _ hc)) hrest
      exact ⟨rfl, rfl⟩

end Chain

mutual

theorem Disjunction.parted (d : Disjunction) : Parted Disjunction.tokens [.or, .and] d := by
  match d with
  | .of c cs =>
    rintro ⟨c', cs'⟩ u v hu hv h
    have hchain (cs : List Conjunction) {r : List Token} (hr : Clear [.or, .and] r) :
        Clear [.and] (Disjunction.moreTokens cs ++ r) :=
      clear_chain Conjunction.tokens rfl (fun _ _ => rfl) (by decide) cs hr
    rw [Disjunction.tokens, Disjunction.tokens, List.append_assoc, List.append_assoc] at h
    obtain ⟨rfl, hmore⟩ := Conjunction.parted c c' _ _ (hchain cs hu) (hchain cs' hv) h
    obtain ⟨rfl, rfl⟩ := parted_chain Conjunction.tokens rfl (fun _ _ => rfl)
      (by decide) (fun a _ => Conjunction.parted a) hu hv hmore
    exact ⟨rfl, rfl⟩

theorem Conjunction.parted (c : Conjunction) : Parted Conjunction.tokens [.and] c := by
  match c with
  | .of n ns =>
    rintro ⟨n', ns'⟩ u v hu hv h
    have hchain (ns : List Negation) {r : List Token} (hr : Clear [.and] r) :
        Clear [] (Conjunction.moreTokens ns ++ r) :=
      clear_chain Negation.tokens rfl (fun _ _ => rfl) (by decide) ns hr
    rw [Conjunction.tokens, Conjunction.tokens, List.append_assoc, List.append_assoc] at h
    obtain ⟨rfl, hmore⟩ := Negation.parted n n' _ _ (hchain ns hu) (hchain ns' hv) h
    obtain ⟨rfl, rfl⟩ := parted_chain Negation.tokens rfl (fun _ _ => rfl)
      (by decide) (fun a _ => Negation.parted a) hu hv hmore
    exact ⟨rfl, rfl⟩

theorem Negation.parted (n : Negation) : Parted Negation.tokens [] n := by
  match n with
  | .not n =>
    intro m u v hu hv h
    cases m with
    | not m =>
      obtain ⟨rfl, rfl⟩ := Negation.parted n m u v hu hv (List.cons.inj h).2
      exact ⟨rfl, rfl⟩
    | term t => cases (List.cons.inj h).1
    | group d => cases (List.cons.inj h).1
  | .term t =>
    intro m u v hu hv h
    cases m with
    | not m => cases (List.cons.inj h).1
    | term s =>
      cases h
      exact ⟨rfl, rfl⟩
    | group d => cases (List.cons.inj h).1
  | .group d =>
    intro m u v hu hv h
    cases m with
    | not m => cases (List.cons.inj h).1
    | term t => cases (List.cons.inj h).1
    | group e =>
      rw [Negation.tokens, Negation.tokens, List.cons_append, List.cons_append, List.append_assoc,
        List.append_assoc] at h
      -- Neither chain goes on at the closing parenthesis.
      have hclosing : ∀ r, Clear [.or, .and] ([.closing] ++ r) := fun r => clear_cons (by decide) r
      obtain ⟨rfl, hrest⟩ :=
        Disjunction.parted d e _ _ (hclosing u) (hclosing v) (List.cons.inj h).2
      exact ⟨rfl, (List.cons.inj hrest).2⟩

end

theorem Disjunction.tokens_injective {d d' : Disjunction} (h : d.tokens = d'.tokens) : d = d' := by
  have hnil := clear_nil [.or, .and]
  exact (d.parted d' [] [] hnil hnil (by rw [h])).1

/-! ## Derivations and rules -/

namespace Expr

/-- What the rules spell has a derivation of the same tree, at each level. -/
def Derived (ts : List Token) (e : Expr) : Level → Prop
  | .or => ∃ d : Disjunction, d.tokens = ts ∧ d.tree = e
  | .and => ∃ c : Conjunction, c.tokens = ts ∧ c.tree = e
  | .not => ∃ n : Negation, n.tokens = ts ∧ n.tree = e

/-- By induction on the rules. One that recurs on the left adds the last operand of a chain. -/
theorem Spells.derived {k : Level} {ts : List Token} {e : Expr} (h : Spells k ts e) :
    Derived ts e k := by
  induction h with
  | @term t _ => exact ⟨.term t, rfl, rfl⟩
  | group _ ih =>
    obtain ⟨d, rfl, rfl⟩ := ih
    exact ⟨.group d, rfl, rfl⟩
  | not _ ih =>
    obtain ⟨n, rfl, rfl⟩ := ih
    exact ⟨.not n, rfl, rfl⟩
  | ofNot _ ih =>
    obtain ⟨n, rfl, rfl⟩ := ih
    exact ⟨.of n [], List.append_nil _, rfl⟩
  | and _ _ ihl ihr =>
    obtain ⟨⟨n, ns⟩, rfl, rfl⟩ := ihl
    obtain ⟨m, rfl, rfl⟩ := ihr
    refine ⟨.of n (ns ++ [m]), ?_, ?_⟩
    · simp [Conjunction.tokens, Conjunction.moreTokens, Conjunction.moreTokens_append]
    · simp [Conjunction.tree, Conjunction.moreTrees_eq_map]
  | ofAnd _ ih =>
    obtain ⟨c, rfl, rfl⟩ := ih
    exact ⟨.of c [], List.append_nil _, rfl⟩
  | or _ _ ihl ihr =>
    obtain ⟨⟨c, cs⟩, rfl, rfl⟩ := ihl
    obtain ⟨c', rfl, rfl⟩ := ihr
    refine ⟨.of c (cs ++ [c']), ?_, ?_⟩
    · simp [Disjunction.tokens, Disjunction.moreTokens, Disjunction.moreTokens_append]
    · simp [Disjunction.tree, Disjunction.moreTrees_eq_map]

/-- The terms of a sentence are those of its parts. -/
theorem noEmptyTerm_append {ts us : List Token} :
    Token.NoEmptyTerm (ts ++ us) ↔ Token.NoEmptyTerm ts ∧ Token.NoEmptyTerm us := by
  simp only [Token.NoEmptyTerm, List.mem_append, or_imp, forall_and]

theorem noEmptyTerm_cons {k : Token} {ts : List Token} (h : Token.NoEmptyTerm (k :: ts)) :
    Token.NoEmptyTerm ts := fun t ht => h t (List.mem_cons_of_mem _ ht)

theorem Spells.noEmptyTerm {k : Level} {ts : List Token} {e : Expr} (h : Spells k ts e) :
    Token.NoEmptyTerm ts := by
  induction h with
  | @term s hs =>
    intro t ht
    cases List.mem_singleton.mp ht
    exact hs
  | group _ ih => simpa [Token.NoEmptyTerm] using ih
  | not _ ih => simpa [Token.NoEmptyTerm] using ih
  | ofNot _ ih | ofAnd _ ih => exact ih
  | and _ _ ihl ihr | or _ _ ihl ihr =>
    exact noEmptyTerm_append.mpr ⟨ihl, by simpa [Token.NoEmptyTerm] using ihr⟩

/-- A chain is spelled by the rule that recurs on the left: the tree in hand takes in one operand
after the other. -/
theorem spells_chain {α : Type} {tokens : α → List Token} {more : List α → List Token}
    {tree : α → Expr} {k k' : Level} {op : Token} {join : Expr → Expr → Expr}
    (hnil : more [] = []) (hcons : ∀ a as, more (a :: as) = op :: (tokens a ++ more as))
    (hjoin : ∀ {ts us l r}, Spells k ts l → Spells k' us r → Spells k (ts ++ op :: us) (join l r))
    {as : List α} (has : ∀ a ∈ as, Token.NoEmptyTerm (tokens a) → Spells k' (tokens a) (tree a))
    (hterms : Token.NoEmptyTerm (more as)) {ts : List Token} {e : Expr} (h : Spells k ts e) :
    Spells k (ts ++ more as) ((as.map tree).foldl join e) := by
  induction as generalizing ts e with
  | nil =>
    rw [hnil, List.append_nil]
    exact h
  | cons a as ih =>
    rw [hcons] at hterms ⊢
    obtain ⟨ha, hmore⟩ := noEmptyTerm_append.mp (noEmptyTerm_cons hterms)
    have hstep := hjoin h (has a (List.mem_cons_self ..) ha)
    have := ih (fun b hb => has b (List.mem_cons_of_mem _ hb)) hmore hstep
    rwa [List.append_assoc, List.cons_append] at this

end Expr

open GalleryScan.Expr in
mutual

theorem Disjunction.spells (d : Disjunction) (h : Token.NoEmptyTerm d.tokens) :
    Spells .or d.tokens d.tree := by
  match d with
  | .of c cs =>
    obtain ⟨hc, hcs⟩ := noEmptyTerm_append.mp h
    rw [Disjunction.tokens, Disjunction.tree, Disjunction.moreTrees_eq_map]
    exact spells_chain rfl (fun _ _ => rfl) .or (fun a _ => Conjunction.spells a) hcs
      (.ofAnd (Conjunction.spells c hc))

theorem Conjunction.spells (c : Conjunction) (h : Token.NoEmptyTerm c.tokens) :
    Spells .and c.tokens c.tree := by
  match c with
  | .of n ns =>
    obtain ⟨hn, hns⟩ := noEmptyTerm_append.mp h
    rw [Conjunction.tokens, Conjunction.tree, Conjunction.moreTrees_eq_map]
    exact spells_chain rfl (fun _ _ => rfl) .and (fun a _ => Negation.spells a) hns
      (.ofNot (Negation.spells n hn))

theorem Negation.spells (n : Negation) (h : Token.NoEmptyTerm n.tokens) :
    Spells .not n.tokens n.tree := by
  match n with
  | .not n => exact .not (Negation.spells n (noEmptyTerm_cons h))
  | .term t => exact .term (h t (List.mem_singleton_self _))
  | .group d => exact .group (Disjunction.spells d (noEmptyTerm_append.mp (noEmptyTerm_cons h)).1)

end

namespace Expr

/-- The rules spell the trees of derivations. -/
theorem spells_iff_derived {ts : List Token} {e : Expr} : Spells .or ts e ↔
    ∃ d : Disjunction, d.tokens = ts ∧ Token.NoEmptyTerm ts ∧ d.tree = e := by
  constructor
  · intro h
    obtain ⟨d, hd, he⟩ := h.derived
    exact ⟨d, hd, h.noEmptyTerm, he⟩
  · rintro ⟨d, rfl, hterms, rfl⟩
    exact d.spells hterms

/-- A tree spells out its sentence: its tokens are those that it was read from, terms without their
quotes. -/
theorem Spells.tokens {k : Level} {ts : List Token} {e : Expr} (h : Spells k ts e) :
    e.tokens = ts.map Token.unquoted := by
  induction h with
  | term => rfl
  | group _ ih => simp [Expr.tokens, ih, Token.unquoted]
  | not _ ih => simp [Expr.tokens, ih, Token.unquoted]
  | ofNot _ ih | ofAnd _ ih => exact ih
  | and _ _ ihl ihr | or _ _ ihl ihr => simp [Expr.tokens, ihl, ihr, Token.unquoted]

/-! ## Compiled queries -/

/-- A query that is not blank has an expression or an error that names it. -/
theorem compile?_of_not_blank {q : Text} (hq : q.isBlank = false) :
    compile? q = match ofTokens (tokenize q) with
      | .ok e => .ok (some e)
      | .error f => .error ⟨q, f⟩ := by
  rw [compile?]
  exact if_neg (by simp [hq])

/-- A query that is not blank compiles to the tree of its derivation, where it has one whose terms
are not empty without their quotes; there is at most one; the tree spells out the query; and every
other query has an error. -/
theorem compile?_follows_derivation {q : Text} (hq : q.isBlank = false) :
    (∀ e, compile? q = .ok (some e) ↔
      ∃ d : Disjunction, d.tokens = tokenize q ∧ Token.NoEmptyTerm (tokenize q) ∧ d.tree = e)
    ∧ (∀ d d' : Disjunction, d.tokens = tokenize q → d'.tokens = tokenize q → d = d')
    ∧ (∀ e, compile? q = .ok (some e) → e.tokens = (tokenize q).map Token.unquoted)
    ∧ ((¬ ∃ e, compile? q = .ok (some e)) → ∃ fault, compile? q = .error ⟨q, fault⟩) := by
  have hcompiles : ∀ e, compile? q = .ok (some e) ↔ Spells .or (tokenize q) e := by
    intro e
    rw [compile?_of_not_blank hq, ← ofTokens_eq_ok_iff]
    cases ofTokens (tokenize q) with
    | ok e' => simp
    | error fault => simp
  refine ⟨?_, ?_, ?_, ?_⟩
  · intro e
    rw [hcompiles e, spells_iff_derived]
  · intro d d' hd hd'
    exact Disjunction.tokens_injective (hd.trans hd'.symm)
  · intro e he
    exact ((hcompiles e).mp he).tokens
  · intro hno
    rw [compile?_of_not_blank hq] at hno ⊢
    cases hread : ofTokens (tokenize q) with
    | ok e =>
      rw [hread] at hno
      exact absurd ⟨e, rfl⟩ hno
    | error fault => exact ⟨fault, rfl⟩

/-- At a query with a group and quotes, and at one that is no sentence. -/
theorem compile?_follows_derivation_cat_elf :
    (∃ e, compile? "not cat or (elf and 'a b')" = .ok (some e)
      ∧ e.tokens = (tokenize "not cat or (elf and 'a b')").map Token.unquoted)
    ∧ ∃ fault, compile? "(cat or ''" = .error ⟨"(cat or ''", fault⟩ := by
  obtain ⟨hsentence, -, htokens, -⟩ :=
    compile?_follows_derivation (q := "not cat or (elf and 'a b')") (by decide)
  obtain ⟨-, -, -, hother⟩ := compile?_follows_derivation (q := "(cat or ''") (by decide)
  have hd : compile? "not cat or (elf and 'a b')"
      = .ok (some (.or (.not (.term "cat")) (.group (.and (.term "elf") (.term "a b"))))) := by
    cbv
  refine ⟨⟨_, hd, htokens _ hd⟩, hother ?_⟩
  rintro ⟨e, he⟩
  have hfault : compile? "(cat or ''" = .error ⟨"(cat or ''", .emptyTag⟩ := by cbv
  rw [hfault] at he
  cases he

end Expr

end GalleryScan
