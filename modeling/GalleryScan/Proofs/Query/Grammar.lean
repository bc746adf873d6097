import GalleryScan.Query.Parser

/-!
# The grammar of queries

The readers of `Query/Parser` go through tokens from the left and say which rest they leave. Here
the same language is given by rules: which tokens spell which tree. A disjunction is conjunctions
joined by `OR`, a conjunction negations joined by `AND`, and both rules recur on the left, which is
what makes the trees lean to the left.

> **the readers follow the rules**: `ofTokens ts = .ok e ↔ Spells .or ts e`.

One direction needs to know what a reader consumed, the other what it does in front of a rest; each
is one lemma per reader, and neither looks at the proof that the rest is shorter, which `taken`
strips off.
-/

set_option autoImplicit false

namespace GalleryScan.Expr

/-- What binds tighter stands further down. -/
inductive Level where
  | or
  | and
  | not
  deriving DecidableEq

/-- These tokens spell this tree at this level. -/
inductive Spells : Level → List Token → Expr → Prop
  | term {t : Text} (h : unquote t ≠ []) : Spells .not [.term t] (.term (unquote t))
  | group {ts : List Token} {e : Expr} (h : Spells .or ts e) :
      Spells .not (.opening :: ts ++ [.closing]) (.group e)
  | not {ts : List Token} {e : Expr} (h : Spells .not ts e) : Spells .not (.not :: ts) (.not e)
  | ofNot {ts : List Token} {e : Expr} (h : Spells .not ts e) : Spells .and ts e
  | and {ts us : List Token} {l r : Expr} (hl : Spells .and ts l) (hr : Spells .not us r) :
      Spells .and (ts ++ .and :: us) (.and l r)
  | ofAnd {ts : List Token} {e : Expr} (h : Spells .and ts e) : Spells .or ts e
  | or {ts us : List Token} {l r : Expr} (hl : Spells .or ts l) (hr : Spells .and us r) :
      Spells .or (ts ++ .or :: us) (.or l r)

/-! ## The readers without the proofs that they carry -/

/-- What a reader took and left. -/
def taken {p : Expr × List Token → Prop} (x : Except QueryFault { r // p r }) :
    Except QueryFault (Expr × List Token) := x.map Subtype.val

theorem taken_readOr (ts : List Token) :
    taken (readOr ts) = (taken (readAnd ts)).bind fun x => taken (chainOr x.1 x.2) := by
  rw [readOr]
  cases readAnd ts with
  | error f => rfl
  | ok x =>
    obtain ⟨⟨l, r⟩, h⟩ := x
    cases hc : chainOr l r <;> simp [taken, bind, Except.bind, Except.map, hc]

theorem taken_readAnd (ts : List Token) :
    taken (readAnd ts) = (taken (readNot ts)).bind fun x => taken (chainAnd x.1 x.2) := by
  rw [readAnd]
  cases readNot ts with
  | error f => rfl
  | ok x =>
    obtain ⟨⟨l, r⟩, h⟩ := x
    cases hc : chainAnd l r <;> simp [taken, bind, Except.bind, Except.map, hc]

theorem taken_chainOr_or (l : Expr) (ts : List Token) :
    taken (chainOr l (.or :: ts))
      = (taken (readAnd ts)).bind fun x => taken (chainOr (.or l x.1) x.2) := by
  rw [chainOr]
  cases readAnd ts with
  | error f => rfl
  | ok x =>
    obtain ⟨⟨r, us⟩, h⟩ := x
    cases hc : chainOr (.or l r) us <;> simp [taken, bind, Except.bind, Except.map, hc]

theorem taken_chainAnd_and (l : Expr) (ts : List Token) :
    taken (chainAnd l (.and :: ts))
      = (taken (readNot ts)).bind fun x => taken (chainAnd (.and l x.1) x.2) := by
  rw [chainAnd]
  cases readNot ts with
  | error f => rfl
  | ok x =>
    obtain ⟨⟨r, us⟩, h⟩ := x
    cases hc : chainAnd (.and l r) us <;> simp [taken, bind, Except.bind, Except.map, hc]

theorem taken_chainOr_end (l : Expr) {ts : List Token} (h : ts.head? ≠ some .or) :
    taken (chainOr l ts) = .ok (l, ts) := by
  rw [chainOr.eq_def]
  split
  · exact absurd rfl h
  · rfl

theorem taken_chainAnd_end (l : Expr) {ts : List Token} (h : ts.head? ≠ some .and) :
    taken (chainAnd l ts) = .ok (l, ts) := by
  rw [chainAnd.eq_def]
  split
  · exact absurd rfl h
  · rfl

theorem taken_readNot_not (ts : List Token) :
    taken (readNot (.not :: ts)) = (taken (readNot ts)).map fun x => (.not x.1, x.2) := by
  rw [readNot]
  cases hr : readNot ts <;> simp [taken, bind, Except.bind, Except.map]

theorem taken_readNot_primary {ts : List Token} (h : ts.head? ≠ some .not) :
    taken (readNot ts) = taken (readPrimary ts) := by
  rw [readNot.eq_def]
  split
  · exact absurd rfl h
  · rfl

/-- A group after its opening parenthesis: what a disjunction leaves has to begin with the closing
one. -/
def closeGroup : Expr × List Token → Except QueryFault (Expr × List Token)
  | (e, .closing :: r) => .ok (.group e, r)
  | _ => .error .unbalanced

theorem taken_readPrimary_opening {ts : List Token} (h : ts.head? ≠ some .closing) :
    taken (readPrimary (.opening :: ts)) = (taken (readOr ts)).bind closeGroup := by
  rw [readPrimary]
  · cases readOr ts with
    | error f => rfl
    | ok x =>
      obtain ⟨⟨e, r⟩, hr⟩ := x
      simp only [taken, bind, Except.bind, Except.map]
      cases r with
      | nil => rfl
      | cons t r => cases t <;> rfl
  · intro us hu
    rw [hu] at h
    exact h rfl

theorem taken_readPrimary_term (t : Text) (ts : List Token) :
    taken (readPrimary (.term t :: ts))
      = if unquote t = [] then .error .emptyTag else .ok (.term (unquote t), ts) := by
  rw [readPrimary]
  split <;> rfl

theorem bind_eq_ok {x : Except QueryFault (Expr × List Token)}
    {f : Expr × List Token → Except QueryFault (Expr × List Token)} {z : Expr × List Token}
    (h : x.bind f = .ok z) : ∃ e r, x = .ok (e, r) ∧ f (e, r) = .ok z := by
  cases x with
  | error q => cases h
  | ok y => exact ⟨y.1, y.2, rfl, h⟩

/-! ## What a reader takes is spelled by the rules -/

/-- If this outcome of reading `ts` is a tree, then the tokens in front of the rest spell it. -/
def Follows (k : Level) (ts : List Token) (x : Except QueryFault (Expr × List Token)) : Prop :=
  ∀ e r, x = .ok (e, r) → ∃ us, ts = us ++ r ∧ Spells k us e

/-- A chain of operands at one level, joined by an operator to a tree at the next: how its reader
goes on at the operator, where it stops, and what the rules make of the join. -/
structure Chains (k k' : Level) (op : Token) (join : Expr → Expr → Expr)
    (operand : List Token → Except QueryFault (Expr × List Token))
    (chain : Expr → List Token → Except QueryFault (Expr × List Token)) : Prop where
  goes : ∀ l ts, chain l (op :: ts) = (operand ts).bind fun x => chain (join l x.1) x.2
  stops : ∀ l ts, ts.head? ≠ some op → chain l ts = .ok (l, ts)
  lifts : ∀ {us e}, Spells k' us e → Spells k us e
  joins : ∀ {ps us l e}, Spells k ps l → Spells k' us e → Spells k (ps ++ op :: us) (join l e)

theorem chains_and : Chains .and .not .and .and (fun ts => taken (readNot ts))
    (fun l ts => taken (chainAnd l ts)) :=
  ⟨taken_chainAnd_and, fun l _ h => taken_chainAnd_end l h, .ofNot, .and⟩

theorem chains_or : Chains .or .and .or .or (fun ts => taken (readAnd ts))
    (fun l ts => taken (chainOr l ts)) :=
  ⟨taken_chainOr_or, fun l _ h => taken_chainOr_end l h, .ofAnd, .or⟩

section Chain

variable {k k' : Level} {op : Token} {join : Expr → Expr → Expr}
  {operand : List Token → Except QueryFault (Expr × List Token)}
  {chain : Expr → List Token → Except QueryFault (Expr × List Token)}

/-- By induction on the tokens that are left: behind the tokens of the tree in hand stand those of
the operands that the chain has taken. -/
theorem Chains.follows (h : Chains k k' op join operand chain) : ∀ (ts : List Token)
    {ps : List Token} {l : Expr}, (∀ us, us.length < ts.length → Follows k' us (operand us)) →
      Spells k ps l → ∀ e r, chain l ts = .ok (e, r) →
        ∃ us, ts = us ++ r ∧ Spells k (ps ++ us) e := by
  intro ts
  obtain ⟨n, hn⟩ : ∃ n, n = ts.length := ⟨_, rfl⟩
  induction n using Nat.strongRecOn generalizing ts with
  | ind n ih =>
    subst hn
    intro ps l hoperand hl e r hr
    by_cases hts : ts.head? = some op
    · obtain ⟨ts', rfl⟩ := List.head?_eq_some_iff.mp hts
      rw [h.goes] at hr
      obtain ⟨e₁, r₁, h₁, h₂⟩ := bind_eq_ok hr
      obtain ⟨us, rfl, hus⟩ := hoperand ts' (by simp) e₁ r₁ h₁
      have hshort : r₁.length < (op :: (us ++ r₁)).length := by
        rw [List.length_cons, List.length_append]
        omega
      obtain ⟨vs, rfl, hvs⟩ := ih r₁.length hshort r₁ rfl
        (fun ws hws => hoperand ws (Nat.lt_trans hws hshort)) (h.joins hl hus) e r h₂
      exact ⟨op :: us ++ vs, by simp, by simpa using hvs⟩
    · rw [h.stops l ts hts] at hr
      cases hr
      exact ⟨[], rfl, by simpa using hl⟩

/-- An operand and the chain behind it. -/
theorem Chains.reader_follows (h : Chains k k' op join operand chain) {ts : List Token}
    (hoperand : ∀ us, us.length ≤ ts.length → Follows k' us (operand us)) :
    Follows k ts ((operand ts).bind fun x => chain x.1 x.2) := by
  intro e r hr
  obtain ⟨e₁, r₁, h₁, h₂⟩ := bind_eq_ok hr
  obtain ⟨us, rfl, hus⟩ := hoperand ts (Nat.le_refl _) e₁ r₁ h₁
  have hshort : ∀ ws : List Token, ws.length < r₁.length → ws.length ≤ (us ++ r₁).length := by
    intro ws hws
    rw [List.length_append]
    omega
  obtain ⟨vs, rfl, hvs⟩ := h.follows r₁ (fun ws hws => hoperand ws (hshort ws hws)) (h.lifts hus)
    e r h₂
  exact ⟨us ++ vs, (List.append_assoc ..).symm, hvs⟩

end Chain

theorem readAnd_follows {ts : List Token}
    (hnot : ∀ us, us.length ≤ ts.length → Follows .not us (taken (readNot us))) :
    Follows .and ts (taken (readAnd ts)) := by
  rw [taken_readAnd]
  exact chains_and.reader_follows hnot

theorem readOr_follows {ts : List Token}
    (hnot : ∀ us, us.length ≤ ts.length → Follows .not us (taken (readNot us))) :
    Follows .or ts (taken (readOr ts)) := by
  rw [taken_readOr]
  apply chains_or.reader_follows
  intro us hus
  exact readAnd_follows fun vs hvs => hnot vs (Nat.le_trans hvs hus)

/-- The innermost reader closes the circle: under a `NOT` and inside a group there are fewer
tokens. -/
theorem readNot_follows (ts : List Token) : Follows .not ts (taken (readNot ts)) := by
  obtain ⟨n, h⟩ : ∃ n, n = ts.length := ⟨_, rfl⟩
  induction n using Nat.strongRecOn generalizing ts with
  | ind n ih =>
    subst h
    intro e r hr
    cases ts with
    | nil =>
      rw [taken_readNot_primary (by simp), readPrimary] at hr
      cases hr
    | cons t ts =>
      cases t with
      | not =>
        rw [taken_readNot_not] at hr
        cases hn : taken (readNot ts) with
        | error f => rw [hn] at hr; cases hr
        | ok x =>
          rw [hn] at hr
          cases hr
          obtain ⟨us, rfl, hus⟩ := ih ts.length (by simp) ts rfl x.1 x.2 hn
          exact ⟨.not :: us, rfl, .not hus⟩
      | opening =>
        rw [taken_readNot_primary (by simp)] at hr
        by_cases hts : ts.head? = some .closing
        · obtain ⟨ts', rfl⟩ := List.head?_eq_some_iff.mp hts
          rw [readPrimary] at hr
          cases hr
        · rw [taken_readPrimary_opening hts] at hr
          obtain ⟨e₁, r₁, h₁, h₂⟩ := bind_eq_ok hr
          obtain ⟨us, rfl, hus⟩ :=
            readOr_follows (fun ws hws => ih ws.length (by simp; omega) ws rfl) e₁ r₁ h₁
          unfold closeGroup at h₂
          split at h₂
          · cases h₂
            exact ⟨.opening :: us ++ [.closing], by simp_all, .group (by simp_all)⟩
          · cases h₂
      | term t =>
        rw [taken_readNot_primary (by simp), taken_readPrimary_term] at hr
        split at hr
        · cases hr
        · cases hr
          exact ⟨[.term t], rfl, .term ‹_›⟩
      | closing | and | or =>
        rw [taken_readNot_primary (by simp), readPrimary] at hr
        all_goals first | cases hr | simp

/-! ## What the rules spell is taken -/

/-- No tree begins with the end of a group. -/
theorem Spells.head {k : Level} {ts : List Token} {e : Expr} (h : Spells k ts e) :
    ∃ t us, ts = t :: us ∧ t ≠ .closing := by
  induction h with
  | term | group | not => exact ⟨_, _, rfl, by simp⟩
  | ofNot _ ih | ofAnd _ ih => exact ih
  | and _ _ ih _ | or _ _ ih _ =>
    obtain ⟨t, us, rfl, ht⟩ := ih
    exact ⟨t, _, rfl, ht⟩

/-- How the reader of a level goes on in front of a rest, once it has passed these tokens: with the
tree in hand at the next operator of its own. -/
def Passes (k : Level) (ts : List Token) (e : Expr) : Prop :=
  match k with
  | .not => ∀ rest, taken (readNot (ts ++ rest)) = .ok (e, rest)
  | .and => ∀ rest, taken (readAnd (ts ++ rest)) = taken (chainAnd e rest)
  | .or => ∀ rest, rest.head? ≠ some .and →
      taken (readOr (ts ++ rest)) = taken (chainOr e rest)

/-- By induction on the rules, with one case for each. -/
theorem Spells.passes {k : Level} {ts : List Token} {e : Expr} (h : Spells k ts e) :
    Passes k ts e := by
  induction h with
  | term ht =>
    intro rest
    rw [List.cons_append, taken_readNot_primary (by simp), taken_readPrimary_term, if_neg ht]
    rfl
  | @group ts e h ih =>
    intro rest
    have hhead : (ts ++ (.closing :: rest)).head? ≠ some .closing := by
      obtain ⟨t, us, rfl, ht⟩ := h.head
      simpa using ht
    have htokens : (.opening :: ts ++ [.closing]) ++ rest
        = .opening :: (ts ++ .closing :: rest) := by simp
    rw [htokens, taken_readNot_primary (by simp), taken_readPrimary_opening hhead, ih _ (by simp),
      taken_chainOr_end _ (by simp)]
    rfl
  | not _ ih =>
    intro rest
    rw [List.cons_append, taken_readNot_not, ih rest]
    rfl
  | ofNot _ ih =>
    intro rest
    rw [taken_readAnd, ih rest]
    rfl
  | and _ _ ihl ihr =>
    intro rest
    rw [List.append_assoc, ihl, List.cons_append, taken_chainAnd_and, ihr rest]
    rfl
  | ofAnd _ ih =>
    intro rest hrest
    rw [taken_readOr, ih rest, taken_chainAnd_end _ hrest]
    rfl
  | or _ _ ihl ihr =>
    intro rest hrest
    rw [List.append_assoc, ihl _ (by simp), List.cons_append, taken_chainOr_or, ihr rest,
      taken_chainAnd_end _ hrest]
    rfl

/-! ## The whole list -/

/-- All the tokens have to be taken. -/
def whole : Expr × List Token → Except QueryFault Expr
  | (e, []) => .ok e
  | (_, t :: _) => .error (.unexpected t)

theorem ofTokens_eq (ts : List Token) : ofTokens ts = (taken (readOr ts)).bind whole := by
  rw [ofTokens]
  cases readOr ts with
  | error f => rfl
  | ok x =>
    obtain ⟨⟨e, r⟩, h⟩ := x
    cases r <;> rfl

/-- **The readers follow the rules**, and miss none of the trees that the rules give. -/
theorem ofTokens_eq_ok_iff {ts : List Token} {e : Expr} :
    ofTokens ts = .ok e ↔ Spells .or ts e := by
  rw [ofTokens_eq]
  constructor
  · intro h
    cases hr : taken (readOr ts) with
    | error f => rw [hr] at h; cases h
    | ok x =>
      obtain ⟨e', r⟩ := x
      rw [hr] at h
      cases r with
      | nil =>
        cases h
        obtain ⟨us, rfl, hus⟩ := readOr_follows (fun us _ => readNot_follows us) e [] hr
        simpa using hus
      | cons t r => cases h
  · intro h
    have hp : taken (readOr ts) = .ok (e, []) := by
      rw [← List.append_nil ts, h.passes [] (by simp), taken_chainOr_end _ (by simp)]
    rw [hp]
    rfl

end GalleryScan.Expr
