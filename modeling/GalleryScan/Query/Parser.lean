import GalleryScan.Query.Expr

/-!
# From tokens to an expression

`NOT` binds tighter than `AND`, and `AND` tighter than `OR`; both join to the left. Each reader
below takes an expression of its level from the front of the tokens and returns what is left,
which is shorter: that is why the reading ends.
-/

set_option autoImplicit false

namespace GalleryScan

inductive QueryFault where
  | unexpected (token : Token)
  | operandMissing
  | emptyGroup
  | unbalanced
  | emptyTag
  deriving DecidableEq

def QueryFault.reason : QueryFault → Text
  | unexpected t => "unexpected '" ++ t.text ++ "'"
  | operandMissing => "expression ends with an operator"
  | emptyGroup => "empty group"
  | unbalanced => "unbalanced parentheses"
  | emptyTag => "empty tag"

structure QueryError where
  query : Text
  fault : QueryFault

def QueryError.message (e : QueryError) : Text :=
  "Invalid logic syntax (" ++ e.fault.reason ++ "): \x22" ++ e.query ++ "\x22"

def isQuote (c : CodePoint) : Bool := c == .scalar '\x27' || c == .scalar '\x22'

def unquoteFront : Text → Text
  | [] => []
  | c :: t => if isQuote c then t else c :: t

/-- Without one quote at the front and one at the end. -/
def unquote (t : Text) : Text := (unquoteFront (unquoteFront t).reverse).reverse

namespace Expr

/-- An expression from the front of the tokens, and fewer tokens than there were. -/
abbrev Front (ts : List Token) :=
  Except QueryFault { r : Expr × List Token // r.2.length < ts.length }

/-- The rest of a chain of operators: it may take no token at all. -/
abbrev Chain (ts : List Token) :=
  Except QueryFault { r : Expr × List Token // r.2.length ≤ ts.length }

mutual

def readOr (ts : List Token) : Front ts := do
  let ⟨(l, r), h⟩ ← readAnd ts
  have h : r.length < ts.length := h
  let ⟨(e, r'), h'⟩ ← chainOr l r
  .ok ⟨(e, r'), by simp at h' ⊢; omega⟩
termination_by (ts.length, 5)

/-- The further conjunctions of a disjunction whose first ones make up `l`. -/
def chainOr (l : Expr) (ts : List Token) : Chain ts :=
  match ts with
  | .or :: ts => do
    let ⟨(r, ts'), h⟩ ← readAnd ts
    have h : ts'.length < ts.length := h
    let ⟨(e, ts''), h'⟩ ← chainOr (.or l r) ts'
    .ok ⟨(e, ts''), by simp at h' ⊢; omega⟩
  | ts => .ok ⟨(l, ts), Nat.le_refl _⟩
termination_by (ts.length, 0)

def readAnd (ts : List Token) : Front ts := do
  let ⟨(l, r), h⟩ ← readNot ts
  have h : r.length < ts.length := h
  let ⟨(e, r'), h'⟩ ← chainAnd l r
  .ok ⟨(e, r'), by simp at h' ⊢; omega⟩
termination_by (ts.length, 4)

/-- The further negations of a conjunction whose first ones make up `l`. -/
def chainAnd (l : Expr) (ts : List Token) : Chain ts :=
  match ts with
  | .and :: ts => do
    let ⟨(r, ts'), h⟩ ← readNot ts
    have h : ts'.length < ts.length := h
    let ⟨(e, ts''), h'⟩ ← chainAnd (.and l r) ts'
    .ok ⟨(e, ts''), by simp at h' ⊢; omega⟩
  | ts => .ok ⟨(l, ts), Nat.le_refl _⟩
termination_by (ts.length, 0)

/-- A primary under any number of `NOT`. -/
def readNot (ts : List Token) : Front ts :=
  match ts with
  | .not :: ts => do
    let ⟨(e, r), h⟩ ← readNot ts
    .ok ⟨(.not e, r), by simp at h ⊢; omega⟩
  | ts => readPrimary ts
termination_by (ts.length, 3)

/-- A term or a group. -/
def readPrimary (ts : List Token) : Front ts :=
  match ts with
  | [] => .error .operandMissing
  | .opening :: .closing :: _ => .error .emptyGroup
  | .opening :: ts => do
    let ⟨(e, r), h⟩ ← readOr ts
    match r, h with
    | .closing :: r, h => .ok ⟨(.group e, r), by simp at h ⊢; omega⟩
    | _, _ => .error .unbalanced
  | .term t :: r =>
    if unquote t = [] then .error .emptyTag
    else .ok ⟨(.term (unquote t), r), by simp⟩
  | t :: _ => .error (.unexpected t)
termination_by (ts.length, 2)

end

def ofTokens (ts : List Token) : Except QueryFault Expr := do
  let ⟨(e, r), _⟩ ← readOr ts
  match r with
  | [] => .ok e
  | t :: _ => .error (.unexpected t)

/-- The expression of a query; a blank query has none, and every prompt satisfies it. -/
def compile? (query : Text) : Except QueryError (Option Expr) :=
  if query.isBlank then .ok none
  else match ofTokens (tokenize query) with
    | .ok e => .ok (some e)
    | .error f => .error ⟨query, f⟩

end Expr

end GalleryScan
