import GalleryScan.Json.Value
import GalleryScan.Number.Whole

/-!
# Reading JSON

Each reader takes what it reads from the front of the text and returns what is left, which is
shorter. A fault remembers how much of the text was left where it lies, so that its place can be
told afterwards in lines and columns. Beside what the format's standard has, the three words for
numbers that are none are read, and of two members of one name the last value counts.
-/

set_option autoImplicit false

namespace GalleryScan

inductive JsonFault where
  | value
  | memberName
  | colon
  | comma
  | trailing
  | openText
  | control
  | escape
  | unicodeEscape
  | byteOrderMark
  deriving DecidableEq

def JsonFault.text : JsonFault → Text
  | value => "Expecting value"
  | memberName => "Expecting property name enclosed in double quotes"
  | colon => "Expecting ':' delimiter"
  | comma => "Expecting ',' delimiter"
  | trailing => "Extra data"
  | openText => "Unterminated string starting at"
  | control => "Invalid control character at"
  | escape => "Invalid \\escape"
  | unicodeEscape => "Invalid \\uXXXX escape"
  | byteOrderMark => "Unexpected UTF-8 BOM (decode using utf-8-sig)"

/-- What stops a reading: a fault with the number of code points left at its place, or a whole
number of too many digits. -/
inductive JsonStop where
  | fault (kind : JsonFault) (left : Nat)
  | tooLong (digits : Nat)

inductive JsonError where
  | malformed (kind : JsonFault) (line column position : Nat)
  | tooLong (digits : Nat)

def JsonError.message : JsonError → Text
  | malformed kind line column position =>
    kind.text ++ ": line " ++ Text.ofNat line ++ " column " ++ Text.ofNat column
      ++ " (char " ++ Text.ofNat position ++ ")"
  | tooLong digits => Whole.tooLongMessage digits

namespace Json

/-- What is read from the front of a text, and a shorter rest. -/
abbrev Front (α : Type) (t : Text) := Except JsonStop { r : α × Text // r.2.length < t.length }

/-- What is read from the front of a text, and a rest that is no longer. -/
abbrev Rest (α : Type) (t : Text) := Except JsonStop { r : α × Text // r.2.length ≤ t.length }

/-- The four blanks of the format. -/
def isSpace (c : CodePoint) : Bool :=
  c = .scalar ' ' || c = .scalar '\t' || c = .scalar '\n' || c = .scalar '\r'

/-- Without blanks at the front. -/
def skip (t : Text) : Text := t.dropWhile isSpace

theorem skip_length (t : Text) : (skip t).length ≤ t.length :=
  (List.dropWhile_suffix _).length_le

/-! ## Texts -/

/-- The number that four hexadecimal digits form. -/
def hex4? : Text → Option Nat
  | [a, b, c, d] => do
    let a ← a.hexValue?
    let b ← b.hexValue?
    let c ← c.hexValue?
    let d ← d.hexValue?
    return ((a * 16 + b) * 16 + c) * 16 + d
  | _ => none

/-- The four digits of an escape whose `u` has just been read, with something after them, for no
text ends in an escape. `left` is what was left at the `u`. -/
def readHex (left : Nat) (t : Text) : Except JsonStop Nat :=
  if t.length < 5 then .error (.fault .unicodeEscape left)
  else match hex4? (t.take 4) with
    | some n => .ok n
    | none => .error (.fault .unicodeEscape left)

def isLeading (n : Nat) : Bool := 0xD800 ≤ n && n < 0xDC00

def isTrailing (n : Nat) : Bool := 0xDC00 ≤ n && n < 0xE000

/-- The character of a pair of surrogates. -/
def pair (high low : Nat) : Nat := 0x10000 + (high - 0xD800) * 0x400 + (low - 0xDC00)

/-- A character by its number, after its `u`: where a leading surrogate is followed by the escape
of a trailing one, both make one character. -/
def readUnicode (left : Nat) (t : Text) : Rest CodePoint t := do
  let n ← readHex left t
  let alone := ⟨(CodePoint.ofNat n, t.drop 4), by simp⟩
  if isLeading n && decide (10 < t.length) then
    match t.drop 4 with
    | .scalar '\\' :: .scalar 'u' :: t' =>
      let m ← readHex (t'.length + 1) t'
      if isTrailing m then .ok ⟨(CodePoint.ofNat (pair n m), t.drop 10), by simp⟩ else .ok alone
    | _ => .ok alone
  else .ok alone

/-- The code point of a one-letter escape. -/
def escaped? (c : CodePoint) : Option CodePoint :=
  if c = .scalar '\x22' ∨ c = .scalar '\\' ∨ c = .scalar '/' then some c
  else if c = .scalar 'b' then some (.scalar '\x08')
  else if c = .scalar 'f' then some (.scalar '\x0c')
  else if c = .scalar 'n' then some (.scalar '\n')
  else if c = .scalar 'r' then some (.scalar '\r')
  else if c = .scalar 't' then some (.scalar '\t')
  else none

/-- The rest of a text after its opening quote. `left` is what was left at that quote. -/
def readText (left : Nat) (t : Text) : Front Text t :=
  match t with
  | [] => .error (.fault .openText left)
  | c :: t =>
    if c = .scalar '\x22' then .ok ⟨([], t), Nat.lt_succ_self _⟩
    else if c = .scalar '\\' then
      match t with
      | [] => .error (.fault .openText left)
      | d :: t =>
        if d = .scalar 'u' then do
          let ⟨(x, r), h⟩ ← readUnicode (t.length + 1) t
          have h : r.length ≤ t.length := h
          let ⟨(xs, r'), h'⟩ ← readText left r
          .ok ⟨(x :: xs, r'), Nat.lt_add_right 2 (Nat.lt_of_lt_of_le h' h)⟩
        else match escaped? d with
          | none => .error (.fault .escape (t.length + 2))
          | some x => do
            let ⟨(xs, r), h⟩ ← readText left t
            .ok ⟨(x :: xs, r), Nat.lt_add_right 2 h⟩
    else if c.val < 32 then .error (.fault .control (t.length + 1))
    else do
      let ⟨(xs, r), h⟩ ← readText left t
      .ok ⟨(c :: xs, r), Nat.lt_add_right 1 h⟩
termination_by t.length
decreasing_by all_goals grind

/-! ## Numbers and words -/

def digitsValue (ds : Text) : Nat := ds.foldl (fun n c => 10 * n + (c.val - 48)) 0

/-- The digits after a point; a point without digits is no part of the number. -/
def readFraction : Text → Option Text × Text
  | .scalar '.' :: t =>
    let ds := t.takeWhile CodePoint.isAsciiDigit
    if ds = [] then (none, .scalar '.' :: t) else (some ds, t.dropWhile CodePoint.isAsciiDigit)
  | t => (none, t)

/-- Digits with a sign before them, if there are any. -/
def readSigned (t : Text) : Option (Int × Text) :=
  let (negative, t) : Bool × Text := match t with
    | .scalar '-' :: t => (true, t)
    | .scalar '+' :: t => (false, t)
    | t => (false, t)
  let ds := t.takeWhile CodePoint.isAsciiDigit
  if ds = [] then none
  else
    let n : Int := digitsValue ds
    some (if negative then -n else n, t.dropWhile CodePoint.isAsciiDigit)

/-- An exponent; a letter without digits is no part of the number. -/
def readExponent : Text → Option Int × Text
  | c :: t =>
    if c = .scalar 'e' ∨ c = .scalar 'E' then
      match readSigned t with
      | some (e, r) => (some e, r)
      | none => (none, c :: t)
    else (none, c :: t)
  | [] => (none, [])

/-- The number of whole digits `ds`, followed by a fraction and an exponent where there are any. -/
def readNumber (negative : Bool) (ds t : Text) : Except JsonStop (Json × Text) :=
  let (fraction, t₁) := readFraction t
  let (exponent, t₂) := readExponent t₁
  match fraction, exponent with
  | none, none =>
    if Whole.maxDigits < ds.length then .error (.tooLong ds.length)
    else
      let n : Int := digitsValue ds
      .ok (.int (if negative then -n else n), t₂)
  | _, _ =>
    let fs := fraction.getD []
    let x := Double.ofDecimal negative (digitsValue (ds ++ fs)) (exponent.getD 0 - fs.length)
    .ok (.real x, t₂)

/-- The whole digits at the front of a number: a zero stands alone. -/
def wholeDigits : Text → Text
  | [] => []
  | c :: t => if c = .scalar '0' then [c] else (c :: t).takeWhile CodePoint.isAsciiDigit

/-- A number that begins here, or nothing. -/
def number? (negative : Bool) (t : Text) : Except JsonStop (Option (Json × Text)) :=
  if (wholeDigits t) = [] then .ok none
  else (readNumber negative (wholeDigits t) (t.drop (wholeDigits t).length)).map some

/-- The words of the format, with the values that they name. -/
def words : List (Text × Json) :=
  [("null", .null), ("true", .bool true), ("false", .bool false), ("NaN", .real .nan),
   ("Infinity", .real (.infinity false)), ("-Infinity", .real (.infinity true))]

def word? (t : Text) : Option (Json × Text) :=
  words.findSome? fun (w, x) => if w.isPrefixOf t then some (x, t.drop w.length) else none

/-- A value that is one word or one number. -/
def readScalar (t : Text) : Except JsonStop (Json × Text) :=
  match word? t with
  | some r => .ok r
  | none => do
    let r ← match t with
      | .scalar '-' :: t => number? true t
      | t => number? false t
    match r with
    | some r => .ok r
    | none => .error (.fault .value t.length)

/-! ## Values -/

mutual

def readValue (t : Text) : Front Json t :=
  match t with
  | [] => .error (.fault .value 0)
  | c :: t =>
    if c = .scalar '\x22' then do
      let ⟨(s, r), h⟩ ← readText (t.length + 1) t
      .ok ⟨(.text s, r), by simp at h ⊢; omega⟩
    else if c = .scalar '[' then
      have := skip_length t
      match h : skip t with
      | .scalar ']' :: r => .ok ⟨(.array [], r), by rw [h] at this; simp at this ⊢; omega⟩
      | _ => do
        let ⟨(xs, r), h⟩ ← readItems (skip t)
        .ok ⟨(.array xs, r), by simp at h ⊢; omega⟩
    else if c = .scalar '\x7b' then
      have := skip_length t
      match h : skip t with
      | .scalar '\x7d' :: r => .ok ⟨(.object [], r), by rw [h] at this; simp at this ⊢; omega⟩
      | _ => do
        let ⟨(ms, r), h⟩ ← readMembers (skip t)
        .ok ⟨(.object (ofMembers ms), r), by simp at h ⊢; omega⟩
    else do
      let (x, r) ← readScalar (c :: t)
      if h : r.length < (c :: t).length then .ok ⟨(x, r), h⟩
      else .error (.fault .value (t.length + 1))
termination_by (t.length, 0)

def readItems (t : Text) : Front (List Json) t := do
  let ⟨(x, r), h⟩ ← readValue t
  have h : r.length < t.length := h
  have := skip_length r
  match h' : skip r with
  | .scalar ']' :: r' => .ok ⟨([x], r'), by rw [h'] at this; simp at this ⊢; omega⟩
  | .scalar ',' :: r' =>
    have : r'.length < t.length := by rw [h'] at this; simp at this; omega
    have := skip_length r'
    let ⟨(xs, r''), h⟩ ← readItems (skip r')
    .ok ⟨(x :: xs, r''), by simp at h ⊢; omega⟩
  | r' => .error (.fault .comma r'.length)
termination_by (t.length, 1)

def readMembers (t : Text) : Front (List (Text × Json)) t :=
  match t with
  | .scalar '\x22' :: t => do
    let ⟨(k, r), h⟩ ← readText (t.length + 1) t
    have h : r.length < t.length := h
    have := skip_length r
    match hc : skip r with
    | .scalar ':' :: r₁ =>
      have : r₁.length < t.length := by rw [hc] at this; simp at this; omega
      have := skip_length r₁
      let ⟨(x, r₂), h₂⟩ ← readValue (skip r₁)
      have h₂ : r₂.length < (skip r₁).length := h₂
      have := skip_length r₂
      match h₃ : skip r₂ with
      | .scalar '\x7d' :: r' => .ok ⟨([(k, x)], r'), by rw [h₃] at this; simp at this ⊢; omega⟩
      | .scalar ',' :: r₃ =>
        have : r₃.length < t.length := by rw [h₃] at this; simp at this; omega
        have := skip_length r₃
        let ⟨(ms, r'), h⟩ ← readMembers (skip r₃)
        .ok ⟨((k, x) :: ms, r'), by simp at h ⊢; omega⟩
      | r' => .error (.fault .comma r'.length)
    | r' => .error (.fault .colon r'.length)
  | t => .error (.fault .memberName t.length)
termination_by (t.length, 0)

end

/-- The text holds one value, with blanks around it. -/
def readAll (t : Text) : Except JsonStop Json :=
  if t.head? = some (.scalar '\uFEFF') then .error (.fault .byteOrderMark t.length)
  else do
    let ⟨(x, r), _⟩ ← readValue (skip t)
    if skip r = [] then .ok x else .error (.fault .trailing (skip r).length)

/-- The place of a position: its line, and its column in that line. -/
def place (before : Text) : Nat × Nat :=
  (before.count (.scalar '\n') + 1, (before.reverse.takeWhile (· ≠ .scalar '\n')).length + 1)

def read (t : Text) : Except JsonError Json :=
  match readAll t with
  | .ok x => .ok x
  | .error (.tooLong n) => .error (.tooLong n)
  | .error (.fault kind left) =>
    let position := t.length - left
    let (line, column) := place (t.take position)
    .error (.malformed kind line column position)

end Json

end GalleryScan
