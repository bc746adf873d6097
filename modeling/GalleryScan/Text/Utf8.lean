import GalleryScan.Text.CodePoint

/-!
# Text in bytes

Files and percent escapes carry text in UTF-8. Writing fails at a lone surrogate. Reading takes
one character at a time, and where the bytes form none, it says how many of them could have begun
one: a strict reader reports those, a lenient one puts one replacement character in their place.
-/

set_option autoImplicit false

namespace GalleryScan

/-- The contents of a file. -/
abbrev Bytes := List UInt8

/-- A run of lone surrogates in a text that was to be written in bytes. -/
structure EncodeFault where
  first : CodePoint
  position : Nat
  length : Nat
  deriving DecidableEq

inductive DecodeReason where
  | start
  | continuation
  | ended
  deriving DecidableEq

structure DecodeFault where
  first : UInt8
  position : Nat
  length : Nat
  reason : DecodeReason
  deriving DecidableEq

def EncodeFault.message (f : EncodeFault) : Text :=
  if f.length = 1 then
    "'utf-8' codec can't encode character '\\u" ++ Text.hex 4 f.first.val ++ "' in position "
      ++ Text.ofNat f.position ++ ": surrogates not allowed"
  else
    "'utf-8' codec can't encode characters in position " ++ Text.ofNat f.position ++ "-"
      ++ Text.ofNat (f.position + f.length - 1) ++ ": surrogates not allowed"

def DecodeReason.text : DecodeReason → Text
  | start => "invalid start byte"
  | continuation => "invalid continuation byte"
  | ended => "unexpected end of data"

def DecodeFault.message (f : DecodeFault) : Text :=
  if f.length = 1 then
    "'utf-8' codec can't decode byte 0x" ++ Text.hex 2 f.first.toNat ++ " in position "
      ++ Text.ofNat f.position ++ ": " ++ f.reason.text
  else
    "'utf-8' codec can't decode bytes in position " ++ Text.ofNat f.position ++ "-"
      ++ Text.ofNat (f.position + f.length - 1) ++ ": " ++ f.reason.text

namespace Text

def bytesOf (n : Nat) : Bytes :=
  let rest (d : Nat) : UInt8 := .ofNat (0x80 + n / d % 64)
  if n < 0x80 then [.ofNat n]
  else if n < 0x800 then [.ofNat (0xC0 + n / 64), rest 1]
  else if n < 0x10000 then [.ofNat (0xE0 + n / 4096), rest 64, rest 1]
  else [.ofNat (0xF0 + n / 262144), rest 4096, rest 64, rest 1]

/-- The bytes of a text whose every code point is a character; a lone surrogate takes the place
that its number gives it. -/
def bytes (t : Text) : Bytes := t.flatMap fun c => bytesOf c.val

/-- The first run of lone surrogates, if there is one. -/
def encodeFault? (position : Nat) : Text → Option EncodeFault
  | [] => none
  | .scalar _ :: t => encodeFault? (position + 1) t
  | .surrogate n :: t =>
    some ⟨.surrogate n, position, 1 + (t.takeWhile (!·.isScalar)).length⟩

def encode (t : Text) : Except EncodeFault Bytes :=
  match encodeFault? 0 t with
  | some f => .error f
  | none => .ok t.bytes

end Text

namespace Bytes

/-- One step of reading. -/
inductive Step where
  | char (n : Nat) (rest : Bytes)
  | bad (reason : DecodeReason) (length : Nat) (rest : Bytes)

/-- A byte that may follow the first one of a character. -/
def isContinuation (b : UInt8) : Bool := 0x80 ≤ b && b < 0xC0

/-- The bits that such a byte carries. -/
def payload (b : UInt8) : Nat := b.toNat % 64

/-- One step of reading after a first byte: `low` and `high` bound the second byte, and `more`
bytes of the kind follow it. -/
def stepWide (n : Nat) (low high : UInt8) (more : Nat) (t : Bytes) : Step :=
  match t with
  | [] => .bad .ended 1 []
  | b :: t =>
    if b < low || high < b then .bad .continuation 1 (b :: t)
    else go (64 * n + payload b) 2 more t
where
  go (n count : Nat) : Nat → Bytes → Step
    | 0, t => .char n t
    | _ + 1, [] => .bad .ended count []
    | k + 1, b :: t =>
      if isContinuation b then go (64 * n + payload b) (count + 1) k t
      else .bad .continuation count (b :: t)

def step (b : UInt8) (t : Bytes) : Step :=
  if b < 0x80 then .char b.toNat t
  -- `0xC0` and `0xC1` could only begin longer forms of what one byte says.
  else if b < 0xC2 then .bad .start 1 t
  else if b < 0xE0 then stepWide (b.toNat - 0xC0) 0x80 0xBF 0 t
  else if b < 0xF0 then
    stepWide (b.toNat - 0xE0)
      -- After `0xE0` the lower half would be too long a form; after `0xED` the upper, a surrogate.
      (if b = 0xE0 then 0xA0 else 0x80) (if b = 0xED then 0x9F else 0xBF) 1 t
  else if b < 0xF5 then
    stepWide (b.toNat - 0xF0)
      -- After `0xF4` the numbers end at `0x10FFFF`.
      (if b = 0xF0 then 0x90 else 0x80) (if b = 0xF4 then 0x8F else 0xBF) 2 t
  else .bad .start 1 t

/-- What a step leaves unread. -/
def Step.rest : Step → Bytes
  | char _ t => t
  | bad _ _ t => t

theorem stepWide_go_length (n count : Nat) :
    ∀ (k : Nat) (t : Bytes), (stepWide.go n count k t).rest.length ≤ t.length := by
  intro k
  induction k generalizing n count with
  | zero => intro t; simp [stepWide.go, Step.rest]
  | succ k ih =>
    intro t
    cases t with
    | nil => simp [stepWide.go, Step.rest]
    | cons b t =>
      simp only [stepWide.go]
      split
      · exact Nat.le_succ_of_le (ih _ _ t)
      · simp [Step.rest]

theorem stepWide_length (n : Nat) (low high : UInt8) (more : Nat) (t : Bytes) :
    (stepWide n low high more t).rest.length ≤ t.length := by
  cases t with
  | nil => simp [stepWide, Step.rest]
  | cons b t =>
    simp only [stepWide]
    split
    · simp [Step.rest]
    · exact Nat.le_succ_of_le (stepWide_go_length _ _ _ t)

theorem step_length (b : UInt8) (t : Bytes) : (step b t).rest.length ≤ t.length := by
  unfold step
  repeat' split
  all_goals first | exact stepWide_length .. | simp [Step.rest]

def decodeFrom (position : Nat) (bs : Bytes) : Except DecodeFault Text :=
  match bs with
  | [] => .ok []
  | b :: t =>
    match h : step b t with
    | .char n r =>
      have : r.length ≤ t.length := by have := step_length b t; rw [h] at this; exact this
      (decodeFrom (position + (Text.bytesOf n).length) r).map (CodePoint.ofNat n :: ·)
    | .bad reason len _ => .error ⟨b, position, len, reason⟩
termination_by bs.length

def decode (bs : Bytes) : Except DecodeFault Text := decodeFrom 0 bs

/-- The text that the bytes form, with a replacement character for each run that forms none. -/
def decodeLenient (bs : Bytes) : Text :=
  match bs with
  | [] => []
  | b :: t =>
    match h : step b t with
    | .char n r =>
      have : r.length ≤ t.length := by have := step_length b t; rw [h] at this; exact this
      CodePoint.ofNat n :: decodeLenient r
    | .bad _ _ r =>
      have : r.length ≤ t.length := by have := step_length b t; rw [h] at this; exact this
      .replacement :: decodeLenient r
termination_by bs.length

end Bytes

namespace Text

/-- The text of a file, in which every kind of line end is one line feed. -/
def withLineFeeds : Text → Text
  | [] => []
  | .scalar '\r' :: .scalar '\n' :: t => .scalar '\n' :: withLineFeeds t
  | c :: t => (if c = .scalar '\r' then .scalar '\n' else c) :: withLineFeeds t

end Text

end GalleryScan
