import GalleryScan.Text.Utf8

/-!
# Names on a disk

On a disk a name is bytes. Bytes that form no character still have a place in a path: half of a
surrogate pair stands for each, the last 128 of the first quarter of low halves. Written to the disk
such halves become bytes again, and side by side they may form a character; so two spellings of a
path can name one entry, and only one of them is read back. All other lone surrogates have no form
on a disk.
-/

set_option autoImplicit false

namespace GalleryScan

namespace Path

/-- The byte that half of a surrogate pair stands for in a path. -/
def byte? : CodePoint → Option UInt8
  | .surrogate n => if 0x480 ≤ n.val ∧ n.val < 0x500 then some (.ofNat (n.val - 0x400)) else none
  | .scalar _ => none

/-- The half of a surrogate pair that stands for a byte. -/
def ofByte (b : UInt8) : CodePoint := .ofNat (0xDC00 + b.toNat)

/-- The bytes of a path in which every lone surrogate stands for one. -/
def bytes (p : Text) : Bytes :=
  p.flatMap fun c => match byte? c with
    | some b => [b]
    | none => Text.bytesOf c.val

/-- What has no form on a disk: the first lone surrogate that stands for no byte, with the lone
surrogates that follow it, whatever these stand for. -/
def encodeFault? (position : Nat) : Text → Option EncodeFault
  | [] => none
  | c :: p =>
    if c.isScalar || (byte? c).isSome then encodeFault? (position + 1) p
    else some ⟨c, position, 1 + (p.takeWhile (!·.isScalar)).length⟩

/-- The path that bytes spell. -/
def ofBytes (bs : Bytes) : Text :=
  match bs with
  | [] => []
  | b :: t =>
    match h : Bytes.step b t with
    | .char n r =>
      have : r.length ≤ t.length := by have := Bytes.step_length b t; rw [h] at this; exact this
      CodePoint.ofNat n :: ofBytes r
    | .bad _ len r =>
      have : r.length ≤ t.length := by have := Bytes.step_length b t; rw [h] at this; exact this
      ((b :: t).take len).map ofByte ++ ofBytes r
termination_by bs.length

/-- The spelling of a path that is read back from the disk. -/
def onDisk (p : Text) : Text := if p.any fun c => (byte? c).isSome then ofBytes (bytes p) else p

end Path

end GalleryScan
