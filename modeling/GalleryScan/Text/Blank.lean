import GalleryScan.Text.CodePoint

/-!
# Blanks

The code points that separate words: the blanks and separators of Unicode together with the
control codes that move the writing position. Trimming a text removes them from both ends.
-/

set_option autoImplicit false

namespace GalleryScan.CodePoint

def blankRanges : List (Nat × Nat) :=
  [(9, 13), (28, 32), (133, 133), (160, 160), (5760, 5760),
   (8192, 8202), (8232, 8233), (8239, 8239), (8287, 8287), (12288, 12288)]

/-- Does the code point separate words? -/
def isBlank (c : CodePoint) : Bool := between blankRanges c.val

/-- Every blank of ASCII, and with it every blank of `Char`, is a blank here. -/
theorem isBlank_of_isWhitespace (c : Char) (h : c.isWhitespace = true) :
    isBlank (.scalar c) = true := by
  simp only [Char.isWhitespace, Bool.or_eq_true, decide_eq_true_eq] at h
  rcases h with ((rfl | rfl) | rfl) | rfl <;> decide

end GalleryScan.CodePoint

namespace GalleryScan.Text

def strip (t : Text) : Text := t.trim CodePoint.isBlank

def isBlank (t : Text) : Bool := t.all CodePoint.isBlank

end GalleryScan.Text
