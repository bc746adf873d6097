import GalleryScan.Text.Blank
import GalleryScan.Text.Caseless

/-!
# Tokens of a query

A query is cut at its parentheses and at the words `AND`, `OR` and `NOT`, in any case. A word is
one of the three only where blanks, parentheses or an end of the query stand on both sides of it,
so `ANDROID` and `x_or` are free text. What lies between two separators is one term: it loses the
blanks around it and keeps those inside, and where nothing else is left there is no term.
-/

set_option autoImplicit false

namespace GalleryScan

inductive Token where
  | opening
  | closing
  | and
  | or
  | not
  | term (text : Text)
  deriving DecidableEq, Inhabited

namespace Token

/-- The token as written, operators in upper case. -/
def text : Token → Text
  | opening => "("
  | closing => ")"
  | and => "AND"
  | or => "OR"
  | not => "NOT"
  | term t => t

/-- What a keyword may stand beside: a blank or a parenthesis. -/
def isEdge (c : CodePoint) : Bool :=
  c.isBlank || c == .scalar '(' || c == .scalar ')'

/-- The keyword that these letters spell, whatever their case. -/
def ofWord? (w : Text) : Option Token :=
  if w.sameLetters "AND" then some .and
  else if w.sameLetters "OR" then some .or
  else if w.sameLetters "NOT" then some .not
  else none

/-- The letters up to the next edge. -/
def firstWord (t : Text) : Text := t.takeWhile (!isEdge ·)

/-- A separator at the head of the text and what follows it. A keyword is one only where what
stands before it is an edge. -/
def separator? (atEdge : Bool) : Text → Option (Token × Text)
  | [] => none
  | c :: t =>
    if c = .scalar '(' then some (.opening, t)
    else if c = .scalar ')' then some (.closing, t)
    -- `firstWord` ends at an edge or with the query, so the other side needs no look.
    else if atEdge then
      (ofWord? (firstWord (c :: t))).map fun k => (k, t.dropWhile (!isEdge ·))
    else none

theorem separator?_length {atEdge : Bool} {t : Text} {k : Token} {r : Text}
    (h : separator? atEdge t = some (k, r)) : r.length < t.length := by
  cases t with
  | nil => simp [separator?] at h
  | cons d t =>
    have hd := (List.dropWhile_suffix (l := t) (!isEdge ·)).length_le
    simp only [separator?] at h
    split at h
    · simp_all
    · split at h
      · simp_all
      · split at h
        · obtain ⟨k', -, he⟩ := Option.map_eq_some_iff.1 h
          simp only [Prod.mk.injEq] at he
          simp only [← he.2, List.length_cons]
          omega
        · simp at h

/-- A parenthesis is an edge for what follows it; a keyword is followed by its own edge. -/
def isParenthesis : Token → Bool
  | opening | closing => true
  | _ => false

/-- The free text held between two separators: one term, or nothing where it is blank. -/
def ofFreeText (held : Text) : List Token :=
  if held.strip = [] then [] else [.term held.strip]

/-- The tokens of the rest of a query, where `held` is the free text read since the last
separator, in reverse, and `atEdge` says that a keyword may begin here. -/
def scan (atEdge : Bool) (held : Text) (t : Text) : List Token :=
  match h : separator? atEdge t with
  | some (k, r) =>
    have := separator?_length h
    ofFreeText held.reverse ++ k :: scan k.isParenthesis [] r
  | none => match t with
    | [] => ofFreeText held.reverse
    | c :: t => scan (isEdge c) (c :: held) t
termination_by t.length

end Token

def tokenize (query : Text) : List Token := Token.scan true [] query

end GalleryScan
