import GalleryScan.Query.Parser
import GalleryScan.Query.Pattern

/-!
# The filter of a run

A filter holds a compiled query and a list of exclusions. A prompt passes when no exclusion occurs
in it and the query, if there is one, holds of it. Exclusions are written with commas between
them; an entry loses the blanks and one pair of quotes around it, and an empty entry counts for
nothing.
-/

set_option autoImplicit false

namespace GalleryScan

/-- The exclusions of a list written with commas. -/
def exclusions (list : Text) : List Pattern :=
  ((list.splitOn (.scalar ',')).map fun entry => unquote entry.strip).filter (· ≠ [])
    |>.map Pattern.excluding

/-- A compiled filter and the texts it was made from. -/
structure Filter where
  query : Text
  excludeList : Text
  exclusions : List Pattern
  expression : Option Expr

namespace Filter

/-- The filter of a query and an exclude list. -/
def compile? (query excludeList : Text) : Except QueryError Filter := do
  let expression ← Expr.compile? query
  return ⟨query, excludeList, GalleryScan.exclusions excludeList, expression⟩

/-- Does an exclusion occur in the prompt? -/
def vetoes (f : Filter) (prompt : Text) : Bool := f.exclusions.any (·.occurs prompt)

/-- Does the query hold of the prompt? -/
def wants (f : Filter) (prompt : Text) : Bool :=
  f.expression.all fun e => e.eval fun t => (Pattern.including t).occurs prompt

/-- Does the filter let a prompt pass? A missing prompt counts as an empty one. -/
def accepts (f : Filter) (prompt : Option Text) : Bool :=
  let prompt := prompt.getD []
  !f.vetoes prompt && f.wants prompt

end Filter

end GalleryScan
