import GalleryScan.Query.Token

/-!
# Query expressions

The tree of a query. A group is kept apart from what it holds, so that a tree spells out its query:
its tokens in order are the query's tokens, terms without their quotes.
-/

set_option autoImplicit false

namespace GalleryScan

inductive Expr where
  | term (text : Text)
  | and (left right : Expr)
  | or (left right : Expr)
  | not (operand : Expr)
  | group (inner : Expr)
  deriving DecidableEq, Inhabited

namespace Expr

/-- The truth of an expression over the truth of its terms. -/
def eval (holds : Text → Bool) : Expr → Bool
  | term t => holds t
  | and l r => l.eval holds && r.eval holds
  | or l r => l.eval holds || r.eval holds
  | not e => !e.eval holds
  | group e => e.eval holds

def tokens : Expr → List Token
  | term t => [.term t]
  | and l r => l.tokens ++ .and :: r.tokens
  | or l r => l.tokens ++ .or :: r.tokens
  | not e => .not :: e.tokens
  | group e => .opening :: e.tokens ++ [.closing]

/-- The query that an expression spells: terms between double quotes, and no parentheses but those
of its groups. -/
def render : Expr → Text
  | term t => "\x22" ++ t ++ "\x22"
  | and l r => l.render ++ " AND " ++ r.render
  | or l r => l.render ++ " OR " ++ r.render
  | not e => "NOT " ++ e.render
  | group e => "(" ++ e.render ++ ")"

end Expr

end GalleryScan
