import GalleryScan.Number.Notation
import GalleryScan.Text.Quoted

/-!
# JSON values

The values of listings, caches and settings. An object keeps its members in the order in which
their names first came, and names are unique. A value shows in messages in two ways: on its own,
where a text is shown bare, and inside another value, where a text is shown between quotes.
-/

set_option autoImplicit false

namespace GalleryScan

/-- A JSON value. Whole numbers and numbers with a point are told apart. -/
inductive Json where
  | null
  | bool (b : Bool)
  | int (n : Int)
  | real (x : Double)
  | text (t : Text)
  | array (items : List Json)
  | object (members : List (Text × Json))
  deriving Inhabited

namespace Json

/-- The word for a kind of value in messages. -/
def kind : Json → Text
  | null => "NoneType"
  | bool _ => "bool"
  | int _ => "int"
  | real _ => "float"
  | text _ => "str"
  | array _ => "list"
  | object _ => "dict"

/-- Does the value count as present? Nothing, zero, and what is empty do not. -/
def isTruthy : Json → Bool
  | null => false
  | bool b => b
  | int n => n ≠ 0
  | real x => !x.isZero
  | text t => t ≠ []
  | array xs => !xs.isEmpty
  | object ms => !ms.isEmpty

def isNull : Json → Bool
  | null => true
  | _ => false

mutual

/-- The value as it shows inside a message. -/
def shown : Json → Text
  | null => "None"
  | bool true => "True"
  | bool false => "False"
  | int n => Text.ofInt n
  | real x => NumberFormat.message.write x
  | text t => t.quoted
  | array xs => "[" ++ Text.join ", " (shownItems xs) ++ "]"
  | object ms => "\x7b" ++ Text.join ", " (shownMembers ms) ++ "\x7d"

def shownItems : List Json → List Text
  | [] => []
  | x :: xs => x.shown :: shownItems xs

def shownMembers : List (Text × Json) → List Text
  | [] => []
  | (k, x) :: ms => (k.quoted ++ ": " ++ x.shown) :: shownMembers ms

end

/-- The value as it shows on its own. -/
def plain : Json → Text
  | text t => t
  | x => x.shown

def member? (name : Text) (members : List (Text × Json)) : Option Json := members.lookup name

/-- The members after one is set: a new name goes last, a known one keeps its place. -/
def setMember (name : Text) (value : Json) : List (Text × Json) → List (Text × Json)
  | [] => [(name, value)]
  | (k, x) :: ms => if k = name then (k, value) :: ms else (k, x) :: setMember name value ms

/-- Members in the order in which their names first came, each with its last value. -/
def ofMembers (members : List (Text × Json)) : List (Text × Json) :=
  members.foldl (fun ms (k, x) => setMember k x ms) []

/-- The member of this name, missing where the value is no object or has none. -/
def get (name : Text) : Json → Json
  | object ms => (member? name ms).getD null
  | _ => null

end Json

end GalleryScan
