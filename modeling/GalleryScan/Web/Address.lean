import GalleryScan.Text.Quoted

/-!
# The parts of an address

Of an address only the query is wanted, but an address whose host is malformed is refused on the
way to it: a bracket without its partner or with something beside it, brackets around what is no
address of the sixth version, or a letter that turns into a delimiter when a host is brought to its
normal form.
-/

set_option autoImplicit false

namespace GalleryScan

inductive AddressFault where
  | bracket
  | futureHost
  | version4Host
  | unknownHost (host : Text)
  | denormalHost (host : Text)
  deriving DecidableEq

def AddressFault.message : AddressFault → Text
  | bracket => "Invalid IPv6 URL"
  | futureHost => "IPvFuture address is invalid"
  | version4Host => "An IPv4 address cannot be in brackets"
  | unknownHost host => host.quoted ++ " does not appear to be an IPv4 or IPv6 address"
  | denormalHost host =>
    "netloc '" ++ host ++ "' contains invalid characters under NFKC normalization"

namespace Address

/-! ## Hosts -/

/-- A number from 0 to 255 without leading zeros. -/
def isOctet : Text → Bool
  | [] => false
  | [c] => c.isAsciiDigit
  | c :: t =>
    let digits := c :: t
    digits.all CodePoint.isAsciiDigit && c != .scalar '0' && decide (digits.length ≤ 3)
      && decide (digits.foldl (fun n c => 10 * n + (c.val - 48)) 0 ≤ 255)

/-- Four such numbers between points. -/
def isVersion4 (t : Text) : Bool :=
  let parts := t.splitOn (.scalar '.')
  parts.length == 4 && parts.all isOctet

def isGroup (t : Text) : Bool :=
  t != [] && decide (t.length ≤ 4) && t.all fun c => c.hexValue?.isSome

/-- The groups on one side of a gap: a gap at the very end has nothing but its colon there. -/
def besideGap (groups : List Text) : List Text := if groups = [[]] then [] else groups

/-- Eight groups between colons, of which one gap may stand for one or more. -/
def areGroups (groups : List Text) : Bool :=
  match (groups.drop 1).dropLast.findIdx? (· = []) with
  | some i =>
    let given := besideGap (groups.take (i + 1)) ++ besideGap (groups.drop (i + 2))
    decide (given.length ≤ 7) && given.all isGroup
  | none => groups.length == 8 && groups.all isGroup

/-- The groups of an address, the last two of which may be written as four decimal numbers. -/
def groups? (t : Text) : Option (List Text) :=
  let parts := t.splitOn (.scalar ':')
  match parts.getLast? with
  | some last =>
    if last.contains (.scalar '.') then
      if isVersion4 last then some (parts.dropLast ++ [Text.ofString "0", "0"]) else none
    else some parts
  | none => none

/-- An address of the sixth version, with or without a zone. -/
def isVersion6 (t : Text) : Bool :=
  match t.contains (.scalar '/'), t.cut (.scalar '%') with
  | false, (address, zone) =>
    zone.all (fun z => z != [] && !z.contains (.scalar '%'))
      && ((groups? address).map areGroups).getD false
  | true, _ => false

/-- A host of a future version: a hexadecimal number, a point and something more. -/
def isFuture (t : Text) : Bool :=
  let rest := t.dropWhile fun c => c.hexValue?.isSome
  rest.length < t.length && match rest with
    | .scalar '.' :: _ :: _ => true
    | _ => false

/-- A host that stands between brackets, or would have to, is an address. -/
def checkBracketed (host : Text) : Except AddressFault Unit :=
  match host with
  | .scalar 'v' :: t => if isFuture t then .ok () else .error .futureHost
  | _ =>
    if isVersion4 host then .error .version4Host
    else if isVersion6 host then .ok ()
    else .error (.unknownHost host)

/-- What follows the last sign for a user, where there is one, or else all of it. -/
def afterUser (host : Text) : Text := (host.reverse.takeWhile (· ≠ .scalar '@')).reverse

/-- Nothing stands in front of the brackets, and nothing but a port behind them. Where both brackets
belong to the user, the host itself has to be what could stand between brackets. -/
def checkBesideBrackets (host : Text) : Except AddressFault Unit :=
  match (afterUser host).cut (.scalar '[') with
  | ([], some inside) =>
    match inside.cut (.scalar ']') with
    | (address, none) | (address, some []) | (address, some (.scalar ':' :: _)) =>
      checkBracketed address
    | (_, some (_ :: _)) => .error .bracket
  | (_ :: _, some _) => .error .bracket
  | (plain, none) => checkBracketed (plain.cut (.scalar ':')).1

/-- Either both brackets stand in a host or none does. -/
def checkBrackets (host : Text) : Except AddressFault Unit :=
  match host.contains (.scalar '['), host.contains (.scalar ']') with
  | true, true => checkBesideBrackets host
  | false, false => .ok ()
  | _, _ => .error .bracket

/-- The letters whose normal form holds a delimiter of addresses. -/
def turnsIntoDelimiter (c : CodePoint) : Bool :=
  [0x2047, 0x2048, 0x2049, 0x2100, 0x2101, 0x2105, 0x2106, 0x2A74, 0xFE13, 0xFE16, 0xFE55, 0xFE56,
    0xFE5F, 0xFE6B, 0xFF03, 0xFF0F, 0xFF1A, 0xFF1F, 0xFF20].contains c.val

/-- A host may hold no letter that turns into a delimiter. -/
def checkNormal (host : Text) : Except AddressFault Unit :=
  if host.any turnsIntoDelimiter then .error (.denormalHost host) else .ok ()

/-! ## Splitting -/

/-- A control character or a blank, which may stand in front of an address. -/
def isPadding (c : CodePoint) : Bool := c.val ≤ 32

/-- A tab or a line end, which counts for nothing wherever it stands. -/
def isSoft (c : CodePoint) : Bool :=
  c = .scalar '\t' || c = .scalar '\r' || c = .scalar '\n'

/-- The address without what counts for nothing. -/
def clean (t : Text) : Text := (t.dropWhile isPadding).filter (!isSoft ·)

/-- A letter, a digit or one of three signs: what a scheme is made of. -/
def isSchemePart (c : CodePoint) : Bool :=
  c.isAsciiLetter || c.isAsciiDigit || c = .scalar '+' || c = .scalar '-' || c = .scalar '.'

/-- The address after its scheme, if it names one. -/
def afterScheme (t : Text) : Text :=
  match t.cut (.scalar ':') with
  | (c :: scheme, some rest) =>
    if c.isAsciiLetter && scheme.all isSchemePart then rest else t
  | _ => t

/-- One of the signs that end a host. -/
def endsHost (c : CodePoint) : Bool :=
  c = .scalar '/' || c = .scalar '?' || c = .scalar '#'

/-- The host after two slashes, and what follows it. -/
def splitHost (t : Text) : Text × Text :=
  match t with
  | .scalar '/' :: .scalar '/' :: t => (t.takeWhile (!endsHost ·), t.dropWhile (!endsHost ·))
  | t => ([], t)

/-- The query of an address: what stands between its question mark and its fragment. -/
def query (address : Text) : Except AddressFault Text := do
  let (host, rest) := splitHost (afterScheme (clean address))
  checkBrackets host
  checkNormal host
  let (rest, _) := rest.cut (.scalar '#')
  return ((rest.cut (.scalar '?')).2).getD []

end Address

end GalleryScan
