import GalleryScan.Number.Whole
import GalleryScan.Settings.Layer
import GalleryScan.Text.Upper

/-!
# The command line

The words of the command line are first told apart, each for itself: options, words, and the two
dashes after which all are words. Then they are taken in order. An option may be cut short as long
as no other one begins so, and carry its value after an equals sign. The first word is the user;
what nothing asks for is refused at the end.
-/

set_option autoImplicit false

namespace GalleryScan

inductive ValueKind where
  | text
  | whole
  /-- One of the two qualities, in either case. -/
  | quality

/-- What an option does. -/
inductive Effect where
  | help
  | version
  | config
  | value (setting : Setting) (kind : ValueKind)
  | constant (setting : Setting) (value : Json)

/-- An option: how it is written, and what it does. -/
structure CommandOption where
  marks : List Text
  effect : Effect

namespace CommandOption

def long (mark : Text) (effect : Effect) : CommandOption := ⟨[mark], effect⟩

def all : List CommandOption :=
  [⟨[Text.ofString "-h", "--help"], .help⟩,
   long "--tags" (.value .tags .text),
   long "--exclude-tags" (.value .excludeTags .text),
   long "--nsfw" (.value .nsfw .text),
   long "--sort" (.value .sort .text),
   long "--limit" (.value .limit .whole),
   long "--output" (.value .output .text),
   long "--concurrency" (.value .concurrency .whole),
   long "--api-key" (.value .apiKey .text),
   long "--quality" (.value .quality .quality),
   long "--config" .config,
   long "--offline" (.constant .offline (.bool true)),
   long "--no-progress" (.constant .showProgress (.bool false)),
   long "--version" .version]

def name (o : CommandOption) : Text := Text.join "/" o.marks

def takesValue (o : CommandOption) : Bool :=
  match o.effect with
  | .value _ _ | .config => true
  | _ => false

def marked : List (Text × CommandOption) := all.flatMap fun o => o.marks.map (·, o)

def ofMark? (mark : Text) : Option CommandOption := marked.lookup mark

end CommandOption

/-- Why the command line is refused, or what it asks for instead of a run. -/
inductive Detour where
  | help
  | version
  | ambiguous (word : Text) (marks : List Text)
  | valueMissing (o : CommandOption)
  | valueIgnored (o : CommandOption) (value : Text)
  | notWhole (o : CommandOption) (value : Text)
  | notAQuality (o : CommandOption) (value : Text)
  | usernameMissing
  | unrecognized (words : List Text)

def Detour.message : Detour → Text
  | help | version => []
  | ambiguous word marks =>
    "ambiguous option: " ++ word ++ " could match " ++ Text.join ", " marks
  | valueMissing o => "argument " ++ o.name ++ ": expected one argument"
  | valueIgnored o value => "argument " ++ o.name ++ ": ignored explicit argument " ++ value.quoted
  | notWhole o value => "argument " ++ o.name ++ ": invalid int value: " ++ value.quoted
  | notAQuality o value =>
    "argument " ++ o.name ++ ": invalid choice: " ++ value.quoted ++ " (choose from 'HD', 'SD')"
  | usernameMissing => "the following arguments are required: username"
  | unrecognized words => "unrecognized arguments: " ++ Text.join " " words

/-! ## Telling words apart -/

inductive Piece where
  | word (t : Text)
  | dashes
  /-- An option, and the mark that it is written with. -/
  | option (o : CommandOption) (mark : Text)
  /-- An option with something attached to its mark, by an equals sign or directly. -/
  | attached (o : CommandOption) (mark : Text) (t : Text)
  /-- What looks like an option and is none. -/
  | unknown (t : Text)

namespace Piece

/-- Decimal digits and nothing else, at least one. -/
def areDigits (t : Text) : Bool := t != [] && t.all CodePoint.isDecimal

/-- Does the word look like a negative number? A line end after it does not matter. -/
def looksNegative : Text → Bool
  | .scalar '-' :: t =>
    let t := if t.getLast? = some (.scalar '\n') then t.dropLast else t
    match Text.cut (.scalar '.') t with
    | (digits, none) => areDigits digits
    | (digits, some places) => digits.all CodePoint.isDecimal && areDigits places
  | _ => false

/-- What a word may stand for when its mark is cut short. A word with one dash is the short option
with something attached to it. -/
def candidates (t : Text) : List (Text × Piece) :=
  match t with
  | .scalar '-' :: .scalar '-' :: _ =>
    let (front, rest) := Text.cut (.scalar '=') t
    (CommandOption.marked.filter fun (mark, _) => front.isPrefixOf mark).map fun (mark, o) =>
      (mark, match rest with
        | none => .option o mark
        | some value => .attached o mark value)
  | _ =>
    (CommandOption.marked.filter fun (mark, _) => mark = t.take 2).map fun (mark, o) =>
      (mark, .attached o mark (t.drop 2))

/-- A word that is no option as it stands. -/
def ofShortened (t : Text) : Except Detour Piece :=
  match candidates t with
  | [(_, p)] => .ok p
  | [] => if looksNegative t || t.contains (.scalar ' ') then .ok (.word t) else .ok (.unknown t)
  | several => .error (.ambiguous t (several.map (·.1)))

/-- A word that begins with a dash and is more than that. -/
def ofDashed (t : Text) : Except Detour Piece :=
  match CommandOption.ofMark? t, Text.cut (.scalar '=') t with
  | some o, _ => .ok (.option o t)
  | none, (front, some value) =>
    match CommandOption.ofMark? front with
    | some o => .ok (.attached o front value)
    | none => ofShortened t
  | none, (_, none) => ofShortened t

/-- One word before the two dashes. -/
def ofWord (t : Text) : Except Detour Piece :=
  match t with
  | .scalar '-' :: _ :: _ => ofDashed t
  | _ => .ok (.word t)

def ofWords : List Text → Except Detour (List Piece)
  | [] => .ok []
  | t :: ts =>
    if t = "--" then .ok (.dashes :: ts.map .word)
    else do
      let p ← ofWord t
      let ps ← ofWords ts
      return p :: ps

end Piece

/-! ## Taking the parts -/

structure Arguments where
  username : Option Text
  /-- The path of the settings file, unless the option for it was given no value. -/
  config : Json
  options : Layer
  /-- The words that nothing asks for. -/
  extra : List Text

namespace Arguments

def none : Arguments := ⟨Option.none, .text "config.json", [], []⟩

/-- The path of the settings file, empty where the option for it was given no value. -/
def configPath (a : Arguments) : Text :=
  match a.config with
  | .text t => t
  | _ => []

/-- The value of an option whose mark two dashes are attached to: they only part options from words
and count for nothing, so that the list of its values stays empty. -/
def noValue : Json := .array []

def valueOf (o : CommandOption) (kind : ValueKind) (t : Text) : Except Detour Json :=
  match kind with
  | .text => .ok (.text t)
  | .whole =>
    match Whole.read t with
    | .ok n => .ok (.int n)
    | .error _ => .error (.notWhole o t)
  | .quality =>
    if [Text.ofString "HD", "SD"].contains t.upper then .ok (.text t.upper)
    else .error (.notAQuality o t.upper)

/-- The arguments after an option is given a value. -/
def give (a : Arguments) (o : CommandOption) (x : Json) : Arguments :=
  match o.effect with
  | .value setting _ => { a with options := a.options ++ [(setting.key, x)] }
  | .config => { a with config := x }
  | _ => a

/-- The arguments after an option with its value. -/
def withValue (a : Arguments) (o : CommandOption) (t : Text) : Except Detour Arguments :=
  match o.effect with
  | .value _ kind => (valueOf o kind t).map (a.give o)
  | _ => .ok (a.give o (.text t))

/-- The arguments after an option without a value. -/
def withOption (a : Arguments) (o : CommandOption) : Except Detour Arguments :=
  match o.effect with
  | .help => .error .help
  | .version => .error .version
  | .constant setting x => .ok { a with options := a.options ++ [(setting.key, x)] }
  | _ => .ok a

/-- What comes of the short option for help with something attached to it. The letters are further
short options, of which there is but one; what is none is refused with all that follows it. -/
def helpWith (o : CommandOption) (t : Text) : Detour :=
  match t.dropWhile (· = .scalar 'h') with
  | [] => if t = [] then .valueIgnored o [] else .help
  | rest => .valueIgnored o rest

/-- The arguments after an option with something attached to it. -/
def withAttached (a : Arguments) (o : CommandOption) (mark : Text) (t : Text) :
    Except Detour Arguments :=
  if o.takesValue then if t = "--" then .ok (a.give o noValue) else a.withValue o t
  else if mark = "-h" then .error (helpWith o t)
  else .error (.valueIgnored o t)

/-- A word becomes the user if there is none yet. -/
def withWord (a : Arguments) (t : Text) : Arguments :=
  match a.username with
  | Option.none => { a with username := some t }
  | some _ => { a with extra := a.extra ++ [t] }

def takeAll (a : Arguments) : List Piece → Except Detour Arguments
  | [] => .ok a
  | .attached o mark t :: ps => do takeAll (← a.withAttached o mark t) ps
  | .option o _ :: ps =>
    if o.takesValue then
      match ps with
      | .word t :: ps => do takeAll (← a.withValue o t) ps
      | _ => .error (.valueMissing o)
    else do takeAll (← a.withOption o) ps
  | .unknown t :: ps => takeAll { a with extra := a.extra ++ [t] } ps
  | .word t :: .dashes :: ps =>
    if a.username.isNone then takeAll (a.withWord t) ps
    else takeAll { a with extra := a.extra ++ [t, Text.ofString "--"] } ps
  | .word t :: ps => takeAll (a.withWord t) ps
  | .dashes :: .word t :: ps =>
    if a.username.isNone then takeAll (a.withWord t) ps
    else takeAll { a with extra := a.extra ++ [Text.ofString "--", t] } ps
  | .dashes :: ps => takeAll { a with extra := a.extra ++ [Text.ofString "--"] } ps

/-- The user and the rest of what the command line says. -/
def ofWords (words : List Text) : Except Detour (Text × Arguments) := do
  let pieces ← Piece.ofWords words
  let a ← none.takeAll pieces
  match a.username with
  | Option.none => .error .usernameMissing
  | some username => if a.extra = [] then .ok (username, a) else .error (.unrecognized a.extra)

/-- The value that the options give to a setting, missing where they give none. -/
def value (a : Arguments) (s : Setting) : Json := (a.options.reverse.lookup s.key).getD .null

end Arguments

end GalleryScan
