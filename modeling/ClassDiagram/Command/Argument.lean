import ClassDiagram.Text.Quotes
import ClassDiagram.Text.Unicode

/-!
# Arguments of the command line

Every argument is an operand or asks for one of the switches. A long switch may be cut short to
any beginning that no other switch shares, and may have its value behind an equals sign. A short
switch may have its value, or further short switches, behind its letter, with or without an equals
sign between. An argument that looks like a negative number or holds a space is an operand, and so
is everything behind the first argument that consists of two hyphens.
-/

namespace ClassDiagram

/-- What the command line can ask for by name. -/
inductive Switch where
  | help
  | outdir
  | format
  | strict
  | checkReferences
  | encoding
  | reporting
deriving DecidableEq, Repr

namespace Switch

/-- Every switch, in the order in which they are listed. -/
def all : List Switch := [help, outdir, format, strict, checkReferences, encoding, reporting]

/-- The long name of a switch. -/
def long : Switch → String
  | help => "--help"
  | outdir => "--outdir"
  | format => "--format"
  | strict => "--strict"
  | checkReferences => "--check-references"
  | encoding => "--encoding"
  | reporting => "--reporting"

/-- The letter of a switch. -/
def letter? : Switch → Option Char
  | help => some 'h'
  | outdir => some 'o'
  | _ => none

/-- Whether a switch needs a value. -/
def takesValue : Switch → Bool
  | help | strict | checkReferences => false
  | outdir | format | encoding | reporting => true

/-- The names of a switch as messages show them. -/
def title (switch : Switch) : String :=
  match switch.letter? with
  | some letter => "-" ++ letter.toString ++ "/" ++ switch.long
  | none => switch.long

/-- The switch with the given letter. -/
def ofLetter? (letter : Char) : Option Switch := all.find? (·.letter? = some letter)

/-- The switches whose long name begins with a text. -/
def beginningWith (start : List Char) : List Switch :=
  all.filter fun switch ↦ start.isPrefixOf switch.long.toList

end Switch

/-- What an argument is. The text attached to a switch stands in the same argument. -/
inductive Argument where
  | operand (text : String)
  /-- The two hyphens behind which all arguments are operands. -/
  | separator
  | short (switch : Switch) (attached : Option (List Char))
  | long (switch : Switch) (attached : Option (List Char))
  /-- Something that looks like a switch and is none. -/
  | unknown (text : String)
deriving DecidableEq, Repr

/-- Why a command line is wrong. -/
inductive UsageError where
  | ambiguous (argument : String) (switches : List Switch)
  | missingValue (switch : Switch)
  | unwantedValue (switch : Switch) (value : String)
  | invalidChoice (switch : Switch) (value : String) (choices : List String)
  | invalidInteger (switch : Switch) (value : String)
  | unrecognised (arguments : List String)
deriving DecidableEq, Repr

/-- The wording of the complaint. -/
def UsageError.message : UsageError → String
  | ambiguous argument switches =>
    "ambiguous option: " ++ argument ++ " could match " ++ ", ".intercalate (switches.map (·.long))
  | missingValue switch => "argument " ++ switch.title ++ ": expected one argument"
  | unwantedValue switch value =>
    "argument " ++ switch.title ++ ": ignored explicit argument " ++ Text.literal value
  | invalidChoice switch value choices =>
    "argument " ++ switch.title ++ ": invalid choice: " ++ value ++ " (choose from " ++
      ", ".intercalate choices ++ ")"
  | invalidInteger switch value =>
    "argument " ++ switch.title ++ ": invalid int value: " ++ Text.literal value
  | unrecognised arguments => "unrecognized arguments: " ++ " ".intercalate arguments

namespace Argument

/-- Whether the characters behind a hyphen write a number, with an optional fraction. One line feed
may follow. -/
def isNumber (text : List Char) : Bool :=
  let text := if text.getLast? = some '\n' then text.dropLast else text
  match text.dropWhile Text.isDecimalDigit with
  | [] => text != []
  | '.' :: fraction => fraction != [] && fraction.all Text.isDecimalDigit
  | _ => false

/-- The text behind the first equals sign of an argument. -/
def behindEquals (text : List Char) : Option (List Char) :=
  match text.dropWhile (· != '=') with
  | [] => none
  | _ :: value => some value

/-- An argument that starts with a hyphen and asks for no switch. -/
def withoutSwitch (text : List Char) : Argument :=
  if isNumber text.tail ∨ ' ' ∈ text then .operand (String.ofList text)
  else .unknown (String.ofList text)

/-- An argument that starts with two hyphens and is longer than that. -/
def ofLong (text : List Char) : Except UsageError Argument :=
  let name := text.takeWhile (· != '=')
  match Switch.all.find? (·.long.toList = name), Switch.beginningWith name with
  | some switch, _ => .ok (.long switch (behindEquals text))
  | none, [switch] => .ok (.long switch (behindEquals text))
  | none, [] => .ok (withoutSwitch text)
  | none, switches => .error (.ambiguous (String.ofList text) switches)

/-- An argument that consists of one hyphen, a letter that is no hyphen, and a rest. -/
def ofShort (letter : Char) (rest : List Char) : Argument :=
  match Switch.ofLetter? letter with
  | none => withoutSwitch ('-' :: letter :: rest)
  | some switch =>
    match rest with
    | [] => .short switch none
    | '=' :: attached => .short switch (some attached)
    | attached => .short switch (some attached)

/-- What an argument in front of the separator is. -/
def ofText (text : String) : Except UsageError Argument :=
  match text.toList with
  | ['-', '-'] => .ok .separator
  | '-' :: '-' :: rest => ofLong ('-' :: '-' :: rest)
  | '-' :: letter :: rest => .ok (ofShort letter rest)
  | _ => .ok (.operand text)

/-- What the arguments of a command line are. -/
def ofTexts : List String → Except UsageError (List Argument)
  | [] => .ok []
  | text :: rest => do
    match ← ofText text with
    | .separator => return .separator :: rest.map .operand
    | argument => return argument :: (← ofTexts rest)

end Argument

end ClassDiagram
