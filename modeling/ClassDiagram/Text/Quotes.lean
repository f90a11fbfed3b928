import ClassDiagram.Text.Number

/-!
# Quotes and literals

`dropQuotes` takes the double quotes off both ends of a text. `escapeQuotes` makes a text safe
between double quotes: it first doubles the backslashes and then puts a backslash before each
double quote.

Messages show a text as a quoted literal. The quote is an apostrophe, unless the text holds an
apostrophe and no double quote. The quote in use and the backslash are escaped by a backslash,
line feed, carriage return and tab have short escapes, and other characters that are not printable
are written by code point in two, four or eight hexadecimal digits.
-/

namespace ClassDiagram.Text

/-- A text with every occurrence of a character replaced. -/
def substitute (c : Char) (replacement : List Char) (text : List Char) : List Char :=
  text.flatMap fun d ↦ if d = c then replacement else [d]

/-- A text with its backslashes and double quotes escaped. -/
def escapeQuotes (text : String) : String :=
  String.ofList (substitute '"' ['\\', '"'] (substitute '\\' ['\\', '\\'] text.toList))

/-- A text without the double quotes at its two ends. -/
def dropQuotes (text : String) : String :=
  String.ofList (dropAround (· == '"') text.toList)

/-! ## Literals -/

/-- The quote around the literal of a text. -/
def literalQuote (text : List Char) : Char :=
  if text.contains '\'' && !text.contains '"' then '"' else '\''

/-- One character inside a literal that is delimited by `quote`. -/
def escapeLiteral (quote c : Char) : List Char :=
  if c = quote ∨ c = '\\' then ['\\', c]
  else if c = '\n' then ['\\', 'n']
  else if c = '\r' then ['\\', 'r']
  else if c = '\t' then ['\\', 't']
  else if isPrintable c then [c]
  else if c.toNat < 0x100 then '\\' :: 'x' :: hexDigits 2 c.toNat
  else if c.toNat < 0x10000 then '\\' :: 'u' :: hexDigits 4 c.toNat
  else '\\' :: 'U' :: hexDigits 8 c.toNat

/-- The quoted literal of a text. -/
def literal (text : String) : String :=
  let quote := literalQuote text.toList
  String.ofList (quote :: text.toList.flatMap (escapeLiteral quote) ++ [quote])

/-- The literal of a text that may be absent. -/
def literal? : Option String → String
  | some text => literal text
  | none => "None"

end ClassDiagram.Text
