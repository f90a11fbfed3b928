import ClassDiagram.Text.Basic

/-!
# Encodings and their names

An encoding is known by many names. Two names are the same if they agree in their letters, digits
and dots, without regard to case, and in where other characters separate them.
-/

namespace ClassDiagram

/-- A way to write characters as bytes. -/
inductive Encoding where
  | utf8
  /-- UTF-8 after an optional byte order mark. -/
  | utf8Signed
  | ascii
  | latin1
  | windows1252
  /-- UTF-16 after a byte order mark. -/
  | utf16
  | utf16Little
  | utf16Big
deriving DecidableEq, Repr

/-- Why a name gives no encoding of text. -/
inductive EncodingFault where
  | unknown (name : String)
  | notText (name : String)
deriving DecidableEq, Repr

/-- The beginning of a text that has room in the given number of bytes of UTF-8. A replacement
character stands for a character of which only some bytes have room. -/
def Text.shorten : Nat → List Char → List Char
  | _, [] => []
  | room, c :: rest =>
    if c.utf8Size ≤ room then c :: shorten (room - c.utf8Size) rest
    else if room = 0 then []
    else [Char.ofNat 0xFFFD]

/-- The wording of the failure. The name of a coding that is none of text is shown up to its first
400 bytes. -/
def EncodingFault.message : EncodingFault → String
  | unknown name => "unknown encoding: " ++ name
  | notText name =>
    "'" ++ String.ofList (Text.shorten 400 name.toList) ++
      "' is not a text encoding; use codecs.open() to handle arbitrary codecs"

namespace Encoding

/-- A character that counts in the name of an encoding. -/
def isNameChar (c : Char) : Bool := c.isAlphanum || c == '.'

/-- The form in which names are compared: small letters, with one underscore for each run of other
characters inside the name. -/
def normalName (name : String) : String :=
  let separated := name.toList.map fun c ↦ if isNameChar c then c.toLower else ' '
  "_".intercalate (((Text.splitOn ' ' separated).filter (· != [])).map String.ofList)

/-- The principal name of each encoding with its other names. -/
def names : List (Encoding × String × List String) :=
  [(utf8, "utf_8", ["cp65001", "u8", "utf", "utf8", "utf8_ucs2", "utf8_ucs4"]),
    (utf8Signed, "utf_8_sig", []),
    (ascii, "ascii",
      ["646", "ansi_x3.4_1968", "ansi_x3.4_1986", "ansi_x3_4_1968", "cp367", "csascii", "ibm367",
        "iso646_us", "iso_646.irv_1991", "iso_ir_6", "us", "us_ascii"]),
    (latin1, "latin_1",
      ["8859", "cp819", "csisolatin1", "ibm819", "iso8859", "iso8859_1", "iso_8859_1",
        "iso_8859_1_1987", "iso_ir_100", "l1", "latin", "latin1"]),
    (windows1252, "cp1252", ["1252", "windows_1252"]),
    (utf16, "utf_16", ["u16", "utf16"]),
    (utf16Little, "utf_16_le", ["unicodelittleunmarked", "utf_16le"]),
    (utf16Big, "utf_16_be", ["unicodebigunmarked", "utf_16be"])]

/-- The names of codings that are none of text. -/
def otherCodings : List (String × List String) :=
  [("rot_13", ["rot13"]), ("base64_codec", ["base64", "base_64"]), ("bz2_codec", ["bz2"]),
    ("hex_codec", ["hex"]), ("quopri_codec", ["quopri", "quoted_printable", "quotedprintable"]),
    ("uu_codec", ["uu"]), ("zlib_codec", ["zip", "zlib"])]

/-- Whether a compared name is the principal name or one of the other names. In the other names a
dot may stand for an underscore. -/
def isNamed (name principal : String) (others : List String) : Bool :=
  name == principal || others.contains name ||
    others.contains (String.ofList (name.toList.map fun c ↦ if c = '.' then '_' else c))

/-- The encoding that the normal form of a name stands for. -/
def ofNormalName (name : String) : Except EncodingFault Encoding :=
  let key := normalName name
  match names.find? (fun entry ↦ isNamed key entry.2.1 entry.2.2) with
  | some entry => .ok entry.1
  | none =>
    if otherCodings.any (fun entry ↦ isNamed key entry.1 entry.2) then .error (.notText name)
    else .error (.unknown name)

end Encoding

end ClassDiagram
