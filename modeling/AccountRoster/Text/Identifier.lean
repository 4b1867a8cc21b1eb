/-! # Identifiers

Any text can be written in ASCII letters, digits and underscores: letters stay,
digits stay except at the front, and every other byte of the UTF-8 form becomes
an underscore and two hexadecimal digits. The empty text is a lone underscore. -/

namespace AccountRoster.Text

/-- A lower-case hexadecimal digit. -/
def hexDigit (n : Nat) : Char := Nat.digitChar (n % 16)

/-- Whether a byte is an ASCII letter. -/
def isLetterByte (b : UInt8) : Bool :=
  (decide (65 ≤ b.toNat) && decide (b.toNat ≤ 90)) ||
    (decide (97 ≤ b.toNat) && decide (b.toNat ≤ 122))

/-- Whether a byte is an ASCII digit. -/
def isDigitByte (b : UInt8) : Bool := decide (48 ≤ b.toNat) && decide (b.toNat ≤ 57)

/-- A byte as an underscore and two hexadecimal digits. -/
def hexByte (b : UInt8) : List Char :=
  ['_', hexDigit (b.toNat / 16), hexDigit b.toNat]

/-- A byte after the first. -/
def identifierByte (b : UInt8) : List Char :=
  if isLetterByte b || isDigitByte b then [Char.ofNat b.toNat] else hexByte b

/-- The first byte, which may not stay a digit. -/
def identifierFirst (b : UInt8) : List Char :=
  if isLetterByte b then [Char.ofNat b.toNat] else hexByte b

/-- The identifier for a sequence of bytes. -/
def identifierBytes : List UInt8 → List Char
  | [] => ['_']
  | first :: rest => identifierFirst first ++ rest.flatMap identifierByte

/-- The identifier for a text. -/
def identifier (text : String) : String :=
  String.ofList (identifierBytes text.toUTF8.data.toList)

example : identifier "1a_1" = "_31a_5f1" := by decide +kernel

example : identifier "" = "_" := by decide +kernel

end AccountRoster.Text
