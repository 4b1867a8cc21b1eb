import AccountRoster.Number.Integer
import AccountRoster.Text.Quoted
import AccountRoster.Value

/-! # Faults of stored text

The ways in which stored text, or a name in a key-file, can be wrong, and the
message for each. -/

namespace AccountRoster

/-- What is wrong with a stored text. -/
inductive CodecFault where
  /-- Unknown escape sequence, or a backslash at the end. -/
  | invalidEscape (text : String)
  /-- No literal of the expected type. -/
  | malformed (text : String) (expected : ValueType)
  /-- A number that the expected type does not hold. -/
  | outOfRange (text : String) (expected : ValueType)
  /-- No object path. -/
  | invalidObjectPath (path : String)
  /-- No presence. -/
  | invalidPresence (detail : String)
  /-- No group or key name that a key-file can hold. -/
  | invalidName (name : String)
  /-- A line of a key-file that cannot be read, counted from one. -/
  | invalidLine (line : Nat) (detail : String)
  deriving DecidableEq

namespace CodecFault

/-- The message of a fault. -/
def message : CodecFault → String
  | invalidEscape text => "Invalid escape sequence in '" ++ text ++ "'"
  | malformed text expected => "'" ++ text ++ "' is not a valid " ++ expected.description
  | outOfRange text expected => "'" ++ text ++ "' is out of range for " ++ expected.description
  | invalidObjectPath path => "Invalid object path: " ++ path
  | invalidPresence detail => "Invalid simple-presence structure: " ++ detail
  | invalidName name => "Invalid key-file name: " ++ Text.quoted name
  | invalidLine line detail =>
      "Key-file syntax error on line " ++ toString line ++ ": " ++ detail

/-- The fault of a numeral that was read as a given type. -/
def ofNumeral (text : String) (expected : ValueType) : NumeralFault → CodecFault
  | .malformed => malformed text expected
  | .outOfRange => outOfRange text expected

end CodecFault

end AccountRoster
