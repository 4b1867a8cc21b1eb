import AccountRoster.Codec.Escape
import AccountRoster.Codec.Fault
import AccountRoster.Number.DoubleText
import AccountRoster.Text.Blank

/-! # Codec

A codec turns a value into the text that stands for it in storage, reads such a
text as a value of a given type, and converts between types by doing both. Its
only setting is the character between the items of a list. -/

namespace AccountRoster

/-- What stands between the items of a list, unless another character is chosen. -/
def Codec.defaultSeparator : Char := ','

/-- The settings of the stored form. -/
structure Codec where
  separator : Char := Codec.defaultSeparator
  deriving DecidableEq

namespace Codec

/-- Escape a text that is no list item. -/
def escapeText (text : String) : String :=
  String.ofList (Escape.escape none text.toList)

/-- Read a text that is no list item. -/
def unescapeText (text : String) : Except CodecFault String :=
  match Escape.unescape none text.toList with
  | some cs => .ok (String.ofList cs)
  | none => .error (.invalidEscape text)

/-- Write the items of a list. -/
def joinItems (codec : Codec) (items : List String) : String :=
  String.ofList (Escape.join codec.separator (items.map String.toList))

/-- Read one piece of a list. -/
def unescapePiece (codec : Codec) (piece : List Char) : Except CodecFault String :=
  match Escape.unescape (some codec.separator) piece with
  | some cs => .ok (String.ofList cs)
  | none => .error (.invalidEscape (String.ofList piece))

/-- Read the items of a list; the first bad piece is the fault. -/
def splitItems (codec : Codec) (text : String) : Except CodecFault (List String) :=
  (Escape.pieces codec.separator text.toList).mapM codec.unescapePiece

/-- Take a text as an object path. -/
def readPath (text : String) : Except CodecFault ObjectPath :=
  match ObjectPath.ofText? text with
  | some path => .ok path
  | none => .error (.invalidObjectPath text)

/-- Read a boolean, with blanks around it. -/
def readBoolean (text : String) : Except CodecFault Bool :=
  if Text.trim text.toList = "true".toList ∨ Text.trim text.toList = "1".toList then .ok true
  else if Text.trim text.toList = "false".toList ∨ Text.trim text.toList = "0".toList then
    .ok false
  else .error (.malformed text .boolean)

/-- Read a whole number, with blanks around it. -/
def readInteger (working target : IntegerRange) (expected : ValueType) (text : String) :
    Except CodecFault Int :=
  match Number.readWithin working target (Text.trim text.toList) with
  | .ok n => .ok n
  | .error fault => .error (CodecFault.ofNumeral text expected fault)

/-- Read a double, with blanks around it. -/
def readDouble (text : String) : Except CodecFault Double :=
  match Double.read (Text.trim text.toList) with
  | some d => .ok d
  | none => .error (.malformed text .double)

/-- Read the kind of a presence. -/
def readKind (text : String) : Except CodecFault UInt32 :=
  match Number.readWithin .uint64 .uint32 text.toList with
  | .ok n => .ok (UInt32.ofNat n.toNat)
  | .error _ => .error (.invalidPresence ("invalid presence type " ++ text))

/-- Read a presence from its three items. -/
def readPresence (codec : Codec) (text : String) : Except CodecFault SimplePresence := do
  match ← codec.splitItems text with
  | [kind, status, message] => return ⟨← readKind kind, status, message⟩
  | items =>
      .error (.invalidPresence
        ("expected 3 elements, found " ++ toString items.length))

/-- The text that stands for a value in storage. -/
def escape (codec : Codec) : Value → String
  | .string text => escapeText text
  | .objectPath path => escapeText path.text
  | .boolean flag => if flag then "true" else "false"
  | .int32 n => String.ofList (Number.intText n.toInt)
  | .int64 n => String.ofList (Number.intText n.toInt)
  | .uint32 n => String.ofList (Number.natText n.toNat)
  | .uint64 n => String.ofList (Number.natText n.toNat)
  | .byte n => String.ofList (Number.natText n.toNat)
  | .double d => String.ofList d.text
  | .stringArray items => codec.joinItems items
  | .objectPathArray paths => codec.joinItems (paths.map ObjectPath.text)
  | .simplePresence p =>
      codec.joinItems [String.ofList (Number.natText p.kind.toNat), p.status, p.message]

/-- Read a stored text as a value of a given type. -/
def unescape (codec : Codec) (text : String) : ValueType → Except CodecFault Value
  | .string => return .string (← unescapeText text)
  | .boolean => return .boolean (← readBoolean text)
  | .int32 => return .int32 (.ofInt (← readInteger .int32 .int32 .int32 text))
  | .int64 => return .int64 (.ofInt (← readInteger .int64 .int64 .int64 text))
  | .uint32 => return .uint32 (.ofNat (← readInteger .uint64 .uint32 .uint32 text).toNat)
  | .uint64 => return .uint64 (.ofNat (← readInteger .uint64 .uint64 .uint64 text).toNat)
  | .byte => return .byte (.ofNat (← readInteger .int32 .byte .byte text).toNat)
  | .double => return .double (← readDouble text)
  | .stringArray => return .stringArray (← codec.splitItems text)
  | .objectPath => return .objectPath (← readPath (← unescapeText text))
  | .objectPathArray =>
      return .objectPathArray (← (← codec.splitItems text).mapM readPath)
  | .simplePresence => return .simplePresence (← codec.readPresence text)

/-- Convert a value to a type: as it is, or by way of its text. -/
def coerce (codec : Codec) (value : Value) (target : ValueType) : Except CodecFault Value :=
  if value.type = target then .ok value else codec.unescape (codec.escape value) target

theorem coerce_type {codec : Codec} {value : Value} :
    codec.coerce value value.type = .ok value := by
  simp [coerce]

end Codec

end AccountRoster
