import AccountRoster.Dict
import AccountRoster.Number.Double
import AccountRoster.Value.ObjectPath

/-! # Values

Attributes and parameters hold values of twelve types. A type has a signature,
by which callers name it, and a description, which stands in messages.

## Implementation notes

`Value.agrees` is the equality by which a write decides whether it changes
anything. It differs from equality of values only on doubles. -/

namespace AccountRoster

/-- The closed set of value types. -/
inductive ValueType where
  | string
  | boolean
  | int32
  | int64
  | uint32
  | uint64
  | byte
  | double
  | stringArray
  | objectPath
  | objectPathArray
  | simplePresence
  deriving DecidableEq, Repr

namespace ValueType

/-- Every type. -/
def all : List ValueType :=
  [string, boolean, int32, int64, uint32, uint64, byte, double, stringArray,
    objectPath, objectPathArray, simplePresence]

/-- The bus signature of a type. -/
def signature : ValueType → String
  | string => "s"
  | boolean => "b"
  | int32 => "i"
  | int64 => "x"
  | uint32 => "u"
  | uint64 => "t"
  | byte => "y"
  | double => "d"
  | stringArray => "as"
  | objectPath => "o"
  | objectPathArray => "ao"
  | simplePresence => "(uss)"

/-- The type with a given signature. -/
def ofSignature? (signature : String) : Option ValueType :=
  all.find? fun t => t.signature == signature

/-- How messages call a type. -/
def description : ValueType → String
  | string => "string"
  | boolean => "boolean"
  | int32 => "int32"
  | int64 => "int64"
  | uint32 => "uint32"
  | uint64 => "uint64"
  | byte => "byte"
  | double => "double"
  | stringArray => "string array"
  | objectPath => "object path"
  | objectPathArray => "object path array"
  | simplePresence => "simple presence"

/-- How documents call a type. -/
def name : ValueType → String
  | .string => "string"
  | .boolean => "boolean"
  | .int32 => "int32"
  | .int64 => "int64"
  | .uint32 => "uInt32"
  | .uint64 => "uInt64"
  | .byte => "byte"
  | .double => "double"
  | .stringArray => "stringArray"
  | .objectPath => "objectPath"
  | .objectPathArray => "objectPathArray"
  | .simplePresence => "simplePresence"

@[simp] theorem ofSignature?_signature (t : ValueType) :
    ofSignature? t.signature = some t := by
  cases t <;> decide

end ValueType

/-- A presence: its kind, a status identifier and a message for people. -/
structure SimplePresence where
  kind : UInt32
  status : String
  message : String
  deriving DecidableEq

/-- A value of one of the twelve types. -/
inductive Value where
  | string (text : String)
  | boolean (flag : Bool)
  | int32 (number : Int32)
  | int64 (number : Int64)
  | uint32 (number : UInt32)
  | uint64 (number : UInt64)
  | byte (number : UInt8)
  | double (number : Double)
  | stringArray (items : List String)
  | objectPath (path : ObjectPath)
  | objectPathArray (paths : List ObjectPath)
  | simplePresence (presence : SimplePresence)
  deriving DecidableEq

namespace Value

/-- The type of a value. -/
def type : Value → ValueType
  | string _ => .string
  | boolean _ => .boolean
  | int32 _ => .int32
  | int64 _ => .int64
  | uint32 _ => .uint32
  | uint64 _ => .uint64
  | byte _ => .byte
  | double _ => .double
  | stringArray _ => .stringArray
  | objectPath _ => .objectPath
  | objectPathArray _ => .objectPathArray
  | simplePresence _ => .simplePresence

/-- The text of a string or of an object path. -/
def text? : Value → Option String
  | string text => some text
  | objectPath path => some path.text
  | _ => none

/-- The flag of a boolean. -/
def flag? : Value → Option Bool
  | boolean flag => some flag
  | _ => none

/-- The number of a `uint32`. -/
def uint32? : Value → Option UInt32
  | uint32 number => some number
  | _ => none

/-- Whether two values count as the same; doubles are compared as numbers. -/
def agrees : Value → Value → Bool
  | double a, double b => a.agrees b
  | a, b => decide (a = b)

/-- Whether a value is a double that is not a number. -/
def isNan : Value → Bool
  | double d => d.isNan
  | _ => false

/-- Whether two optional values count as the same. -/
def agrees? : Option Value → Option Value → Bool
  | none, none => true
  | some a, some b => a.agrees b
  | _, _ => false

theorem agrees_self {v : Value} (h : v.isNan = false) : v.agrees v = true := by
  cases v <;> simp_all [agrees, isNan]

end Value

/-- Connection parameters by name. -/
abbrev Parameters := Dict Value

end AccountRoster
