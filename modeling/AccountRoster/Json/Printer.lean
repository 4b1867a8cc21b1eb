import AccountRoster.Json
import AccountRoster.Text.Identifier

/-! # Writing JSON

Two layouts of a document: on one line, and indented by two blanks a level with
one member or item a line. Text is written raw except for quotes, backslashes
and control characters below the space. -/

namespace AccountRoster.Json

/-- One character of a string. -/
def charText (c : Char) : List Char :=
  if c = '"' then ['\\', '"']
  else if c = '\\' then ['\\', '\\']
  else if c = '\x08' then ['\\', 'b']
  else if c = '\x0c' then ['\\', 'f']
  else if c = '\n' then ['\\', 'n']
  else if c = '\r' then ['\\', 'r']
  else if c = '\t' then ['\\', 't']
  else if c.toNat < 0x20 then
    ['\\', 'u', '0', '0', Text.hexDigit (c.toNat / 16), Text.hexDigit c.toNat]
  else [c]

/-- A string between quotes. -/
def stringText (text : String) : String :=
  String.ofList ('"' :: text.toList.flatMap charText ++ ['"'])

/-- A line break and the indentation of a level. -/
def newLine (level : Nat) : String := String.ofList ('\n' :: List.replicate (2 * level) ' ')

mutual

/-- A document on one line. -/
def compact : Json → String
  | null => "null"
  | bool flag => if flag then "true" else "false"
  | number numeral => numeral
  | string text => stringText text
  | array items => "[" ++ ",".intercalate (compactItems items) ++ "]"
  | object members => "\x7b" ++ ",".intercalate (compactMembers members) ++ "\x7d"
  | broken => "null"

/-- The items of an array. -/
def compactItems : List Json → List String
  | [] => []
  | item :: rest => compact item :: compactItems rest

/-- The members of an object. -/
def compactMembers : List (String × Json) → List String
  | [] => []
  | (name, item) :: rest => (stringText name ++ ":" ++ compact item) :: compactMembers rest

end

mutual

/-- An indented document. -/
def pretty (level : Nat) : Json → String
  | null => "null"
  | bool flag => if flag then "true" else "false"
  | number numeral => numeral
  | string text => stringText text
  | array [] => "[]"
  | array items =>
      "[" ++ ",".intercalate (prettyItems (level + 1) items) ++ newLine level ++ "]"
  | object [] => "\x7b\x7d"
  | object members =>
      "\x7b" ++ ",".intercalate (prettyMembers (level + 1) members) ++ newLine level ++ "\x7d"
  | broken => "null"

/-- The items of an array, each on a new line. -/
def prettyItems (level : Nat) : List Json → List String
  | [] => []
  | item :: rest => (newLine level ++ pretty level item) :: prettyItems level rest

/-- The members of an object, each on a new line. -/
def prettyMembers (level : Nat) : List (String × Json) → List String
  | [] => []
  | (name, item) :: rest =>
      (newLine level ++ stringText name ++ ": " ++ pretty level item) ::
        prettyMembers level rest

end

end AccountRoster.Json
