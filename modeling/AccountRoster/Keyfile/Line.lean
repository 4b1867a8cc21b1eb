import AccountRoster.Keyfile
import AccountRoster.Text.Lines

/-! # The line grammar of key-files

With leading blanks trimmed, a line is nothing, a comment, the header of a
group, or an entry of the group that is open. -/

namespace AccountRoster.Keyfile

/-- Why a line cannot be read. -/
inductive LineFault where
  | unterminatedHeader
  | groupName (name : String)
  | outsideGroup
  | noValue
  | keyName (name : String)
  deriving DecidableEq

namespace LineFault

/-- What a message says about the line. -/
def detail : LineFault → String
  | unterminatedHeader => "unterminated group header"
  | groupName name => "invalid group name " ++ Text.quoted name
  | outsideGroup => "key outside of any group"
  | noValue => "expected key=value"
  | keyName name => "invalid key name " ++ Text.quoted name

end LineFault

/-- What a line says. -/
inductive Line where
  | nothing
  | header (group : String)
  | entry (key value : String)
  deriving DecidableEq

/-- Split at the first equals sign. -/
def splitEntry : List Char → Option (List Char × List Char)
  | [] => none
  | c :: rest =>
      if c = '=' then some ([], rest)
      else (splitEntry rest).map fun (key, value) => (c :: key, value)

/-- The text before a closing bracket at the end. -/
def beforeBracket (cs : List Char) : Option (List Char) :=
  match (Text.trimEnd cs).reverse with
  | ']' :: name => some name.reverse
  | _ => none

/-- Read a header after its opening bracket. -/
def readHeader (rest : List Char) : Except LineFault Line :=
  match beforeBracket rest with
  | none => .error .unterminatedHeader
  | some name =>
      if isGroupName (String.ofList name) then .ok (.header (String.ofList name))
      else .error (.groupName (String.ofList name))

/-- Read an entry. -/
def readEntry (cs : List Char) : Except LineFault Line :=
  match splitEntry cs with
  | none => .error .noValue
  | some (key, value) =>
      let name := String.ofList (Text.trimEnd key)
      if isKeyName name then .ok (.entry name (String.ofList (Text.trimStart value)))
      else .error (.keyName name)

/-- Read a line; entries need a group to be open. -/
def readLine (inGroup : Bool) (line : List Char) : Except LineFault Line :=
  match Text.trimStart line with
  | [] => .ok .nothing
  | '#' :: _ => .ok .nothing
  | '[' :: rest => readHeader rest
  | cs => if inGroup then readEntry cs else .error .outsideGroup

end AccountRoster.Keyfile
