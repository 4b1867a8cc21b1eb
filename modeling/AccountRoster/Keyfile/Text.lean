import AccountRoster.Keyfile.Line

/-! # Key-files as text

A text is read line by line: a header opens its group, once more if it was open
before, and an entry goes into the group that is open, over an earlier one of
the same key. It is written with groups and keys in order and a blank line
between groups; comments are not kept. -/

namespace AccountRoster.Keyfile

/-- Read the rest of the lines into a file, from a given line number on. -/
def readLines (f : Keyfile) (current : Option String) (number : Nat) :
    List (List Char) → Except CodecFault Keyfile
  | [] => .ok f
  | line :: more =>
      match readLine current.isSome line with
      | .error fault => .error (.invalidLine number fault.detail)
      | .ok .nothing => readLines f current (number + 1) more
      | .ok (.header group) => readLines (f.openGroup group) (some group) (number + 1) more
      | .ok (.entry key value) =>
          readLines (f.enter (current.getD "") key value) current (number + 1) more

/-- Read a key-file. -/
def parse (text : String) (separator : Char) : Except CodecFault Keyfile :=
  readLines (new separator) none 1 (Text.lines text.toList)

/-- The line of an entry. -/
def entryText (entry : String × String) : List Char :=
  entry.1.toList ++ '=' :: entry.2.toList ++ ['\n']

/-- The header line of a group and the lines of its entries. -/
def groupText (group : String × Dict String) : List Char :=
  '[' :: group.1.toList ++ [']', '\n'] ++ group.2.entries.flatMap entryText

/-- The texts of groups, with a blank line between two of them. -/
def groupsText : List (String × Dict String) → List Char
  | [] => []
  | [group] => groupText group
  | group :: more => groupText group ++ '\n' :: groupsText more

/-- Write a key-file. -/
def toData (f : Keyfile) : String := String.ofList (groupsText f.groups.entries)

end AccountRoster.Keyfile
