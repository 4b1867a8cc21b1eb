import AccountRoster.Codec
import AccountRoster.Dict

/-! # Key-files

A key-file holds groups of keys with text values, groups and keys in order.
Values are kept in their escaped form; typed access goes through the codec of
the file. Every change reports whether it changed anything.

## Implementation notes

An operation that fails leaves no trace, not even an empty group, because names
are checked before anything is entered. -/

namespace AccountRoster

/-- Groups of keys with escaped values. -/
structure Keyfile where
  separator : Char := Codec.defaultSeparator
  groups : Dict (Dict String) := Dict.empty
  deriving DecidableEq

namespace Keyfile

/-- Whether a group may have this name. -/
def isGroupName (name : String) : Bool :=
  name != "" && name.toList.all fun c => c != '[' && c != ']' && !Text.isControl c

/-- Whether a key may have this name. -/
def isKeyName (name : String) : Bool :=
  name != "" && name.toList.head? != some '#' &&
    (name.toList.all fun c => c != '=' && c != '[' && c != ']' && !Text.isControl c) &&
    decide (Text.trim name.toList = name.toList)

/-- Whether a value stays on its line. -/
def isOneLine (escaped : String) : Bool :=
  escaped.toList.all fun c => c != '\n' && c != '\r'

/-- The key-file without groups. -/
def new (separator : Char) : Keyfile := ⟨separator, Dict.empty⟩

/-- The codec for the values of the file. -/
def codec (f : Keyfile) : Codec := ⟨f.separator⟩

/-- The names of the groups. -/
def groupNames (f : Keyfile) : List String := f.groups.keys

/-- Whether there is a group of this name. -/
def hasGroup (f : Keyfile) (group : String) : Bool := f.groups.contains group

/-- The entries of a group; none if there is no such group. -/
def entries (f : Keyfile) (group : String) : Dict String :=
  (f.groups.get? group).getD Dict.empty

/-- The keys of a group. -/
def keys (f : Keyfile) (group : String) : List String := (f.entries group).keys

/-- The escaped value of a key. -/
def value? (f : Keyfile) (group key : String) : Option String := (f.entries group).get? key

/-- Enter a value without looking at the names. -/
def enter (f : Keyfile) (group key escaped : String) : Keyfile :=
  { f with groups := f.groups.insert group ((f.entries group).insert key escaped) }

/-- Make sure that a group exists, without looking at its name. -/
def openGroup (f : Keyfile) (group : String) : Keyfile :=
  { f with groups := f.groups.insert group (f.entries group) }

/-- A result of a change: whether there was one, and the file after it. -/
abbrev Change := Except CodecFault Bool × Keyfile

/-- Store an escaped value. -/
def setValue (f : Keyfile) (group key escaped : String) : Change :=
  if isGroupName group = false then (.error (.invalidName group), f)
  else if isKeyName key = false ∨ isOneLine escaped = false then (.error (.invalidName key), f)
  else if f.value? group key = some escaped then (.ok false, f)
  else (.ok true, f.enter group key escaped)

/-- Make sure that a group exists. -/
def addGroup (f : Keyfile) (group : String) : Change :=
  if isGroupName group = false then (.error (.invalidName group), f)
  else if f.hasGroup group then (.ok false, f)
  else (.ok true, f.openGroup group)

/-- Remove a key; its group stays. -/
def removeKey (f : Keyfile) (group key : String) : Bool × Keyfile :=
  match f.value? group key with
  | some _ =>
      (true, { f with groups := f.groups.insert group ((f.entries group).erase key) })
  | none => (false, f)

/-- Remove a group with all its keys. -/
def removeGroup (f : Keyfile) (group : String) : Bool × Keyfile :=
  if f.hasGroup group then (true, { f with groups := f.groups.erase group }) else (false, f)

/-- Escape and store a value; `none` removes the key. -/
def setTyped (f : Keyfile) (group key : String) : Option Value → Change
  | some value => f.setValue group key (f.codec.escape value)
  | none => ((.ok (f.removeKey group key).1), (f.removeKey group key).2)

/-- Read a value as a given type. -/
def typed? (f : Keyfile) (group key : String) (type : ValueType) :
    Except CodecFault (Option Value) :=
  match f.value? group key with
  | some escaped => (f.codec.unescape escaped type).map some
  | none => .ok none

@[simp] theorem value?_new (separator : Char) (group key : String) :
    (new separator).value? group key = none := rfl

theorem entries_enter (f : Keyfile) (group key escaped other : String) :
    (f.enter group key escaped).entries other =
      if group = other then (f.entries group).insert key escaped else f.entries other := by
  unfold enter entries
  rw [Dict.get?_insert]
  split <;> simp_all

theorem entries_openGroup (f : Keyfile) (group other : String) :
    (f.openGroup group).entries other = f.entries other := by
  unfold openGroup entries
  simp only [Dict.get?_insert]
  split
  · subst_vars; rfl
  · rfl

theorem value?_enter (f : Keyfile) (group key escaped other k : String) :
    (f.enter group key escaped).value? other k =
      if group = other ∧ key = k then some escaped else f.value? other k := by
  unfold value?
  rw [entries_enter]
  by_cases hg : group = other
  · subst hg
    by_cases hk : key = k <;> simp [Dict.get?_insert, hk]
  · simp [hg]

end Keyfile

end AccountRoster
