/-! # Object paths

An object path is a single slash, or slash-led elements of ASCII letters,
digits and underscores, none of them empty. The grammar belongs to the type. -/

namespace AccountRoster

/-- A character of a path element. -/
def isPathChar (c : Char) : Bool := c.isAlphanum || c == '_'

/-- Whether elements may stand here; `fresh` means that a slash was just read. -/
def isPathFrom : Bool → List Char → Bool
  | fresh, [] => !fresh
  | fresh, c :: rest =>
      if c = '/' then !fresh && isPathFrom true rest
      else isPathChar c && isPathFrom false rest

/-- Whether a text follows the grammar of object paths. -/
def isObjectPath (text : String) : Bool :=
  match text.toList with
  | ['/'] => true
  | '/' :: rest => isPathFrom true rest
  | _ => false

/-- A text that follows the grammar of object paths. -/
structure ObjectPath where
  text : String
  valid : isObjectPath text = true
  deriving DecidableEq

namespace ObjectPath

/-- Take a text as a path if it is one. -/
def ofText? (text : String) : Option ObjectPath :=
  if h : isObjectPath text = true then some ⟨text, h⟩ else none

@[simp] theorem ofText?_text (path : ObjectPath) : ofText? path.text = some path := by
  simp [ofText?, path.valid]

theorem ofText?_eq_some_iff {text : String} {path : ObjectPath} :
    ofText? text = some path ↔ path.text = text := by
  constructor
  · intro h
    unfold ofText? at h
    split at h
    · cases h; rfl
    · cases h
  · rintro rfl; simp

example : isObjectPath "/a_1/B2" = true := by decide

example : isObjectPath "/a//b" = false := by decide

end ObjectPath

end AccountRoster
