/-! # File paths

A path is a text of names between slashes. Read from the front it leads from
folder to folder: an empty name and a single dot stay in a folder, two dots go
to the one around it, and any other name is plain. Read from the back it says
which file it means and which folder holds it.

## Implementation notes

What a path means at its end is found on the characters in reverse order.
Slashes and lone dots there say nothing about the file; everything before the
folder of the file stays as it was written. -/

namespace AccountRoster.Path

/-- Cut at every slash. -/
def segments : List Char → List (List Char)
  | [] => [[]]
  | c :: rest =>
      if c = '/' then [] :: segments rest
      else
        match segments rest with
        | [] => [[c]]
        | name :: more => (c :: name) :: more

/-- The names along a path, as they are written. -/
def names (path : String) : List String := (segments path.toList).map String.ofList

/-- The name at the very end of a path; it is empty after a slash. -/
def last (path : String) : String := (names path).getLast?.getD ""

/-- Whether a path starts at the root. -/
def isAbsolute (path : String) : Bool := path.toList.head? == some '/'

/-- Whether a name is that of an entry in a folder. -/
def isPlain (name : String) : Bool := name != "" && name != "." && name != ".."

/-- Drop slashes, and dots after a slash, from the end of a path in reverse order.
Its first character stays. -/
def trim : List Char → List Char
  | '/' :: c :: rest => trim (c :: rest)
  | '.' :: '/' :: rest => trim ('/' :: rest)
  | rest => rest

/-- The last name of a path in reverse order that has been trimmed, and what
stands before it. -/
def cut (path : List Char) : List Char × List Char :=
  (path.takeWhile fun c => c != '/', path.dropWhile fun c => c != '/')

/-- The name of the file that a path means, if it ends in a plain name. -/
def fileName? (path : String) : Option String :=
  let name := String.ofList (cut (trim path.toList.reverse)).1.reverse
  if isPlain name then some name else none

/-- The path of the folder that holds the last name, if a folder is named. -/
def parent? (path : String) : Option String :=
  match cut (trim path.toList.reverse) with
  | ([], _) | (_, []) => none
  | (_, folder) => some (String.ofList (trim folder).reverse)

/-- A name after the path of a folder; the empty path adds nothing to it. -/
def join (folder name : String) : String :=
  match folder.toList.getLast? with
  | none | some '/' => folder ++ name
  | some _ => folder ++ "/" ++ name

/-- The path of a file beside the one that a path means, with an ending on the
name. Without a file name the path is that of the folder. -/
def beside (path ending : String) : String :=
  match fileName? path with
  | some name => join ((parent? path).getD "") (name ++ ending)
  | none => join path ending

example : names "/a//b" = ["", "a", "", "b"] := by decide +kernel

example : parent? "/data//a/./b.cfg/." = some "/data//a" := by decide +kernel

example : parent? "b.cfg" = none := by decide +kernel

example : beside "a//b/../c.cfg/" ".tmp" = "a//b/../c.cfg.tmp" := by decide +kernel

example : beside "a/.." ".tmp" = "a/../.tmp" := by decide +kernel

theorem segments_ne_nil (cs : List Char) : segments cs ≠ [] := by
  cases cs with
  | nil => simp [segments]
  | cons c rest =>
      simp only [segments]
      split
      · simp
      · split <;> simp

/-- A slash ends a name. -/
theorem segments_append_slash (before after : List Char) :
    segments (before ++ '/' :: after) = segments before ++ segments after := by
  induction before with
  | nil => simp [segments]
  | cons c rest ih =>
      by_cases h : c = '/'
      · simp [segments, h, ih]
      · obtain ⟨name, more, hs⟩ := List.exists_cons_of_ne_nil (segments_ne_nil rest)
        simp [segments, h, ih, hs]

theorem segments_of_not_mem {name : List Char} (h : '/' ∉ name) : segments name = [name] := by
  induction name with
  | nil => rfl
  | cons c rest ih =>
      simp only [List.mem_cons, not_or] at h
      simp [segments, Ne.symm h.1, ih h.2]

end AccountRoster.Path
