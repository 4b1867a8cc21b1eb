/-! # Escaped text

A text is stored on one line. Line feeds, carriage returns and backslashes are
always escaped; spaces and tabs only at the front, where a reader of the line
would trim them. Inside a list the separator is escaped as well, and every item
ends with a bare separator.

## Implementation notes

Everything works on characters. A list is cut into pieces before anything is
unescaped, and a backslash keeps the character after it in its piece. -/

namespace AccountRoster.Escape

/-- The escape of one character; `leading` means that only spaces and tabs
stand before it. -/
def escapeChar (separator : Option Char) (leading : Bool) (c : Char) : List Char :=
  if c = ' ' ∧ leading then ['\\', 's']
  else if c = '\t' ∧ leading then ['\\', 't']
  else if c = '\n' then ['\\', 'n']
  else if c = '\r' then ['\\', 'r']
  else if c = '\\' then ['\\', '\\']
  else if separator = some c then ['\\', c]
  else [c]

/-- Escape the rest of a text. -/
def escapeFrom (separator : Option Char) : Bool → List Char → List Char
  | _, [] => []
  | leading, c :: rest =>
      escapeChar separator leading c ++
        escapeFrom separator (leading && (c == ' ' || c == '\t')) rest

/-- Escape a text. -/
def escape (separator : Option Char) (cs : List Char) : List Char :=
  escapeFrom separator true cs

/-- The character that an escape letter stands for. -/
def unescapeLetter (separator : Option Char) (c : Char) : Option Char :=
  if c = 's' then some ' '
  else if c = 'n' then some '\n'
  else if c = 't' then some '\t'
  else if c = 'r' then some '\r'
  else if c = '\\' then some '\\'
  else if separator = some c then some c
  else none

/-- Read an escaped text; `none` for an unknown escape. -/
def unescape (separator : Option Char) : List Char → Option (List Char)
  | [] => some []
  | c :: rest =>
      if c = '\\' then
        match rest with
        | [] => none
        | letter :: more =>
            match unescapeLetter separator letter with
            | some x => (unescape separator more).map (x :: ·)
            | none => none
      else (unescape separator rest).map (c :: ·)

/-- Escape every item and end it with the separator. -/
def join (separator : Char) (items : List (List Char)) : List Char :=
  items.flatMap fun item => escape (some separator) item ++ [separator]

/-- Put characters in front of the first piece. -/
def onto (front : List Char) : List (List Char) → List (List Char)
  | [] => [front]
  | piece :: more => (front ++ piece) :: more

/-- Cut at the separators that no backslash protects. What follows the last one
is a piece unless it is empty. -/
def pieces (separator : Char) : List Char → List (List Char)
  | [] => []
  | c :: rest =>
      if c = '\\' then
        match rest with
        | [] => [[c]]
        | next :: more => onto [c, next] (pieces separator more)
      else if c = separator then [] :: pieces separator rest
      else onto [c] (pieces separator rest)

example : escape none " \ta b".toList = "\\s\\ta b".toList := by decide +kernel

example : pieces ',' "a\\,b,,c".toList = [['a', '\\', ',', 'b'], [], ['c']] := by decide +kernel

@[simp] theorem unescape_nil (separator : Option Char) :
    unescape separator [] = some [] := by
  simp [unescape]

@[simp] theorem join_nil (separator : Char) : join separator [] = [] := rfl

theorem join_cons (separator : Char) (item : List Char) (items : List (List Char)) :
    join separator (item :: items) =
      escape (some separator) item ++ separator :: join separator items := by
  simp [join]

end AccountRoster.Escape
