import AccountRoster.Json

/-! # Reading JSON

The reader accepts exactly the documents of the JSON grammar, with blanks
around them and nothing else after them.

## Implementation notes

The nesting of a document is bounded by its length, from which the fuel of the
reader is computed. -/

namespace AccountRoster.Json

/-- Whether a character may stand between tokens. -/
def isSpace (c : Char) : Bool := c == ' ' || c == '\n' || c == '\t' || c == '\r'

/-- Drop what may stand between tokens. -/
def skipSpace (cs : List Char) : List Char := cs.dropWhile isSpace

/-- The value of a hexadecimal digit. -/
def hexValue? (c : Char) : Option Nat :=
  if c.isDigit then some (c.toNat - '0'.toNat)
  else if 'a' ≤ c ∧ c ≤ 'f' then some (c.toNat - 'a'.toNat + 10)
  else if 'A' ≤ c ∧ c ≤ 'F' then some (c.toNat - 'A'.toNat + 10)
  else none

/-- Four hexadecimal digits, and what follows them. -/
def readUnit : List Char → Option (Nat × List Char)
  | a :: b :: c :: d :: rest => do
      let a ← hexValue? a
      let b ← hexValue? b
      let c ← hexValue? c
      let d ← hexValue? d
      return (((a * 16 + b) * 16 + c) * 16 + d, rest)
  | _ => none

/-- The character after a backslash, for escapes of one letter. -/
def readLetter? (c : Char) : Option Char :=
  if c = '"' then some '"'
  else if c = '\\' then some '\\'
  else if c = '/' then some '/'
  else if c = 'b' then some '\x08'
  else if c = 'f' then some '\x0c'
  else if c = 'n' then some '\n'
  else if c = 'r' then some '\r'
  else if c = 't' then some '\t'
  else none

/-- A unit after `\u`, together with a second one if the two form a pair. The
character is missing if the unit is half of a pair. -/
def readUnits (cs : List Char) : Option (Option Char × List Char) := do
  let (high, rest) ← readUnit cs
  if 0xD800 ≤ high ∧ high < 0xDC00 then
    match rest with
    | '\\' :: 'u' :: more =>
        let (low, after) ← readUnit more
        if 0xDC00 ≤ low ∧ low < 0xE000 then
          return (some (Char.ofNat (0x10000 + (high - 0xD800) * 0x400 + (low - 0xDC00))), after)
        else return (none, rest)
    | _ => return (none, rest)
  else if 0xDC00 ≤ high ∧ high < 0xE000 then return (none, rest)
  else return (some (Char.ofNat high), rest)

/-- The rest of a string, up to its quote. `whole` says that no half of a pair
was met. -/
def readString (fuel : Nat) (done : List Char) (whole : Bool) (cs : List Char) :
    Option (Option String × List Char) :=
  match fuel, cs with
  | 0, _ => none
  | _, [] => none
  | fuel + 1, c :: rest =>
      if c = '"' then
        some (if whole then some (String.ofList done.reverse) else none, rest)
      else if c = '\\' then
        match rest with
        | 'u' :: more =>
            match readUnits more with
            | some (some x, after) => readString fuel (x :: done) whole after
            | some (none, after) => readString fuel done false after
            | none => none
        | letter :: more =>
            match readLetter? letter with
            | some x => readString fuel (x :: done) whole more
            | none => none
        | [] => none
      else if c.toNat < 0x20 then none
      else readString fuel (c :: done) whole rest

/-- Take the digits at the front; there must be one. -/
def takeDigits (cs : List Char) : Option (List Char × List Char) :=
  match cs.takeWhile Char.isDigit with
  | [] => none
  | ds => some (ds, cs.dropWhile Char.isDigit)

/-- The digits before the point: a zero stands alone. -/
def readWhole : List Char → Option (List Char × List Char)
  | '0' :: rest => some (['0'], rest)
  | cs => takeDigits cs

/-- An optional point with digits. -/
def readFraction : List Char → Option (List Char × List Char)
  | '.' :: rest => (takeDigits rest).map fun (ds, after) => ('.' :: ds, after)
  | rest => some ([], rest)

/-- An optional exponent. -/
def readExponent : List Char → Option (List Char × List Char)
  | c :: rest =>
      if c = 'e' ∨ c = 'E' then
        match rest with
        | '+' :: more => (takeDigits more).map fun (ds, after) => (c :: '+' :: ds, after)
        | '-' :: more => (takeDigits more).map fun (ds, after) => (c :: '-' :: ds, after)
        | more => (takeDigits more).map fun (ds, after) => (c :: ds, after)
      else some ([], c :: rest)
  | [] => some ([], [])

/-- A number, as it is written. -/
def readNumber (cs : List Char) : Option (Json × List Char) := do
  let (sign, rest) := match cs with
    | '-' :: rest => (['-'], rest)
    | rest => ([], rest)
  let (whole, rest) ← readWhole rest
  let (fraction, rest) ← readFraction rest
  let (exponent, rest) ← readExponent rest
  return (number (String.ofList (sign ++ whole ++ fraction ++ exponent)), rest)

/-- The object of members that were read, unless a name is no text. -/
def ofMembers (members : List (Option String × Json)) : Json :=
  match members.mapM fun m => m.1.map fun name => (name, m.2) with
  | some members => object members
  | none => broken

mutual

/-- A document at the front of a text, and what follows it. -/
def readValue (fuel : Nat) (cs : List Char) : Option (Json × List Char) :=
  match fuel with
  | 0 => none
  | fuel + 1 =>
      match skipSpace cs with
      | 'n' :: 'u' :: 'l' :: 'l' :: rest => some (null, rest)
      | 't' :: 'r' :: 'u' :: 'e' :: rest => some (bool true, rest)
      | 'f' :: 'a' :: 'l' :: 's' :: 'e' :: rest => some (bool false, rest)
      | '"' :: rest =>
          match readString (rest.length + 1) [] true rest with
          | some (some text, after) => some (string text, after)
          | some (none, after) => some (broken, after)
          | none => none
      | '[' :: rest =>
          match skipSpace rest with
          | ']' :: after => some (array [], after)
          | rest => (readItems fuel rest).map fun (items, after) => (array items, after)
      | '\x7b' :: rest =>
          match skipSpace rest with
          | '\x7d' :: after => some (object [], after)
          | rest => (readMembers fuel rest).map fun (members, after) => (ofMembers members, after)
      | rest => readNumber rest

/-- Items up to the closing bracket; there is at least one. -/
def readItems (fuel : Nat) (cs : List Char) : Option (List Json × List Char) :=
  match fuel with
  | 0 => none
  | fuel + 1 =>
      match readValue fuel cs with
      | some (item, rest) =>
          match skipSpace rest with
          | ']' :: after => some ([item], after)
          | ',' :: after =>
              (readItems fuel after).map fun (items, after) => (item :: items, after)
          | _ => none
      | none => none

/-- Members up to the closing brace; there is at least one. -/
def readMembers (fuel : Nat) (cs : List Char) :
    Option (List (Option String × Json) × List Char) :=
  match fuel with
  | 0 => none
  | fuel + 1 =>
      match skipSpace cs with
      | '"' :: rest =>
          match readString (rest.length + 1) [] true rest with
          | some (name, rest) =>
              match skipSpace rest with
              | ':' :: rest =>
                  match readValue fuel rest with
                  | some (item, rest) =>
                      match skipSpace rest with
                      | '\x7d' :: after => some ([(name, item)], after)
                      | ',' :: after =>
                          (readMembers fuel after).map fun (members, after) =>
                            ((name, item) :: members, after)
                      | _ => none
                  | none => none
              | _ => none
          | none => none
      | _ => none

end

/-- Read a text as one document. -/
def ofText (text : String) : Option Json :=
  match readValue (2 * text.length + 2) text.toList with
  | some (document, rest) => if skipSpace rest = [] then some document else none
  | none => none

end AccountRoster.Json
