import AccountRoster.Number.DoubleText

/-! # JSON documents

A document is kept as it was written: members in order, repeated names
included, and numbers as their numerals. What a number or a repeated name means
is for the reader of a document to say.

## Implementation notes

An escape may name half of a surrogate pair. Such a string is well-formed but
is no text; `Json.broken` stands for it, and for an object with such a name. It
is harmless where nobody looks at it. -/

namespace AccountRoster

/-- A JSON document. -/
inductive Json where
  | null
  | bool (flag : Bool)
  | number (numeral : String)
  | string (text : String)
  | array (items : List Json)
  | object (members : List (String × Json))
  | broken

namespace Json

/-- A whole number. -/
def ofInt (n : Int) : Json := number (String.ofList (Number.intText n))

/-- A natural number. -/
def ofNat (n : Nat) : Json := number (String.ofList (Number.natText n))

/-- A text, or null. -/
def ofText? : Option String → Json
  | some text => string text
  | none => null

/-- Decimals with the point among so many digits are written without an exponent. -/
def plainDigits : Int := 16

/-- A magnitude from its digits and their exponent. The point is written out
within `plainDigits` digits, and up to four zeros right after it. -/
def decimalText (digits : List Char) (exponent : Int) : List Char :=
  let point := digits.length + exponent
  if 0 ≤ exponent ∧ point ≤ plainDigits then
    digits ++ List.replicate exponent.toNat '0' ++ ['.', '0']
  else if 0 < point ∧ point ≤ plainDigits then
    digits.take point.toNat ++ '.' :: digits.drop point.toNat
  else if -5 < point ∧ point ≤ 0 then
    ['0', '.'] ++ List.replicate (-point).toNat '0' ++ digits
  else
    (if digits.length ≤ 1 then digits else digits.take 1 ++ '.' :: digits.drop 1) ++
      'e' :: Number.intText (point - 1)

/-- A double as a number; only finite doubles have one. -/
def ofDouble : Double → Json
  | .nan => null
  | .signed negative code =>
      if code.val = Magnitude.infinity then null
      else
        let d := Double.shortest code.val
        let magnitude :=
          if code.val = 0 then ['0', '.', '0'] else decimalText (Number.natText d.1) d.2
        number (String.ofList ((if negative then ['-'] else []) ++ magnitude))

/-- A whole number in plain digits; zero with a minus sign is not one. -/
def int? : Json → Option Int
  | number numeral =>
      if numeral.toList = ['-', '0'] then none
      else if numeral.toList.all fun c => c.isDigit || c == '-' then
        match numeral.toList with
        | '-' :: digits => some (-Int.ofNat (Nat.ofDigitChars 10 digits 0))
        | digits => some (Int.ofNat (Nat.ofDigitChars 10 digits 0))
      else none
  | _ => none

/-- A string. -/
def text? : Json → Option String
  | string text => some text
  | _ => none

/-- A boolean. -/
def flag? : Json → Option Bool
  | bool flag => some flag
  | _ => none

/-- The members of an object. -/
def members? : Json → Option (List (String × Json))
  | object members => some members
  | _ => none

/-- The items of an array. -/
def items? : Json → Option (List Json)
  | array items => some items
  | _ => none

/-- The first member of a given name. -/
def member? (document : Json) (name : String) : Option Json :=
  document.members?.bind fun members => (members.find? fun m => m.1 == name).map Prod.snd

end Json

end AccountRoster
