import AccountRoster.Json

/-! # Documents that are kept

A document whose meaning depends on what comes after it is kept until then. Its
containers must not nest too deep, its strings must be texts, and its numbers
must be in range.

## Implementation notes

A number is kept as a significand of 64 bits and a power of ten. Each of the two
is rounded to a double before they are multiplied, so next to the greatest
double a number may be out of range although the double nearest to it is not. -/

namespace AccountRoster.Json

/-- How many containers may enclose a value that is kept, itself included. -/
def deepest : Nat := 127

mutual

/-- How many containers a document nests. -/
def depth : Json → Nat
  | array items => depthItems items + 1
  | object members => depthMembers members + 1
  | _ => 0

/-- The depth of the deepest item. -/
def depthItems : List Json → Nat
  | [] => 0
  | item :: rest => max (depth item) (depthItems rest)

/-- The depth of the deepest member. -/
def depthMembers : List (String × Json) → Nat
  | [] => 0
  | (_, item) :: rest => max (depth item) (depthMembers rest)

end

/-- The greatest significand. -/
def greatestSignificand : Nat := 0xFFFFFFFFFFFFFFFF

/-- The greatest power of ten that a double holds. -/
def greatestPower : Nat := 308

/-- Extend a significand by digits for as long as it fits; the digits from the
first that does not are left. -/
def extend (significand : Nat) : List Char → Nat × List Char
  | [] => (significand, [])
  | c :: rest =>
      let next := Nat.ofDigitChars 10 [c] significand
      if next ≤ greatestSignificand then extend next rest else (significand, c :: rest)

/-- The significand and the power of ten of a number. Left digits before the point
count as zeros, those after it as nothing. -/
def scaled (whole fraction : List Char) (exponent : Int) : Nat × Int :=
  let (significand, zeros) := extend 0 whole
  let (significand, left) := extend significand fraction
  (significand, exponent + zeros.length - (fraction.length - left.length))

/-- Whether a significand times a power of ten is finite, each rounded before. -/
def isFinite (significand : Nat) : Int → Bool
  | .negSucc _ => true
  | .ofNat power =>
      decide (significand = 0) ||
        (decide (power ≤ greatestPower) &&
          decide (Magnitude.product (Magnitude.ofDecimal significand 0)
            (Magnitude.ofDecimal 1 power) ≠ Magnitude.infinity))

/-- Whether a numeral is in range. -/
def isInRange (numeral : String) : Bool :=
  let magnitude := numeral.toList.dropWhile fun c => c == '-'
  let whole := magnitude.takeWhile Char.isDigit
  let fraction := Double.readFraction (magnitude.dropWhile Char.isDigit)
  match Double.readExponent fraction.2 with
  | none => false
  | some exponent =>
      let number := scaled whole fraction.1 exponent
      isFinite number.1 number.2

mutual

/-- Whether all strings are texts and all numbers are in range. -/
def isPlain : Json → Bool
  | broken => false
  | number numeral => isInRange numeral
  | array items => isPlainItems items
  | object members => isPlainMembers members
  | _ => true

/-- Whether all items are plain. -/
def isPlainItems : List Json → Bool
  | [] => true
  | item :: rest => isPlain item && isPlainItems rest

/-- Whether all members are plain. -/
def isPlainMembers : List (String × Json) → Bool
  | [] => true
  | (_, item) :: rest => isPlain item && isPlainMembers rest

end

/-- Whether a value inside so many containers can be kept for later. -/
def canKeep (enclosing : Nat) (document : Json) : Bool :=
  document.isPlain && decide (enclosing + document.depth ≤ deepest)

example : isInRange "1.7976931348623157e308" = true := by decide +kernel

example : isInRange "1.7976931348623158e308" = false := by decide +kernel

example : isInRange "0.00001e312" = true := by decide +kernel

example : isInRange "0e400" = true := by decide +kernel

end AccountRoster.Json
