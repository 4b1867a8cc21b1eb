import AccountRoster.Number.Double
import AccountRoster.Number.Integer

/-! # Doubles as text

A double is read from an optional sign and either a word (`inf`, `infinity`,
`nan`, in any case) or a decimal with an optional point and exponent. It is
written without an exponent, with the fewest digits that read back as the same
double; of two such decimals the nearer is taken, and halfway the upper one.

## Implementation notes

A candidate is accepted by reading its own text, so what is written reads back
by construction. Seventeen digits are always enough; the exact decimal stands
behind them to make the search total. -/

namespace AccountRoster.Double

open Magnitude

/-- An exponent after the digits of a decimal; nothing means zero. -/
def readExponent : List Char → Option Int
  | [] => some 0
  | c :: rest =>
      if c = 'e' ∨ c = 'E' then
        match rest with
        | '-' :: ds => (readPlaces ds).map fun n => -Int.ofNat n
        | '+' :: ds => (readPlaces ds).map Int.ofNat
        | ds => (readPlaces ds).map Int.ofNat
      else none
where
  /-- At least one digit and nothing else. -/
  readPlaces (ds : List Char) : Option Nat :=
    if ds ≠ [] ∧ ds.all Char.isDigit then some (Nat.ofDigitChars 10 ds 0) else none

/-- The digits after a point, and what follows them. -/
def readFraction : List Char → List Char × List Char
  | '.' :: rest => (rest.takeWhile Char.isDigit, rest.dropWhile Char.isDigit)
  | rest => ([], rest)

/-- The code of a decimal without a sign. -/
def readDecimal (cs : List Char) : Option Nat :=
  let whole := cs.takeWhile Char.isDigit
  let fraction := readFraction (cs.dropWhile Char.isDigit)
  if whole ++ fraction.1 = [] then none
  else (readExponent fraction.2).map fun exponent =>
    ofDecimal (Nat.ofDigitChars 10 (whole ++ fraction.1) 0) (exponent - fraction.1.length)

/-- A double without its sign: a word or a decimal. -/
def readUnsigned (negative : Bool) (cs : List Char) : Option Double :=
  let word := cs.map Char.toLower
  if word = ['n', 'a', 'n'] then some nan
  else if word = ['i', 'n', 'f'] ∨ word = ['i', 'n', 'f', 'i', 'n', 'i', 't', 'y'] then
    some (ofCode negative infinity)
  else (readDecimal cs).map (ofCode negative)

/-- Read a double. -/
def read : List Char → Option Double
  | '-' :: rest => readUnsigned true rest
  | '+' :: rest => readUnsigned false rest
  | cs => readUnsigned false cs

/-- The decimal `digits * 10 ^ exponent` without an exponent. -/
def positional (digits : Nat) : Int → List Char
  | .ofNat k => Number.natText digits ++ List.replicate k '0'
  | .negSucc k =>
      let ds := Number.natText digits
      let padded := List.replicate (k + 2 - ds.length) '0' ++ ds
      padded.take (padded.length - (k + 1)) ++ '.' :: padded.drop (padded.length - (k + 1))

/-- How many digits stand before the point, counted down below zero for zeros
right after it. -/
def pointPlace (code : Nat) : Int :=
  (Number.natText (weight code * Nat.pow 10 400 / one)).length - 400

/-- The magnitude of a code in units of `10 ^ exponent`, rounded down. -/
def unitsBelow (code : Nat) : Int → Nat
  | .ofNat k => weight code / (one * Nat.pow 10 k)
  | .negSucc k => weight code * Nat.pow 10 (k + 1) / one

/-- Whether twice the magnitude of a code reaches `middle * 10 ^ exponent`. -/
def reaches (code middle : Nat) : Int → Bool
  | .ofNat k => decide (middle * Nat.pow 10 k * one ≤ 2 * weight code)
  | .negSucc k => decide (middle * one ≤ 2 * weight code * Nat.pow 10 (k + 1))

/-- A decimal whose last digit is not zero, if one step is enough for that. -/
def withoutZero (digits : Nat) (exponent : Int) : Nat × Int :=
  if digits % 10 = 0 then (digits / 10, exponent + 1) else (digits, exponent)

/-- Whether the text of a decimal reads back as a code. -/
def readsBack (code : Nat) (d : Nat × Int) : Bool :=
  decide (readDecimal (positional d.1 d.2) = some code)

/-- The decimal of the given number of digits that stands for a code. -/
def decimalOf? (code count : Nat) : Option (Nat × Int) :=
  let exponent := pointPlace code - count
  let units := unitsBelow code exponent
  let lower := withoutZero units exponent
  let upper := withoutZero (units + 1) exponent
  if readsBack code lower then
    if readsBack code upper ∧ reaches code (2 * units + 1) exponent then some upper
    else some lower
  else if readsBack code upper then some upper
  else none

/-- The decimal with the fewest digits that stands for a code. -/
def shortest (code : Nat) : Nat × Int :=
  if code = 0 then (0, 0)
  else ((List.range 17).findSome? fun n => decimalOf? code (n + 1)).getD
    (weight code * Nat.pow 5 1074, -1074)

/-- The text of a magnitude. -/
def magnitudeText (code : Nat) : List Char :=
  if code = infinity then ['i', 'n', 'f']
  else positional (shortest code).1 (shortest code).2

/-- Write a double. -/
def text : Double → List Char
  | nan => ['N', 'a', 'N']
  | signed negative code =>
      (if negative then ['-'] else []) ++ magnitudeText code.val

example : (ofBits 0x3FB999999999999A).text = "0.1".toList := by decide +kernel

example : (ofBits 0x8000000000000001).text.length = 327 := by decide +kernel

example : read "1e400".toList = some (ofCode false infinity) := by decide +kernel

end AccountRoster.Double
