/-! # Whole numbers as text

A whole number is written in decimal, with a minus sign when it is negative. It
is read within a range: digits are taken from left to right, and the first one
that is no digit, or that leads out of the range, settles the fault.

## Implementation notes

Reading is exact: it works on natural numbers and compares with the limit after
every digit, so nothing wraps. -/

namespace AccountRoster

/-- Why a text is no number of the wanted kind. -/
inductive NumeralFault where
  | malformed
  | outOfRange
  deriving DecidableEq, Repr

/-- The whole numbers from `least` to `greatest`. -/
structure IntegerRange where
  least : Int
  greatest : Int
  deriving DecidableEq, Repr

namespace IntegerRange

/-- Signed numbers of 32 bits. -/
def int32 : IntegerRange := ⟨-2147483648, 2147483647⟩

/-- Signed numbers of 64 bits. -/
def int64 : IntegerRange := ⟨-9223372036854775808, 9223372036854775807⟩

/-- Numbers of 8 bits. -/
def byte : IntegerRange := ⟨0, 255⟩

/-- Numbers of 32 bits. -/
def uint32 : IntegerRange := ⟨0, 4294967295⟩

/-- Numbers of 64 bits. -/
def uint64 : IntegerRange := ⟨0, 18446744073709551615⟩

/-- Whether a number lies in the range. -/
def holds (r : IntegerRange) (n : Int) : Bool :=
  decide (r.least ≤ n) && decide (n ≤ r.greatest)

end IntegerRange

namespace Number

/-- The number that a digit stands for. -/
def digitValue (c : Char) : Nat := c.toNat - '0'.toNat

/-- Read digits after a number that is already there, up to `limit`. -/
def readDigits (limit : Nat) : Nat → List Char → Except NumeralFault Nat
  | n, [] => .ok n
  | n, c :: rest =>
      if c.isDigit then
        if 10 * n + digitValue c ≤ limit then readDigits limit (10 * n + digitValue c) rest
        else .error .outOfRange
      else .error .malformed

/-- Read at least one digit. -/
def readMagnitude (limit : Nat) : List Char → Except NumeralFault Nat
  | [] => .error .malformed
  | cs => readDigits limit 0 cs

/-- Read an optional sign and digits; a minus sign needs a range below zero. -/
def readInteger (r : IntegerRange) : List Char → Except NumeralFault Int
  | '+' :: rest => (readMagnitude r.greatest.toNat rest).map Int.ofNat
  | '-' :: rest =>
      if r.least < 0 then
        (readMagnitude r.least.natAbs rest).map fun n => -Int.ofNat n
      else .error .malformed
  | cs => (readMagnitude r.greatest.toNat cs).map Int.ofNat

/-- Read within `working`, then ask that the number lies in `final`. -/
def readWithin (working target : IntegerRange) (cs : List Char) :
    Except NumeralFault Int :=
  match readInteger working cs with
  | .ok n => if target.holds n then .ok n else .error .outOfRange
  | .error fault => .error fault

/-- The decimal form of a natural number. -/
def natText (n : Nat) : List Char := Nat.toDigits 10 n

/-- The decimal form of a whole number. -/
def intText : Int → List Char
  | .ofNat n => natText n
  | .negSucc n => '-' :: natText (n + 1)

example : readInteger .int32 "+007".toList = .ok 7 := rfl

example : readInteger .int32 "99999999999x".toList = .error .outOfRange := rfl

example : readInteger .uint64 "-0".toList = .error .malformed := rfl

example : intText (-120) = ['-', '1', '2', '0'] := by decide

end Number

end AccountRoster
