/-! # Doubles

A double is not a number, or has a sign and a magnitude. Magnitudes are numbered
by codes in increasing order: code `0` is zero, each further code is the next
magnitude, and the last code is infinity. The weight of a code is its magnitude
in units of the least positive double, `2 ^ -1074`, so every finite weight is a
natural number.

## Implementation notes

The code of a magnitude is its interchange encoding without the sign bit, and
rounding is arithmetic on natural numbers: the nearest code to a fraction is
found between two neighbours. All patterns that are not a number are one value. -/

namespace AccountRoster

namespace Magnitude

/-- The code of infinity. -/
abbrev infinity : Nat := 0x7FF0000000000000

/-- How many codes lead from one power of two to the next. -/
def binade : Nat := 0x10000000000000

/-- The weight of one. -/
def one : Nat := Nat.pow 2 1074

/-- A magnitude in units of `2 ^ -1074`. -/
def weight (code : Nat) : Nat :=
  (code - (code / binade - 1) * binade) * Nat.pow 2 (code / binade - 1)

/-- The last code whose weight is at most `units`. -/
def codeBelow (units : Nat) : Nat :=
  (units.log2 - 52) * binade + units / Nat.pow 2 (units.log2 - 52)

/-- The code nearest to `num / den` units; halfway, the even one. -/
def nearest (num den : Nat) : Nat :=
  let code := codeBelow (num / den)
  let middle := (weight code + weight (code + 1)) * den
  if 2 * num < middle then code
  else if middle < 2 * num then code + 1
  else if code % 2 = 0 then code
  else code + 1

/-- Numbers with so many digits before the point are infinite. -/
def mostDigits : Int := 400

/-- The code nearest to `digits * 10 ^ exponent`. -/
def ofDecimal (digits : Nat) (exponent : Int) : Nat :=
  if digits = 0 then 0
  else if mostDigits < (Nat.toDigits 10 digits).length + exponent then infinity
  else if (Nat.toDigits 10 digits).length + exponent < -mostDigits then 0
  else
    match exponent with
    | .ofNat k => min infinity (nearest (digits * Nat.pow 10 k * one) 1)
    | .negSucc k => min infinity (nearest (digits * one) (Nat.pow 10 (k + 1)))

/-- The code nearest to the product of two magnitudes. -/
def product (a b : Nat) : Nat := min infinity (nearest (weight a * weight b) one)

end Magnitude

/-- A double-precision number; the code of its magnitude goes up to infinity. -/
inductive Double where
  | nan
  | signed (negative : Bool) (code : Fin (Magnitude.infinity + 1))
  deriving DecidableEq

namespace Double

/-- Equality of numbers: zeros are equal whatever their signs, and what is no
number equals nothing. -/
def agrees : Double → Double → Bool
  | signed s a, signed t b => decide (a = b) && (decide (s = t) || decide (a.val = 0))
  | _, _ => false

/-- Whether this is not a number. -/
def isNan : Double → Bool
  | nan => true
  | signed _ _ => false

/-- The double with a given sign and code. -/
def ofCode (negative : Bool) (code : Nat) : Double :=
  if h : code < Magnitude.infinity + 1 then signed negative ⟨code, h⟩ else nan

@[simp] theorem ofCode_val (negative : Bool) (code : Fin (Magnitude.infinity + 1)) :
    ofCode negative code.val = signed negative code := by
  simp [ofCode, code.isLt]

/-- The sign in the interchange encoding. -/
def signBit : Nat := 0x8000000000000000

/-- The interchange encoding; all that is no number has one pattern. -/
def toBits : Double → Nat
  | nan => 0x7FF8000000000000
  | signed negative code => (if negative then signBit else 0) + code.val

/-- The double of an interchange encoding. -/
def ofBits (bits : Nat) : Double :=
  ofCode (decide (signBit ≤ bits)) (bits % signBit)

@[simp] theorem agrees_self {d : Double} (h : d.isNan = false) : d.agrees d = true := by
  cases d with
  | nan => simp [isNan] at h
  | signed s a => simp [agrees]

@[simp] theorem ofBits_toBits (d : Double) : ofBits d.toBits = d := by
  cases d with
  | nan => decide
  | signed s a =>
      have h := a.isLt
      have hlt : a.val < signBit := Nat.lt_of_lt_of_le h (by decide)
      cases s
      · have hmod : (0 + a.val) % signBit = a.val := by
          rw [Nat.zero_add, Nat.mod_eq_of_lt hlt]
        have hsign : ¬ signBit ≤ 0 + a.val := by omega
        rw [ofBits, toBits, if_neg Bool.false_ne_true, hmod, ofCode_val, decide_eq_false hsign]
      · have hmod : (signBit + a.val) % signBit = a.val := by
          rw [Nat.add_mod_left, Nat.mod_eq_of_lt hlt]
        have hsign : signBit ≤ signBit + a.val := by omega
        rw [ofBits, toBits, if_pos rfl, hmod, ofCode_val, decide_eq_true hsign]

end Double

end AccountRoster
