import AccountRoster.Number.Integer
import AccountRoster.Proofs.Text.Trimming

/-!
# Whole numbers read back

A numeral is digits behind an optional sign. It is read as its number if the range
holds that, and as out of range otherwise; nothing else is read at all. The decimal
form of a number is such a numeral. A numeral has no blanks, so there is nothing to trim.

## Implementation notes

The reader compares with the limit after every digit. As what was read only grows, this
comes to one comparison at the end, `readDigits_of_isDigit`, and what is said about whole
numerals rests on that.
-/

namespace AccountRoster

namespace Text

theorem isBlank_of_isDigit {c : Char} (h : c.isDigit = true) : isBlank c = false := by
  simp only [Char.isDigit, Bool.and_eq_true, decide_eq_true_eq] at h
  have hlow : 48 ≤ c.toNat := h.1
  have hhigh : c.toNat ≤ 57 := h.2
  simp only [isBlank, blankRanges, List.any_cons, List.any_nil, Bool.or_false,
    Bool.or_eq_false_iff, Bool.and_eq_false_iff, decide_eq_false_iff_not]
  omega

end Text

namespace IntegerRange

theorem holds_iff {r : IntegerRange} {n : Int} :
    r.holds n = true ↔ r.least ≤ n ∧ n ≤ r.greatest := by
  simp [holds]

theorem int32_holds (n : Int32) : int32.holds n.toInt = true :=
  holds_iff.mpr ⟨n.le_toInt, Int.le_of_lt_add_one n.toInt_lt⟩

theorem int64_holds (n : Int64) : int64.holds n.toInt = true :=
  holds_iff.mpr ⟨n.le_toInt, Int.le_of_lt_add_one n.toInt_lt⟩

theorem uint32_holds (n : UInt32) : uint32.holds n.toNat = true :=
  holds_iff.mpr ⟨Int.natCast_nonneg _, Int.ofNat_le.mpr (Nat.le_of_lt_succ n.toNat_lt)⟩

theorem uint64_holds (n : UInt64) : uint64.holds n.toNat = true :=
  holds_iff.mpr ⟨Int.natCast_nonneg _, Int.ofNat_le.mpr (Nat.le_of_lt_succ n.toNat_lt)⟩

theorem byte_holds (n : UInt8) : byte.holds n.toNat = true :=
  holds_iff.mpr ⟨Int.natCast_nonneg _, Int.ofNat_le.mpr (Nat.le_of_lt_succ n.toNat_lt)⟩

/-- A wider range holds what a narrower one does. -/
theorem holds_of_le {r s : IntegerRange} (hlow : s.least ≤ r.least)
    (hhigh : r.greatest ≤ s.greatest) {n : Int} (h : r.holds n = true) : s.holds n = true := by
  rw [holds_iff] at h ⊢
  exact ⟨Int.le_trans hlow h.1, Int.le_trans h.2 hhigh⟩

end IntegerRange

namespace Number

theorem natText_ne_nil (n : Nat) : natText n ≠ [] := Nat.toDigits_ne_nil

theorem intText_natCast (n : Nat) : intText n = natText n := rfl

theorem isDigit_of_mem_natText {n : Nat} {c : Char} (h : c ∈ natText n) : c.isDigit = true :=
  Nat.isDigit_of_mem_toDigits (by decide) (by decide) h

theorem isBlank_of_mem_natText {n : Nat} {c : Char} (h : c ∈ natText n) :
    Text.isBlank c = false :=
  Text.isBlank_of_isDigit (isDigit_of_mem_natText h)

/-- What is read so far only grows. -/
theorem le_ofDigitChars (cs : List Char) (n : Nat) : n ≤ Nat.ofDigitChars 10 cs n := by
  rw [Nat.ofDigitChars_eq_ofDigitChars_zero]
  have hpos : 0 < 10 ^ cs.length := Nat.pow_pos (by decide)
  have hle : n ≤ 10 ^ cs.length * n := Nat.le_mul_of_pos_left n hpos
  omega

/-- Digits are read as their value, unless that is beyond the limit. -/
theorem readDigits_of_isDigit {limit : Nat} {cs : List Char} (hcs : ∀ c ∈ cs, c.isDigit = true)
    {n : Nat} (hn : n ≤ limit) :
    readDigits limit n cs =
      if Nat.ofDigitChars 10 cs n ≤ limit then .ok (Nat.ofDigitChars 10 cs n)
      else .error .outOfRange := by
  induction cs generalizing n with
  | nil => exact (if_pos hn).symm
  | cons c rest ih =>
      rw [Nat.ofDigitChars_cons, readDigits, if_pos (hcs c List.mem_cons_self)]
      split
      next hle => exact ih (fun d hd => hcs d (List.mem_cons_of_mem c hd)) hle
      next hgt =>
        have hgrows := le_ofDigitChars rest (10 * n + digitValue c)
        exact (if_neg fun hle => hgt (Nat.le_trans hgrows hle)).symm

theorem isDigit_of_mem_readDigits {limit : Nat} {cs : List Char} {n m : Nat}
    (h : readDigits limit n cs = .ok m) {c : Char} (hc : c ∈ cs) : c.isDigit = true := by
  induction cs generalizing n with
  | nil => cases hc
  | cons first rest ih =>
      rw [readDigits] at h
      split at h
      next hdigit =>
        split at h
        · rcases List.mem_cons.mp hc with rfl | hc
          · exact hdigit
          · exact ih h hc
        · cases h
      next => cases h

/-! ### Digits -/

/-- At least one character, and digits only. -/
structure Digits (cs : List Char) : Prop where
  ne_nil : cs ≠ []
  isDigit : ∀ c ∈ cs, c.isDigit = true

theorem digits_natText (n : Nat) : Digits (natText n) :=
  ⟨natText_ne_nil n, fun _ hc => isDigit_of_mem_natText hc⟩

/-- Digits start with no sign. -/
theorem Digits.ne_sign {cs : List Char} (h : Digits cs) {sign : Char}
    (hsign : sign.isDigit = false) (rest : List Char) : cs ≠ sign :: rest := by
  rintro rfl
  rw [h.isDigit sign List.mem_cons_self] at hsign
  cases hsign

theorem readMagnitude_of_digits {cs : List Char} (h : Digits cs) (limit : Nat) :
    readMagnitude limit cs =
      if Nat.ofDigitChars 10 cs 0 ≤ limit then .ok (Nat.ofDigitChars 10 cs 0)
      else .error .outOfRange := by
  cases cs with
  | nil => exact absurd rfl h.ne_nil
  | cons c rest => exact readDigits_of_isDigit h.isDigit (Nat.zero_le limit)

theorem digits_of_readMagnitude {limit : Nat} {cs : List Char} {m : Nat}
    (h : readMagnitude limit cs = .ok m) : Digits cs ∧ Nat.ofDigitChars 10 cs 0 = m := by
  have hdigits : Digits cs := by
    cases cs with
    | nil => cases h
    | cons c rest => exact ⟨List.cons_ne_nil c rest, fun d hd => isDigit_of_mem_readDigits h hd⟩
  rw [readMagnitude_of_digits hdigits] at h
  split at h
  · exact ⟨hdigits, Except.ok.inj h⟩
  · cases h

theorem readMagnitude_natText {limit n : Nat} (h : n ≤ limit) :
    readMagnitude limit (natText n) = .ok n := by
  have hval : Nat.ofDigitChars 10 (natText n) 0 = n := Nat.ofDigitChars_ten_toDigits
  rw [readMagnitude_of_digits (digits_natText n), hval, if_pos h]

/-- Digits carry no sign. -/
theorem readInteger_of_digits {cs : List Char} (h : Digits cs) (r : IntegerRange) :
    readInteger r cs = (readMagnitude r.greatest.toNat cs).map Int.ofNat := by
  unfold readInteger
  split
  next rest => exact absurd rfl (h.ne_sign (by decide) rest)
  next rest => exact absurd rfl (h.ne_sign (by decide) rest)
  next => rfl

/-- A text that starts with a digit carries no sign. -/
theorem readInteger_natText {r : IntegerRange} {n : Nat} (h : (n : Int) ≤ r.greatest) :
    readInteger r (natText n) = .ok n := by
  rw [readInteger_of_digits (digits_natText n), readMagnitude_natText (by omega)]
  rfl

theorem readInteger_intText {r : IntegerRange} {n : Int} (hlow : r.least ≤ n)
    (hhigh : n ≤ r.greatest) : readInteger r (intText n) = .ok n := by
  cases n with
  | ofNat n => exact readInteger_natText hhigh
  | negSucc n =>
      have hneg : r.least < 0 := by omega
      have hread : readMagnitude r.least.natAbs (natText (n + 1)) = .ok (n + 1) :=
        readMagnitude_natText (by omega)
      rw [intText, readInteger, if_pos hneg, hread]
      rfl

/-- The text of a number is read within ranges that hold it. -/
theorem readWithin_intText {working target : IntegerRange} {n : Int}
    (hw : working.holds n = true) (ht : target.holds n = true) :
    readWithin working target (intText n) = .ok n := by
  have hrange := IntegerRange.holds_iff.mp hw
  rw [readWithin, readInteger_intText hrange.1 hrange.2]
  exact if_pos ht

theorem isBlank_of_mem_intText {n : Int} {c : Char} (h : c ∈ intText n) :
    Text.isBlank c = false := by
  cases n with
  | ofNat n => exact isBlank_of_mem_natText h
  | negSucc n =>
      rcases List.mem_cons.mp h with rfl | h
      · decide
      · exact isBlank_of_mem_natText h

theorem trim_intText (n : Int) : Text.trim (intText n) = intText n :=
  Text.trim_eq_self fun _ hc => isBlank_of_mem_intText hc

/-! ### Numerals -/

/-- A numeral and its number: digits behind an optional sign, which is a minus sign only
where that is allowed. -/
inductive Numeral (minus : Bool) : List Char → Int → Prop
  | unsigned {cs : List Char} (h : Digits cs) : Numeral minus cs (Nat.ofDigitChars 10 cs 0)
  | positive {cs : List Char} (h : Digits cs) :
      Numeral minus ('+' :: cs) (Nat.ofDigitChars 10 cs 0)
  | negative {cs : List Char} (hminus : minus = true) (h : Digits cs) :
      Numeral minus ('-' :: cs) (-(Nat.ofDigitChars 10 cs 0))

theorem numeral_intText (n : Int) : Numeral true (intText n) n := by
  have hval (m : Nat) : Nat.ofDigitChars 10 (natText m) 0 = m := Nat.ofDigitChars_ten_toDigits
  cases n with
  | ofNat n =>
      have h : Numeral true (natText n) _ := Numeral.unsigned (digits_natText n)
      rwa [hval] at h
  | negSucc n =>
      have h := Numeral.negative rfl (digits_natText (n + 1))
      rwa [hval] at h

section Numeral

variable {minus : Bool} {cs : List Char} {n : Int}

theorem Numeral.ne_nil (h : Numeral minus cs n) : cs ≠ [] := by
  cases h with
  | unsigned h => exact h.ne_nil
  | positive h => exact List.cons_ne_nil _ _
  | negative hminus h => exact List.cons_ne_nil _ _

theorem Numeral.isBlank_of_mem (h : Numeral minus cs n) {c : Char} (hc : c ∈ cs) :
    Text.isBlank c = false := by
  cases h with
  | unsigned h => exact Text.isBlank_of_isDigit (h.isDigit c hc)
  | positive h =>
      rcases List.mem_cons.mp hc with rfl | hc
      · decide
      · exact Text.isBlank_of_isDigit (h.isDigit c hc)
  | negative hminus h =>
      rcases List.mem_cons.mp hc with rfl | hc
      · decide
      · exact Text.isBlank_of_isDigit (h.isDigit c hc)

/-- A numeral has one number, whether a minus sign is allowed or not. -/
theorem Numeral.unique (h : Numeral minus cs n) {allowed : Bool} {m : Int}
    (hm : Numeral allowed cs m) : n = m := by
  cases h with
  | unsigned h =>
      cases hm with
      | unsigned => rfl
      | positive => exact absurd rfl (h.ne_sign (by decide) _)
      | negative => exact absurd rfl (h.ne_sign (by decide) _)
  | positive h =>
      cases hm with
      | unsigned hm => exact absurd rfl (hm.ne_sign (by decide) _)
      | positive => rfl
  | negative hminus h =>
      cases hm with
      | unsigned hm => exact absurd rfl (hm.ne_sign (by decide) _)
      | negative => rfl

variable {range working target : IntegerRange}

/-- A numeral is read as its number, unless the range does not hold that. -/
theorem readInteger_of_numeral (hzero : range.holds 0 = true)
    (h : Numeral (decide (range.least < 0)) cs n) :
    readInteger range cs = if range.holds n then .ok n else .error .outOfRange := by
  have hrange := IntegerRange.holds_iff.mp hzero
  have hpositive {digits : List Char} (hdigits : Digits digits) :
      (readMagnitude range.greatest.toNat digits).map Int.ofNat =
        if range.holds (Nat.ofDigitChars 10 digits 0) then
          .ok (Nat.ofDigitChars 10 digits 0 : Int)
        else .error .outOfRange := by
    have hholds : range.holds (Nat.ofDigitChars 10 digits 0) = true ↔
        Nat.ofDigitChars 10 digits 0 ≤ range.greatest.toNat := by
      rw [IntegerRange.holds_iff]
      omega
    rw [readMagnitude_of_digits hdigits]
    simp only [hholds]
    split <;> rfl
  cases h with
  | unsigned h => rw [readInteger_of_digits h, hpositive h]
  | positive h => exact hpositive h
  | @negative digits hminus h =>
      have hholds : range.holds (-(Nat.ofDigitChars 10 digits 0)) = true ↔
          Nat.ofDigitChars 10 digits 0 ≤ range.least.natAbs := by
        rw [IntegerRange.holds_iff]
        omega
      rw [readInteger, if_pos (of_decide_eq_true hminus), readMagnitude_of_digits h]
      simp only [hholds]
      split <;> rfl

/-- Nothing but numerals is read. -/
theorem numeral_of_readInteger (h : readInteger range cs = .ok n) :
    Numeral (decide (range.least < 0)) cs n := by
  have hread {limit : Nat} {digits : List Char} {make : Nat → Int}
      (h : (readMagnitude limit digits).map make = .ok n) :
      Digits digits ∧ make (Nat.ofDigitChars 10 digits 0) = n := by
    cases hdigits : readMagnitude limit digits with
    | error fault =>
        rw [hdigits] at h
        cases h
    | ok m =>
        obtain ⟨hall, hval⟩ := digits_of_readMagnitude hdigits
        rw [hdigits] at h
        exact ⟨hall, hval ▸ Except.ok.inj h⟩
  unfold readInteger at h
  split at h
  next =>
    obtain ⟨hdigits, rfl⟩ := hread h
    exact Numeral.positive hdigits
  next =>
    split at h
    next hneg =>
      obtain ⟨hdigits, rfl⟩ := hread h
      exact Numeral.negative (decide_eq_true hneg) hdigits
    next => cases h
  next =>
    obtain ⟨hdigits, rfl⟩ := hread h
    exact Numeral.unsigned hdigits

/-- Reading within a wider range first makes no difference to a numeral. -/
theorem readWithin_of_numeral (hzero : working.holds 0 = true)
    (hwide : target.holds n = true → working.holds n = true)
    (h : Numeral (decide (working.least < 0)) cs n) :
    readWithin working target cs = if target.holds n then .ok n else .error .outOfRange := by
  rw [readWithin, readInteger_of_numeral hzero h]
  by_cases hworking : working.holds n = true
  · rw [if_pos hworking]
  · rw [if_neg hworking, if_neg fun htarget => hworking (hwide htarget)]

theorem numeral_of_readWithin (h : readWithin working target cs = .ok n) :
    Numeral (decide (working.least < 0)) cs n ∧ target.holds n = true := by
  rw [readWithin] at h
  split at h
  next m hread =>
    split at h
    next hholds =>
      cases h
      exact ⟨numeral_of_readInteger hread, hholds⟩
    next => cases h
  next => cases h

end Numeral

end Number

end AccountRoster
