import AccountRoster.Proofs.Codec.RoundTrip
import AccountRoster.Proofs.Text.Trimming

/-!
# Whole numbers of every width

Five types have whole numbers as their values, each within a range of its own. A text
is read as a number of such a type exactly if it is a numeral, with blanks around it at
most, and the range of the type holds its number. A numeral beyond the range is out of
range, any other text is some fault, and no number ever wraps. So a number can be
converted to another of these types exactly if that type holds it.

## Implementation notes

Two of the types read their numbers within a wider range first, and a minus sign is
allowed where that range goes below zero. `Reads` says this of a type once; what is
proved from it holds for all five.
-/

namespace AccountRoster

/-- The whole numbers that a type holds, if it is a type of whole numbers. -/
def ValueType.range? : ValueType → Option IntegerRange
  | .int32 => some .int32
  | .int64 => some .int64
  | .uint32 => some .uint32
  | .uint64 => some .uint64
  | .byte => some .byte
  | _ => none

/-- Whether the numerals of a type may have a minus sign. -/
def ValueType.allowsMinus : ValueType → Bool
  | .int32 | .int64 | .byte => true
  | _ => false

/-- The whole number that a value is. -/
def Value.number? : Value → Option Int
  | .int32 n => some n.toInt
  | .int64 n => some n.toInt
  | .uint32 n => some n.toNat
  | .uint64 n => some n.toNat
  | .byte n => some n.toNat
  | _ => none

/-- A text is a numeral of a type with blanks around it, and the number is that of the
numeral. -/
def Text.Spells (text : String) (type : ValueType) (n : Int) : Prop :=
  ∃ front numeral back, text.toList = front ++ (numeral ++ back) ∧ Text.AllBlank front ∧
    Text.AllBlank back ∧ Number.Numeral type.allowsMinus numeral n

namespace Codec

variable {type : ValueType} {range : IntegerRange} {text : String} {n : Int}

/-- The numeral of a text is what trimming leaves, since a numeral has no blanks. -/
theorem spells_iff :
    Text.Spells text type n ↔ Number.Numeral type.allowsMinus (Text.trim text.toList) n := by
  constructor
  · rintro ⟨front, numeral, back, htext, hfront, hback, hnumeral⟩
    have hedges := Text.noBlank_of_forall fun _ hc => hnumeral.isBlank_of_mem hc
    have htrim : Text.trim text.toList = numeral :=
      (Text.trim_eq_iff hnumeral.ne_nil).mpr ⟨⟨front, back, hfront, hback, htext⟩, hedges⟩
    rwa [htrim]
  · intro hnumeral
    obtain ⟨⟨front, back, hfront, hback, htext⟩, -⟩ :=
      (Text.trim_eq_iff hnumeral.ne_nil).mp (rfl : Text.trim text.toList = _)
    exact ⟨front, _, back, htext, hfront, hback, hnumeral⟩

/-! ### Values from numbers -/

theorem number?_int32 (h : IntegerRange.int32.holds n = true) :
    (Value.int32 (.ofInt n)).number? = some n := by
  obtain ⟨hlow, hhigh⟩ := IntegerRange.holds_iff.mp h
  exact congrArg some (Int32.toInt_ofInt_of_le hlow (Int.lt_add_one_of_le hhigh))

theorem number?_int64 (h : IntegerRange.int64.holds n = true) :
    (Value.int64 (.ofInt n)).number? = some n := by
  obtain ⟨hlow, hhigh⟩ := IntegerRange.holds_iff.mp h
  exact congrArg some (Int64.toInt_ofInt_of_le hlow (Int.lt_add_one_of_le hhigh))

/-- A range from zero up to a number below `size` holds natural numbers below it. -/
theorem toNat_of_holds (size : Nat) (hleast : range.least = 0)
    (hgreatest : range.greatest + 1 = size) (h : range.holds n = true) :
    n.toNat < size ∧ (n.toNat : Int) = n := by
  obtain ⟨hlow, hhigh⟩ := IntegerRange.holds_iff.mp h
  omega

theorem number?_uint32 (h : IntegerRange.uint32.holds n = true) :
    (Value.uint32 (.ofNat n.toNat)).number? = some n := by
  obtain ⟨hlt, hself⟩ := toNat_of_holds UInt32.size rfl rfl h
  rw [Value.number?, UInt32.toNat_ofNat_of_lt' hlt, hself]

theorem number?_uint64 (h : IntegerRange.uint64.holds n = true) :
    (Value.uint64 (.ofNat n.toNat)).number? = some n := by
  obtain ⟨hlt, hself⟩ := toNat_of_holds UInt64.size rfl rfl h
  rw [Value.number?, UInt64.toNat_ofNat_of_lt' hlt, hself]

theorem number?_byte (h : IntegerRange.byte.holds n = true) :
    (Value.byte (.ofNat n.toNat)).number? = some n := by
  obtain ⟨hlt, hself⟩ := toNat_of_holds UInt8.size rfl rfl h
  rw [Value.number?, UInt8.toNat_ofNat_of_lt' hlt, hself]

/-- The number of a value is one that its type holds. -/
theorem holds_of_number? {v : Value} (h : v.number? = some n) :
    ∃ range, v.type.range? = some range ∧ range.holds n = true := by
  cases v with
  | int32 k =>
      cases h
      exact ⟨_, rfl, IntegerRange.int32_holds k⟩
  | int64 k =>
      cases h
      exact ⟨_, rfl, IntegerRange.int64_holds k⟩
  | uint32 k =>
      cases h
      exact ⟨_, rfl, IntegerRange.uint32_holds k⟩
  | uint64 k =>
      cases h
      exact ⟨_, rfl, IntegerRange.uint64_holds k⟩
  | byte k =>
      cases h
      exact ⟨_, rfl, IntegerRange.byte_holds k⟩
  | _ => cases h

/-- A whole number is stored in decimal, whatever its type. -/
theorem escape_of_number? {codec : Codec} {v : Value} (h : v.number? = some n) :
    codec.escape v = String.ofList (Number.intText n) := by
  cases v with
  | int32 k => cases h; rfl
  | int64 k => cases h; rfl
  | uint32 k => cases h; rfl
  | uint64 k => cases h; rfl
  | byte k => cases h; rfl
  | _ => cases h

/-! ### Reading -/

/-- How a type reads its numbers: within a range that is wide enough for those that it
holds, each of which makes a value. -/
structure Reads (type : ValueType) (range working : IntegerRange) (make : Int → Value) :
    Prop where
  unescape : ∀ (codec : Codec) (text : String),
    codec.unescape text type = make <$> readInteger working range type text
  minus : type.allowsMinus = decide (working.least < 0)
  zero : working.holds 0 = true
  wide : ∀ n, range.holds n = true → working.holds n = true
  makes : ∀ n, range.holds n = true → (make n).type = type ∧ (make n).number? = some n

theorem exists_reads (h : type.range? = some range) :
    ∃ working make, Reads type range working make := by
  cases type with
  | int32 =>
      cases h
      exact ⟨.int32, fun n => .int32 (.ofInt n), fun _ _ => bind_pure_comp _ _, by decide,
        by decide, fun _ hn => hn, fun _ hn => ⟨rfl, number?_int32 hn⟩⟩
  | int64 =>
      cases h
      exact ⟨.int64, fun n => .int64 (.ofInt n), fun _ _ => bind_pure_comp _ _, by decide,
        by decide, fun _ hn => hn, fun _ hn => ⟨rfl, number?_int64 hn⟩⟩
  | uint32 =>
      cases h
      have hwide {n : Int} (hn : IntegerRange.uint32.holds n = true) :
          IntegerRange.uint64.holds n = true :=
        IntegerRange.holds_of_le (by decide) (by decide) hn
      exact ⟨.uint64, fun n => .uint32 (.ofNat n.toNat), fun _ _ => bind_pure_comp _ _, by decide,
        by decide, fun _ => hwide, fun _ hn => ⟨rfl, number?_uint32 hn⟩⟩
  | uint64 =>
      cases h
      exact ⟨.uint64, fun n => .uint64 (.ofNat n.toNat), fun _ _ => bind_pure_comp _ _, by decide,
        by decide, fun _ hn => hn, fun _ hn => ⟨rfl, number?_uint64 hn⟩⟩
  | byte =>
      cases h
      have hwide {n : Int} (hn : IntegerRange.byte.holds n = true) :
          IntegerRange.int32.holds n = true :=
        IntegerRange.holds_of_le (by decide) (by decide) hn
      exact ⟨.int32, fun n => .byte (.ofNat n.toNat), fun _ _ => bind_pure_comp _ _, by decide,
        by decide, fun _ => hwide, fun _ hn => ⟨rfl, number?_byte hn⟩⟩
  | _ => cases h

section Reads

variable {working : IntegerRange} {make : Int → Value} (hreads : Reads type range working make)
  (codec : Codec)

include hreads

/-- A numeral is read as its number, or is out of range. -/
theorem unescape_of_spells (h : Text.Spells text type n) :
    codec.unescape text type =
      if range.holds n then .ok (make n) else .error (.outOfRange text type) := by
  have hnumeral := spells_iff.mp h
  rw [hreads.minus] at hnumeral
  rw [hreads.unescape, readInteger,
    Number.readWithin_of_numeral hreads.zero (hreads.wide n) hnumeral]
  by_cases hholds : range.holds n = true
  · rw [if_pos hholds, if_pos hholds]
    rfl
  · rw [if_neg hholds, if_neg hholds]
    rfl

/-- Nothing but the numeral of a number that the type holds is read. -/
theorem spells_of_unescape {v : Value} (h : codec.unescape text type = .ok v) :
    ∃ n, Text.Spells text type n ∧ range.holds n = true ∧ v = make n := by
  rw [hreads.unescape, readInteger] at h
  split at h
  next n hread =>
    cases h
    obtain ⟨hnumeral, hholds⟩ := Number.numeral_of_readWithin hread
    rw [← hreads.minus] at hnumeral
    exact ⟨n, spells_iff.mpr hnumeral, hholds, rfl⟩
  next => cases h

theorem unescape_eq_ok_iff :
    (∃ v, codec.unescape text type = .ok v ∧ v.type = type ∧ v.number? = some n) ↔
      Text.Spells text type n ∧ range.holds n = true := by
  constructor
  · rintro ⟨v, hread, -, hnumber⟩
    obtain ⟨m, htext, hholds, rfl⟩ := spells_of_unescape hreads codec hread
    rw [(hreads.makes m hholds).2] at hnumber
    cases hnumber
    exact ⟨htext, hholds⟩
  · rintro ⟨htext, hholds⟩
    refine ⟨make n, ?_, hreads.makes n hholds⟩
    rw [unescape_of_spells hreads codec htext, if_pos hholds]

/-- The decimal form of a number is read exactly if the type holds the number. -/
theorem unescape_intText_eq_ok_iff {v : Value} :
    codec.unescape (String.ofList (Number.intText n)) type = .ok v ↔
      range.holds n = true ∧ v = make n := by
  constructor
  · intro h
    obtain ⟨m, htext, hholds, rfl⟩ := spells_of_unescape hreads codec h
    have hnumeral := spells_iff.mp htext
    rw [String.toList_ofList, Number.trim_intText] at hnumeral
    obtain rfl : m = n := hnumeral.unique (Number.numeral_intText n)
    exact ⟨hholds, rfl⟩
  · rintro ⟨hholds, rfl⟩
    rw [hreads.unescape, readInteger_intText (hreads.wide n hholds) hholds]
    rfl

end Reads

/-- A number is converted exactly if the type holds it, and is the same number then. -/
theorem coerce_of_number? (codec : Codec) (hrange : type.range? = some range) {v : Value}
    (h : v.number? = some n) :
    ((∃ w, codec.coerce v type = .ok w) ↔ range.holds n = true) ∧
      ∀ w, codec.coerce v type = .ok w → w.type = type ∧ w.number? = some n := by
  by_cases htype : v.type = type
  · subst htype
    obtain ⟨own, hown, hholds⟩ := holds_of_number? h
    rw [hrange] at hown
    cases hown
    rw [coerce_type]
    refine ⟨iff_of_true ⟨v, rfl⟩ hholds, fun w hw => ?_⟩
    cases hw
    exact ⟨rfl, h⟩
  · obtain ⟨working, make, hreads⟩ := exists_reads hrange
    rw [coerce, if_neg htype, escape_of_number? h]
    simp only [unescape_intText_eq_ok_iff hreads]
    constructor
    · rw [exists_and_left]
      exact and_iff_left ⟨make n, rfl⟩
    · rintro w ⟨hholds, rfl⟩
      exact hreads.makes n hholds

/-- A text is read as a number of a type of whole numbers exactly if it is a numeral, with
blanks around it at most, and the type holds its number. If the type does not hold it, the
number is out of range, and any other text is a fault as well. So a number is converted
between such types exactly if the target holds it, and it stays the same number. -/
theorem whole_numbers_exact (codec : Codec) (hrange : type.range? = some range) :
    (∀ text n, (∃ v, codec.unescape text type = .ok v ∧ v.type = type ∧ v.number? = some n) ↔
        Text.Spells text type n ∧ range.holds n = true) ∧
      (∀ text n, Text.Spells text type n → range.holds n = false →
        codec.unescape text type = .error (.outOfRange text type)) ∧
      (∀ text, (∀ n, ¬Text.Spells text type n) →
        ∃ fault, codec.unescape text type = .error fault) ∧
      ∀ (v : Value) n, v.number? = some n →
        ((∃ w, codec.coerce v type = .ok w) ↔ range.holds n = true) ∧
          ∀ w, codec.coerce v type = .ok w → w.type = type ∧ w.number? = some n := by
  obtain ⟨working, make, hreads⟩ := exists_reads hrange
  refine ⟨fun text n => unescape_eq_ok_iff hreads codec, ?_, ?_, ?_⟩
  · intro text n htext hholds
    rw [unescape_of_spells hreads codec htext, hholds]
    rfl
  · intro text hnone
    cases hread : codec.unescape text type with
    | error fault => exact ⟨fault, rfl⟩
    | ok v =>
        obtain ⟨n, htext, -⟩ := spells_of_unescape hreads codec hread
        exact absurd htext (hnone n)
  · intro v n hnumber
    exact coerce_of_number? codec hrange hnumber

/-- A byte is read with a sign, zeros and blanks around it; the next number is out of its
range, also where it comes from another type. -/
theorem whole_numbers_exact_byte :
    (∃ v, (Codec.mk ',').unescape " +0255\n" .byte = .ok v ∧
        v.type = .byte ∧ v.number? = some 255) ∧
      (Codec.mk ',').unescape "256" .byte = .error (.outOfRange "256" .byte) ∧
      ¬∃ w, (Codec.mk ',').coerce (.int64 256) .byte = .ok w := by
  have hrange : ValueType.byte.range? = some .byte := rfl
  obtain ⟨hread, hbeyond, -, hcoerce⟩ := whole_numbers_exact (Codec.mk ',') hrange
  refine ⟨(hread " +0255\n" 255).mpr ⟨?_, by decide⟩, hbeyond "256" 256 ?_ (by decide), ?_⟩
  · refine spells_iff.mpr ?_
    rw [show Text.trim " +0255\n".toList = ['+', '0', '2', '5', '5'] by decide]
    exact Number.Numeral.positive ⟨by decide, List.all_eq_true.mp rfl⟩
  · refine spells_iff.mpr ?_
    rw [show Text.trim "256".toList = ['2', '5', '6'] by decide]
    exact Number.Numeral.unsigned ⟨by decide, List.all_eq_true.mp rfl⟩
  · rw [(hcoerce (.int64 256) 256 rfl).1]
    decide

end Codec

end AccountRoster
