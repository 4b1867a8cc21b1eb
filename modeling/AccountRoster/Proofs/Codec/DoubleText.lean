import AccountRoster.Number.DoubleText
import AccountRoster.Proofs.Codec.Magnitude
import AccountRoster.Proofs.Codec.Numeral
import Mathlib.Data.List.TakeWhile

/-!
# Doubles read back

The decimal that a search settles on has been read back already; behind the
search stands the exact decimal, and that one reads back because a fraction of
exactly the weight of a code is rounded to it. So every double but the one that
is no number is what its text says.
-/

namespace AccountRoster.Double

open Magnitude

theorem takeWhile_isDigit_append {ds : List Char} (hds : ∀ c ∈ ds, c.isDigit = true)
    (rest : List Char) :
    (ds ++ '.' :: rest).takeWhile Char.isDigit = ds ∧
      (ds ++ '.' :: rest).dropWhile Char.isDigit = '.' :: rest := by
  constructor
  · rw [List.takeWhile_append_of_pos hds]
    simp
  · rw [List.dropWhile_append_of_pos hds]
    simp

/-- Digits around a point are a decimal with as many places as stand after it. -/
theorem readDecimal_point {whole fraction : List Char} (hne : whole ≠ [])
    (hw : ∀ c ∈ whole, c.isDigit = true) (hf : ∀ c ∈ fraction, c.isDigit = true) :
    readDecimal (whole ++ '.' :: fraction) =
      some (ofDecimal (Nat.ofDigitChars 10 (whole ++ fraction) 0) (-fraction.length)) := by
  obtain ⟨htake, hdrop⟩ := takeWhile_isDigit_append hw fraction
  have htake' : fraction.takeWhile Char.isDigit = fraction := List.takeWhile_eq_self_iff.mpr hf
  have hdrop' : fraction.dropWhile Char.isDigit = [] := List.dropWhile_eq_nil_iff.mpr hf
  simp [readDecimal, htake, hdrop, readFraction, htake', hdrop', readExponent, hne]

/-- A decimal with places after the point has a digit before it, and exactly
those places behind it; zeros at the front do not change its value. -/
theorem positional_negSucc (digits k : Nat) :
    ∃ whole fraction, positional digits (.negSucc k) = whole ++ '.' :: fraction ∧
      whole ≠ [] ∧ (∀ c ∈ whole, c.isDigit = true) ∧ (∀ c ∈ fraction, c.isDigit = true) ∧
      fraction.length = k + 1 ∧ Nat.ofDigitChars 10 (whole ++ fraction) 0 = digits := by
  let ds := Number.natText digits
  let padded := List.replicate (k + 2 - ds.length) '0' ++ ds
  have hdigit : ∀ c ∈ padded, c.isDigit = true := by
    intro c hc
    rcases List.mem_append.mp hc with hc | hc
    · rw [(List.mem_replicate.mp hc).2]
      decide
    · exact Number.isDigit_of_mem_natText hc
  have hlen : k + 2 ≤ padded.length := by
    simp only [padded, List.length_append, List.length_replicate]
    omega
  refine ⟨padded.take (padded.length - (k + 1)), padded.drop (padded.length - (k + 1)), rfl,
    ?_, fun c hc => hdigit c (List.mem_of_mem_take hc),
    fun c hc => hdigit c (List.mem_of_mem_drop hc), ?_, ?_⟩
  · rw [← List.length_pos_iff, List.length_take]
    omega
  · rw [List.length_drop]
    omega
  · rw [List.take_append_drop, Nat.ofDigitChars_append, Nat.ofDigitChars_replicate_zero,
      Nat.mul_zero]
    exact Nat.ofDigitChars_ten_toDigits

theorem readDecimal_positional_negSucc (digits k : Nat) :
    readDecimal (positional digits (.negSucc k)) = some (ofDecimal digits (.negSucc k)) := by
  obtain ⟨whole, fraction, hp, hne, hw, hf, hlen, hvalue⟩ := positional_negSucc digits k
  rw [hp, readDecimal_point hne hw hf, hvalue, hlen]
  rfl

theorem readDecimal_zero : readDecimal (positional 0 0) = some 0 := by decide

theorem readDecimal_exact {code : Nat} (hpos : 0 < code) (h : code < infinity) :
    readDecimal (positional (weight code * Nat.pow 5 1074) (-1074)) = some code := by
  have hexponent : (-1074 : Int) = .negSucc 1073 := rfl
  have hpower : Nat.pow 5 1074 = 5 ^ places := by decide +kernel
  rw [hexponent, hpower, readDecimal_positional_negSucc, ofDecimal_exact hpos h]

/-- A decimal that a search accepts has been read back. -/
theorem readDecimal_of_decimalOf? {code count : Nat} {d : Nat × Int}
    (h : decimalOf? code count = some d) : readDecimal (positional d.1 d.2) = some code := by
  suffices hback : readsBack code d = true from of_decide_eq_true hback
  simp only [decimalOf?] at h
  split at h
  next hlower =>
    split at h
    next hupper => cases h; exact hupper.1
    next => cases h; exact hlower
  next =>
    split at h
    next hupper => cases h; exact hupper
    next => cases h

/-- The decimal that is written for a code reads back as that code. -/
theorem readDecimal_shortest {code : Nat} (h : code < infinity) :
    readDecimal (positional (shortest code).1 (shortest code).2) = some code := by
  rcases Nat.eq_zero_or_pos code with rfl | hpos
  · exact readDecimal_zero
  unfold shortest
  rw [if_neg (Nat.ne_of_gt hpos)]
  cases hfound : (List.range 17).findSome? fun n => decimalOf? code (n + 1) with
  | none =>
      rw [Option.getD_none]
      exact readDecimal_exact hpos h
  | some d =>
      obtain ⟨n, -, hn⟩ := List.exists_of_findSome?_eq_some hfound
      rw [Option.getD_some]
      exact readDecimal_of_decimalOf? hn

theorem positional_ofNat_chars (digits k : Nat) :
    (∃ c rest, positional digits (.ofNat k) = c :: rest ∧ c.isDigit = true) ∧
      ∀ c ∈ positional digits (.ofNat k), c.isDigit = true ∨ c = '.' := by
  have hdigit : ∀ c ∈ positional digits (.ofNat k), c.isDigit = true := by
    intro c hc
    rcases List.mem_append.mp hc with hc | hc
    · exact Number.isDigit_of_mem_natText hc
    · rw [(List.mem_replicate.mp hc).2]
      decide
  have hne : positional digits (.ofNat k) ≠ [] := by
    simp [positional, Number.natText_ne_nil]
  obtain ⟨c, rest, hcons⟩ := List.exists_cons_of_ne_nil hne
  have hc : c.isDigit = true := hdigit c (hcons ▸ List.mem_cons_self)
  exact ⟨⟨c, rest, hcons, hc⟩, fun c hc => Or.inl (hdigit c hc)⟩

theorem positional_negSucc_chars (digits k : Nat) :
    (∃ c rest, positional digits (.negSucc k) = c :: rest ∧ c.isDigit = true) ∧
      ∀ c ∈ positional digits (.negSucc k), c.isDigit = true ∨ c = '.' := by
  obtain ⟨whole, fraction, hp, hne, hw, hf, -, -⟩ := positional_negSucc digits k
  obtain ⟨c, rest, rfl⟩ := List.exists_cons_of_ne_nil hne
  rw [hp]
  refine ⟨⟨c, rest ++ '.' :: fraction, rfl, hw c List.mem_cons_self⟩, fun d hd => ?_⟩
  rcases List.mem_append.mp hd with hd | hd
  · exact Or.inl (hw d hd)
  · rcases List.mem_cons.mp hd with rfl | hd
    · exact Or.inr rfl
    · exact Or.inl (hf d hd)

/-- A decimal starts with a digit, and has nothing but digits and a point. -/
theorem positional_chars (digits : Nat) (exponent : Int) :
    (∃ c rest, positional digits exponent = c :: rest ∧ c.isDigit = true) ∧
      ∀ c ∈ positional digits exponent, c.isDigit = true ∨ c = '.' := by
  cases exponent with
  | ofNat k => exact positional_ofNat_chars digits k
  | negSucc k => exact positional_negSucc_chars digits k

/-- A text that starts with a digit is read as a decimal. -/
theorem readUnsigned_of_isDigit {c : Char} (hc : c.isDigit = true) (negative : Bool)
    (rest : List Char) :
    readUnsigned negative (c :: rest) =
      (readDecimal (c :: rest)).map (ofCode negative) := by
  have hlower : c.toLower = c := by
    simp only [Char.isDigit, Bool.and_eq_true, decide_eq_true_eq] at hc
    exact dif_neg fun h => absurd (UInt32.le_trans h.1 hc.2) (by decide)
  have hn : c ≠ 'n' := by
    rintro rfl
    exact absurd hc (by decide)
  have hi : c ≠ 'i' := by
    rintro rfl
    exact absurd hc (by decide)
  simp [readUnsigned, hlower, hn, hi]

theorem readUnsigned_magnitudeText (negative : Bool) (code : Fin (infinity + 1)) :
    readUnsigned negative (magnitudeText code.val) = some (signed negative code) := by
  unfold magnitudeText
  split
  next hinf =>
    have hcode : ofCode negative infinity = signed negative code := by
      rw [← hinf, ofCode_val]
    rw [← hcode]
    rfl
  next hfinite =>
    have hlt : code.val < infinity := by omega
    have hread := readDecimal_shortest hlt
    obtain ⟨c, rest, hcons, hc⟩ := (positional_chars (shortest code.val).1 (shortest code.val).2).1
    rw [hcons] at hread ⊢
    rw [readUnsigned_of_isDigit hc, hread, Option.map_some, ofCode_val]

/-- A magnitude has a text without a sign. -/
theorem magnitudeText_chars (code : Nat) :
    (∀ c ∈ magnitudeText code, c.isDigit = true ∨ c ∈ ['.', 'i', 'n', 'f']) ∧
      ∀ rest, magnitudeText code ≠ '-' :: rest ∧ magnitudeText code ≠ '+' :: rest := by
  unfold magnitudeText
  split
  · exact ⟨fun c hc => Or.inr (List.mem_cons_of_mem '.' hc), fun rest => ⟨by simp, by simp⟩⟩
  next =>
    obtain ⟨⟨d, ds, hcons, hd⟩, hall⟩ := positional_chars (shortest code).1 (shortest code).2
    refine ⟨fun c hc => ?_, fun rest => ?_⟩
    · rcases hall c hc with hdigit | rfl
      · exact Or.inl hdigit
      · exact Or.inr List.mem_cons_self
    · rw [hcons]
      constructor
      all_goals
        intro h
        cases h
        exact absurd hd (by decide)

/-- Every double that is a number reads back from its text. -/
theorem read_text {d : Double} (h : d.isNan = false) : read d.text = some d := by
  cases d with
  | nan => cases h
  | signed negative code =>
      have hread := readUnsigned_magnitudeText negative code
      cases negative with
      | true => exact hread
      | false =>
          have hsign := (magnitudeText_chars code.val).2
          change read (magnitudeText code.val) = some (signed false code)
          unfold read
          split
          next rest heq => exact absurd heq (hsign rest).1
          next rest heq => exact absurd heq (hsign rest).2
          next => exact hread

/-- The text of a double has digits, a sign, a point and the letters of two words. -/
theorem mem_text {d : Double} {c : Char} (h : c ∈ d.text) :
    c.isDigit = true ∨ c ∈ ['-', '.', 'i', 'n', 'f', 'N', 'a'] := by
  cases d with
  | nan =>
      have hword : ∀ x ∈ ['N', 'a', 'N'], x ∈ ['-', '.', 'i', 'n', 'f', 'N', 'a'] := by simp
      exact Or.inr (hword c h)
  | signed negative code =>
      have hword : ∀ x ∈ ['.', 'i', 'n', 'f'], x ∈ ['-', '.', 'i', 'n', 'f', 'N', 'a'] := by simp
      rcases List.mem_append.mp h with h | h
      · cases negative with
        | true => exact Or.inr (List.mem_singleton.mp h ▸ List.mem_cons_self)
        | false => cases h
      · exact ((magnitudeText_chars code.val).1 c h).imp_right (hword c)

/-- The text of a double has no blanks. -/
theorem isBlank_of_mem_text {d : Double} {c : Char} (h : c ∈ d.text) :
    Text.isBlank c = false := by
  have hnone : ['-', '.', 'i', 'n', 'f', 'N', 'a'].any Text.isBlank = false := by decide
  rcases mem_text h with hdigit | hother
  · exact Text.isBlank_of_isDigit hdigit
  · exact Bool.eq_false_iff.mpr (List.any_eq_false.mp hnone c hother)

end AccountRoster.Double
