import AccountRoster.Text.Identifier
import Mathlib.Logic.Function.Defs

/-!
# Identifiers are words and can be read back

An identifier is made of letters, digits and underscores, and starts with no digit. It can
be read back: an underscore has two hexadecimal digits after it, and any other character
is a byte by itself. Different texts therefore have different identifiers.

## Implementation notes

A reader needs no look at where it stands. An underscore of the text never stays, so every
underscore of an identifier opens the two digits of a byte, and the letters and digits that
follow those are bytes of their own. The lone underscore of the empty text has no digits
after it and is read as nothing.
-/

namespace AccountRoster.Text

/-- Whether a character is an ASCII letter, a digit or an underscore. -/
def IsWordChar (c : Char) : Prop := c.isAlphanum = true ∨ c = '_'

instance : DecidablePred IsWordChar := fun _ => inferInstanceAs (Decidable (_ ∨ _))

/-- The value of a hexadecimal digit in small letters. -/
def hexValue (c : Char) : Nat := if c.isDigit then c.toNat - 48 else c.toNat - 87

/-- Read the bytes of an identifier. -/
def readBytes : List Char → List UInt8
  | [] => []
  | c :: rest =>
      if c = '_' then
        match rest with
        | high :: low :: more => UInt8.ofNat (16 * hexValue high + hexValue low) :: readBytes more
        | _ => []
      else UInt8.ofNat c.toNat :: readBytes rest

/-- What a byte becomes, wherever it stands: a letter or a digit may stay. -/
inductive Spelling (b : UInt8) : List Char → Prop
  | stays (h : (isLetterByte b || isDigitByte b) = true) : Spelling b [Char.ofNat b.toNat]
  | escaped : Spelling b (hexByte b)

theorem spelling_identifierByte (b : UInt8) : Spelling b (identifierByte b) := by
  unfold identifierByte
  split
  next h => exact Spelling.stays h
  next => exact Spelling.escaped

theorem spelling_identifierFirst (b : UInt8) : Spelling b (identifierFirst b) := by
  unfold identifierFirst
  split
  next h => exact Spelling.stays (by rw [h, Bool.true_or])
  next => exact Spelling.escaped

/-! ### The characters of an identifier -/

theorem toNat_ofByte {b : UInt8} (h : (isLetterByte b || isDigitByte b) = true) :
    (Char.ofNat b.toNat).toNat = b.toNat := by
  simp only [isLetterByte, isDigitByte, Bool.or_eq_true, Bool.and_eq_true, decide_eq_true_eq] at h
  have hvalid : b.toNat.isValidChar := Or.inl (by omega)
  rw [Char.ofNat, dif_pos hvalid]
  rfl

theorem isAlphanum_ofByte {b : UInt8} (h : (isLetterByte b || isDigitByte b) = true) :
    (Char.ofNat b.toNat).isAlphanum = true := by
  have hall : ∀ n < 256, (isLetterByte (UInt8.ofNat n) || isDigitByte (UInt8.ofNat n)) = true →
      (Char.ofNat n).isAlphanum = true := by
    decide +kernel
  apply hall b.toNat b.toNat_lt
  rwa [UInt8.ofNat_toNat]

/-- A letter is no digit. -/
theorem isDigit_ofByte {b : UInt8} (h : isLetterByte b = true) :
    (Char.ofNat b.toNat).isDigit = false := by
  have hall : ∀ n < 256, isLetterByte (UInt8.ofNat n) = true → (Char.ofNat n).isDigit = false := by
    decide +kernel
  apply hall b.toNat b.toNat_lt
  rwa [UInt8.ofNat_toNat]

theorem isAlphanum_hexDigit (n : Nat) : (hexDigit n).isAlphanum = true := by
  have hall : ∀ k < 16, (Nat.digitChar k).isAlphanum = true := by decide
  exact hall (n % 16) (Nat.mod_lt n (by decide))

theorem Spelling.isWordChar {b : UInt8} {cs : List Char} (h : Spelling b cs) :
    ∀ c ∈ cs, IsWordChar c := by
  cases h with
  | stays h =>
      intro c hc
      rw [List.mem_singleton.mp hc]
      exact Or.inl (isAlphanum_ofByte h)
  | escaped =>
      intro c hc
      simp only [hexByte, List.mem_cons, List.not_mem_nil, or_false] at hc
      rcases hc with rfl | rfl | rfl
      · exact Or.inr rfl
      · exact Or.inl (isAlphanum_hexDigit _)
      · exact Or.inl (isAlphanum_hexDigit _)

theorem isWordChar_of_mem_identifierBytes {bytes : List UInt8} :
    ∀ c ∈ identifierBytes bytes, IsWordChar c := by
  intro c hc
  cases bytes with
  | nil =>
      rw [List.mem_singleton.mp hc]
      exact Or.inr rfl
  | cons first rest =>
      rw [identifierBytes, List.mem_append, List.mem_flatMap] at hc
      rcases hc with hfirst | ⟨b, -, hrest⟩
      · exact (spelling_identifierFirst first).isWordChar c hfirst
      · exact (spelling_identifierByte b).isWordChar c hrest

/-- An identifier starts with a letter or an underscore. -/
theorem identifierBytes_front (bytes : List UInt8) :
    ∃ c more, identifierBytes bytes = c :: more ∧ c.isDigit = false := by
  cases bytes with
  | nil => exact ⟨'_', [], rfl, rfl⟩
  | cons first rest =>
      rw [identifierBytes, identifierFirst]
      split
      next hletter => exact ⟨_, _, rfl, isDigit_ofByte hletter⟩
      next => exact ⟨_, _, rfl, rfl⟩

/-! ### Reading an identifier -/

theorem hexValue_hexDigit (n : Nat) : hexValue (hexDigit n) = n % 16 := by
  have hall : ∀ k < 16, hexValue (Nat.digitChar k) = k := by decide
  exact hall (n % 16) (Nat.mod_lt n (by decide))

/-- One byte is read off the front, whatever follows it. -/
theorem Spelling.readBytes_append {b : UInt8} {cs : List Char} (h : Spelling b cs)
    (rest : List Char) : readBytes (cs ++ rest) = b :: readBytes rest := by
  cases h with
  | stays h =>
      have hcode := toNat_ofByte h
      have hne : Char.ofNat b.toNat ≠ '_' := by
        intro heq
        rw [heq] at hcode
        have hunderscore : b = 95 := UInt8.toNat_inj.mp hcode.symm
        rw [hunderscore] at h
        exact absurd h (by decide)
      rw [List.singleton_append, readBytes.eq_def]
      dsimp only
      rw [if_neg hne, hcode, UInt8.ofNat_toNat]
  | escaped =>
      have hvalue : 16 * (b.toNat / 16 % 16) + b.toNat % 16 = b.toNat := by
        have hlt := b.toNat_lt
        omega
      rw [hexByte, List.cons_append, List.cons_append, List.cons_append, List.nil_append,
        readBytes.eq_def]
      dsimp only
      rw [if_pos rfl, hexValue_hexDigit, hexValue_hexDigit, hvalue, UInt8.ofNat_toNat]

theorem readBytes_flatMap (bytes : List UInt8) :
    readBytes (bytes.flatMap identifierByte) = bytes := by
  induction bytes with
  | nil => rfl
  | cons b rest ih =>
      rw [List.flatMap_cons, (spelling_identifierByte b).readBytes_append, ih]

/-- The bytes of a text are read off its identifier. -/
theorem readBytes_identifierBytes (bytes : List UInt8) :
    readBytes (identifierBytes bytes) = bytes := by
  cases bytes with
  | nil => rfl
  | cons first rest =>
      rw [identifierBytes, (spelling_identifierFirst first).readBytes_append, readBytes_flatMap]

/-- Different texts have different identifiers, and every identifier is a word: it is not
empty, it is made of ASCII letters, digits and underscores, and it starts with no digit. -/
theorem identifier_injective_word :
    Function.Injective identifier ∧ ∀ text,
      identifier text ≠ "" ∧ (∀ c ∈ (identifier text).toList, IsWordChar c) ∧
        ∀ c, (identifier text).toList.head? = some c → c.isDigit = false := by
  refine ⟨fun a b h => ?_, fun text => ?_⟩
  · have hchars := congrArg readBytes (String.ofList_injective h)
    rw [readBytes_identifierBytes, readBytes_identifierBytes] at hchars
    have hbytes : a.toUTF8.data = b.toUTF8.data := Array.toList_inj.mp hchars
    exact String.toByteArray_inj.mp (ByteArray.ext hbytes)
  · obtain ⟨front, more, hfront, hdigit⟩ := identifierBytes_front text.toUTF8.data.toList
    have hchars : (identifier text).toList = front :: more := by
      rw [identifier, String.toList_ofList, hfront]
    refine ⟨fun hempty => ?_, fun c hc => ?_, fun c hc => ?_⟩
    · rw [hempty] at hchars
      cases hchars
    · rw [identifier, String.toList_ofList] at hc
      exact isWordChar_of_mem_identifierBytes c hc
    · rw [hchars, List.head?_cons, Option.some_inj] at hc
      rwa [← hc]

end AccountRoster.Text
