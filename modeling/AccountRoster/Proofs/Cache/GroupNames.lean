import AccountRoster.Proofs.Cache.UniqueName
import AccountRoster.Proofs.Keyfile.Lines
import AccountRoster.Proofs.Text.Identifier

/-!
# Names of new accounts as names of groups

The name of a new account is made of an identifier for its manager, its protocol, and an
identifier for what identifies it. Identifiers are letters, digits and underscores, which
may all stand in the name of a group. The protocol is taken as it is but for its hyphens,
so that the name is one of a group exactly if the protocol could be part of one.
-/

namespace AccountRoster

/-- Whether a character may stand in the name of a group. -/
def Keyfile.IsNameChar (c : Char) : Prop := c ≠ '[' ∧ c ≠ ']' ∧ Text.isControl c = false

instance : DecidablePred Keyfile.IsNameChar := fun _ => inferInstanceAs (Decidable (_ ∧ _ ∧ _))

namespace Text

/-- Letters, digits and the underscore may all stand in a name. -/
theorem isNameChar_of_isWordChar {c : Char} (h : IsWordChar c) : Keyfile.IsNameChar c := by
  rcases h with halphanum | rfl
  · refine ⟨?_, ?_, ?_⟩
    · rintro rfl
      exact absurd halphanum (by decide)
    · rintro rfl
      exact absurd halphanum (by decide)
    · have hall : ∀ n < 160, isControl (Char.ofNat n) = true →
          (Char.ofNat n).isAlphanum = false := by
        decide +kernel
      refine Bool.eq_false_iff.mpr fun hcontrol => ?_
      have hlt : c.toNat < 160 := by
        simp only [isControl, Bool.or_eq_true, Bool.and_eq_true, decide_eq_true_eq] at hcontrol
        omega
      have hnot := hall c.toNat hlt
      rw [Char.ofNat_toNat, halphanum] at hnot
      exact Bool.false_ne_true (hnot hcontrol).symm
  · decide

theorem isNameChar_of_isDigit {c : Char} (h : c.isDigit = true) : Keyfile.IsNameChar c :=
  isNameChar_of_isWordChar (Or.inl (by rw [Char.isAlphanum, h, Bool.or_true]))

theorem isNameChar_of_mem_identifier {text : String} {c : Char}
    (h : c ∈ (identifier text).toList) : Keyfile.IsNameChar c := by
  rw [identifier, String.toList_ofList] at h
  exact isNameChar_of_isWordChar (isWordChar_of_mem_identifierBytes c h)

end Text

namespace Cache

/-- A candidate is the name of a group if the protocol could be part of one. -/
theorem isGroupName_numberedName (manager protocol identification : String) (n : Nat) :
    Keyfile.isGroupName (numberedName (nameStem manager protocol identification) n) = true ↔
      ∀ c ∈ protocol.toList, Keyfile.IsNameChar c := by
  have hhyphen (c : Char) :
      Keyfile.IsNameChar (if c = '-' then '_' else c) ↔ Keyfile.IsNameChar c := by
    split
    next h =>
      rw [h]
      decide
    next => exact Iff.rfl
  have hslash : Keyfile.IsNameChar '/' := by decide
  have hne : numberedName (nameStem manager protocol identification) n ≠ "" := by
    simp [numberedName, nameStem]
  rw [Keyfile.isGroupName_iff, and_iff_right hne]
  change (∀ c ∈ _, Keyfile.IsNameChar c) ↔ _
  simp only [numberedName, nameStem, String.toList_append, String.toList_ofList, List.mem_append,
    List.mem_map]
  constructor
  · intro h c hc
    rw [← hhyphen c]
    exact h _ (Or.inl (Or.inl (Or.inl (Or.inr ⟨c, hc, rfl⟩))))
  · rintro h c (((((hmanager | hc) | ⟨d, hd, rfl⟩) | hc) | hidentification) | hnumber)
    · exact Text.isNameChar_of_mem_identifier hmanager
    · rw [List.mem_singleton.mp hc]
      exact hslash
    · exact (hhyphen d).mpr (h d hd)
    · rw [List.mem_singleton.mp hc]
      exact hslash
    · exact Text.isNameChar_of_mem_identifier hidentification
    · exact Text.isNameChar_of_isDigit (Number.isDigit_of_mem_natText hnumber)

theorem isGroupName_uniqueName (c : Cache) (manager protocol identification : String) :
    Keyfile.isGroupName (c.uniqueName manager protocol identification) = true ↔
      ∀ ch ∈ protocol.toList, Keyfile.IsNameChar ch :=
  isGroupName_numberedName manager protocol identification _

end Cache

end AccountRoster
