import AccountRoster.Config
import AccountRoster.Proofs.Codec.RoundTrip

/-!
# The separators that a configuration may choose

A separator that would break a line of the key-file is refused, and so is the
backslash, which begins every escape. The letters of the escapes are not. Under such
a letter the separator in an item is escaped into what stands for another character,
and the item is read with that character in its place.
-/

namespace AccountRoster.StorageConfig

/-- What passes has a separator that is not forbidden. -/
theorem separator_notMem_of_validate {config : StorageConfig} (h : config.validate = .ok ()) :
    config.separator ∉ forbiddenSeparators := by
  intro hmem
  rw [validate, if_pos hmem] at h
  cases h

/-- Under a configuration that passes, a list reads back exactly if the separator is
no escape letter, or is in none of its items. -/
theorem unescape_escape_list_iff {config : StorageConfig} (h : config.validate = .ok ())
    (items : List String) :
    let codec : Codec := ⟨config.separator⟩
    codec.unescape (codec.escape (.stringArray items)) .stringArray = .ok (.stringArray items) ↔
      (config.separator ∈ ['s', 'n', 't', 'r'] →
        ∀ item ∈ items, config.separator ∉ item.toList) := by
  intro codec
  have hb : codec.separator ≠ '\\' := by
    intro heq
    apply separator_notMem_of_validate h
    rw [show config.separator = '\\' from heq]
    decide
  have hread : codec.unescape (codec.escape (.stringArray items)) .stringArray =
      .ok (.stringArray (items.map codec.reread)) := by
    rw [Codec.escape, Codec.unescape, Codec.splitItems_joinItems_reread hb]
    rfl
  rw [hread, Except.ok.injEq, Value.stringArray.injEq, Codec.map_eq_self_iff]
  constructor
  · intro hall hletter item hitem
    exact Codec.reread_eq_self_iff.mp (hall item hitem) hletter
  · intro hall item hitem
    exact Codec.reread_eq_self_iff.mpr fun hletter => hall hletter item hitem

/-- A semicolon is a separator that may stand in an item. -/
theorem unescape_escape_semicolon :
    let config : StorageConfig := { keyfilePath := "a.cfg", separator := ';' }
    let codec : Codec := ⟨config.separator⟩
    config.validate = .ok () ∧
      codec.unescape (codec.escape (.stringArray ["a;", ";"])) .stringArray =
        .ok (.stringArray ["a;", ";"]) := by
  intro config codec
  have hvalid : config.validate = .ok () := by decide +kernel
  refine ⟨hvalid, (unescape_escape_list_iff hvalid ["a;", ";"]).mpr fun hletter => ?_⟩
  revert hletter
  decide

/-- The letter that stands for a space passes as a separator, and an item that is the
letter is read as a space. -/
theorem unescape_escape_letter :
    let config : StorageConfig := { keyfilePath := "a.cfg", separator := 's' }
    let codec : Codec := ⟨config.separator⟩
    config.validate = .ok () ∧
      codec.unescape (codec.escape (.stringArray ["s"])) .stringArray =
        .ok (.stringArray [" "]) ∧
      ¬∀ items : List String, codec.unescape (codec.escape (.stringArray items)) .stringArray =
        .ok (.stringArray items) := by
  intro config codec
  have hread : codec.unescape (codec.escape (.stringArray ["s"])) .stringArray =
      .ok (.stringArray [" "]) := by
    decide +kernel
  refine ⟨by decide +kernel, hread, fun h => ?_⟩
  have hlost := (h ["s"]).symm.trans hread
  revert hlost
  decide +kernel

end AccountRoster.StorageConfig
