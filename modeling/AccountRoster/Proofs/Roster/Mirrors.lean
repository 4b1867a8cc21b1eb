import AccountRoster.Proofs.Codec.OneLine
import AccountRoster.Proofs.Codec.RoundTrip
import AccountRoster.Proofs.Roster.Loading

/-!
# Records that mirror stored entries

A record mirrors the entries of a group if it has the attributes that the entries
hold and, for every parameter that a key-file can hold, the text that stands under
its flat key. What a write does to a record and what it does to the entries go
together.

## Implementation notes

A parameter whose flat key is no valid key name stays in the record alone, so
nothing is said about it. A typed attribute is of its schema type and never a
double, which is why its text reads back as the attribute.
-/

namespace AccountRoster

namespace Schema

/-- A known attribute has a name that a key-file can hold, and is no double. -/
theorem attributeType_eq_some {name : String} {type : ValueType}
    (h : attributeType name = some type) :
    Keyfile.isKeyName name = true ∧ type ≠ .double := by
  have hknown : ∀ e ∈ knownAttributes, Keyfile.isKeyName e.1 = true ∧ e.2 ≠ .double := by
    decide +kernel
  exact hknown (name, type) (mem_knownAttributes h)

end Schema

namespace Codec

variable {codec : Codec}

/-- The text of an attribute in its schema type reads back as that attribute. -/
theorem readAttribute_escape (hsafe : codec.Safe) {name : String} {type : ValueType}
    (htype : Schema.attributeType name = some type) {v : Value} (hv : v.type = type) :
    codec.readAttribute name (codec.escape v) = some v := by
  have hnan : v.isNan = false := by
    cases v with
    | double d => exact absurd hv.symm (Schema.attributeType_eq_some htype).2
    | _ => rfl
  rw [readAttribute, htype, Option.getD_some, ← hv, unescape_escape hsafe hnan]
  rfl

theorem attributeOf_insert_attribute {entries : Dict String} {name text : String}
    (hname : FlatKey.isParameter name = false) (other : String) :
    codec.attributeOf (entries.insert name text) other =
      if name = other then codec.readAttribute name text else codec.attributeOf entries other := by
  rw [attributeOf, attributeOf, Dict.get?_insert]
  by_cases heq : name = other
  · subst heq
    simp [hname]
  · simp [heq]

theorem attributeOf_insert_parameter {entries : Dict String} {key text : String}
    (hkey : FlatKey.isParameter key = true) (other : String) :
    codec.attributeOf (entries.insert key text) other = codec.attributeOf entries other := by
  rw [attributeOf, attributeOf, Dict.get?_insert]
  by_cases heq : key = other
  · subst heq
    simp [hkey]
  · simp [heq]

theorem attributeOf_erase {entries : Dict String} {key : String} (other : String) :
    codec.attributeOf (entries.erase key) other =
      if key = other then none else codec.attributeOf entries other := by
  rw [attributeOf, attributeOf, Dict.get?_erase]
  by_cases heq : key = other
  · subst heq
    simp
  · simp [heq]

end Codec

namespace Record

theorem parameterText?_putTyped (codec : Codec) (r : Record) (name other : String)
    (value : Option Value) :
    (r.putTyped name value).parameterText? codec other =
      if name = other then value.map codec.escape else r.parameterText? codec other := by
  rw [parameterText?, typed_putTyped, escaped_putTyped]
  by_cases heq : name = other
  · rw [if_pos heq, if_pos heq, if_pos heq]
    cases value <;> rfl
  · rw [if_neg heq, if_neg heq, if_neg heq]
    rfl

/-- A record of the plugin with number 0 says what the entries say. -/
structure Mirrors (codec : Codec) (record : Record) (entries : Dict String) : Prop where
  owner : record.owner = 0
  attributes : ∀ name, record.attributes.get? name = codec.attributeOf entries name
  parameters : ∀ name, Keyfile.isKeyName (FlatKey.ofParameter name) = true →
    record.parameterText? codec name = entries.get? (FlatKey.ofParameter name)

theorem mirrors_ofEntries (codec : Codec) (entries : Dict String) :
    (ofEntries codec 0 entries).Mirrors codec entries where
  owner := owner_ofEntries codec 0 entries
  attributes := attributes_ofEntries codec 0 entries
  parameters := fun name _ => parameterText?_ofEntries codec 0 entries name

namespace Mirrors

variable {codec : Codec} {record : Record} {entries : Dict String}

theorem markSecret (h : record.Mirrors codec entries) (name : String) :
    (record.markSecret name).Mirrors codec entries :=
  ⟨h.owner, h.attributes, h.parameters⟩

/-- The text of an attribute goes under its name. -/
theorem putAttribute_some (h : record.Mirrors codec entries) {name : String} {v : Value}
    (hname : FlatKey.isParameter name = false)
    (hread : codec.readAttribute name (codec.escape v) = some v) :
    (record.putAttribute name (some v)).Mirrors codec
      (entries.insert name (codec.escape v)) where
  owner := h.owner
  attributes := by
    intro other
    rw [attributes_putAttribute, Codec.attributeOf_insert_attribute hname, hread, h.attributes]
  parameters := by
    intro parameter hvalid
    rw [Dict.get?_insert, if_neg (FlatKey.ne_ofParameter hname parameter)]
    exact h.parameters parameter hvalid

/-- A removed attribute leaves nothing under its name. -/
theorem putAttribute_none (h : record.Mirrors codec entries) {name : String}
    (hname : FlatKey.isParameter name = false) :
    (record.putAttribute name none).Mirrors codec (entries.erase name) where
  owner := h.owner
  attributes := by
    intro other
    rw [attributes_putAttribute, Codec.attributeOf_erase, h.attributes]
  parameters := by
    intro parameter hvalid
    rw [Dict.get?_erase, if_neg (FlatKey.ne_ofParameter hname parameter)]
    exact h.parameters parameter hvalid

/-- The text of a parameter goes under its flat key. -/
theorem putTyped_some (h : record.Mirrors codec entries) (name : String) (v : Value) :
    (record.putTyped name (some v)).Mirrors codec
      (entries.insert (FlatKey.ofParameter name) (codec.escape v)) where
  owner := h.owner
  attributes := by
    intro other
    rw [Codec.attributeOf_insert_parameter (FlatKey.isParameter_ofParameter name)]
    exact h.attributes other
  parameters := by
    intro other hvalid
    rw [parameterText?_putTyped, Dict.get?_insert, h.parameters other hvalid]
    by_cases heq : name = other
    · rw [if_pos heq, if_pos (congrArg FlatKey.ofParameter heq)]
      rfl
    · rw [if_neg heq, if_neg fun e => heq (FlatKey.ofParameter_injective e)]

/-- A removed parameter leaves nothing under its flat key. -/
theorem putTyped_none (h : record.Mirrors codec entries) (name : String) :
    (record.putTyped name none).Mirrors codec (entries.erase (FlatKey.ofParameter name)) where
  owner := h.owner
  attributes := by
    intro other
    rw [Codec.attributeOf_erase]
    split
    next heq =>
      have hparameter : FlatKey.isParameter other = true := by
        rw [← heq, FlatKey.isParameter_ofParameter]
      have hnone := h.attributes other
      rw [Codec.attributeOf, if_pos hparameter] at hnone
      exact hnone
    next => exact h.attributes other
  parameters := by
    intro other hvalid
    rw [parameterText?_putTyped, Dict.get?_erase, h.parameters other hvalid]
    by_cases heq : name = other
    · rw [if_pos heq, if_pos (congrArg FlatKey.ofParameter heq)]
      rfl
    · rw [if_neg heq, if_neg fun e => heq (FlatKey.ofParameter_injective e)]

/-- A parameter that no key-file can hold is nothing to the entries. -/
theorem putTyped_invalid (h : record.Mirrors codec entries) {name : String}
    (hname : Keyfile.isKeyName (FlatKey.ofParameter name) = false) (value : Option Value) :
    (record.putTyped name value).Mirrors codec entries where
  owner := h.owner
  attributes := h.attributes
  parameters := by
    intro other hvalid
    have hne : name ≠ other := by
      rintro rfl
      rw [hname] at hvalid
      cases hvalid
    rw [parameterText?_putTyped, if_neg hne]
    exact h.parameters other hvalid

end Mirrors

end Record

end AccountRoster
