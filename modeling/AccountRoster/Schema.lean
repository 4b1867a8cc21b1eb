import AccountRoster.Value

/-! # Attribute schema and flat keys

Known attributes have a fixed type. Attributes and parameters share one flat
name space in storage: an attribute goes by its name, a parameter by its name
after `param-`. -/

namespace AccountRoster

namespace Schema

/-- The attribute that names the connection manager. -/
def manager : String := "manager"

/-- The attribute that names the protocol. -/
def protocol : String := "protocol"

/-- The known attributes, by type and then by name. -/
def knownAttributes : List (String × ValueType) :=
  [("AutomaticPresence", .simplePresence),
    ("Supersedes", .objectPathArray),
    ("URISchemes", .stringArray),
    ("always_dispatch", .boolean),
    ("ConnectAutomatically", .boolean),
    ("Enabled", .boolean),
    ("HasBeenOnline", .boolean),
    ("AutomaticPresenceMessage", .string),
    ("AutomaticPresenceStatus", .string),
    ("AvatarMime", .string),
    ("avatar_token", .string),
    ("DisplayName", .string),
    ("Icon", .string),
    (manager, .string),
    ("Nickname", .string),
    ("NormalizedName", .string),
    (protocol, .string),
    ("Service", .string),
    ("AutomaticPresenceType", .uint32)]

/-- The type of a known attribute. -/
def attributeType (name : String) : Option ValueType :=
  (knownAttributes.find? fun a => a.1 == name).map Prod.snd

example : attributeType "Supersedes" = some .objectPathArray := by decide

theorem mem_knownAttributes {name : String} {type : ValueType}
    (h : attributeType name = some type) : (name, type) ∈ knownAttributes := by
  obtain ⟨⟨known, _⟩, hfind, rfl⟩ := Option.map_eq_some_iff.mp h
  obtain rfl : known = name := by simpa using List.find?_some hfind
  exact List.mem_of_find?_eq_some hfind

end Schema

/-- What a flat key names: an attribute, or a parameter without its mark. -/
inductive FlatKey where
  | attr (name : String)
  | param (name : String)
  deriving DecidableEq

namespace FlatKey

/-- What stands before the name of a parameter. -/
def mark : String := "param-"

/-- The flat key of a parameter. -/
def ofParameter (name : String) : String := mark ++ name

/-- What follows a given beginning of a text. -/
def after? : (front text : List Char) → Option (List Char)
  | [], text => some text
  | _ :: _, [] => none
  | c :: front, d :: text => if c = d then after? front text else none

/-- Read a flat key. -/
def ofText (key : String) : FlatKey :=
  match after? mark.toList key.toList with
  | some name => .param (String.ofList name)
  | none => .attr key

/-- Whether a flat key carries the mark of a parameter. -/
def isParameter (key : String) : Bool :=
  match ofText key with
  | .param _ => true
  | .attr _ => false

theorem after?_eq_some_iff {front text rest : List Char} :
    after? front text = some rest ↔ text = front ++ rest := by
  induction front generalizing text with
  | nil => simp [after?]
  | cons c front ih =>
      cases text with
      | nil => simp [after?]
      | cons d text =>
          by_cases h : c = d
          · simp [after?, h, ih]
          · simp [after?, h, Ne.symm h]

theorem ofText_eq_param_iff {key name : String} :
    ofText key = .param name ↔ key = ofParameter name := by
  unfold ofText ofParameter
  rw [← String.toList_inj, String.toList_append]
  constructor
  · intro h
    split at h
    next rest hrest =>
      cases h
      rw [after?_eq_some_iff.1 hrest, String.toList_ofList]
    next => cases h
  · intro h
    rw [after?_eq_some_iff.2 h]
    simp

@[simp] theorem ofText_ofParameter (name : String) :
    ofText (ofParameter name) = .param name :=
  ofText_eq_param_iff.2 rfl

theorem ofText_eq_attr_iff {key name : String} :
    ofText key = .attr name ↔ key = name ∧ isParameter key = false := by
  unfold isParameter
  cases h : ofText key with
  | param p => simp
  | attr a =>
      have : key = a := by
        unfold ofText at h
        split at h <;> cases h
        rfl
      subst this
      simp

/-- Different parameters have different keys. -/
theorem ofParameter_injective {a b : String} (h : ofParameter a = ofParameter b) :
    a = b := by
  have : FlatKey.param a = FlatKey.param b := by
    rw [← ofText_ofParameter, ← ofText_ofParameter, h]
  exact FlatKey.param.inj this

end FlatKey

end AccountRoster
