import AccountRoster.Proofs.Roster.Loading
import AccountRoster.Roster.Writing

/-!
# The in-process backend

An update of an account that is stored puts its value where the flat key says, and
what is pushed for an account makes a record of it: with the attributes as far as
they can be converted, and with the typed parameters as they are.

## Implementation notes

`Backs` relates what is stored of an account to a cached record. The store keeps an
attribute as it came, and the record keeps what it was converted to, or nothing; so
an attribute of the record is settled by the one that is stored, and not the other
way round.
-/

namespace AccountRoster

/-- A pushed attribute in its schema type, if it has one. -/
def Codec.takeAttribute (codec : Codec) (name : String) (value : Value) : Option Value :=
  match Schema.attributeType name with
  | some type => (codec.coerce value type).toOption
  | none => some value

/-- An attribute that has its schema type is taken as it is. -/
theorem Codec.takeAttribute_of_type {codec : Codec} {name : String} {v : Value}
    (h : Schema.attributeType name = some v.type) : codec.takeAttribute name v = some v := by
  rw [takeAttribute, h]
  dsimp only
  rw [coerce_type]
  rfl

namespace Record

/-- Take in an attribute that was pushed. -/
def takeAttribute (codec : Codec) (r : Record) (entry : String × Value) : Record :=
  r.putAttribute entry.1 (codec.takeAttribute entry.1 entry.2)

/-- Take in a parameter that was pushed. -/
def takeParameter (secrets : Names) (r : Record) (entry : String × Value) : Record :=
  if secrets.has entry.1 then (r.putTyped entry.1 (some entry.2)).markSecret entry.1
  else r.putTyped entry.1 (some entry.2)

theorem takeParameter_keeps {γ : Type} (observe : Record → γ)
    (hput : ∀ r name value, observe (putTyped r name value) = observe r)
    (hmark : ∀ r name, observe (markSecret r name) = observe r) (secrets : Names) (r : Record)
    (entry : String × Value) : observe (r.takeParameter secrets entry) = observe r := by
  unfold takeParameter
  split
  · exact (hmark _ _).trans (hput r _ _)
  · exact hput r _ _

theorem typed_takeParameter (secrets : Names) (r : Record) (entry : String × Value)
    (name : String) :
    (r.takeParameter secrets entry).typed.get? name =
      if entry.1 = name then some entry.2 else r.typed.get? name := by
  unfold takeParameter
  split <;> exact typed_putTyped r entry.1 name (some entry.2)

theorem escaped_takeParameter (secrets : Names) (r : Record) (entry : String × Value)
    (name : String) :
    (r.takeParameter secrets entry).escaped.get? name =
      if entry.1 = name then none else r.escaped.get? name := by
  unfold takeParameter
  split <;> exact escaped_putTyped r entry.1 name (some entry.2)

end Record

namespace StoredAccount

/-- The record that is made of an account without escaped parameters. -/
def toRecord (codec : Codec) (owner : Nat) (a : StoredAccount) : Record :=
  a.typed.entries.foldl (Record.takeParameter a.secrets)
    (a.attributes.entries.foldl (Record.takeAttribute codec) (Record.new owner))

variable (codec : Codec) (owner : Nat) (a : StoredAccount)

@[simp] theorem owner_toRecord : (a.toRecord codec owner).owner = owner := by
  have hattribute (r : Record) (e : String × Value) :
      (r.takeAttribute codec e).owner = r.owner := rfl
  have hparameter := Record.takeParameter_keeps Record.owner (fun _ _ _ => rfl) (fun _ _ => rfl)
    a.secrets
  rw [toRecord, Dict.foldl_keeps Record.owner hparameter, Dict.foldl_keeps Record.owner hattribute]
  rfl

theorem attributes_toRecord (name : String) :
    (a.toRecord codec owner).attributes.get? name =
      (a.attributes.get? name).bind (codec.takeAttribute name) := by
  have hput (r : Record) (e : String × Value) : (r.takeAttribute codec e).attributes.get? name =
      if e.1 = name then codec.takeAttribute e.1 e.2 else r.attributes.get? name :=
    Record.attributes_putAttribute r e.1 name _
  have hparameter := Record.takeParameter_keeps (fun r => r.attributes.get? name)
    (fun _ _ _ => rfl) (fun _ _ => rfl) a.secrets
  have hfold := Dict.foldl_observe (fun r : Record => r.attributes.get? name)
    (fun _ value => codec.takeAttribute name value)
    (fun r value => (hput r (name, value)).trans (if_pos rfl))
    (fun r e hne => (hput r e).trans (if_neg hne)) a.attributes.sorted (Record.new owner)
  rw [toRecord, Dict.foldl_keeps (fun r : Record => r.attributes.get? name) hparameter, hfold,
    Dict.find_entries]
  cases a.attributes.get? name <;> rfl

theorem typed_toRecord : (a.toRecord codec owner).typed = a.typed := by
  apply Dict.ext_get?
  intro name
  have hattribute (r : Record) (e : String × Value) :
      (r.takeAttribute codec e).typed.get? name = r.typed.get? name := rfl
  have hput (r : Record) (e : String × Value) :
      (r.takeParameter a.secrets e).typed.get? name =
        if e.1 = name then some e.2 else r.typed.get? name :=
    Record.typed_takeParameter a.secrets r e name
  have hfold := Dict.foldl_observe (fun r : Record => r.typed.get? name) (fun _ value => some value)
    (fun r value => (hput r (name, value)).trans (if_pos rfl))
    (fun r e hne => (hput r e).trans (if_neg hne))
    a.typed.sorted (a.attributes.entries.foldl (Record.takeAttribute codec) (Record.new owner))
  rw [toRecord, hfold, Dict.find_entries,
    Dict.foldl_keeps (fun r : Record => r.typed.get? name) hattribute]
  cases a.typed.get? name <;> rfl

theorem escaped_toRecord : (a.toRecord codec owner).escaped = Dict.empty := by
  apply Dict.ext_get?
  intro name
  have hattribute (r : Record) (e : String × Value) :
      (r.takeAttribute codec e).escaped.get? name = r.escaped.get? name := rfl
  have hput (r : Record) (e : String × Value) :
      (r.takeParameter a.secrets e).escaped.get? name =
        if e.1 = name then none else r.escaped.get? name :=
    Record.escaped_takeParameter a.secrets r e name
  have hfold := Dict.foldl_observe (fun r : Record => r.escaped.get? name) (fun _ _ => none)
    (fun r value => (hput r (name, value)).trans (if_pos rfl))
    (fun r e hne => (hput r e).trans (if_neg hne))
    a.typed.sorted (a.attributes.entries.foldl (Record.takeAttribute codec) (Record.new owner))
  rw [toRecord, hfold, Dict.find_entries,
    Dict.foldl_keeps (fun r : Record => r.escaped.get? name) hattribute]
  cases a.typed.get? name <;> rfl

end StoredAccount

/-! ### What is stored of an account, and its record -/

namespace StoredAccount

/-- What is stored of an account says what its record says, and keeps no more secrets. -/
structure Backs (codec : Codec) (a : StoredAccount) (r : Record) : Prop where
  attributes : ∀ name,
    r.attributes.get? name = (a.attributes.get? name).bind (codec.takeAttribute name)
  typed : r.typed = a.typed
  escaped : r.escaped = Dict.empty
  noText : a.escaped = Dict.empty
  secrets : ∀ name, a.secrets.has name = true → r.secrets.has name = true

/-- An account that only has attributes. -/
structure Plain (a : StoredAccount) : Prop where
  typed : a.typed = Dict.empty
  escaped : a.escaped = Dict.empty
  secrets : a.secrets = Dict.empty

/-- The account after an update. -/
def updated (a : StoredAccount) (u : Update) : StoredAccount :=
  match FlatKey.ofText u.key with
  | .attr name => { a with attributes := a.attributes.put name u.value }
  | .param name =>
      { a with
        typed := a.typed.put name u.value
        escaped := a.escaped.erase name
        secrets :=
          match u.value with
          | some _ => if u.secret then a.secrets.add name else a.secrets
          | none => a.secrets.remove name }

variable {codec : Codec} {a : StoredAccount} {r : Record}

theorem backs_new (owner : Nat) : Backs codec {} (Record.new owner) :=
  ⟨fun _ => rfl, rfl, rfl, rfl, nofun⟩

/-- An account with attributes alone backs the record that is made of it. -/
theorem Plain.backs (h : a.Plain) (owner : Nat) : a.Backs codec (a.toRecord codec owner) where
  attributes := attributes_toRecord codec owner a
  typed := typed_toRecord codec owner a
  escaped := escaped_toRecord codec owner a
  noText := h.escaped
  secrets := by
    intro name hname
    rw [h.secrets] at hname
    cases hname

namespace Backs

/-- The record that is made anew of an account is the one that it backs, but for the
secrets. -/
theorem toRecord_eq (h : a.Backs codec r) (owner : Nat) :
    (a.toRecord codec owner).attributes = r.attributes ∧
      (a.toRecord codec owner).typed = r.typed ∧
      (a.toRecord codec owner).escaped = r.escaped := by
  refine ⟨?_, ?_, ?_⟩
  · apply Dict.ext_get?
    intro name
    rw [attributes_toRecord, h.attributes]
  · rw [typed_toRecord, h.typed]
  · rw [escaped_toRecord, h.escaped]

theorem markSecret (h : a.Backs codec r) (name : String) : a.Backs codec (r.markSecret name) where
  attributes := h.attributes
  typed := h.typed
  escaped := h.escaped
  noText := h.noText
  secrets := by
    intro other hother
    rw [Record.markSecret, Names.has_add, h.secrets other hother, Bool.or_true]

/-- An attribute that is written in its schema type, or removed, is the same on both
sides. -/
theorem putAttribute (h : a.Backs codec r) {account name : String} {value : Option Value}
    (hname : FlatKey.isParameter name = false)
    (hvalue : value.bind (codec.takeAttribute name) = value) :
    (a.updated { account, key := name, value }).Backs codec (r.putAttribute name value) := by
  rw [updated, FlatKey.ofText_of_isParameter_false hname]
  refine ⟨fun other => ?_, h.typed, h.escaped, h.noText, h.secrets⟩
  rw [Record.attributes_putAttribute, Dict.get?_put]
  by_cases heq : name = other
  · rw [if_pos heq, if_pos heq, ← heq, hvalue]
  · rw [if_neg heq, if_neg heq, h.attributes]

/-- A parameter that is written or removed is the same on both sides. -/
theorem putTyped (h : a.Backs codec r) (account name : String) (value : Option Value) :
    (a.updated { account, key := FlatKey.ofParameter name, value, secret := r.isSecret name }).Backs
      codec (r.putTyped name value) := by
  have hnone (d : Dict String) (hd : d = Dict.empty) : d.erase name = Dict.empty := by
    rw [hd]
    exact Dict.erase_of_get? (Dict.get?_empty name)
  rw [updated, FlatKey.ofText_ofParameter]
  refine ⟨h.attributes, ?_, hnone _ h.escaped, hnone _ h.noText, fun other hother => ?_⟩
  · exact congrArg (Dict.put · name value) h.typed
  · change r.secrets.has other = true
    cases value with
    | none =>
        rw [Names.has_remove, Bool.and_eq_true] at hother
        exact h.secrets other hother.2
    | some v =>
        cases hsecret : r.isSecret name with
        | false =>
            rw [hsecret] at hother
            exact h.secrets other hother
        | true =>
            rw [hsecret] at hother
            dsimp only at hother
            rw [if_pos rfl, Names.has_add, Bool.or_eq_true, decide_eq_true_iff] at hother
            rcases hother with heq | hold
            · rw [← heq]
              exact hsecret
            · exact h.secrets other hold

end Backs

end StoredAccount

namespace MemoryStore

/-- A store whose attributes were put in before anything else. -/
def seeded (attributes : List (String × String × Value)) : MemoryStore :=
  attributes.foldl (fun s e => s.seed e.1 e.2.1 e.2.2) {}

theorem account_of_get? {s : MemoryStore} {name : String} {a : StoredAccount}
    (h : s.accounts.get? name = some a) : s.account name = a := by
  rw [account, h]
  rfl

theorem get?_update (s : MemoryStore) (name other : String)
    (change : StoredAccount → StoredAccount) :
    (s.update name change).accounts.get? other =
      if name = other then some (change (s.account name)) else s.accounts.get? other :=
  Dict.get?_insert _ _ _ _

/-- A store that was only seeded has plain accounts. -/
theorem plain_of_seeded (attributes : List (String × String × Value)) {name : String}
    {a : StoredAccount} (h : (seeded attributes).accounts.get? name = some a) : a.Plain := by
  have hplain : ∀ (l : List (String × String × Value)) (s : MemoryStore),
      (∀ name a, s.accounts.get? name = some a → a.Plain) → ∀ name a,
        (l.foldl (fun s e => s.seed e.1 e.2.1 e.2.2) s).accounts.get? name = some a → a.Plain := by
    intro l
    induction l with
    | nil => exact fun s hs => hs
    | cons e more ih =>
        intro s hs
        refine ih (s.seed e.1 e.2.1 e.2.2) fun name a ha => ?_
        rw [seed, get?_update] at ha
        by_cases heq : e.1 = name
        · rw [if_pos heq] at ha
          cases ha
          cases hold : s.accounts.get? e.1 with
          | none =>
              rw [account, hold]
              exact ⟨rfl, rfl, rfl⟩
          | some old =>
              rw [account_of_get? hold]
              have hbefore := hs e.1 old hold
              exact ⟨hbefore.typed, hbefore.escaped, hbefore.secrets⟩
        · rw [if_neg heq] at ha
          exact hs name a ha
  exact hplain attributes {} nofun name a h

/-- What is pushed for an account without escaped parameters makes its record. -/
theorem takeAll_pushes {s : MemoryStore} {name : String} {a : StoredAccount}
    (h : s.accounts.get? name = some a) (hescaped : a.escaped = Dict.empty) (c : Cache)
    (owner : Nat) :
    (c.insert name (Record.new owner)).takeAll (s.pushes name none) =
      c.insert name (a.toRecord c.codec owner) := by
  have hall {β : Type} (l : List β) : l.filter (fun _ => true) = l :=
    List.filter_eq_self.mpr fun _ _ => rfl
  have hpushes : s.pushes name none =
      a.attributes.entries.map (fun e => Push.attr name e.1 (some e.2)) ++
        a.typed.entries.map fun e => Push.param name e.1 (some e.2) (a.secrets.has e.1) := by
    rw [pushes, account_of_get? h, hescaped]
    simp only [Option.all_none, hall]
    exact List.append_nil _
  have hattributes (record : Record) :
      (c.insert name record).takeAll
          (a.attributes.entries.map fun e => Push.attr name e.1 (some e.2)) =
        c.insert name (a.attributes.entries.foldl (Record.takeAttribute c.codec) record) := by
    apply Cache.takeAll_map
    intro r e
    exact Cache.modify_insert c name r fun r => r.takeAttribute c.codec e
  have hparameters (record : Record) :
      (c.insert name record).takeAll
          (a.typed.entries.map fun e => Push.param name e.1 (some e.2) (a.secrets.has e.1)) =
        c.insert name (a.typed.entries.foldl (Record.takeParameter a.secrets) record) := by
    apply Cache.takeAll_map
    intro r e
    exact Cache.modify_insert c name r fun r => r.takeParameter a.secrets e
  rw [hpushes, Cache.takeAll, List.foldl_append]
  exact (congrArg (Cache.takeAll · _) (hattributes (Record.new owner))).trans (hparameters _)

end MemoryStore

/-! ### The backend as a plugin -/

namespace Roster

variable {ε : Type} {slot : Nat} {settings : MemorySettings}

/-- An update of a stored account changes that account. -/
theorem tell_memory (r : Roster (World ε)) {u : Update} {w : World ε}
    (h : (w.memories slot).accounts.contains u.account = true) :
    r.tell (MemoryStore.plugin ε slot settings) u w =
      w.putMemory slot ((w.memories slot).update u.account (·.updated u)) := by
  unfold tell offer
  cases hvalue : u.value with
  | none =>
      dsimp only [MemoryStore.plugin]
      rw [MemoryStore.delete, if_pos h]
      unfold StoredAccount.updated
      rw [hvalue]
      cases FlatKey.ofText u.key <;> rfl
  | some v =>
      unfold StoredAccount.updated
      rw [hvalue]
      cases FlatKey.ofText u.key <;> rfl

end Roster

end AccountRoster
