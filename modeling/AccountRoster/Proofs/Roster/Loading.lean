import AccountRoster.Proofs.Backend.Keyfile
import AccountRoster.Proofs.Cache.FlatKeys

/-!
# Loading from a key-file

A roster whose only plugin is a key-file has one record for every group after it
was loaded, made of the entries of the group. The attributes and the texts of
parameters of such a record are read off the entries.

## Implementation notes

The entries of a group are taken in one after the other. `foldl_observe` is used
once for each thing that can be read off a record, since one key alone decides it.
-/

namespace AccountRoster

/-- Read a text as an attribute: in its schema type, or else as a string. -/
def Codec.readAttribute (codec : Codec) (name escaped : String) : Option Value :=
  (codec.unescape escaped ((Schema.attributeType name).getD .string)).toOption

/-- The attribute of a given name that entries hold. A parameter is none. -/
def Codec.attributeOf (codec : Codec) (entries : Dict String) (name : String) : Option Value :=
  if FlatKey.isParameter name then none
  else (entries.get? name).bind (codec.readAttribute name)

/-! ### Records -/

namespace Record

/-- Take in the text under a flat key. -/
def takeText (codec : Codec) (r : Record) (entry : String × String) : Record :=
  match FlatKey.ofText entry.1 with
  | .param name => r.putEscaped name (some entry.2)
  | .attr name => r.putAttribute name (codec.readAttribute name entry.2)

/-- The record that entries make. -/
def ofEntries (codec : Codec) (owner : Nat) (entries : Dict String) : Record :=
  entries.entries.foldl (takeText codec) (new owner)

theorem takeText_of_attribute (codec : Codec) (r : Record) {key : String} (text : String)
    (h : FlatKey.isParameter key = false) :
    r.takeText codec (key, text) = r.putAttribute key (codec.readAttribute key text) := by
  rw [takeText, FlatKey.ofText_of_isParameter_false h]

theorem takeText_of_parameter (codec : Codec) (r : Record) {key name : String} (text : String)
    (h : FlatKey.ofText key = .param name) :
    r.takeText codec (key, text) = r.putEscaped name (some text) := by
  rw [takeText, h]

/-- A text under the flat key of a parameter, or under another, is taken in. -/
theorem takeText_cases (codec : Codec) (r : Record) (entry : String × String) :
    (FlatKey.isParameter entry.1 = false ∧
      r.takeText codec entry = r.putAttribute entry.1 (codec.readAttribute entry.1 entry.2)) ∨
    ∃ name, entry.1 = FlatKey.ofParameter name ∧
      r.takeText codec entry = r.putEscaped name (some entry.2) := by
  cases h : FlatKey.isParameter entry.1 with
  | false => exact Or.inl ⟨rfl, takeText_of_attribute codec r entry.2 h⟩
  | true =>
      obtain ⟨name, hname⟩ := FlatKey.exists_ofText_param h
      exact Or.inr ⟨name, FlatKey.ofText_eq_param_iff.mp hname, takeText_of_parameter codec r entry.2 hname⟩

/-- A text under another key leaves a parameter alone. -/
theorem parameter_takeText_of_ne (codec : Codec) (r : Record) {entry : String × String}
    {name : String} (hne : entry.1 ≠ FlatKey.ofParameter name) :
    (r.takeText codec entry).typed.get? name = r.typed.get? name ∧
      (r.takeText codec entry).escaped.get? name = r.escaped.get? name := by
  rcases takeText_cases codec r entry with ⟨-, h⟩ | ⟨other, hkey, h⟩
  · rw [h]
    exact ⟨rfl, rfl⟩
  · have hother : other ≠ name := by
      rintro rfl
      exact hne hkey
    rw [h, typed_putEscaped, escaped_putEscaped, if_neg hother, if_neg hother]
    exact ⟨rfl, rfl⟩

/-- What no text changes is as in a new record. -/
theorem ofEntries_keeps {γ : Type} {codec : Codec} (observe : Record → γ)
    (keep : ∀ r entry, observe (takeText codec r entry) = observe r) (owner : Nat)
    (entries : Dict String) : observe (ofEntries codec owner entries) = observe (new owner) :=
  Dict.foldl_keeps observe keep entries.entries (new owner)

@[simp] theorem owner_ofEntries (codec : Codec) (owner : Nat) (entries : Dict String) :
    (ofEntries codec owner entries).owner = owner := by
  refine ofEntries_keeps Record.owner (fun r entry => ?_) owner entries
  rcases takeText_cases codec r entry with ⟨-, h⟩ | ⟨name, -, h⟩
  · rw [h, owner_putAttribute]
  · rw [h, owner_putEscaped]

/-- The attributes of a loaded record are those that the entries hold. -/
theorem attributes_ofEntries (codec : Codec) (owner : Nat) (entries : Dict String)
    (name : String) :
    (ofEntries codec owner entries).attributes.get? name = codec.attributeOf entries name := by
  have hmiss (r : Record) (entry : String × String)
      (hne : FlatKey.isParameter entry.1 = true ∨ entry.1 ≠ name) :
      (r.takeText codec entry).attributes.get? name = r.attributes.get? name := by
    rcases takeText_cases codec r entry with ⟨hattr, h⟩ | ⟨_, -, h⟩
    · have hother : entry.1 ≠ name := hne.resolve_left (by simp [hattr])
      rw [h, attributes_putAttribute, if_neg hother]
    · rw [h]
      rfl
  rw [Codec.attributeOf]
  cases hname : FlatKey.isParameter name with
  | true =>
      refine ofEntries_keeps (fun r => r.attributes.get? name) (fun r entry => ?_) owner entries
      refine hmiss r entry ?_
      by_cases heq : entry.1 = name
      · exact Or.inl (heq ▸ hname)
      · exact Or.inr heq
  | false =>
      have hhit (r : Record) (text : String) :
          (r.takeText codec (name, text)).attributes.get? name = codec.readAttribute name text := by
        rw [takeText_of_attribute codec r text hname, attributes_putAttribute, if_pos rfl]
      have hfold := Dict.foldl_observe (fun r : Record => r.attributes.get? name)
        (fun _ text => codec.readAttribute name text) hhit
        (fun r entry hne => hmiss r entry (Or.inr hne)) entries.sorted (new owner)
      rw [ofEntries, hfold, Dict.find_entries]
      cases entries.get? name <;> rfl

/-- A loaded record holds no typed parameter. -/
theorem typed_ofEntries (codec : Codec) (owner : Nat) (entries : Dict String) (name : String) :
    (ofEntries codec owner entries).typed.get? name = none := by
  have hhit (r : Record) (text : String) :
      (r.takeText codec (FlatKey.ofParameter name, text)).typed.get? name = none := by
    rw [takeText_of_parameter codec r text (FlatKey.ofText_ofParameter name), typed_putEscaped,
      if_pos rfl]
  have hfold := Dict.foldl_observe (fun r : Record => r.typed.get? name)
    (fun _ _ => none) hhit (fun r _ hne => (parameter_takeText_of_ne codec r hne).1)
    entries.sorted (new owner)
  rw [ofEntries, hfold, Dict.find_entries]
  cases entries.get? (FlatKey.ofParameter name) <;> rfl

/-- The escaped parameters of a loaded record are the texts under their flat keys. -/
theorem escaped_ofEntries (codec : Codec) (owner : Nat) (entries : Dict String) (name : String) :
    (ofEntries codec owner entries).escaped.get? name =
      entries.get? (FlatKey.ofParameter name) := by
  have hhit (r : Record) (text : String) :
      (r.takeText codec (FlatKey.ofParameter name, text)).escaped.get? name = some text := by
    rw [takeText_of_parameter codec r text (FlatKey.ofText_ofParameter name), escaped_putEscaped,
      if_pos rfl]
  have hfold := Dict.foldl_observe (fun r : Record => r.escaped.get? name)
    (fun _ text => some text) hhit (fun r _ hne => (parameter_takeText_of_ne codec r hne).2)
    entries.sorted (new owner)
  rw [ofEntries, hfold, Dict.find_entries]
  cases entries.get? (FlatKey.ofParameter name) <;> rfl

theorem parameterText?_ofEntries (codec : Codec) (owner : Nat) (entries : Dict String)
    (name : String) :
    (ofEntries codec owner entries).parameterText? codec name =
      entries.get? (FlatKey.ofParameter name) := by
  rw [parameterText?, typed_ofEntries]
  exact escaped_ofEntries codec owner entries name

end Record

/-! ### The cache -/

namespace Cache

/-- The cache with a record for every group of a key-file. -/
def ofKeyfile (codec : Codec) (owner : Nat) (f : Keyfile) : Cache :=
  { codec, accounts := f.groups.map (Record.ofEntries codec owner) }

theorem record?_ofKeyfile (codec : Codec) (owner : Nat) (f : Keyfile) (account : String) :
    (ofKeyfile codec owner f).record? account =
      (f.groups.get? account).map (Record.ofEntries codec owner) :=
  Dict.get?_map _ f.groups account

theorem insert_insert (c : Cache) (account : String) (a b : Record) :
    (c.insert account a).insert account b = c.insert account b :=
  congrArg (Cache.mk c.codec) (Dict.insert_insert c.accounts account a b)

/-- What is pushed for an account goes into its record. -/
theorem takeAll_map {α : Type} {c : Cache} {account : String} {push : α → Push}
    {change : Record → α → Record}
    (h : ∀ record e, (c.insert account record).take (push e) = c.insert account (change record e))
    (l : List α) (record : Record) :
    (c.insert account record).takeAll (l.map push) = c.insert account (l.foldl change record) := by
  induction l generalizing record with
  | nil => rfl
  | cons e more ih =>
      rw [List.map_cons, takeAll, List.foldl_cons, h]
      exact ih (change record e)

/-- A record that has just been entered is changed in its place. -/
theorem modify_insert (c : Cache) (account : String) (record : Record)
    (change : Record → Record) :
    (c.insert account record).modify account change = c.insert account (change record) := by
  rw [modify, record?_insert_self]
  exact insert_insert c account record (change record)

theorem takeAll_texts (c : Cache) (account : String) (entries : List (String × String))
    (record : Record) :
    (c.insert account record).takeAll (entries.map fun e => Push.text account e.1 (some e.2)) =
      c.insert account (entries.foldl (Record.takeText c.codec) record) := by
  apply takeAll_map
  intro record e
  exact modify_insert c account record fun r => r.takeText c.codec e

end Cache

/-! ### Loading -/

namespace Roster

variable {ε : Type} {r : Roster (World ε)} {slot : Nat} {w : World ε}

/-- An account is entered with what its group holds. -/
theorem addAccount_keyfile (id : Nat) (hloaded : (w.keyfiles slot).loaded = true) {account : String}
    {entries : Dict String} (hgroup : (w.keyfiles slot).file.groups.get? account = some entries)
    (hnew : r.cache.record? account = none) :
    r.addAccount ⟨id, KeyfileStore.plugin ε slot⟩ account w =
      ⟨.ok (), { r with
        cache := r.cache.insert account (Record.ofEntries r.cache.codec id entries) }, w⟩ := by
  have hhas : (w.keyfiles slot).file.hasGroup account = true := by
    rw [Keyfile.hasGroup, Dict.contains_eq, hgroup]
    rfl
  have hget : (w.keyfiles slot).get account none w.disk =
      ⟨.ok (true, entries.entries.map fun e => Push.text account e.1 (some e.2)),
        w.keyfiles slot, w.disk⟩ := by
    rw [KeyfileStore.get, KeyfileStore.whenLoaded_of_loaded hloaded, if_pos hhas]
    rw [KeyfileStore.pushes, Keyfile.entries_of_get? hgroup]
  have hfetch : ∀ c : Cache, (KeyfileStore.plugin ε slot).get c account none w =
      (.ok true, entries.entries.map fun e => Push.text account e.1 (some e.2), w) := by
    intro c
    have hworld := w.afterKeyfile_same slot
      (.ok (true, entries.entries.map fun e => Push.text account e.1 (some e.2)))
    simp only [KeyfileStore.plugin, hget, hworld]
    rfl
  simp only [addAccount, hnew, fetch, hfetch, Cache.takeAll_texts]
  rfl

/-- An account is entered with what is stored of it, if only nothing. -/
theorem addAccount_of_loaded (id : Nat) (hloaded : (w.keyfiles slot).loaded = true)
    {account : String} (hnew : r.cache.record? account = none) :
    r.addAccount ⟨id, KeyfileStore.plugin ε slot⟩ account w =
      ⟨.ok (), { r with
        cache := r.cache.insert account
          (Record.ofEntries r.cache.codec id ((w.keyfiles slot).file.entries account)) }, w⟩ := by
  cases hgroup : (w.keyfiles slot).file.groups.get? account with
  | some entries => rw [addAccount_keyfile id hloaded hgroup hnew, Keyfile.entries_of_get? hgroup]
  | none =>
      have hhas : ¬(w.keyfiles slot).file.hasGroup account = true := by
        simp [Keyfile.hasGroup, hgroup]
      have hempty : (w.keyfiles slot).file.entries account = Dict.empty := by
        rw [Keyfile.entries, hgroup, Option.getD_none]
      have hfetch : ∀ c : Cache, (KeyfileStore.plugin ε slot).get c account none w =
          (.ok false, [], w) := by
        intro c
        have hget : (w.keyfiles slot).get account none w.disk =
            ⟨.ok (false, []), w.keyfiles slot, w.disk⟩ := by
          rw [KeyfileStore.get, KeyfileStore.whenLoaded_of_loaded hloaded, if_neg hhas]
        have hworld := w.afterKeyfile_same slot (.ok (false, ([] : List Push)))
        simp only [KeyfileStore.plugin, hget, hworld]
        rfl
      simp only [addAccount, hnew, fetch, hfetch, hempty]
      rfl

/-- Groups are entered in order, as long as none of them is an account yet. -/
theorem addAccounts_keyfile (id : Nat) (hloaded : (w.keyfiles slot).loaded = true)
    {groups : List (String × Dict String)} (hsorted : groups.Pairwise fun a b => a.1 < b.1)
    (hgroups : ∀ group ∈ groups,
      (w.keyfiles slot).file.groups.get? group.1 = some group.2)
    (hnew : ∀ group ∈ groups, r.cache.record? group.1 = none) :
    addAccounts ⟨id, KeyfileStore.plugin ε slot⟩ (groups.map Prod.fst) r w =
      ⟨.ok (), { r with cache := { r.cache with
        accounts := groups.foldl
          (fun d group => d.insert group.1 (Record.ofEntries r.cache.codec id group.2))
          r.cache.accounts } }, w⟩ := by
  induction groups generalizing r with
  | nil => rfl
  | cons group more ih =>
      obtain ⟨hfirst, hrest⟩ := List.pairwise_cons.mp hsorted
      have hadd := addAccount_keyfile id hloaded
        (hgroups group List.mem_cons_self) (hnew group List.mem_cons_self)
      have hlater : ∀ g ∈ more, (r.cache.insert group.1
          (Record.ofEntries r.cache.codec id group.2)).record? g.1 = none := by
        intro g hg
        have hne : group.1 ≠ g.1 := fun e => String.lt_irrefl g.1 (by
          have hlt := hfirst g hg
          rwa [e] at hlt)
        rw [Cache.record?_insert, if_neg hne]
        exact hnew g (List.mem_cons_of_mem group hg)
      rw [List.map_cons, addAccounts, hadd, Reply.andThen]
      exact ih hrest (fun g hg => hgroups g (List.mem_cons_of_mem group hg)) hlater

/-- A roster whose only plugin is a key-file that can be read loads its groups. -/
theorem load_keyfile {id : Nat} (hregistry : r.registry = [⟨id, KeyfileStore.plugin ε slot⟩])
    (hempty : r.cache.accounts = Dict.empty) {s : KeyfileStore} {d : Disk}
    (hload : (w.keyfiles slot).ensureLoaded w.disk = ⟨.ok (), s, d⟩) :
    r.load w = ⟨.ok (), { r with cache := Cache.ofKeyfile r.cache.codec id s.file },
      w.afterKeyfile slot (⟨.ok (), s, d⟩ : StoreReply Unit)⟩ := by
  have hlist : ∀ c : Cache, (KeyfileStore.plugin ε slot).list c w =
      (.ok s.file.groupNames, w.afterKeyfile slot (⟨.ok (), s, d⟩ : StoreReply Unit)) := by
    intro c
    simp only [KeyfileStore.plugin, KeyfileStore.list, KeyfileStore.whenLoaded, hload]
    rfl
  have hstore : (w.afterKeyfile slot (⟨.ok (), s, d⟩ : StoreReply Unit)).keyfiles slot = s :=
    w.keyfiles_afterKeyfile_self slot _
  have hloaded := KeyfileStore.loaded_of_ensureLoaded hload
  rw [← hstore] at hloaded
  have hadd := addAccounts_keyfile (r := r) id hloaded s.file.groups.sorted
    (fun group hg => by
      rw [hstore]
      exact Dict.get?_eq_some_iff.mpr hg)
    (fun group _ => by
      rw [Cache.record?, hempty]
      rfl)
  rw [hempty, Dict.foldl_insert_eq_map] at hadd
  have hplugin : r.loadPlugin ⟨id, KeyfileStore.plugin ε slot⟩ w =
      ⟨.ok (), { r with cache := Cache.ofKeyfile r.cache.codec id s.file },
        w.afterKeyfile slot (⟨.ok (), s, d⟩ : StoreReply Unit)⟩ := by
    simp only [loadPlugin, hlist]
    exact hadd
  have hplugins : r.load w = loadPlugins [⟨id, KeyfileStore.plugin ε slot⟩] r w := by
    rw [load, hregistry, List.reverse_singleton]
  rw [hplugins, loadPlugins, hplugin]
  rfl

end Roster

end AccountRoster
