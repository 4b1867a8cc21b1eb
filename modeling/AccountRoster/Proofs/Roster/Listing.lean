import AccountRoster.Proofs.Cache.FlatKeys
import AccountRoster.Proofs.Roster.Operations

/-!
# The flat keys of cached accounts

Clients are kept from writing an attribute under a name that carries the mark of a
parameter, and a text that is pushed under such a name becomes a parameter. An attribute
that is pushed is taken under any name. The keys of an account are listed once each, and
found, for as long as no plugin makes use of that.

## Implementation notes

Whether a cache is free of marked attributes is a matter of what is put into it. Which
account a push is about, and whether it is cached, plays no part.
-/

namespace AccountRoster

/-- A report that puts no attribute under a name with the mark of a parameter. -/
def Push.Unmarked : Push → Prop
  | .attr _ name (some _) => FlatKey.isParameter name = false
  | _ => True

namespace Record.Unmarked

theorem new (owner : Nat) : (Record.new owner).Unmarked := nofun

theorem putAttribute {r : Record} (h : r.Unmarked) {name : String} {value : Option Value}
    (hname : value.isSome = true → FlatKey.isParameter name = false) :
    (r.putAttribute name value).Unmarked := by
  intro other hother
  rw [Dict.contains_eq, attributes_putAttribute] at hother
  by_cases heq : name = other
  · rw [if_pos heq] at hother
    exact heq ▸ hname hother
  · rw [if_neg heq] at hother
    exact h other hother

end Record.Unmarked

namespace Cache

variable {c : Cache}

/-- No cached attribute goes by a name that carries the mark of a parameter. -/
def Unmarked (c : Cache) : Prop :=
  ∀ account record, c.record? account = some record → record.Unmarked

/-- The flat keys of an account are listed in order, each of them once, and they are those
under which something is found. -/
def ListsWhatIsFound (c : Cache) (account : String) : Prop :=
  (c.listKeys account).Pairwise (· < ·) ∧
    ∀ key, key ∈ c.listKeys account ↔ (c.text? account key).isSome = true

theorem listsWhatIsFound_iff {account : String} {record : Record}
    (hrecord : c.record? account = some record) (h : record.Consistent) :
    c.ListsWhatIsFound account ↔ record.Unmarked := by
  rw [← record.flatKeys_agree_iff c.codec h, ListsWhatIsFound, listKeys, hrecord]
  unfold text?
  rw [hrecord]
  rfl

/-- Nothing is listed of an account that is not cached, and nothing is found. -/
theorem listsWhatIsFound_of_none {account : String} (h : c.record? account = none) :
    c.ListsWhatIsFound account := by
  rw [ListsWhatIsFound, listKeys, h]
  unfold text?
  rw [h]
  exact ⟨List.Pairwise.nil, fun _ => ⟨nofun, nofun⟩⟩

namespace Unmarked

theorem insert (h : c.Unmarked) {account : String} {record : Record} (hrecord : record.Unmarked) :
    (c.insert account record).Unmarked := by
  intro other found hfound
  rw [record?_insert] at hfound
  split at hfound
  · cases hfound
    exact hrecord
  · exact h other found hfound

theorem modify (h : c.Unmarked) (account : String) {change : Record → Record}
    (hchange : ∀ record, record.Unmarked → (change record).Unmarked) :
    (c.modify account change).Unmarked := by
  unfold Cache.modify
  split
  next record hrecord => exact h.insert (hchange record (h account record hrecord))
  next => exact h

theorem erase (h : c.Unmarked) (account : String) : (c.erase account).Unmarked := by
  intro other found hfound
  rw [record?_erase] at hfound
  split at hfound
  · cases hfound
  · exact h other found hfound

/-- A text under a marked key is taken as a parameter, so that only a pushed attribute can
do harm. -/
theorem take (h : c.Unmarked) {push : Push} (hpush : push.Unmarked) : (c.take push).Unmarked := by
  cases push with
  | text account key escaped =>
      refine h.modify account fun record hrecord => ?_
      split
      next => exact hrecord
      next name hname =>
        obtain ⟨rfl, hclear⟩ := FlatKey.ofText_eq_attr_iff.mp hname
        exact hrecord.putAttribute fun _ => hclear
  | attr account name value =>
      refine h.modify account fun record hrecord => hrecord.putAttribute fun hsome => ?_
      cases value with
      | none => cases hsome
      | some v => exact hpush
  | param account name value secret =>
      refine h.modify account fun record hrecord => ?_
      split <;> exact hrecord
  | makeSecret account name => exact h.modify account fun record hrecord => hrecord

theorem takeAll (h : c.Unmarked) {pushes : List Push} (hpushes : ∀ push ∈ pushes, push.Unmarked) :
    (c.takeAll pushes).Unmarked :=
  List.foldlRecOn pushes Cache.take h fun _ hc _ hmem => hc.take (hpushes _ hmem)

end Unmarked

end Cache

/-! ### Plugins that keep to the mark -/

variable {W : Type}

/-- A plugin that pushes no attribute under a marked name. -/
def Plugin.PushesUnmarked (plugin : Plugin W) : Prop :=
  ∀ c account key w, ∀ push ∈ (plugin.get c account key w).2.1, push.Unmarked

/-- An operation that brings in no attribute under a marked name, nor a plugin that does. -/
def Operation.Unmarked : Operation W → Prop
  | .register plugin => plugin.PushesUnmarked
  | .report push => push.Unmarked
  | _ => True

/-- A key-file pushes texts only. -/
theorem KeyfileStore.pushesUnmarked (ε : Type) (slot : Nat) :
    (KeyfileStore.plugin ε slot).PushesUnmarked := by
  intro c account key w push hpush
  change push ∈ pushesOf ((w.keyfiles slot).get account key w.disk).answer at hpush
  unfold get whenLoaded at hpush
  split at hpush
  next s d _ =>
    dsimp only at hpush
    split at hpush
    · cases key with
      | none =>
          obtain ⟨e, -, rfl⟩ := List.mem_map.mp hpush
          trivial
      | some key =>
          rw [List.mem_singleton.mp hpush]
          trivial
    · cases hpush
  next => cases hpush

/-- No cached attribute is marked, and no plugin pushes one that is. -/
structure Separate (s : Running W) : Prop where
  plugins : ∀ p ∈ s.roster.registry, p.plugin.PushesUnmarked
  cache : s.roster.cache.Unmarked

namespace Separate

variable {r : Roster W} {w : W}

theorem recache (h : Separate ⟨r, w⟩) {c : Cache} (hc : c.Unmarked) (w' : W) :
    Separate ⟨{ r with cache := c }, w'⟩ :=
  ⟨h.plugins, hc⟩

theorem addAccount (h : Separate ⟨r, w⟩) {p : Registered W} (hp : p.plugin.PushesUnmarked)
    (account : String) : Separate (r.addAccount p account w).running := by
  rcases r.addAccount_cases p account w with ⟨-, heq⟩ | ⟨-, heq⟩
  · rwa [heq]
  · rw [heq]
    exact h.recache ((h.cache.insert (Record.Unmarked.new p.id)).takeAll (hp _ _ _ _)) _

theorem load (h : Separate ⟨r, w⟩) : Separate (r.load w).running := by
  have hkept : Roster.KeptByLoading Separate (r.registry) := {
    list := fun hs _ _ => hs.recache hs.cache _
    add := fun _ ht _ hp _ _ account _ => ht.addAccount (h.plugins _ hp) account }
  exact hkept.load h

theorem create (h : Separate ⟨r, w⟩) (provider : Option String)
    (manager protocol identification : String) :
    Separate (r.create provider manager protocol identification w).running :=
  Roster.create_keeps h provider manager protocol identification
    (fun _ _ _ hw _ => hw.recache hw.cache _)
    fun _ hp _ hw account _ => (hw.recache hw.cache _).addAccount (h.plugins _ hp) account

/-- A client cannot write an attribute under a marked name. -/
theorem setAttribute (h : Separate ⟨r, w⟩) (account name : String) (value : Option Value) :
    Separate (r.setAttribute account name value w).running := by
  refine Roster.carryOut_keeps h fun c u hplan => ?_
  obtain ⟨record, new, hname, hrecord, -, rfl, -⟩ := Cache.planAttribute_eq_some hplan
  have hput : (record.putAttribute name new).Unmarked :=
    (h.cache account record hrecord).putAttribute fun _ => hname
  exact h.recache (h.cache.insert hput) _

theorem setParameter (h : Separate ⟨r, w⟩) (account name : String) (value : Option Value) :
    Separate (r.setParameter account name value w).running := by
  refine Roster.carryOut_keeps h fun c u hplan => ?_
  obtain ⟨record, hrecord, rfl, -⟩ := Cache.planParameter_eq_some hplan
  have hput : (record.putTyped name value).Unmarked := h.cache account record hrecord
  exact h.recache (h.cache.insert hput) _

theorem delete (h : Separate ⟨r, w⟩) (account : String) :
    Separate (r.delete account w).running := by
  unfold Roster.delete
  split
  · exact h
  · exact h.recache (h.cache.erase account) _

/-- No call of a client brings in a marked attribute. -/
theorem kept : Kept (Separate (W := W)) where
  create := create
  setAttribute := setAttribute
  setParameter := setParameter
  identify h _ _ _ _ := h.recache h.cache _
  makeSecret {s} h account name := by
    have htaken : (s.roster.cache.take (.makeSecret account name)).Unmarked := h.cache.take trivial
    exact h.recache htaken _
  delete := delete
  commit h _ := h.recache h.cache _

theorem operate {s : Running W} (h : Separate s) {operation : Operation W}
    (hoperation : operation.Unmarked) : Separate (s.operate operation) := by
  cases operation with
  | register plugin =>
      refine ⟨fun p hp => ?_, h.cache⟩
      rcases Roster.mem_register.mp hp with rfl | hold
      · exact hoperation
      · exact h.plugins p hold
  | identifyBy source => exact ⟨h.plugins, h.cache⟩
  | load => exact h.load
  | startup =>
      have hstartup : Separate (s.roster.startup s.world).running :=
        Reply.andThen_keeps h.load fun _ _ _ ht => ht.recache ht.cache _
      exact hstartup
  | call call => exact kept.perform h call
  | report push => exact h.recache (h.cache.take hoperation) _
  | elapse world => exact h.recache h.cache _

theorem operateAll {s : Running W} (h : Separate s) {operations : List (Operation W)}
    (hoperations : ∀ operation ∈ operations, operation.Unmarked) :
    Separate (s.operateAll operations) :=
  List.foldlRecOn operations Running.operate h fun _ ht _ hmem =>
    ht.operate (hoperations _ hmem)

end Separate

/-- Whatever is done: the keys of an account are listed in order, and whatever is found
under a key is listed. Keys are listed once each, and all of them are found, exactly if the
account has no attribute under a marked name; and it has none as long as no plugin pushes
one. -/
theorem listing_agrees_iff_unmarked (codec : Codec) (w : W) (operations : List (Operation W)) :
    let s := (⟨Roster.new codec, w⟩ : Running W).operateAll operations
    (∀ account record, s.roster.cache.record? account = some record →
      (s.roster.cache.listKeys account).Pairwise (· ≤ ·) ∧
      (∀ key, (s.roster.cache.text? account key).isSome = true →
        key ∈ s.roster.cache.listKeys account) ∧
      (s.roster.cache.ListsWhatIsFound account ↔ record.Unmarked)) ∧
    ((∀ operation ∈ operations, operation.Unmarked) →
      ∀ account, s.roster.cache.ListsWhatIsFound account) := by
  intro s
  have hs : (⟨Roster.new codec, w⟩ : Running W).LeadsTo (fun _ => True) s :=
    Running.leadsTo_operateAll _ fun _ _ _ _ => trivial
  have hsound : s.roster.cache.Sound s.roster.HasNumber := hs.edits.sound nofun
  refine ⟨fun account record hrecord => ⟨?_, fun key hfound => ?_, ?_⟩, fun hunmarked account => ?_⟩
  · rw [Cache.listKeys, hrecord]
    exact record.flatKeys_sorted
  · rw [Cache.text?, hrecord] at hfound
    rw [Cache.listKeys, hrecord]
    exact Record.mem_flatKeys_of_isSome hfound
  · exact Cache.listsWhatIsFound_iff hrecord (hsound account record hrecord).1
  · have hnew : Separate (⟨Roster.new codec, w⟩ : Running W) := ⟨nofun, nofun⟩
    have hseparate : Separate s := hnew.operateAll hunmarked
    cases hrecord : s.roster.cache.record? account with
    | none => exact Cache.listsWhatIsFound_of_none hrecord
    | some record =>
        exact (Cache.listsWhatIsFound_iff hrecord (hsound account record hrecord).1).mpr
          (hseparate.cache account record hrecord)

/-- What a key-file pushes and what clients write is listed as it is found. -/
theorem listing_agrees_keyfile :
    let text := "[a]\nNickname=bob\nparam-server=x\n"
    let w := (World.new (Disk.empty.mount "a.cfg" (.text text)) ()).putKeyfile 0
      (KeyfileStore.new "a.cfg" ',')
    let start : Running (World Unit) := ⟨Roster.new {}, w⟩
    let s := start.operateAll [.register (KeyfileStore.plugin Unit 0), .load,
      .call (.setParameter "a" "port" (some (.uint32 5222)))]
    s.roster.cache.contains "a" = true ∧ s.roster.cache.ListsWhatIsFound "a" ∧
      ∃ record, s.roster.cache.record? "a" = some record ∧ record.Unmarked := by
  intro text w start s
  have hcached : (s.roster.cache.record? "a").isSome = true := by decide +kernel
  obtain ⟨record, hrecord⟩ := Option.isSome_iff_exists.mp hcached
  obtain ⟨heach, hall⟩ := listing_agrees_iff_unmarked {} w
    [.register (KeyfileStore.plugin Unit 0), .load,
      .call (.setParameter "a" "port" (some (.uint32 5222)))]
  have hlists : s.roster.cache.ListsWhatIsFound "a" := by
    refine hall (fun operation hmem => ?_) "a"
    simp only [List.mem_cons, List.not_mem_nil, or_false] at hmem
    rcases hmem with rfl | rfl | rfl
    · exact KeyfileStore.pushesUnmarked Unit 0
    · trivial
    · trivial
  exact ⟨hcached, hlists, record, hrecord, (heach "a" record hrecord).2.2.mp hlists⟩

/-- An attribute that an in-process store has under a marked name stands in the way of the
parameter of that name: the key is listed twice, and found once. -/
theorem listing_repeats_marked_attribute :
    let seeded := ({} : MemoryStore).seed "a" "param-x" (.string "v")
    let w := (World.new Disk.empty ()).putMemory 0 seeded
    let start : Running (World Unit) := ⟨Roster.new {}, w⟩
    let s := start.operateAll [.register (MemoryStore.plugin Unit 0 { name := "memory" }), .load,
      .call (.setParameter "a" "x" (some (.string "w")))]
    s.roster.cache.listKeys "a" = ["param-x", "param-x"] ∧
      s.roster.cache.text? "a" "param-x" = some "w" ∧
      ¬s.roster.cache.ListsWhatIsFound "a" := by
  intro seeded w start s
  have hrecord : s.roster.cache.record? "a" = some
      { owner := 0, attributes := Dict.empty.insert "param-x" (.string "v"),
        typed := Dict.empty.insert "x" (.string "w") } := by
    decide +kernel
  have hkeys : s.roster.cache.listKeys "a" = ["param-x", "param-x"] := by
    rw [Cache.listKeys, hrecord]
    have hperm := Record.flatKeys_perm
      { owner := 0, attributes := Dict.empty.insert "param-x" (.string "v"),
        typed := Dict.empty.insert "x" (.string "w") }
    change List.Perm _ (List.replicate 2 "param-x") at hperm
    exact List.perm_replicate.mp hperm
  refine ⟨hkeys, by decide +kernel, fun ⟨hstrict, _⟩ => ?_⟩
  rw [hkeys] at hstrict
  exact String.lt_irrefl _ (List.rel_of_pairwise_cons hstrict List.mem_cons_self)

end AccountRoster
