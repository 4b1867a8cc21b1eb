import AccountRoster.Backend
import AccountRoster.Proofs.Cache.Edits
import AccountRoster.Proofs.Roster.Plans
import AccountRoster.Proofs.Roster.Registry

/-!
# Everything that can be done with a roster

Plugins are registered, accounts are loaded, clients make calls, and plugins write
back whenever they like. All of it is a chain of edits of the cache, in which
accounts get their owners from the registry and only a deleted account is dropped.
Every cached record is therefore consistent, and its owner stays.

## Implementation notes

Nothing is assumed about a plugin, nor about how the world changes between two
operations. The registry only grows, so that the owners which one operation may
give are owners which later ones may give too.
-/

namespace AccountRoster

variable {W : Type}

/-- Something that is done with a roster, by a client, by a plugin or by others. -/
inductive Operation (W : Type) where
  | register (plugin : Plugin W)
  | identifyBy (source : Option (Identifier W))
  | load
  | startup
  | call (call : Call)
  /-- A plugin writes back into the cache. -/
  | report (push : Push)
  /-- The world changes by itself. -/
  | elapse (world : W)

theorem Operation.register_cases (operation : Operation W) :
    (∃ plugin, operation = .register plugin) ∨ ∀ plugin, operation ≠ .register plugin := by
  cases operation with
  | register plugin => exact Or.inl ⟨plugin, rfl⟩
  | _ => exact Or.inr nofun

/-- Whether an operation deletes an account. -/
def Operation.Deletes (account : String) : Operation W → Prop
  | .call (.delete other) => other = account
  | _ => False

/-- Whether a number is that of a registered plugin. -/
def Roster.HasNumber (r : Roster W) (n : Nat) : Prop := ∃ plugin, ⟨n, plugin⟩ ∈ r.registry

namespace Running

/-- Do something. -/
def operate (s : Running W) : Operation W → Running W
  | .register plugin => ⟨s.roster.register plugin, s.world⟩
  | .identifyBy source => ⟨{ s.roster with identifier := source }, s.world⟩
  | .load => (s.roster.load s.world).running
  | .startup => (s.roster.startup s.world).running
  | .call call => s.perform call
  | .report push => ⟨{ s.roster with cache := s.roster.cache.take push }, s.world⟩
  | .elapse world => ⟨s.roster, world⟩

/-- Do things in order. -/
def operateAll (s : Running W) (operations : List (Operation W)) : Running W :=
  operations.foldl operate s

/-- The registry is what it was, and the cache has been edited. -/
structure EditedFrom (s : Running W) (dropped : String → Prop) (t : Running W) : Prop where
  registry : t.roster.registry = s.roster.registry
  edits : Cache.Edits s.roster.HasNumber dropped s.roster.cache t.roster.cache

/-- The registry has lost no plugin and is numbered as before, and the cache has been
edited. -/
structure LeadsTo (s : Running W) (dropped : String → Prop) (t : Running W) : Prop where
  subset : s.roster.registry ⊆ t.roster.registry
  numbered : s.roster.Numbered → t.roster.Numbered
  edits : Cache.Edits t.roster.HasNumber dropped s.roster.cache t.roster.cache

namespace EditedFrom

variable {s : Running W} {dropped : String → Prop} {r : Roster W} {w : W}

theorem refl (s : Running W) (dropped : String → Prop) : s.EditedFrom dropped s :=
  ⟨rfl, Relation.ReflTransGen.refl⟩

/-- More edits of the cache, whatever happens to the world. -/
theorem edit (h : s.EditedFrom dropped ⟨r, w⟩) {c : Cache}
    (hedits : Cache.Edits s.roster.HasNumber dropped r.cache c) (w' : W) :
    s.EditedFrom dropped ⟨{ r with cache := c }, w'⟩ :=
  ⟨h.registry, h.edits.trans hedits⟩

theorem elapse (h : s.EditedFrom dropped ⟨r, w⟩) (w' : W) : s.EditedFrom dropped ⟨r, w'⟩ :=
  ⟨h.registry, h.edits⟩

theorem leadsTo {t : Running W} (h : s.EditedFrom dropped t) : s.LeadsTo dropped t where
  subset := fun _ hp => by rwa [h.registry]
  numbered := fun hs => by rwa [Roster.Numbered, h.registry]
  edits := h.edits.mono (fun _ ⟨plugin, hp⟩ => ⟨plugin, by rwa [h.registry]⟩) fun _ hd => hd

/-- An account is entered with its plugin as the owner, and takes what is pushed. -/
theorem addAccount (h : s.EditedFrom dropped ⟨r, w⟩) {p : Registered W}
    (hp : p ∈ s.roster.registry) (account : String) :
    s.EditedFrom dropped (r.addAccount p account w).running := by
  rcases r.addAccount_cases p account w with ⟨-, heq⟩ | ⟨hnew, heq⟩
  · rwa [heq]
  · rw [heq]
    have henter : Cache.Edits s.roster.HasNumber dropped r.cache
        (r.cache.insert account (Record.new p.id)) :=
      Relation.ReflTransGen.single (Cache.Edit.enter r.cache account p.id hnew ⟨p.plugin, hp⟩)
    exact h.edit (henter.trans (Cache.edits_takeAll _)) _

theorem keptByLoading (s : Running W) (dropped : String → Prop) :
    Roster.KeptByLoading (s.EditedFrom dropped) s.roster.registry where
  list hs _ _ := hs.elapse _
  add _ ht _ hp _ _ account _ := ht.addAccount hp account

theorem load (h : s.EditedFrom dropped ⟨r, w⟩) : s.EditedFrom dropped (r.load w).running := by
  have hP := keptByLoading s dropped
  rw [← h.registry] at hP
  exact hP.load h

theorem create (h : s.EditedFrom dropped ⟨r, w⟩) (provider : Option String)
    (manager protocol identification : String) :
    s.EditedFrom dropped (r.create provider manager protocol identification w).running := by
  apply Roster.create_keeps h
  · intro p _ w hw _
    exact hw.elapse _
  · intro p hp w hw account _
    exact (hw.elapse _).addAccount (h.registry ▸ hp) account

/-- An attribute that is set fits the schema. -/
theorem setAttribute (h : s.EditedFrom dropped ⟨r, w⟩) (account name : String)
    (value : Option Value) :
    s.EditedFrom dropped (r.setAttribute account name value w).running := by
  refine Roster.carryOut_keeps h fun c u hplan => ?_
  obtain ⟨record, new, -, hrecord, hnew, rfl, -⟩ := Cache.planAttribute_eq_some hplan
  refine h.edit (Relation.ReflTransGen.single ?_) _
  refine Cache.Edit.write r.cache account record _ hrecord (Relation.ReflTransGen.single ?_)
  apply Record.Edit.attr
  rintro v rfl type htype
  obtain ⟨given, own, -, hown, hcoerce⟩ := Cache.attributeValue_eq_some hnew
  rw [htype] at hown
  cases hown
  exact Codec.type_of_coerce hcoerce

theorem setParameter (h : s.EditedFrom dropped ⟨r, w⟩) (account name : String)
    (value : Option Value) :
    s.EditedFrom dropped (r.setParameter account name value w).running := by
  refine Roster.carryOut_keeps h fun c u hplan => ?_
  obtain ⟨record, hrecord, rfl, -⟩ := Cache.planParameter_eq_some hplan
  refine h.edit (Relation.ReflTransGen.single ?_) _
  exact Cache.Edit.write r.cache account record _ hrecord
    (Relation.ReflTransGen.single (Record.Edit.typed record name value))

theorem keptByWrites (s : Running W) (dropped : String → Prop) :
    KeptByWrites (s.EditedFrom dropped) where
  create := create
  setAttribute := setAttribute
  setParameter := setParameter
  identify h _ _ _ _ := h.elapse _

theorem delete (h : s.EditedFrom dropped ⟨r, w⟩) {account : String} (hd : dropped account) :
    s.EditedFrom dropped (r.delete account w).running := by
  unfold Roster.delete
  split
  · exact h
  · exact h.edit (Relation.ReflTransGen.single (Cache.Edit.drop r.cache account hd)) _

end EditedFrom

namespace LeadsTo

variable {s t u : Running W} {dropped dropped' : String → Prop}

theorem trans (hst : s.LeadsTo dropped t) (htu : t.LeadsTo dropped u) : s.LeadsTo dropped u where
  subset := List.Subset.trans hst.subset htu.subset
  numbered := fun h => htu.numbered (hst.numbered h)
  edits := by
    refine (hst.edits.mono ?_ fun _ hd => hd).trans htu.edits
    rintro n ⟨plugin, hp⟩
    exact ⟨plugin, htu.subset hp⟩

end LeadsTo

/-- A call edits the cache, and drops at most the account that it deletes. -/
theorem editedFrom_perform (s : Running W) {dropped : String → Prop} {call : Call}
    (h : ∀ account, call = .delete account → dropped account) :
    s.EditedFrom dropped (s.perform call) := by
  have hkept := EditedFrom.keptByWrites s dropped
  have hs := EditedFrom.refl s dropped
  cases call with
  | create provider manager protocol identification =>
      exact hs.create provider manager protocol identification
  | createWithParameters provider manager protocol parameters cancellation =>
      exact hkept.createWithParameters hs provider manager protocol parameters cancellation
  | setAttribute account name value => exact hs.setAttribute account name value
  | setParameter account name value => exact hs.setParameter account name value
  | makeSecret account name =>
      exact hs.edit (Cache.edits_take (.makeSecret account name)) s.world
  | delete account => exact hs.delete (h account rfl)
  | commit account => exact hs.elapse _

/-- What is no registration edits the cache and leaves the registry alone. -/
theorem editedFrom_operate (s : Running W) {dropped : String → Prop} {operation : Operation W}
    (hplain : ∀ plugin, operation ≠ .register plugin)
    (h : ∀ account, operation.Deletes account → dropped account) :
    s.EditedFrom dropped (s.operate operation) := by
  have hs := EditedFrom.refl s dropped
  cases operation with
  | register plugin => exact absurd rfl (hplain plugin)
  | identifyBy source => exact ⟨rfl, Relation.ReflTransGen.refl⟩
  | load => exact hs.load
  | startup => exact Reply.andThen_keeps hs.load fun _ _ _ hr => hr.elapse _
  | call call =>
      apply s.editedFrom_perform
      rintro account rfl
      exact h account rfl
  | report push => exact hs.edit (Cache.edits_take push) s.world
  | elapse world => exact hs.elapse world

/-- Whatever is done edits the cache, and drops at most the account that it deletes. -/
theorem leadsTo_operate (s : Running W) {dropped : String → Prop} {operation : Operation W}
    (h : ∀ account, operation.Deletes account → dropped account) :
    s.LeadsTo dropped (s.operate operation) := by
  rcases operation.register_cases with ⟨plugin, rfl⟩ | hplain
  · exact ⟨fun p hp => Roster.mem_register.mpr (Or.inr hp), fun hn => hn.register plugin,
      Relation.ReflTransGen.refl⟩
  · exact (s.editedFrom_operate hplain h).leadsTo

theorem leadsTo_operateAll (s : Running W) {dropped : String → Prop}
    {operations : List (Operation W)}
    (h : ∀ operation ∈ operations, ∀ account, operation.Deletes account → dropped account) :
    s.LeadsTo dropped (s.operateAll operations) := by
  induction operations generalizing s with
  | nil => exact (EditedFrom.refl s dropped).leadsTo
  | cons operation more ih =>
      obtain ⟨hfirst, hmore⟩ := List.forall_mem_cons.mp h
      exact (s.leadsTo_operate hfirst).trans (ih (s.operate operation) hmore)

end Running

namespace Roster

variable {r : Roster W} {w : W}

/-- An account that is entered is new, and gets its plugin as the owner. -/
theorem addAccount_eq_ok {p : Registered W} {account : String}
    (h : (r.addAccount p account w).answer = .ok ()) :
    r.cache.record? account = none ∧
      ((r.addAccount p account w).roster.cache.record? account).map Record.owner = some p.id := by
  unfold addAccount at h ⊢
  cases hrecord : r.cache.record? account with
  | some record =>
      rw [hrecord] at h
      cases h
  | none =>
      refine ⟨rfl, ?_⟩
      dsimp only
      rw [fetch]
      dsimp only
      rw [Cache.owner_takeAll, Cache.record?_insert_self]
      rfl

/-- Accounts that are entered leave those that are cached to their owners. -/
theorem owner_addAccounts_of_cached {p : Registered W} {accounts : List String} {account : String}
    {n : Nat} (h : (r.cache.record? account).map Record.owner = some n) :
    ((addAccounts p accounts r w).roster.cache.record? account).map Record.owner = some n := by
  refine addAccounts_keeps
    (P := fun s => (s.roster.cache.record? account).map Record.owner = some n) h ?_
  intro other _ s hs
  rcases s.roster.addAccount_cases p other s.world with ⟨-, heq⟩ | ⟨hnew, heq⟩
  · rwa [heq]
  · have hne : other ≠ account := by
      rintro rfl
      rw [hnew] at hs
      cases hs
    rw [heq]
    change (((s.roster.cache.insert other (Record.new p.id)).takeAll _).record? account).map _ = _
    rw [Cache.owner_takeAll, Cache.record?_insert, if_neg hne]
    exact hs

/-- Accounts that are all entered get their plugin as the owner. -/
theorem owner_addAccounts {p : Registered W} {accounts : List String}
    (h : (addAccounts p accounts r w).answer = .ok ()) {account : String}
    (hmem : account ∈ accounts) :
    ((addAccounts p accounts r w).roster.cache.record? account).map Record.owner = some p.id := by
  induction accounts generalizing r w with
  | nil => cases hmem
  | cons first more ih =>
      rw [addAccounts, Reply.andThen] at h ⊢
      cases hadd : (r.addAccount p first w).answer with
      | error e =>
          rw [hadd] at h
          cases h
      | ok _ =>
          rw [hadd] at h
          rcases List.mem_cons.mp hmem with rfl | hmem
          · exact owner_addAccounts_of_cached (addAccount_eq_ok hadd).2
          · exact ih h hmem

/-- An account that is created is entered for its plugin. -/
theorem addCreated_eq_ok {p : Registered W} {account name : String}
    (h : (r.addCreated p account w).answer = .ok name) :
    name = account ∧ r.cache.record? name = none ∧
      ((r.addCreated p account w).roster.cache.record? name).map Record.owner = some p.id := by
  unfold addCreated Reply.andThen at h ⊢
  cases hadd : (r.addAccount p account w).answer with
  | error e =>
      rw [hadd] at h
      cases h
  | ok _ =>
      rw [hadd] at h
      cases h
      obtain ⟨hnew, howner⟩ := addAccount_eq_ok hadd
      exact ⟨rfl, hnew, howner⟩

theorem createFirst_eq_ok {manager protocol identification name : String}
    {plugins : List (Registered W)}
    (h : (r.createFirst manager protocol identification plugins w).answer = .ok name) :
    r.cache.record? name = none ∧ ∃ p ∈ plugins,
      ((r.createFirst manager protocol identification plugins w).roster.cache.record? name).map
        Record.owner = some p.id := by
  induction plugins generalizing w with
  | nil => cases h
  | cons p more ih =>
      unfold createFirst at h ⊢
      split at h
      next account w' _ =>
        obtain ⟨-, hnew, howner⟩ := addCreated_eq_ok h
        exact ⟨hnew, p, List.mem_cons_self, howner⟩
      next answer w' _ _ =>
        obtain ⟨hnew, q, hq, howner⟩ := ih h
        exact ⟨hnew, q, List.mem_cons_of_mem p hq, howner⟩

/-- An account that is created was not cached, and is entered for a plugin. -/
theorem create_eq_ok {provider : Option String} {manager protocol identification name : String}
    (h : (r.create provider manager protocol identification w).answer = .ok name) :
    r.cache.record? name = none ∧ ∃ p ∈ r.registry,
      ((r.create provider manager protocol identification w).roster.cache.record? name).map
        Record.owner = some p.id := by
  unfold create at h ⊢
  split at h
  next => cases h
  next hnamed =>
    rw [if_neg hnamed]
    split at h
    next provider =>
      unfold createWith at h ⊢
      split at h
      next => cases h
      next p hfind =>
        split at h
        next account w' _ =>
          obtain ⟨-, hnew, howner⟩ := addCreated_eq_ok h
          exact ⟨hnew, p, List.mem_of_find?_eq_some hfind, howner⟩
        next => cases h
        next => cases h
    next => exact createFirst_eq_ok h

/-- What the only plugin of a roster has loaded is its own. -/
theorem owner?_of_load (codec : Codec) (plugin : Plugin W) (w : W) {account : String}
    (hcached : ((((new codec : Roster W).register plugin).load w).roster.cache.record?
      account).isSome = true) :
    (((new codec : Roster W).register plugin).load w).roster.owner? account = some plugin := by
  have hloads := (Running.EditedFrom.refl
    ⟨(new codec : Roster W).register plugin, w⟩ fun _ => False).load
  have hregistry : (((new codec : Roster W).register plugin).load w).roster.registry =
      [⟨0, plugin⟩] := hloads.registry
  obtain ⟨record, hrecord⟩ := Option.isSome_iff_exists.mp hcached
  obtain ⟨-, owner, howner⟩ := hloads.edits.sound nofun account record hrecord
  have hzero : record.owner = 0 := congrArg Registered.id (List.mem_singleton.mp howner)
  rw [owner?, hrecord, Option.bind_some, hzero, plugin?, hregistry]
  rfl

end Roster

/-- Whatever plugins there are and whatever they answer and push: no parameter is both
typed and escaped, an attribute of the schema has its schema type, and the owner of an
account is a registered plugin and remains so until the account is deleted. -/
theorem cache_invariant (codec : Codec) (w : W) (operations : List (Operation W)) :
    let s := (⟨Roster.new codec, w⟩ : Running W).operateAll operations
    ∀ account record, s.roster.cache.record? account = some record →
      (∀ name, record.typed.get? name = none ∨ record.escaped.get? name = none) ∧
      (∀ name type value, Schema.attributeType name = some type →
        record.attributes.get? name = some value → value.type = type) ∧
      ∃ plugin, ⟨record.owner, plugin⟩ ∈ s.roster.registry ∧
        s.roster.owner? account = some plugin ∧
        ∀ more : List (Operation W), (∀ operation ∈ more, ¬operation.Deletes account) →
          ∃ later, (s.operateAll more).roster.cache.record? account = some later ∧
            later.owner = record.owner ∧
            (s.operateAll more).roster.owner? account = some plugin := by
  intro s account record hrecord
  have hs : (⟨Roster.new codec, w⟩ : Running W).LeadsTo (fun _ => True) s :=
    Running.leadsTo_operateAll _ fun _ _ _ _ => trivial
  have hnumbered : s.roster.Numbered := hs.numbered (Roster.numbered_new codec)
  have hsound : s.roster.cache.Sound s.roster.HasNumber := hs.edits.sound nofun
  obtain ⟨hconsistent, plugin, hplugin⟩ := hsound account record hrecord
  refine ⟨hconsistent.onePlace, fun name type value htype hvalue =>
    hconsistent.fits name value hvalue type htype, plugin, hplugin, ?_, fun more hmore => ?_⟩
  · exact (Roster.owner?_eq_some_iff hnumbered.nodup hrecord).mpr hplugin
  · have ht : s.LeadsTo (fun other => other ≠ account) (s.operateAll more) := by
      apply s.leadsTo_operateAll
      rintro operation hmem other hdeletes rfl
      exact hmore operation hmem hdeletes
    obtain ⟨later, hlater, howner⟩ := ht.edits.exists_record (fun h => h rfl) hrecord
    refine ⟨later, hlater, howner, ?_⟩
    rw [Roster.owner?_eq_some_iff (ht.numbered hnumbered).nodup hlater, howner]
    exact ht.subset hplugin

/-- An account keeps its owner when its plugin writes back, when it is written to, and
when a plugin that is registered later loads. -/
theorem cache_invariant_created :
    let memory := MemoryStore.plugin Unit 0 { name := "memory" }
    let start : Running (World Unit) := ⟨Roster.new {}, World.new Disk.empty ()⟩
    let s := start.operateAll [.register memory, .call (.create none "m" "p" "i"),
      .report (.text "m/p/i0" "param-server" (some "a")),
      .call (.setParameter "m/p/i0" "server" (some (.string "b")))]
    let later := s.operateAll [.register (KeyfileStore.plugin Unit 0), .load]
    (later.roster.owner? "m/p/i0").map Plugin.name = some "memory" := by
  intro memory start s later
  have hrecord : s.roster.cache.record? "m/p/i0" = some
      { owner := 0, typed := Dict.empty.insert "server" (.string "b") } := by
    decide +kernel
  obtain ⟨-, -, plugin, -, howner, hstays⟩ := cache_invariant {} start.world
    [.register memory, .call (.create none "m" "p" "i"),
      .report (.text "m/p/i0" "param-server" (some "a")),
      .call (.setParameter "m/p/i0" "server" (some (.string "b")))] "m/p/i0" _ hrecord
  obtain ⟨record, -, -, hlater⟩ := hstays [.register (KeyfileStore.plugin Unit 0), .load]
    (by simp [Operation.Deletes])
  have hname : (s.roster.owner? "m/p/i0").map Plugin.name = some "memory" := by decide +kernel
  calc
    (later.roster.owner? "m/p/i0").map Plugin.name = some plugin.name := by rw [hlater]; rfl
    _ = (s.roster.owner? "m/p/i0").map Plugin.name := by rw [howner]; rfl
    _ = some "memory" := hname

end AccountRoster
