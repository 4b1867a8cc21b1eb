import AccountRoster.Proofs.Cache.UniqueName
import AccountRoster.Proofs.Roster.Cancelling
import AccountRoster.Proofs.Roster.Coherence
import AccountRoster.Proofs.Roster.Coupling
import AccountRoster.Proofs.Roster.LoadedKeyfiles
import AccountRoster.Proofs.Roster.Populating

/-!
# An account is created as a whole, or not at all

To create an account with its parameters, a roster of built-in backends identifies the
account, asks backends to create it, enters it, and fills it by single writes. Once a
backend has created it nothing can fail any more; before that nothing has been done.

## Implementation notes

A key-file may refuse an account only after it was read, and reading it makes of the
store in memory another one. That every key-file is in memory is what a load leaves in
which all plugins have listed their accounts, and no operation undoes it.
-/

namespace AccountRoster

variable {ε : Type}

/-- A source of identifiers that leaves the stores of the backends alone. -/
structure Identifier.SparesStores (source : Identifier (World ε)) : Prop where
  keyfiles : source.SparesKeyfiles
  memories : source.SparesMemories

/-- What comes of a plugin that is asked to create an account: it refuses and does
nothing, or it creates the account and has nothing to push for it. -/
inductive Creation {W : Type} (plugin : Plugin W) (w : W) (name : String) :
    Except RosterError (Option String) × W → Prop
  | refused {answer : Except RosterError (Option String)}
      (hnone : ∀ account, answer ≠ .ok (some account)) : Creation plugin w name (answer, w)
  | created {w' : W} (hsilent : ∀ c : Cache, (plugin.get c name none w').2.1 = []) :
      Creation plugin w name (.ok (some name), w')

/-- A key-file in memory opens a group without entries, or is left as it is. -/
theorem KeyfileStore.creation {slot : Nat} {w : World ε} (h : (w.keyfiles slot).loaded = true)
    (c : Cache) (manager protocol identification : String) :
    Creation (plugin ε slot) w (c.uniqueName manager protocol identification)
      ((plugin ε slot).create c manager protocol identification w) := by
  dsimp only [plugin]
  generalize c.uniqueName manager protocol identification = name
  rcases create_of_loaded h name w.disk with ⟨e, hcreate⟩ | ⟨-, hnone, hcreate⟩
  · rw [hcreate, World.afterKeyfile_same]
    exact Creation.refused nofun
  · have hgroup : ((w.keyfiles slot).file.openGroup name).groups.get? name = some Dict.empty := by
      rw [Keyfile.groups_openGroup_of_none hnone, if_pos rfl]
    rw [hcreate]
    refine Creation.created fun d => ?_
    have hget := get_of_no_entries (s := { w.keyfiles slot with
      file := (w.keyfiles slot).file.openGroup name
      dirty := true }) h hgroup
    dsimp only
    rw [World.keyfiles_afterKeyfile_self]
    exact congrArg pushesOf (hget _)

theorem MemoryStore.creation (slot : Nat) (settings : MemorySettings) (w : World ε) (c : Cache)
    (manager protocol identification : String) :
    Creation (plugin ε slot settings) w (c.uniqueName manager protocol identification)
      ((plugin ε slot settings).create c manager protocol identification w) := by
  dsimp only [plugin]
  split
  · exact Creation.refused nofun
  · refine Creation.created fun d => ?_
    dsimp only
    rw [World.memories_putMemory_self, get_create]

theorem BuiltFrom.creation {built : List (Nat × BackendConfig)}
    {registry : List (Registered (World ε))} (h : BuiltFrom built registry) {w : World ε}
    (hw : w.Loaded (OnKeyfile built)) {p : Registered (World ε)} (hp : p ∈ registry) (c : Cache)
    (manager protocol identification : String) :
    Creation p.plugin w (c.uniqueName manager protocol identification)
      (p.plugin.create c manager protocol identification w) := by
  rcases h.plugin_cases hp with ⟨slot, path, separator, hn, hplugin⟩ |
    ⟨slot, settings, -, hplugin⟩
  · rw [hplugin]
    have hloaded := hw slot ⟨path, separator, List.mem_of_getElem? hn⟩
    exact KeyfileStore.creation hloaded c manager protocol identification
  · rw [hplugin]
    exact MemoryStore.creation slot settings w c manager protocol identification

/-- What an attempt to create an account comes to: nothing, or the account is entered
with its plugin as the owner. -/
inductive Attempt {W : Type} (r : Roster W) (w : W) (name : String) : Reply W String → Prop
  | nothing (e : RosterError) : Attempt r w name ⟨.error e, r, w⟩
  | entered (p : Registered W) (hp : p ∈ r.registry) (w' : W) :
      Attempt r w name ⟨.ok name, r.recording name (Record.new p.id), w'⟩

namespace Roster

variable {built : List (Nat × BackendConfig)} {r : Roster (World ε)} {w : World ε}

theorem attempt_addCreated {p : Registered (World ε)} (hp : p ∈ r.registry) {name : String}
    (hnew : r.cache.record? name = none) {w' : World ε}
    (hsilent : ∀ c : Cache, (p.plugin.get c name none w').2.1 = []) :
    Attempt r w name (r.addCreated p name w') := by
  obtain ⟨w'', hadd⟩ := addCreated_of_silent hnew hsilent
  rw [hadd]
  exact Attempt.entered p hp w''

/-- Backends that are asked in order do nothing until one of them creates the account. -/
theorem attempt_createFirst (hbuilt : BuiltFrom built r.registry)
    (hw : w.Loaded (OnKeyfile built)) (manager protocol identification : String)
    {plugins : List (Registered (World ε))} (hplugins : plugins ⊆ r.registry) :
    Attempt r w (r.cache.uniqueName manager protocol identification)
      (r.createFirst manager protocol identification plugins w) := by
  induction plugins with
  | nil => exact Attempt.nothing _
  | cons p more ih =>
      obtain ⟨hp, hmore⟩ := List.cons_subset.mp hplugins
      have hcreation := hbuilt.creation hw hp r.cache manager protocol identification
      rw [createFirst]
      generalize p.plugin.create r.cache manager protocol identification w = made at hcreation ⊢
      cases hcreation with
      | @refused answer hnone =>
          rcases answer with e | _ | account
          · exact ih hmore
          · exact ih hmore
          · exact (hnone account rfl).elim
      | created hsilent => exact attempt_addCreated hp (Cache.record?_uniqueName _ _ _ _) hsilent

theorem attempt_createWith (hbuilt : BuiltFrom built r.registry)
    (hw : w.Loaded (OnKeyfile built)) (provider manager protocol identification : String) :
    Attempt r w (r.cache.uniqueName manager protocol identification)
      (r.createWith provider manager protocol identification w) := by
  unfold createWith
  split
  · exact Attempt.nothing _
  next p hfind =>
    have hp := List.mem_of_find?_eq_some hfind
    have hcreation := hbuilt.creation hw hp r.cache manager protocol identification
    generalize p.plugin.create r.cache manager protocol identification w = made at hcreation ⊢
    cases hcreation with
    | @refused answer hnone =>
        rcases answer with e | _ | account
        · exact Attempt.nothing e
        · exact Attempt.nothing _
        · exact (hnone account rfl).elim
    | created hsilent => exact attempt_addCreated hp (Cache.record?_uniqueName _ _ _ _) hsilent

theorem attempt_create (hbuilt : BuiltFrom built r.registry) (hw : w.Loaded (OnKeyfile built))
    (provider : Option String) (manager protocol identification : String) :
    Attempt r w (r.cache.uniqueName manager protocol identification)
      (r.create provider manager protocol identification w) := by
  unfold create
  split
  · exact Attempt.nothing _
  split
  next provider => exact attempt_createWith hbuilt hw provider manager protocol identification
  next => exact attempt_createFirst hbuilt hw manager protocol identification fun _ hp => hp

theorem identify_spares (hspares : ∀ source, r.identifier = some source → source.SparesStores)
    (manager protocol : String) (parameters : Parameters) (cancellation : Cancellation) :
    (r.identify manager protocol parameters cancellation w).2.keyfiles = w.keyfiles ∧
      (r.identify manager protocol parameters cancellation w).2.memories = w.memories := by
  let P (s : Running (World ε)) : Prop :=
    s.world.keyfiles = w.keyfiles ∧ s.world.memories = w.memories
  apply identify_keeps (P := P) ⟨rfl, rfl⟩
  intro source hsource
  have hsource := hspares source hsource
  exact ⟨hsource.keyfiles _ _ _ _, hsource.memories _ _ _ _⟩

end Roster

/-- What the creation of an account with its parameters comes to: nothing has been done
to the cache and to the stores, or a new account is entered as a whole. -/
inductive Outcome (r : Roster (World ε)) (w : World ε) (manager protocol : String)
    (parameters : Parameters) : Reply (World ε) String → Prop
  | failed (e : RosterError) {w' : World ε} (hkeyfiles : w'.keyfiles = w.keyfiles)
      (hmemories : w'.memories = w.memories) :
      Outcome r w manager protocol parameters ⟨.error e, r, w'⟩
  | filled {p : Registered (World ε)} (hp : p ∈ r.registry) {name : String}
      (hnew : r.cache.record? name = none) (w' : World ε) :
      Outcome r w manager protocol parameters
        ⟨.ok name, r.recording name (Record.ofCreation p.id manager protocol parameters), w'⟩

theorem Roster.outcome_createWithParameters {built : List (Nat × BackendConfig)}
    {r : Roster (World ε)} {w : World ε} (hbuilt : BuiltFrom built r.registry)
    (hspares : ∀ source, r.identifier = some source → source.SparesStores)
    (hw : w.Loaded (OnKeyfile built)) {provider : Option String} {manager protocol : String}
    {parameters : Parameters} {cancellation : Cancellation} {reply : Reply (World ε) String}
    (hreply : r.createWithParameters provider manager protocol parameters cancellation w =
      some reply) : Outcome r w manager protocol parameters reply := by
  obtain ⟨hkeyfiles, hmemories⟩ := r.identify_spares (w := w) hspares manager protocol parameters
    cancellation
  unfold createWithParameters at hreply
  cases hanswer : r.identify manager protocol parameters cancellation w with
  | mk answer w' =>
      rw [hanswer] at hreply hkeyfiles hmemories
      rcases answer with _ | (e | identification)
      · cases hreply
      · cases hreply
        exact Outcome.failed e hkeyfiles hmemories
      · dsimp only at hreply
        split at hreply
        next =>
          cases hreply
          exact Outcome.failed .cancelled hkeyfiles hmemories
        next =>
          cases hreply
          have hloaded : w'.Loaded (OnKeyfile built) := by
            intro slot hslot
            rw [hkeyfiles]
            exact hw slot hslot
          have hnew := r.cache.record?_uniqueName manager protocol identification
          have hattempt := attempt_create hbuilt hloaded provider manager protocol identification
          generalize r.create provider manager protocol identification w' = created at hattempt ⊢
          -- nothing can fail once a backend has created the account
          cases hattempt with
          | nothing e => exact Outcome.failed e hkeyfiles hmemories
          | entered p hp w'' =>
              have hrecord := r.record?_recording
                (r.cache.uniqueName manager protocol identification) (Record.new p.id)
              obtain ⟨w₃, hpopulate⟩ := populate_of_new hrecord manager protocol parameters w''
              rw [recording_recording] at hpopulate
              dsimp only [Reply.andThen]
              rw [hpopulate]
              exact Outcome.filled hp hnew w₃

/-- After a load in which all of the built-in backends have listed their accounts, and
any operations by which no backend joins: the creation of an account with its parameters
ends unless the source of identifiers never answers and the call is not cancelled. It
fails if it is cancelled by the time that the account is identified. If it fails, the
cache and what the backends store are as before. If it succeeds, the account is a new
one, with a record of its manager, its protocol and its parameters and of nothing else,
and the records of all other accounts are as before. -/
theorem create_all_or_nothing {built : List (Nat × BackendConfig)} {r : Roster (World ε)}
    (hbuilt : BuiltFrom built r.registry)
    (hspares : ∀ source, r.identifier = some source → source.SparesStores) {w : World ε}
    (hload : (r.load w).answer = .ok ())
    (hlisted : ∀ listing ∈ (r.watched.load (w, [])).world.2,
      ∃ accounts, listing.answer = .ok accounts)
    {operations : List (Operation (World ε))}
    (hoperations : ∀ operation ∈ operations,
      operation.Respects Identifier.SparesStores (World.Loaded (OnKeyfile built)))
    (provider : Option String) (manager protocol : String) (parameters : Parameters)
    (cancellation : Cancellation) :
    let s := (r.load w).running.operateAll operations
    let outcome := s.roster.createWithParameters provider manager protocol parameters
      cancellation s.world
    (outcome = none ↔ cancellation = .never ∧ ∃ source, s.roster.identifier = some source ∧
      (source.identify manager protocol parameters s.world).1 = .never) ∧
    ∀ reply, outcome = some reply →
      (s.roster.CancelledInTime manager protocol parameters s.world cancellation →
        ∃ e, reply.answer = .error e) ∧
      (∀ e, reply.answer = .error e → reply.roster = s.roster ∧
        reply.world.keyfiles = s.world.keyfiles ∧ reply.world.memories = s.world.memories) ∧
      ∀ name, reply.answer = .ok name →
        s.roster.cache.record? name = none ∧
        (∃ p ∈ s.roster.registry, reply.roster.cache.record? name =
          some (Record.ofCreation p.id manager protocol parameters)) ∧
        ∀ other, other ≠ name →
          reply.roster.cache.record? other = s.roster.cache.record? other := by
  intro s outcome
  have hlog : (r.watched.load (w, [])).world.2 = Roster.heard r.registry.reverse r w :=
    congrArg (·.world.2) (r.load_watched w)
  rw [hlog] at hlisted
  have hstart : Guarded r.registry Identifier.SparesStores (World.Loaded fun _ => False) ⟨r, w⟩ :=
    ⟨rfl, hspares, nofun⟩
  have hend := hstart.load (hbuilt.keeps_loaded _)
  have hloaded : Guarded r.registry Identifier.SparesStores (World.Loaded (OnKeyfile built))
      (r.load w).running :=
    ⟨hend.registry_eq, hend.source, hbuilt.loaded_load hload hlisted⟩
  have hs : Guarded r.registry Identifier.SparesStores (World.Loaded (OnKeyfile built)) s := by
    refine hloaded.operateAll (hbuilt.keeps_loaded _) ?_ hoperations
    intro source hsource manager protocol parameters w hw slot hslot
    rw [hsource.keyfiles]
    exact hw slot hslot
  have hbuilt' : BuiltFrom built s.roster.registry := by rwa [hs.registry_eq]
  refine ⟨?_, fun reply hreply => ⟨fun hcancelled => ?_, ?_⟩⟩
  · exact (Roster.createWithParameters_eq_none_iff _ _ _ _ _ _ _).trans
      (Roster.identify_eq_none_iff _ _ _ _ _ _)
  · exact Roster.exists_error_of_cancelled hcancelled hreply
  · cases Roster.outcome_createWithParameters hbuilt' hs.source hs.holds hreply with
    | failed e hkeyfiles hmemories =>
        exact ⟨fun _ _ => ⟨rfl, hkeyfiles, hmemories⟩, nofun⟩
    | filled hp hnew w' =>
        refine ⟨nofun, fun name hname => ?_⟩
        cases hname
        refine ⟨hnew, ⟨_, hp, Roster.record?_recording _ _ _⟩, fun other hne => ?_⟩
        exact (Cache.record?_insert _ _ _ _).trans (if_neg (Ne.symm hne))

/-- The name of a deleted account is given to a new one, which has nothing of the old
one, not even its secrets. -/
theorem create_all_or_nothing_reused_name :
    let built : List (Nat × BackendConfig) :=
      [(0, .keyfile "a.cfg" ','), (0, .memory { name := "memory" })]
    let r : Roster (World Unit) := Roster.ofBackends {} built none
    let w := (World.new Disk.empty ()).putKeyfile 0 (.new "a.cfg" ',')
    let parameters : Parameters := Dict.empty.insert "account" (.string "i")
    let operations : List (Operation (World Unit)) :=
      [.call (.createWithParameters none "m" "p"
          (parameters.insert "password" (.string "x")) .never),
        .call (.makeSecret "m/p/i0" "password"), .call (.delete "m/p/i0")]
    let s := (r.load w).running.operateAll operations
    ∃ reply owner, s.roster.createWithParameters none "m" "p" parameters .never s.world =
        some reply ∧
      reply.roster.cache.record? "m/p/i0" = some (Record.ofCreation owner "m" "p" parameters) := by
  intro built r w parameters operations s
  have hload : (r.load w).answer = .ok () := Except.eq_ok_of_toOption (by decide +kernel)
  have hlisted : ∀ listing ∈ (r.watched.load (w, [])).world.2,
      ∃ accounts, listing.answer = .ok accounts := by
    have hall : ((r.watched.load (w, [])).world.2.all fun listing =>
        listing.answer.toOption.isSome) = true := by decide +kernel
    intro listing hlisting
    obtain ⟨accounts, hsome⟩ := Option.isSome_iff_exists.mp (List.all_eq_true.mp hall _ hlisting)
    exact ⟨accounts, Except.eq_ok_of_toOption hsome⟩
  have hoperations : ∀ operation ∈ operations, operation.Respects Identifier.SparesStores
      (World.Loaded (OnKeyfile built)) := by simp [operations, Operation.Respects]
  have hcreate := create_all_or_nothing (Roster.builtFrom_ofBackends {} built none) nofun hload
    hlisted hoperations none "m" "p" parameters .never
  have hanswer : (s.roster.createWithParameters none "m" "p" parameters .never s.world).map
      (·.answer.toOption) = some (some "m/p/i0") := by decide +kernel
  obtain ⟨reply, hreply, hname⟩ := Option.map_eq_some_iff.mp hanswer
  obtain ⟨-, ⟨p, -, hrecord⟩, -⟩ :=
    (hcreate.2 reply hreply).2.2 "m/p/i0" (Except.eq_ok_of_toOption hname)
  exact ⟨reply, p.id, hreply, hrecord⟩

end AccountRoster
