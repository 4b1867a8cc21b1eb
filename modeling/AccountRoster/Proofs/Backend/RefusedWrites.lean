import AccountRoster.Config
import AccountRoster.Proofs.Backend.Memory
import AccountRoster.Proofs.Backend.StoreCalls

/-!
# What a refused write leaves behind

A key-file checks names and text before it opens a group, so a text that it refuses
leaves what it stores as it was. An in-process store opens the account first and then
reads the text: an account that it did not have stays behind without data.

## Implementation notes

`World.StoresAlike` compares what is stored and not what is in memory, as a key-file
that has not been read is read by the first call that needs it, a refused one included.
A key-file in memory is compared as it is.
-/

namespace AccountRoster

variable {ε : Type}

/-! ### What is stored in a world -/

/-- Every backend of a world stores in the other one what it stores in this one. -/
structure World.StoresAlike (w w' : World ε) : Prop where
  contents : ∀ path, w'.disk.contents path = w.disk.contents path
  kept : ∀ slot, (w'.keyfiles slot).kept w'.disk = (w.keyfiles slot).kept w.disk
  dirty : ∀ slot, (w'.keyfiles slot).dirty = (w.keyfiles slot).dirty
  loaded : ∀ slot, (w.keyfiles slot).loaded = true → w'.keyfiles slot = w.keyfiles slot
  memories : w'.memories = w.memories
  others : w'.others = w.others

theorem World.StoresAlike.refl (w : World ε) : w.StoresAlike w :=
  ⟨fun _ => rfl, fun _ => rfl, fun _ => rfl, fun _ _ => rfl, rfl, rfl⟩

/-- A call on a key-file that does no more than to read it changes nothing that is stored. -/
theorem World.StoresAlike.afterKeyfile {α : Type} {w : World ε} {slot : Nat} {reply : StoreReply α}
    (hstore : reply.store = ((w.keyfiles slot).ensureLoaded w.disk).store)
    (hdisk : reply.disk = ((w.keyfiles slot).ensureLoaded w.disk).disk) :
    w.StoresAlike (w.afterKeyfile slot reply) := by
  have hcontents (path : String) : reply.disk.contents path = w.disk.contents path := by
    rw [hdisk, KeyfileStore.contents_ensureLoaded]
  exact {
    contents := hcontents
    kept := forall_keyfiles_afterKeyfile
      (P := fun n s => s.kept reply.disk = (w.keyfiles n).kept w.disk)
      (by rw [hstore, hdisk, KeyfileStore.kept_ensureLoaded])
      fun n _ => KeyfileStore.kept_congr (hcontents _)
    dirty := forall_keyfiles_afterKeyfile (P := fun n s => s.dirty = (w.keyfiles n).dirty)
      (by rw [hstore, KeyfileStore.dirty_ensureLoaded]) fun _ _ => rfl
    loaded := forall_keyfiles_afterKeyfile
      (P := fun n s => (w.keyfiles n).loaded = true → s = w.keyfiles n)
      (fun hloaded => by rw [hstore, KeyfileStore.ensureLoaded_of_loaded hloaded])
      fun _ _ _ => rfl
    memories := rfl
    others := rfl }

/-! ### Refused texts -/

/-- A key-file refuses a text as it refuses any other call. -/
theorem KeyfileStore.set_of_refused {s : KeyfileStore} {d : Disk} {account key escaped : String}
    {fault : RosterError} (h : (s.set account key escaped d).answer = .error fault) :
    (s.set account key escaped d).store = (s.ensureLoaded d).store ∧
      (s.set account key escaped d).disk = (s.ensureLoaded d).disk := by
  have hask : (s.ask d (.set account key escaped)).answer = .error fault := by
    rw [ask, StoreReply.done, h]
    rfl
  exact ask_of_refused StoreCall.noConfusion hask

namespace MemoryStore

variable {s : MemoryStore} {name : String}

/-- An in-process store refuses the text of an attribute that cannot be read, and has the
account from then on. -/
theorem set_of_refused {codec : Codec} {key escaped : String} {fault : RosterError}
    (h : (s.set codec name key escaped).1 = .error fault) :
    (s.set codec name key escaped).2 = s.update name id := by
  unfold set at h ⊢
  split
  next parameter hkey =>
    rw [hkey] at h
    cases h
  next attr hkey =>
    rw [hkey] at h
    dsimp only at h
    split
    next value hread =>
      rw [hread] at h
      cases h
    next fault' hread => rfl

/-- To open an account changes the data of none. -/
theorem account_update_id (s : MemoryStore) (name other : String) :
    (s.update name id).account other = s.account other := by
  rw [account, get?_update]
  by_cases heq : name = other
  · rw [if_pos heq, ← heq]
    rfl
  · rw [if_neg heq]
    rfl

theorem update_id_eq_self_iff : s.update name id = s ↔ s.accounts.contains name = true := by
  constructor
  · intro h
    have hname := s.get?_update name name id
    rw [h, if_pos rfl] at hname
    rw [Dict.contains_eq, hname]
    rfl
  · intro h
    rw [Dict.contains_eq] at h
    obtain ⟨a, hstored⟩ := Option.isSome_iff_exists.mp h
    have hsame : (s.update name id).accounts = s.accounts := by
      rw [update, account_of_get? hstored]
      exact Dict.insert_of_get? hstored
    exact congrArg (fun accounts => { s with accounts }) hsame

theorem contains_update (s : MemoryStore) (name other : String)
    (change : StoredAccount → StoredAccount) :
    (s.update name change).accounts.contains other = true ↔
      s.accounts.contains other = true ∨ other = name := by
  rw [Dict.contains_eq, Dict.contains_eq, get?_update]
  by_cases heq : name = other
  · rw [if_pos heq]
    exact iff_of_true rfl (Or.inr heq.symm)
  · rw [if_neg heq, or_iff_left (Ne.symm heq)]

end MemoryStore

/-- What holds of the store that is put into a slot, and of those in all others, holds of
all stores then. -/
theorem World.forall_memories_putMemory {w : World ε} {slot : Nat} {store : MemoryStore}
    {P : Nat → MemoryStore → Prop} (hself : P slot store)
    (hothers : ∀ n, n ≠ slot → P n (w.memories n)) (n : Nat) :
    P n ((w.putMemory slot store).memories n) := by
  by_cases heq : n = slot
  · subst heq
    rwa [memories_putMemory_self]
  · rw [show (w.putMemory slot store).memories n = w.memories n from if_neg heq]
    exact hothers n heq

theorem World.memories_putMemory_eq_iff {w : World ε} {slot : Nat} {store : MemoryStore} :
    (w.putMemory slot store).memories = w.memories ↔ store = w.memories slot := by
  constructor
  · intro h
    rw [← h, memories_putMemory_self]
  · intro h
    exact funext (forall_memories_putMemory (P := fun n s => s = w.memories n) h fun _ _ => rfl)

/-! ### Backends -/

/-- A backend that refuses a text leaves what the disk and the key-files hold, and the data
of every account, as they were. An in-process backend has the account from then on, so that
nothing has changed exactly if the backend is a key-file or had the account before. -/
theorem refused_write_traceless_iff {backend : BackendConfig} {slot : Nat} {c : Cache}
    {account key escaped : String} {w w' : World ε} {fault : RosterError}
    (h : (backend.plugin ε slot).set c account key escaped w = (.error fault, w')) :
    w.StoresAlike { w' with memories := w.memories } ∧
      (∀ n other, (w'.memories n).account other = (w.memories n).account other) ∧
      (∀ n other, (w'.memories n).accounts.contains other = true ↔
        (w.memories n).accounts.contains other = true ∨
          backend.kind = .memory ∧ n = slot ∧ other = account) ∧
      (w.StoresAlike w' ↔
        (backend.kind = .memory → (w.memories slot).accounts.contains account = true)) := by
  obtain ⟨hanswer, hworld⟩ := Prod.mk.inj h
  cases backend with
  | keyfile path separator =>
      obtain ⟨hstore, hdisk⟩ := KeyfileStore.set_of_refused hanswer
      have halike : w.StoresAlike w' := by
        rw [← hworld]
        exact .afterKeyfile hstore hdisk
      have hkind : ¬(BackendConfig.keyfile path separator).kind = .memory := nofun
      refine ⟨{ halike with memories := rfl }, fun n other => ?_, fun n other => ?_,
        iff_of_true halike fun hmemory => absurd hmemory hkind⟩
      · rw [halike.memories]
      · rw [halike.memories, or_iff_left fun hmemory => hkind hmemory.1]
  | memory settings =>
      obtain rfl : w' = w.putMemory slot ((w.memories slot).update account id) := by
        rw [← hworld, ← MemoryStore.set_of_refused hanswer]
        rfl
      refine ⟨.refl w, ?_, ?_, fun halike _ => ?_, fun hstored => ?_⟩
      · exact World.forall_memories_putMemory
          (P := fun n s => ∀ other, s.account other = (w.memories n).account other)
          (MemoryStore.account_update_id _ account) fun _ _ _ => rfl
      · refine World.forall_memories_putMemory
          (P := fun n s => ∀ other, s.accounts.contains other = true ↔
            (w.memories n).accounts.contains other = true ∨
              (BackendConfig.memory settings).kind = .memory ∧ n = slot ∧ other = account)
          (fun other => ?_) fun n hn other => ?_
        · rw [MemoryStore.contains_update]
          exact or_congr_right ⟨fun heq => ⟨rfl, rfl, heq⟩, fun hmemory => hmemory.2.2⟩
        · rw [or_iff_left fun hmemory => hn hmemory.2.1]
      · exact MemoryStore.update_id_eq_self_iff.mp
          (World.memories_putMemory_eq_iff.mp halike.memories)
      · have hsame := MemoryStore.update_id_eq_self_iff.mpr (hstored rfl)
        exact { World.StoresAlike.refl w with
          memories := World.memories_putMemory_eq_iff.mpr hsame }

/-- A text that is no flag, for an account that is stored in-process, and a name that is no
key, for a key-file that has been read. -/
theorem refused_write_traceless_known :
    let memory := (World.new Disk.empty ()).putMemory 0
      (MemoryStore.seeded [("a", "DisplayName", .string "x")])
    let file := (World.new Disk.empty ()).putKeyfile 0
      { KeyfileStore.new "a.cfg" ',' with loaded := true }
    let kept := ((BackendConfig.memory { name := "memory" }).plugin Unit 0).set {} "a" "Enabled"
      "maybe" memory
    let refused := ((BackendConfig.keyfile "a.cfg" ',').plugin Unit 0).set {} "a" "=" "x" file
    kept.1 = .error (.codec (.malformed "maybe" .boolean)) ∧ memory.StoresAlike kept.2 ∧
      refused.1 = .error (.codec (.invalidName "=")) ∧ file.StoresAlike refused.2 := by
  intro memory file kept refused
  have hkept : kept = (.error (.codec (.malformed "maybe" .boolean)), kept.2) := rfl
  have hrefused : refused = (.error (.codec (.invalidName "=")), refused.2) := rfl
  refine ⟨congrArg Prod.fst hkept, ?_, congrArg Prod.fst hrefused, ?_⟩
  · exact (refused_write_traceless_iff hkept).2.2.2.mpr fun _ => by decide +kernel
  · exact (refused_write_traceless_iff hrefused).2.2.2.mpr nofun

/-- An in-process store that has no accounts has one after it refused an attribute of it. -/
theorem refused_write_adds_account :
    let w := World.new Disk.empty ()
    let reply := ((BackendConfig.memory { name := "memory" }).plugin Unit 0).set {} "a" "Enabled"
      "maybe" w
    reply.1 = .error (.codec (.malformed "maybe" .boolean)) ∧
      (w.memories 0).accounts.contains "a" = false ∧
      (reply.2.memories 0).accounts.contains "a" = true ∧ ¬w.StoresAlike reply.2 := by
  intro w reply
  have hbefore : (w.memories 0).accounts.contains "a" = false := rfl
  have hafter : (reply.2.memories 0).accounts.contains "a" = true := by decide +kernel
  refine ⟨rfl, hbefore, hafter, fun halike => ?_⟩
  rw [halike.memories, hbefore] at hafter
  cases hafter

end AccountRoster
