import AccountRoster.Proofs.Roster.Backends
import AccountRoster.Proofs.Roster.WorldInvariants

/-!
# Key-files stay in memory

A key-file that has listed its accounts is in memory, and no call of a plugin removes it
from there. After a load in which all backends have listed their accounts, all key-files
are therefore in memory, and remain there whatever is done with the roster.

## Implementation notes

What is kept is that the key-files in given slots are in memory. A load is followed for
one slot at a time, since each key-file is read when its own turn comes.
-/

namespace AccountRoster

variable {ε : Type}

/-- The key-files in some slots are in memory. -/
def World.Loaded (slots : Nat → Prop) (w : World ε) : Prop :=
  ∀ slot, slots slot → (w.keyfiles slot).loaded = true

/-- Whether one of the backends is the key-file in a slot. -/
def OnKeyfile (built : List (Nat × BackendConfig)) (slot : Nat) : Prop :=
  ∃ path separator, (slot, BackendConfig.keyfile path separator) ∈ built

namespace KeyfileStore

variable {s : KeyfileStore}

theorem loaded_set (h : s.loaded = true) (account key escaped : String) (d : Disk) :
    (s.set account key escaped d).store.loaded = true :=
  (set_of_loaded h account key escaped d).2.loaded_eq.trans h

theorem loaded_delete (h : s.loaded = true) (account : String) (key : Option String) (d : Disk) :
    (s.delete account key d).store.loaded = true := by
  cases key with
  | none => exact (delete_account_of_loaded h account d).2.loaded_eq.trans h
  | some key => exact (delete_key_of_loaded h account key d).2.loaded_eq.trans h

theorem loaded_commit (h : s.loaded = true) (d : Disk) : (s.commit d).store.loaded = true := by
  rcases s.commit_store d with heq | heq
  · rwa [heq]
  · rwa [heq]

theorem loaded_create (h : s.loaded = true) (name : String) (d : Disk) :
    (s.create name d).store.loaded = true := by
  rcases create_of_loaded h name d with ⟨e, heq⟩ | ⟨-, -, heq⟩
  · rwa [heq]
  · rwa [heq]

theorem loaded_get (h : s.loaded = true) (account : String) (key : Option String) (d : Disk) :
    (s.get account key d).store.loaded = true := by
  rw [get, whenLoaded_of_loaded h]
  dsimp only
  split
  · exact h
  · exact h

theorem loaded_list (h : s.loaded = true) (d : Disk) : (s.list d).store.loaded = true := by
  rw [list, whenLoaded_of_loaded h]
  exact h

/-- A key-file that has listed its accounts is in memory. -/
theorem loaded_of_list {d : Disk} {accounts : List String} (h : (s.list d).answer = .ok accounts) :
    (s.list d).store.loaded = true := by
  unfold list whenLoaded at h ⊢
  split at h
  next t d' hload => exact loaded_of_ensureLoaded hload
  next => cases h

end KeyfileStore

theorem World.Loaded.afterKeyfile {slots : Nat → Prop} {w : World ε} (h : w.Loaded slots)
    {α : Type} {slot : Nat} {reply : StoreReply α}
    (hreply : (w.keyfiles slot).loaded = true → reply.store.loaded = true) :
    (w.afterKeyfile slot reply).Loaded slots :=
  forall_keyfiles_afterKeyfile (P := fun n s => slots n → s.loaded = true)
    (fun hslot => hreply (h slot hslot)) fun n _ => h n

/-- No call of a key-file removes one from memory. -/
theorem KeyfileStore.keeps_loaded (slots : Nat → Prop) (slot : Nat) :
    (plugin ε slot).Keeps (World.Loaded slots) where
  list _ w h := h.afterKeyfile fun hs => loaded_list hs w.disk
  get _ account key w h := h.afterKeyfile fun hs => loaded_get hs account key w.disk
  set _ account key escaped w h := h.afterKeyfile fun hs => loaded_set hs account key escaped w.disk
  setAttribute _ _ _ _ _ h := h
  setParameter _ _ _ _ _ _ h := h
  delete _ account key w h := h.afterKeyfile fun hs => loaded_delete hs account key w.disk
  commit _ _ w h := h.afterKeyfile fun hs => loaded_commit hs w.disk
  create _ _ _ _ w h := h.afterKeyfile fun hs => loaded_create hs _ w.disk
  ready _ _ h := h

/-- What is true whatever is in the in-process stores stays true in every call of one. -/
theorem MemoryStore.keeps {I : World ε → Prop}
    (hput : ∀ w slot store, I w → I (w.putMemory slot store)) (slot : Nat)
    (settings : MemorySettings) : (plugin ε slot settings).Keeps I where
  list _ _ h := h
  get _ _ _ _ h := h
  set _ _ _ _ w h := hput w slot _ h
  setAttribute _ _ _ _ w h := hput w slot _ h
  setParameter _ _ _ _ _ w h := hput w slot _ h
  delete _ _ _ w h := hput w slot _ h
  commit _ _ w h := hput w slot _ h
  create c manager protocol identification w h := by
    dsimp only [plugin]
    split
    · exact h
    · exact hput w slot _ h
  ready _ _ h := h

/-- No call of an in-process store touches a key-file. -/
theorem MemoryStore.keeps_loaded (slots : Nat → Prop) (slot : Nat) (settings : MemorySettings) :
    (plugin ε slot settings).Keeps (World.Loaded slots) :=
  MemoryStore.keeps (fun _ _ _ h => h) slot settings

namespace BuiltFrom

variable {built : List (Nat × BackendConfig)} {registry : List (Registered (World ε))}

theorem keeps_loaded (h : BuiltFrom built registry) (slots : Nat → Prop) :
    ∀ p ∈ registry, p.plugin.Keeps (World.Loaded slots) := by
  intro p hp
  rcases h.plugin_cases hp with ⟨slot, -, -, -, hplugin⟩ | ⟨slot, settings, -, hplugin⟩
  · rw [hplugin]
    exact KeyfileStore.keeps_loaded slots slot
  · rw [hplugin]
    exact MemoryStore.keeps_loaded slots slot settings

/-- After a load in which all backends have listed their accounts, all key-files are
in memory. -/
theorem loaded_load {r : Roster (World ε)} (h : BuiltFrom built r.registry) {w : World ε}
    (hanswer : (r.load w).answer = .ok ())
    (hheard : ∀ listing ∈ Roster.heard r.registry.reverse r w,
      ∃ accounts, listing.answer = .ok accounts) :
    (r.load w).world.Loaded (OnKeyfile built) := by
  rintro slot ⟨path, separator, hmem⟩
  obtain ⟨n, hn⟩ := List.mem_iff_getElem?.mp hmem
  have hp : (⟨n, KeyfileStore.plugin ε slot⟩ : Registered (World ε)) ∈ r.registry :=
    (h.mem_iff _).mpr ⟨_, hn, rfl⟩
  have hloaded : (r.load w).world.Loaded (· = slot) := by
    apply Roster.holds_of_listed (h.keeps_loaded (· = slot)) (fun _ => List.mem_reverse.mp)
      (List.mem_reverse.mpr hp) _ hanswer hheard
    rintro c w accounts hlist other rfl
    rw [KeyfileStore.plugin, World.keyfiles_afterKeyfile_self]
    exact KeyfileStore.loaded_of_list hlist
  exact hloaded slot rfl

end BuiltFrom

end AccountRoster
