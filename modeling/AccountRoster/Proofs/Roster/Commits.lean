import AccountRoster.Proofs.Backend.Keyfile
import AccountRoster.Proofs.Roster.Backends
import AccountRoster.Proofs.Roster.WorldInvariants

/-!
# A commit changes no account

A commit of built-in backends leaves the accounts of all of them as they are. It writes to
the disk what a key-file has not yet written, so that nothing is written after a load.
-/

namespace AccountRoster

variable {ε : Type}

/-- No key-file has anything to write. -/
def World.Clean (w : World ε) : Prop := ∀ slot, (w.keyfiles slot).dirty = false

/-- The backends store the same accounts, and if there was nothing to write then the same is
on the disk. -/
structure World.SameStored (w w' : World ε) : Prop where
  memories : w.SameAccounts w'
  keyfiles : ∀ slot, (w'.keyfiles slot).file = (w.keyfiles slot).file
  disk : w.Clean → w'.disk = w.disk

theorem World.SameStored.refl (w : World ε) : w.SameStored w where
  memories _ := rfl
  keyfiles _ := rfl
  disk _ := rfl

/-! ### What a load leaves behind -/

namespace KeyfileStore

theorem dirty_whenLoaded {α : Type} (s : KeyfileStore) (d : Disk)
    {next : KeyfileStore → Except RosterError α × KeyfileStore} (h : ∀ t, (next t).2 = t) :
    (s.whenLoaded d next).store.dirty = s.dirty := by
  have hensure := s.dirty_ensureLoaded d
  unfold whenLoaded
  split
  next t e heq =>
    rw [heq] at hensure
    dsimp only
    rw [h]
    exact hensure
  next t e heq =>
    rw [heq] at hensure
    exact hensure

theorem dirty_list (s : KeyfileStore) (d : Disk) : (s.list d).store.dirty = s.dirty :=
  s.dirty_whenLoaded d fun _ => rfl

theorem dirty_get (s : KeyfileStore) (account : String) (key : Option String) (d : Disk) :
    (s.get account key d).store.dirty = s.dirty := by
  refine s.dirty_whenLoaded d fun t => ?_
  split <;> rfl

end KeyfileStore

theorem World.Clean.afterKeyfile {α : Type} {w : World ε} (h : w.Clean) {slot : Nat}
    {reply : StoreReply α} (hreply : reply.store.dirty = (w.keyfiles slot).dirty) :
    (w.afterKeyfile slot reply).Clean :=
  World.forall_keyfiles_afterKeyfile (P := fun _ s => s.dirty = false)
    (hreply.trans (h slot)) fun n _ => h n

namespace BuiltFrom

variable {built : List (Nat × BackendConfig)} {registry : List (Registered (World ε))}
  {p : Registered (World ε)} {w : World ε}

theorem clean_list (h : BuiltFrom built registry) (hp : p ∈ registry) (hw : w.Clean) (c : Cache) :
    (p.plugin.list c w).2.Clean := by
  rcases h.plugin_cases hp with ⟨slot, -, -, -, hplugin⟩ | ⟨slot, settings, -, hplugin⟩
  · rw [hplugin]
    exact hw.afterKeyfile ((w.keyfiles slot).dirty_list w.disk)
  · rw [hplugin]
    exact hw

theorem clean_get (h : BuiltFrom built registry) (hp : p ∈ registry) (hw : w.Clean) (c : Cache)
    (account : String) (key : Option String) : (p.plugin.get c account key w).2.2.Clean := by
  rcases h.plugin_cases hp with ⟨slot, -, -, -, hplugin⟩ | ⟨slot, settings, -, hplugin⟩
  · rw [hplugin]
    exact hw.afterKeyfile ((w.keyfiles slot).dirty_get account key w.disk)
  · rw [hplugin]
    exact hw

/-- A commit of one plugin leaves the files in memory alone, and the disk too if there is
nothing to write. -/
theorem commit_keyfiles (h : BuiltFrom built registry) (hp : p ∈ registry) (c : Cache)
    (account : Option String) :
    (∀ slot, ((p.plugin.commit c account w).2.keyfiles slot).file = (w.keyfiles slot).file) ∧
      (w.Clean → (p.plugin.commit c account w).2.disk = w.disk) := by
  rcases h.plugin_cases hp with ⟨slot, -, -, -, hplugin⟩ | ⟨slot, settings, -, hplugin⟩
  · rw [hplugin]
    dsimp only [KeyfileStore.plugin]
    refine ⟨World.forall_keyfiles_afterKeyfile (P := fun n s => s.file = (w.keyfiles n).file) ?_
      fun _ _ => rfl, fun hw => ?_⟩
    · rcases (w.keyfiles slot).commit_store w.disk with hstore | hstore
      · rw [hstore]
      · rw [hstore]
    · rw [KeyfileStore.commit_of_clean (hw slot)]
      rfl
  · rw [hplugin]
    exact ⟨fun _ => rfl, fun _ => rfl⟩

end BuiltFrom

namespace Roster

variable {built : List (Nat × BackendConfig)} {r : Roster (World ε)} {w : World ε}

/-- A load leaves nothing to write behind. -/
theorem clean_load (h : BuiltFrom built r.registry) (hw : w.Clean) : (r.load w).world.Clean := by
  have hkept : KeptByLoading (fun s : Running (World ε) => s.world.Clean) r.registry := {
    list := fun {s} hs {_} hp => h.clean_list hp hs s.roster.cache
    add := by
      intro s t _ ht p hp accounts _ account _
      rcases t.roster.addAccount_cases p account t.world with ⟨-, heq⟩ | ⟨-, heq⟩
      · rwa [heq]
      · rw [heq]
        exact h.clean_get hp ht _ account none }
  exact hkept.load hw

theorem sameStored_commit (h : BuiltFrom built r.registry) (account : String) :
    w.SameStored (r.commit (some account) w) := by
  have hmemories := r.sameAccounts_commit (w := w) h (some account)
  rw [commit] at hmemories ⊢
  split at hmemories
  next plugin howner =>
    obtain ⟨p, hp, rfl⟩ := exists_of_owner? howner
    obtain ⟨hkeyfiles, hdisk⟩ := h.commit_keyfiles (w := w) hp r.cache (some account)
    exact ⟨hmemories, hkeyfiles, hdisk⟩
  next => exact World.SameStored.refl w

end Roster

end AccountRoster
