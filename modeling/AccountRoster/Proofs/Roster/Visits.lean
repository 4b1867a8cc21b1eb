import AccountRoster.Proofs.Backend.StoreCalls
import AccountRoster.Proofs.Roster.Coherence
import AccountRoster.Proofs.Roster.WorldInvariants

/-!
# What a call leaves of a key-file in memory

A file in memory stays there. It is as it was after a listing, a commit or a refusal, it
has one more group, without entries, after an account was created, and an update changes
no group but that of its account.
-/

namespace AccountRoster

variable {ε : Type}

/-- The world after a call on the store in a slot, whoever makes it. -/
def World.visit (slot : Nat) (call : StoreCall) (w : World ε) : World ε :=
  w.afterKeyfile slot ((w.keyfiles slot).ask w.disk call)

@[simp] theorem World.keyfiles_visit (slot : Nat) (call : StoreCall) (w : World ε) :
    (w.visit slot call).keyfiles slot = ((w.keyfiles slot).ask w.disk call).store :=
  w.keyfiles_afterKeyfile_self slot _

/-- A file that is in memory stays there as it is. -/
def World.Undisturbed (slot : Nat) (w w' : World ε) : Prop :=
  (w.keyfiles slot).loaded = true →
    (w'.keyfiles slot).loaded = true ∧ (w'.keyfiles slot).file = (w.keyfiles slot).file

namespace World.Undisturbed

variable {slot : Nat} {w w' w'' : World ε}

theorem of_eq (h : w'.keyfiles slot = w.keyfiles slot) : Undisturbed slot w w' := by
  intro hloaded
  rw [h]
  exact ⟨hloaded, rfl⟩

theorem trans (h : Undisturbed slot w w') (h' : Undisturbed slot w' w'') :
    Undisturbed slot w w'' := by
  intro hloaded
  obtain ⟨hloaded', hfile⟩ := h hloaded
  obtain ⟨hloaded'', hfile'⟩ := h' hloaded'
  exact ⟨hloaded'', hfile'.trans hfile⟩

end World.Undisturbed

namespace KeyfileStore

variable {slot : Nat} {w : World ε}

/-- A store lists the groups that it then has in memory, or it cannot be read. -/
theorem list_cases (s : KeyfileStore) (d : Disk) :
    ((s.list d).store.loaded = true ∧
        (s.list d).answer = .ok (s.list d).store.file.groupNames) ∨
      (s.loaded = false ∧ (s.list d).store = s ∧ ∃ e, (s.list d).answer = .error e) := by
  cases hloaded : s.loaded with
  | true =>
      rw [list, whenLoaded_of_loaded hloaded]
      exact Or.inl ⟨hloaded, rfl⟩
  | false =>
      rw [list, whenLoaded]
      rcases ensureLoaded_cases hloaded d with ⟨file, -, hensure⟩ | ⟨e, -, hensure⟩
      · rw [hensure]
        exact Or.inl ⟨rfl, rfl⟩
      · rw [hensure]
        exact Or.inr ⟨rfl, rfl, e, rfl⟩

/-- The plugin lists the groups of a file in memory, or the file is not in memory. -/
theorem exists_listed (slot : Nat) (c : Cache) (w : World ε) : ∃ w', World.Undisturbed slot w w' ∧
    (((w'.keyfiles slot).loaded = true ∧
        (plugin ε slot).list c w = (.ok (w'.keyfiles slot).file.groupNames, w')) ∨
      ((w'.keyfiles slot).loaded = false ∧ ∃ e, (plugin ε slot).list c w = (.error e, w'))) := by
  refine ⟨w.afterKeyfile slot ((w.keyfiles slot).list w.disk), ?_, ?_⟩
  · intro hloaded
    rw [World.keyfiles_afterKeyfile_self, list, whenLoaded_of_loaded hloaded]
    exact ⟨hloaded, rfl⟩
  · rw [World.keyfiles_afterKeyfile_self]
    rcases list_cases (w.keyfiles slot) w.disk with
      ⟨hloaded, hanswer⟩ | ⟨hunread, hsame, e, hanswer⟩
    · exact Or.inl ⟨hloaded, Prod.ext hanswer rfl⟩
    · rw [hsame]
      exact Or.inr ⟨hunread, e, Prod.ext hanswer rfl⟩

theorem undisturbed_commit (c : Cache) (account : Option String) :
    World.Undisturbed slot w ((plugin ε slot).commit c account w).2 := by
  intro hloaded
  rw [plugin, World.keyfiles_afterKeyfile_self]
  rcases (w.keyfiles slot).commit_store w.disk with heq | heq
  · rw [heq]
    exact ⟨hloaded, rfl⟩
  · rw [heq]
    exact ⟨hloaded, rfl⟩

/-- An account that is not created leaves the file as it is. -/
theorem undisturbed_create {c : Cache} {manager protocol identification : String}
    (hnone : ∀ account, ((plugin ε slot).create c manager protocol identification w).1 ≠
      .ok (some account)) :
    World.Undisturbed slot w ((plugin ε slot).create c manager protocol identification w).2 := by
  intro hloaded
  simp only [plugin] at hnone ⊢
  rw [World.keyfiles_afterKeyfile_self]
  rcases create_of_loaded hloaded (c.uniqueName manager protocol identification) w.disk with
    ⟨e, hcreate⟩ | ⟨-, -, hcreate⟩
  · rw [hcreate]
    exact ⟨hloaded, rfl⟩
  · rw [hcreate] at hnone
    exact absurd rfl (hnone _)

/-- What is kept by calls on a store, whoever makes them, is kept by the plugin. -/
theorem keeps_of_visits {I : World ε → Prop} (h : ∀ w call, I w → I (World.visit slot call w)) :
    (plugin ε slot).Keeps I where
  list _ w hw := h w .list hw
  get _ account key w hw := h w (.get account key) hw
  set _ account key escaped w hw := h w (.set account key escaped) hw
  setAttribute _ _ _ _ _ hw := hw
  setParameter _ _ _ _ _ _ hw := hw
  delete _ account key w hw := h w (.delete account key) hw
  commit _ _ w hw := h w .commit hw
  create c manager protocol identification w hw :=
    h w (.create (c.uniqueName manager protocol identification)) hw
  ready _ _ hw := hw

/-- A new account is a new group of a file in memory, without entries. -/
theorem create_eq_some {s : KeyfileStore} {d : Disk} {name account : String}
    (h : (s.create name d).answer = .ok (some account)) :
    account = name ∧ (s.create name d).store.loaded = true ∧
      ∃ file : Keyfile, (s.loaded = true → file = s.file) ∧ file.groups.get? name = none ∧
        (s.create name d).store.file = file.openGroup name := by
  have hcreated {t : KeyfileStore} {e : Disk} (hloaded : t.loaded = true)
      (ht : (t.create name e).answer = .ok (some account)) :
      account = name ∧ (t.create name e).store.loaded = true ∧
        t.file.groups.get? name = none ∧ (t.create name e).store.file = t.file.openGroup name := by
    rcases create_of_loaded hloaded name e with ⟨fault, hcreate⟩ | ⟨-, hnew, hcreate⟩
    · rw [hcreate] at ht
      cases ht
    · rw [hcreate] at ht ⊢
      cases ht
      exact ⟨rfl, hloaded, hnew, rfl⟩
  cases hloaded : s.loaded with
  | true =>
      obtain ⟨hname, hstays, hnew, hfile⟩ := hcreated hloaded h
      exact ⟨hname, hstays, s.file, fun _ => rfl, hnew, hfile⟩
  | false =>
      cases hensure : s.ensureLoaded d with
      | mk answer t e =>
          cases answer with
          | error fault =>
              rw [create, whenLoaded, hensure] at h
              cases h
          | ok _ =>
              have hread := loaded_of_ensureLoaded hensure
              have hsame : s.create name d = t.create name e := by
                rw [create, create, whenLoaded_of_loaded hread, whenLoaded, hensure]
              rw [hsame] at h ⊢
              obtain ⟨hname, hstays, hnew, hfile⟩ := hcreated hread h
              exact ⟨hname, hstays, t.file, fun h => absurd h Bool.false_ne_true, hnew, hfile⟩

end KeyfileStore

/-! ### What an update makes of the groups -/

namespace Keyfile

theorem groups_updated_of_ne (f : Keyfile) (codec : Codec) {u : Update} {other : String}
    (hne : u.account ≠ other) : (f.updated codec u).groups.get? other = f.groups.get? other := by
  unfold updated
  split
  next => rw [groups_removeKey, if_neg hne]
  next value _ =>
    rcases f.setValue_cases u.account u.key (codec.escape value) with heq | ⟨-, -, -, heq⟩
    · rw [heq]
    · rw [heq, groups_enter, if_neg hne]

theorem entries_of_groups_eq {f g : Keyfile} {group : String}
    (h : g.groups.get? group = f.groups.get? group) : g.entries group = f.entries group := by
  rw [entries, entries, h]

/-- A text is set, or is too much for the file. -/
theorem entries_setValue (f : Keyfile) (group key escaped : String) :
    (f.setValue group key escaped).2.entries group = f.entries group ∨
      (f.setValue group key escaped).2.entries group = (f.entries group).insert key escaped := by
  rcases f.setValue_cases group key escaped with heq | ⟨-, -, -, heq⟩
  · rw [heq]
    exact Or.inl rfl
  · rw [heq, entries_enter, if_pos rfl]
    exact Or.inr rfl

end Keyfile

end AccountRoster
