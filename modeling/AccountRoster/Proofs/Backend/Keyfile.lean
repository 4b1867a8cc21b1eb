import AccountRoster.Backend
import AccountRoster.Proofs.Disk
import AccountRoster.Proofs.Keyfile.Reports
import AccountRoster.Proofs.Keyfile.Rereading

/-!
# The key-file backend at work

Once the file is in memory no call but a commit touches the disk. A call on the
store leaves it as it is, or leaves it dirty with the file that the same call on
the key-file gives.

## Implementation notes

`Turns` says this for all calls at once. A call that reports no change leaves the
store equal to what it was, so a store that is not dirty has not changed since it
was loaded or committed.
-/

namespace AccountRoster

namespace KeyfileStore

theorem ensureLoaded_of_loaded {s : KeyfileStore} (h : s.loaded = true) (d : Disk) :
    s.ensureLoaded d = ⟨.ok (), s, d⟩ :=
  if_pos h

theorem whenLoaded_of_loaded {α : Type} {s : KeyfileStore} (h : s.loaded = true) (d : Disk)
    (next : KeyfileStore → Except RosterError α × KeyfileStore) :
    s.whenLoaded d next = ⟨(next s).1, (next s).2, d⟩ := by
  rw [whenLoaded, ensureLoaded_of_loaded h]

/-- A file that can be read is held from then on. -/
theorem ensureLoaded_of_readFile {s : KeyfileStore} (hnew : s.loaded = false) {d e : Disk}
    {file : Keyfile} (h : s.readFile d = (.ok file, e)) :
    s.ensureLoaded d = ⟨.ok (), { s with file, loaded := true }, e⟩ := by
  have hloaded : ¬s.loaded = true := by simp [hnew]
  rw [ensureLoaded, if_neg hloaded, h]

theorem loaded_of_ensureLoaded {s t : KeyfileStore} {d e : Disk}
    (h : s.ensureLoaded d = ⟨.ok (), t, e⟩) : t.loaded = true := by
  unfold ensureLoaded at h
  split at h
  next hloaded =>
    cases h
    exact hloaded
  next =>
    split at h
    · cases h
      rfl
    · cases h

theorem dirty_ensureLoaded (s : KeyfileStore) (d : Disk) :
    (s.ensureLoaded d).store.dirty = s.dirty := by
  unfold ensureLoaded
  split
  · rfl
  · split <;> rfl

/-- What a store makes of what its path holds. -/
def fileOf (s : KeyfileStore) : Except DiskFault String → Except RosterError Keyfile
  | .ok text => liftCodec (Keyfile.parse text s.file.separator)
  | .error .missing => .ok (Keyfile.new s.file.separator)
  | .error fault => .error (failure "read" s.path fault)

/-- The text of a file is read as that file with its values settled. -/
theorem fileOf_toData {file : Keyfile} (h : file.WellFormed) (path : String) :
    (new path file.separator).fileOf (.ok file.toData) = .ok file.settled :=
  congrArg liftCodec (Keyfile.parse_toData h)

theorem readFile_of_calm (s : KeyfileStore) {d : Disk} (h : d.access.1 = false) :
    s.readFile d = (s.fileOf (d.contents s.path), d.access.2) := by
  rw [readFile, Disk.read_of_calm h, fileOf.eq_def]
  cases d.contents s.path with
  | ok text => rfl
  | error fault => cases fault <;> rfl

theorem calm_of_readFile {s : KeyfileStore} {d e : Disk} {file : Keyfile}
    (h : s.readFile d = (.ok file, e)) : d.access.1 = false := by
  cases hout : d.access.1 with
  | false => rfl
  | true =>
      have hread : d.read s.path = (.error .outage, d.access.2) := if_pos hout
      rw [readFile, hread] at h
      cases h

/-- A file that has been read is read again as the same file. -/
theorem readFile_again {s : KeyfileStore} {d e : Disk} {file : Keyfile}
    (h : s.readFile d = (.ok file, e)) (hcalm : e.access.1 = false) :
    s.readFile e = (.ok file, e.access.2) := by
  have hfirst := s.readFile_of_calm (calm_of_readFile h)
  rw [h] at hfirst
  obtain ⟨hfile, rfl⟩ := Prod.mk.inj hfirst
  rw [s.readFile_of_calm hcalm, Disk.contents_access, ← hfile]

/-- A key-file of which nothing was read is missing, or has a text that can be read. -/
def Readable (s : KeyfileStore) (d : Disk) : Prop :=
  (d.read s.path).1 = .error .missing ∨
    ∃ text file, (d.read s.path).1 = .ok text ∧ Keyfile.parse text s.file.separator = .ok file

/-- A file that has been read could be read. -/
theorem readable_of_readFile {s : KeyfileStore} {d e : Disk} {file : Keyfile}
    (h : s.readFile d = (.ok file, e)) : s.Readable d := by
  unfold readFile at h
  unfold Readable
  split at h
  next text d' hread =>
    rw [hread]
    cases hparse : Keyfile.parse text s.file.separator with
    | ok parsed => exact Or.inr ⟨text, parsed, rfl, hparse⟩
    | error fault =>
        rw [hparse] at h
        cases h
  next d' hread =>
    rw [hread]
    exact Or.inl rfl
  next => cases h

/-- What is read of a file that can be read has valid names and values. -/
theorem Readable.exists_wellFormed {s : KeyfileStore} {d : Disk} (h : s.Readable d) :
    ∃ file e, s.readFile d = (.ok file, e) ∧ file.WellFormed ∧
      file.separator = s.file.separator := by
  unfold readFile
  cases hread : d.read s.path with
  | mk answer e =>
      rw [Readable, hread] at h
      rcases h with h | ⟨text, file, h, hparse⟩
      · cases h
        exact ⟨_, e, rfl, Keyfile.wellFormed_new s.file.separator, rfl⟩
      · cases h
        refine ⟨file, e, ?_, Keyfile.wellFormed_of_parse hparse⟩
        dsimp only
        rw [hparse]
        rfl

/-- What a call makes of a store: nothing, or a dirty store with another file. -/
def Turns (s t : KeyfileStore) (file : Keyfile) : Prop :=
  (t = s ∧ s.file = file) ∨ t = { s with file, dirty := true }

namespace Turns

variable {s t : KeyfileStore} {file : Keyfile}

theorem file_eq (h : s.Turns t file) : t.file = file := by
  rcases h with ⟨rfl, hfile⟩ | rfl
  · exact hfile
  · rfl

theorem loaded_eq (h : s.Turns t file) : t.loaded = s.loaded := by
  rcases h with ⟨rfl, -⟩ | rfl
  · rfl
  · rfl

theorem path_eq (h : s.Turns t file) : t.path = s.path := by
  rcases h with ⟨rfl, -⟩ | rfl
  · rfl
  · rfl

theorem eq_of_dirty_eq_false (h : s.Turns t file) (hclean : t.dirty = false) : t = s := by
  rcases h with ⟨rfl, -⟩ | rfl
  · rfl
  · cases hclean

end Turns

/-- A store takes over an edit of its file, with what is reported on it. -/
theorem turns_changed {s : KeyfileStore} (e : Keyfile.Edit) {change : Bool}
    (h : s.file.report e = .ok change) :
    s.Turns (s.changed (s.file.edit e) change) (s.file.edit e) := by
  cases change with
  | false =>
      have hsame : s.file.edit e = s.file := by
        rw [Keyfile.edit_eq_self_iff, h]
        nofun
      refine Or.inl ⟨?_, hsame.symm⟩
      rw [changed, Bool.or_false, hsame]
  | true =>
      refine Or.inr ?_
      rw [changed, Bool.or_true]

/-- Storing a text does to the store what it does to the file. -/
theorem set_of_loaded {s : KeyfileStore} (h : s.loaded = true) (account key escaped : String)
    (d : Disk) :
    (s.set account key escaped d).disk = d ∧
      s.Turns (s.set account key escaped d).store (s.file.setValue account key escaped).2 := by
  rw [set, whenLoaded_of_loaded h]
  refine ⟨rfl, ?_⟩
  cases hset : s.file.setValue account key escaped with
  | mk answer file =>
      have hfile : s.file.edit (.setValue account key escaped) = file := congrArg Prod.snd hset
      cases answer with
      | ok change =>
          have hreport : s.file.report (.setValue account key escaped) = .ok change :=
            congrArg Prod.fst hset
          have hturns := turns_changed _ hreport
          rwa [hfile] at hturns
      | error fault =>
          have hreport : s.file.report (.setValue account key escaped) = .error fault :=
            congrArg Prod.fst hset
          exact Or.inl ⟨rfl, (Keyfile.edit_of_refused hreport).symm.trans hfile⟩

/-- Removing a key does to the store what it does to the file. -/
theorem delete_key_of_loaded {s : KeyfileStore} (h : s.loaded = true) (account key : String)
    (d : Disk) :
    (s.delete account (some key) d).disk = d ∧
      s.Turns (s.delete account (some key) d).store (s.file.removeKey account key).2 := by
  rw [delete, whenLoaded_of_loaded h]
  exact ⟨rfl, turns_changed (.removeKey account key) rfl⟩

/-- Removing an account does to the store what it does to the file. -/
theorem delete_account_of_loaded {s : KeyfileStore} (h : s.loaded = true) (account : String)
    (d : Disk) :
    (s.delete account none d).disk = d ∧
      s.Turns (s.delete account none d).store (s.file.removeGroup account).2 := by
  rw [delete, whenLoaded_of_loaded h]
  exact ⟨rfl, turns_changed (.removeGroup account) rfl⟩

/-- A new account is refused, or its group is opened where there was none. -/
theorem create_of_loaded {s : KeyfileStore} (h : s.loaded = true) (name : String) (d : Disk) :
    (∃ e, s.create name d = ⟨.error e, s, d⟩) ∨
      (Keyfile.isGroupName name = true ∧ s.file.groups.get? name = none ∧
        s.create name d =
          ⟨.ok (some name), { s with file := s.file.openGroup name, dirty := true }, d⟩) := by
  rw [create, whenLoaded_of_loaded h]
  rcases Keyfile.addGroup_cases s.file name with ⟨-, hrefused⟩ | ⟨hname, hnew, hadd⟩
  · refine Or.inl ?_
    cases hadd : s.file.addGroup name with
    | mk answer file =>
        rw [hadd] at hrefused
        cases answer with
        | error fault => exact ⟨_, rfl⟩
        | ok change =>
            cases change with
            | false => exact ⟨_, rfl⟩
            | true => exact absurd rfl hrefused
  · refine Or.inr ⟨hname, hnew, ?_⟩
    have hdirty (file : Keyfile) : s.changed file true = { s with file, dirty := true } := by
      rw [changed, Bool.or_true]
    rw [hadd, ← hdirty]

/-- An account without entries has nothing to push. -/
theorem get_of_no_entries {s : KeyfileStore} (h : s.loaded = true) {account : String}
    (hgroup : s.file.groups.get? account = some Dict.empty) (d : Disk) :
    (s.get account none d).answer = .ok (true, []) := by
  have hcontains : s.file.hasGroup account = true := by
    rw [Keyfile.hasGroup, Dict.contains_eq, hgroup, Option.isSome_some]
  have hentries : s.file.entries account = Dict.empty := by
    rw [Keyfile.entries, hgroup, Option.getD_some]
  rw [get, whenLoaded_of_loaded h]
  dsimp only
  rw [if_pos hcontains, pushes, hentries]
  rfl

/-- A commit leaves the file in memory as it is. -/
theorem commit_store (s : KeyfileStore) (d : Disk) :
    (s.commit d).store = s ∨ (s.commit d).store = { s with dirty := false } := by
  unfold commit
  split
  · exact Or.inl rfl
  split
  · exact Or.inr rfl
  · exact Or.inl rfl

theorem commit_of_clean {s : KeyfileStore} (h : s.dirty = false) (d : Disk) :
    s.commit d = ⟨.ok true, s, d⟩ :=
  if_pos (Or.inr h)

theorem contents_of_replace {path content : String} {d e : Disk}
    (h : replace path content d = (.ok (), e)) : e.contents path = .ok content := by
  unfold replace at h
  split at h
  next => cases h
  next written hwrite =>
    split at h
    next renamed hrename =>
      cases h
      exact Disk.contents_rename (Disk.contents_write hwrite) hrename
    next => cases h

theorem contents_of_writeFile {path content : String} {d e : Disk}
    (h : writeFile path content d = (.ok (), e)) : e.contents path = .ok content := by
  unfold writeFile at h
  split at h
  next => exact contents_of_replace h
  next =>
    split at h
    next => cases h
    next => exact contents_of_replace h

/-- A commit of a dirty store that succeeds leaves the text of the file. -/
theorem contents_of_commit {s : KeyfileStore} (hloaded : s.loaded = true)
    (hdirty : s.dirty = true) {d : Disk} (h : (s.commit d).answer = .ok true) :
    (s.commit d).disk.contents s.path = .ok s.file.toData := by
  unfold commit at h ⊢
  rw [if_neg (by simp [hloaded, hdirty])] at h ⊢
  split at h
  next written hwrite => exact contents_of_writeFile hwrite
  next => cases h

end KeyfileStore

namespace World

variable {ε : Type}

@[simp] theorem keyfiles_afterKeyfile_self {α : Type} (w : World ε) (slot : Nat)
    (reply : StoreReply α) : (w.afterKeyfile slot reply).keyfiles slot = reply.store :=
  keyfiles_putKeyfile_self w slot reply.store

theorem keyfiles_afterKeyfile_of_ne {α : Type} (w : World ε) {slot other : Nat}
    (hne : other ≠ slot) (reply : StoreReply α) :
    (w.afterKeyfile slot reply).keyfiles other = w.keyfiles other :=
  if_neg hne

/-- What holds of the store after a call, and of all others before it, holds of all stores
after it. -/
theorem forall_keyfiles_afterKeyfile {α : Type} {w : World ε} {slot : Nat} {reply : StoreReply α}
    {P : Nat → KeyfileStore → Prop} (hself : P slot reply.store)
    (hothers : ∀ n, n ≠ slot → P n (w.keyfiles n)) (n : Nat) :
    P n ((w.afterKeyfile slot reply).keyfiles n) := by
  by_cases heq : n = slot
  · subst heq
    rwa [keyfiles_afterKeyfile_self]
  · rw [w.keyfiles_afterKeyfile_of_ne heq]
    exact hothers n heq

/-- A call that leaves the store and the disk leaves the world. -/
theorem afterKeyfile_same {α : Type} (w : World ε) (slot : Nat) (answer : Except RosterError α) :
    w.afterKeyfile slot ⟨answer, w.keyfiles slot, w.disk⟩ = w := by
  have hkeyfiles : (fun n => if n = slot then w.keyfiles slot else w.keyfiles n) = w.keyfiles := by
    funext n
    split
    next h => rw [h]
    next => rfl
  rw [afterKeyfile, putKeyfile, hkeyfiles]

end World

end AccountRoster
