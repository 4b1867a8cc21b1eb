import AccountRoster.Proofs.Backend.Keyfile

/-!
# Calls on a key-file store

Every call but a commit is a change of the file in memory, once the file has been read.
A change that is reported is one, and one that is not is none: a call marks the store
exactly if the file is another one afterwards.

## Implementation notes

`KeyfileStore.amend` is what one edit does to a store, mark included. With the file in
memory a call is a list of such edits (`ask_of_loaded`); without it, the file is read first
(`ask_of_ensureLoaded`) or the call is refused (`ask_of_unreadable`).

Of a key-file that has not been read, what is stored is on the disk. `KeyfileStore.kept`
puts both cases into one, so that reading the file changes nothing that is stored.
-/

namespace AccountRoster

namespace StoreReply

variable {α : Type}

/-- A reply without what it tells. -/
def done (reply : StoreReply α) : StoreReply Unit :=
  ⟨reply.answer.map fun _ => (), reply.store, reply.disk⟩

end StoreReply

/-- A call on a key-file store. A new account comes with the name that it is to have. -/
inductive StoreCall where
  | list
  | get (account : String) (key : Option String)
  | set (account key escaped : String)
  | delete (account : String) (key : Option String)
  | create (name : String)
  | commit
  deriving DecidableEq

/-- The edits of the file that a call asks for. -/
def StoreCall.edits : StoreCall → List Keyfile.Edit
  | .set account key escaped => [.setValue account key escaped]
  | .delete account (some key) => [.removeKey account key]
  | .delete account none => [.removeGroup account]
  | .create name => [.addGroup name]
  | .list | .get _ _ | .commit => []

namespace KeyfileStore

/-- Make a call on a store. -/
def ask (s : KeyfileStore) (d : Disk) : StoreCall → StoreReply Unit
  | .list => (s.list d).done
  | .get account key => (s.get account key d).done
  | .set account key escaped => (s.set account key escaped d).done
  | .delete account key => (s.delete account key d).done
  | .create name => (s.create name d).done
  | .commit => (s.commit d).done

/-- The edits that a call asks for, if it has been accepted. -/
def accepted (s : KeyfileStore) (d : Disk) (call : StoreCall) : List Keyfile.Edit :=
  match (s.ask d call).answer with
  | .ok _ => call.edits
  | .error _ => []

/-- The store after an edit of its file, marked if that changed the file. -/
def amend (s : KeyfileStore) (e : Keyfile.Edit) : KeyfileStore :=
  if s.file.edit e = s.file then s else { s with file := s.file.edit e, dirty := true }

variable {s t : KeyfileStore} {d d' : Disk} {edits : List Keyfile.Edit}

/-! ### Edits of a store -/

@[simp] theorem file_amend (s : KeyfileStore) (e : Keyfile.Edit) :
    (s.amend e).file = s.file.edit e := by
  unfold amend
  split
  next h => exact h.symm
  next => rfl

@[simp] theorem loaded_amend (s : KeyfileStore) (e : Keyfile.Edit) :
    (s.amend e).loaded = s.loaded := by
  unfold amend
  split <;> rfl

@[simp] theorem path_amend (s : KeyfileStore) (e : Keyfile.Edit) : (s.amend e).path = s.path := by
  unfold amend
  split <;> rfl

theorem amend_of_idle {e : Keyfile.Edit} (h : s.file.edit e = s.file) : s.amend e = s :=
  if_pos h

theorem amend_of_clean {e : Keyfile.Edit} (h : (s.amend e).dirty = false) : s.amend e = s := by
  unfold amend at h ⊢
  split
  next => rfl
  next hchanged =>
    rw [if_neg hchanged] at h
    cases h

/-- A change that is reported rightly amends the store. -/
theorem changed_eq_amend (e : Keyfile.Edit) {change : Bool}
    (h : s.file.report e = .ok change) : s.changed (s.file.edit e) change = s.amend e := by
  have hsame := s.file.edit_eq_self_iff e
  rw [h] at hsame
  cases change with
  | false =>
      rw [amend, if_pos (hsame.mpr nofun), changed, Bool.or_false, hsame.mpr nofun]
  | true =>
      rw [amend, if_neg fun heq => hsame.mp heq rfl, changed, Bool.or_true]

/-! ### Several edits -/

theorem amendAll (s : KeyfileStore) (edits : List Keyfile.Edit) :
    (edits.foldl amend s).file = edits.foldl Keyfile.edit s.file ∧
      (edits.foldl amend s).loaded = s.loaded ∧ (edits.foldl amend s).path = s.path := by
  induction edits generalizing s with
  | nil => exact ⟨rfl, rfl, rfl⟩
  | cons e more ih =>
      obtain ⟨hfile, hloaded, hpath⟩ := ih (s.amend e)
      rw [file_amend] at hfile
      rw [loaded_amend] at hloaded
      rw [path_amend] at hpath
      exact ⟨hfile, hloaded, hpath⟩

theorem amendAll_of_idle (h : ∀ e ∈ edits, s.file.edit e = s.file) : edits.foldl amend s = s := by
  induction edits with
  | nil => rfl
  | cons e more ih =>
      obtain ⟨he, hmore⟩ := List.forall_mem_cons.mp h
      rw [List.foldl_cons, amend_of_idle he]
      exact ih hmore

theorem amendAll_of_clean (h : (edits.foldl amend s).dirty = false) : edits.foldl amend s = s := by
  induction edits generalizing s with
  | nil => rfl
  | cons e more ih =>
      rw [List.foldl_cons] at h ⊢
      have hsame := ih h
      rw [hsame] at h ⊢
      exact amend_of_clean h

theorem editAll_of_idle {f : Keyfile} (h : ∀ e ∈ edits, f.edit e = f) :
    edits.foldl Keyfile.edit f = f := by
  induction edits with
  | nil => rfl
  | cons e more ih =>
      obtain ⟨he, hmore⟩ := List.forall_mem_cons.mp h
      rw [List.foldl_cons, he]
      exact ih hmore

/-! ### Calls on a file in memory -/

theorem set_eq_amend (h : s.loaded = true) (account key escaped : String) (d : Disk) :
    (∃ e, s.set account key escaped d = ⟨.error e, s, d⟩) ∨
      s.set account key escaped d = ⟨.ok true, s.amend (.setValue account key escaped), d⟩ := by
  rw [set, whenLoaded_of_loaded h]
  cases hset : s.file.setValue account key escaped with
  | mk answer file =>
      cases answer with
      | error fault => exact Or.inl ⟨_, rfl⟩
      | ok change =>
          refine Or.inr ?_
          have hreport : s.file.report (.setValue account key escaped) = .ok change :=
            congrArg Prod.fst hset
          have hfile : s.file.edit (.setValue account key escaped) = file := congrArg Prod.snd hset
          rw [← changed_eq_amend _ hreport, hfile]

theorem delete_eq_amend (h : s.loaded = true) (account : String) (key : Option String) (d : Disk) :
    ∃ e, (StoreCall.delete account key).edits = [e] ∧
      s.delete account key d = ⟨.ok true, s.amend e, d⟩ := by
  rw [delete, whenLoaded_of_loaded h]
  cases key with
  | some key =>
      refine ⟨_, rfl, ?_⟩
      rw [← changed_eq_amend (.removeKey account key) rfl]
      rfl
  | none =>
      refine ⟨_, rfl, ?_⟩
      rw [← changed_eq_amend (.removeGroup account) rfl]
      rfl

theorem create_eq_amend (h : s.loaded = true) (name : String) (d : Disk) :
    (∃ e, s.create name d = ⟨.error e, s, d⟩) ∨
      s.create name d = ⟨.ok (some name), s.amend (.addGroup name), d⟩ := by
  rw [create, whenLoaded_of_loaded h]
  cases hadd : s.file.addGroup name with
  | mk answer file =>
      cases answer with
      | error fault => exact Or.inl ⟨_, rfl⟩
      | ok change =>
          cases change with
          | false => exact Or.inl ⟨_, rfl⟩
          | true =>
              refine Or.inr ?_
              have hreport : s.file.report (.addGroup name) = .ok true := congrArg Prod.fst hadd
              have hfile : s.file.edit (.addGroup name) = file := congrArg Prod.snd hadd
              rw [← changed_eq_amend _ hreport, hfile]

/-- Without the disk, a call does to the store what it asks of the file and nothing
else, and marks it exactly if that changed the file. -/
theorem ask_of_loaded (h : s.loaded = true) (d : Disk) {call : StoreCall}
    (hcall : call ≠ .commit) :
    (s.ask d call).disk = d ∧ (s.ask d call).store = (s.accepted d call).foldl amend s := by
  unfold accepted
  cases call with
  | list =>
      rw [ask, list, whenLoaded_of_loaded h]
      exact ⟨rfl, rfl⟩
  | get account key =>
      rw [ask, get, whenLoaded_of_loaded h]
      split <;> exact ⟨rfl, rfl⟩
  | set account key escaped =>
      rcases set_eq_amend h account key escaped d with ⟨e, hset⟩ | hset
      · rw [ask, hset]
        exact ⟨rfl, rfl⟩
      · rw [ask, hset]
        exact ⟨rfl, rfl⟩
  | delete account key =>
      obtain ⟨e, hedits, hdelete⟩ := delete_eq_amend h account key d
      rw [ask, hdelete, hedits]
      exact ⟨rfl, rfl⟩
  | create name =>
      rcases create_eq_amend h name d with ⟨e, hcreate⟩ | hcreate
      · rw [ask, hcreate]
        exact ⟨rfl, rfl⟩
      · rw [ask, hcreate]
        exact ⟨rfl, rfl⟩
  | commit => exact absurd rfl hcall

/-! ### Calls on a file that has to be read first -/

/-- A file that can be read is read, and then the call is one on a file in memory. -/
theorem ask_of_ensureLoaded (h : s.ensureLoaded d = ⟨.ok (), t, d'⟩) {call : StoreCall}
    (hcall : call ≠ .commit) : s.ask d call = t.ask d' call := by
  have hloaded := loaded_of_ensureLoaded h
  have hwhen {α : Type} (next : KeyfileStore → Except RosterError α × KeyfileStore) :
      s.whenLoaded d next = t.whenLoaded d' next := by
    rw [whenLoaded_of_loaded hloaded, whenLoaded, h]
  cases call with
  | list => rw [ask, ask, list, list, hwhen]
  | get account key => rw [ask, ask, get, get, hwhen]
  | set account key escaped => rw [ask, ask, set, set, hwhen]
  | delete account key => rw [ask, ask, delete, delete, hwhen]
  | create name => rw [ask, ask, create, create, hwhen]
  | commit => exact absurd rfl hcall

/-- A file that cannot be read stays as it is, and the call is refused. -/
theorem ask_of_unreadable {e : RosterError} (h : s.ensureLoaded d = ⟨.error e, t, d'⟩)
    {call : StoreCall} (hcall : call ≠ .commit) : s.ask d call = ⟨.error e, t, d'⟩ := by
  have hwhen {α : Type} (next : KeyfileStore → Except RosterError α × KeyfileStore) :
      (s.whenLoaded d next).done = ⟨.error e, t, d'⟩ := by
    rw [whenLoaded, h]
    rfl
  cases call with
  | list => rw [ask, list, hwhen]
  | get account key => rw [ask, get, hwhen]
  | set account key escaped => rw [ask, set, hwhen]
  | delete account key => rw [ask, delete, hwhen]
  | create name => rw [ask, create, hwhen]
  | commit => exact absurd rfl hcall

/-- Reading a file is one access to the disk. -/
theorem disk_readFile (s : KeyfileStore) (d : Disk) : (s.readFile d).2 = d.access.2 := by
  have hread : (d.read s.path).2 = d.access.2 := by
    unfold Disk.read
    dsimp only
    split <;> rfl
  unfold readFile
  split <;> next heq => rw [← hread, heq]

/-- A store of which nothing has been read reads its file, or stays as it is. -/
theorem ensureLoaded_cases (hunread : s.loaded = false) (d : Disk) :
    (∃ file, s.readFile d = (.ok file, d.access.2) ∧
        s.ensureLoaded d = ⟨.ok (), { s with file, loaded := true }, d.access.2⟩) ∨
      ∃ e, s.readFile d = (.error e, d.access.2) ∧
        s.ensureLoaded d = ⟨.error e, s, d.access.2⟩ := by
  have hdisk := s.disk_readFile d
  have hloaded : ¬s.loaded = true := by simp [hunread]
  rw [ensureLoaded, if_neg hloaded]
  cases hread : s.readFile d with
  | mk answer e =>
      rw [hread] at hdisk
      obtain rfl : e = d.access.2 := hdisk
      cases answer with
      | ok file => exact Or.inl ⟨file, rfl, rfl⟩
      | error fault => exact Or.inr ⟨fault, rfl, rfl⟩

theorem commit_of_unread (hunread : s.loaded = false) (d : Disk) : s.commit d = ⟨.ok true, s, d⟩ :=
  if_pos (Or.inl hunread)

/-! ### What is stored -/

/-- The key-file as it is stored: the one in memory, or what its path holds. -/
def kept (s : KeyfileStore) (d : Disk) : Except RosterError Keyfile :=
  if s.loaded then .ok s.file else s.fileOf (d.contents s.path)

/-- What is stored of an account. -/
def group? (s : KeyfileStore) (d : Disk) (account : String) : Option (Dict String) :=
  match s.kept d with
  | .ok file => file.groups.get? account
  | .error _ => none

theorem group?_of_loaded (h : s.loaded = true) (d : Disk) (account : String) :
    s.group? d account = s.file.groups.get? account := by
  rw [group?, kept, if_pos h]

theorem kept_congr (h : d'.contents s.path = d.contents s.path) : s.kept d' = s.kept d := by
  rw [kept, h, kept]

theorem group?_congr (h : d'.contents s.path = d.contents s.path) :
    s.group? d' = s.group? d := by
  funext account
  rw [group?, kept_congr h, group?]

/-- To read a key-file changes nothing that any path holds. -/
theorem contents_ensureLoaded (s : KeyfileStore) (d : Disk) (path : String) :
    (s.ensureLoaded d).disk.contents path = d.contents path := by
  cases hloaded : s.loaded with
  | true => rw [ensureLoaded_of_loaded hloaded]
  | false =>
      rcases ensureLoaded_cases hloaded d with ⟨file, -, hensure⟩ | ⟨fault, -, hensure⟩
      · rw [hensure]
        exact d.contents_access path
      · rw [hensure]
        exact d.contents_access path

/-- A key-file that is read is the one that was stored. -/
theorem kept_ensureLoaded (s : KeyfileStore) (d : Disk) :
    (s.ensureLoaded d).store.kept (s.ensureLoaded d).disk = s.kept d := by
  cases hloaded : s.loaded with
  | true => rw [ensureLoaded_of_loaded hloaded]
  | false =>
      have hunread : ¬s.loaded = true := by simp [hloaded]
      rcases ensureLoaded_cases hloaded d with ⟨file, hread, hensure⟩ | ⟨fault, -, hensure⟩
      · have hcalm := s.readFile_of_calm (calm_of_readFile hread)
        rw [hread] at hcalm
        rw [hensure, kept, if_pos rfl, kept, if_neg hunread, ← (Prod.mk.inj hcalm).1]
      · rw [hensure]
        exact kept_congr (d.contents_access s.path)

/-- A call that is refused has read the file, if that could be done, and nothing else. -/
theorem ask_of_refused {call : StoreCall} (hcall : call ≠ .commit) {fault : RosterError}
    (h : (s.ask d call).answer = .error fault) :
    (s.ask d call).store = (s.ensureLoaded d).store ∧
      (s.ask d call).disk = (s.ensureLoaded d).disk := by
  cases hensure : s.ensureLoaded d with
  | mk answer t d' =>
      cases answer with
      | error fault =>
          rw [ask_of_unreadable hensure hcall]
          exact ⟨rfl, rfl⟩
      | ok _ =>
          rw [ask_of_ensureLoaded hensure hcall] at h ⊢
          obtain ⟨hdisk, hstore⟩ := ask_of_loaded (loaded_of_ensureLoaded hensure) d' hcall
          rw [accepted, h] at hstore
          exact ⟨hstore, hdisk⟩

end KeyfileStore

end AccountRoster
