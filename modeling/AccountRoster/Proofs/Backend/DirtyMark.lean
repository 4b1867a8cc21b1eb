import AccountRoster.Proofs.Backend.StoreCalls
import AccountRoster.Proofs.Codec.OneLine
import AccountRoster.Proofs.Disk.Draft
import AccountRoster.Proofs.Keyfile.Rereading

/-!
# What the mark of a store is worth

A commit writes nothing when the store is not marked. That is safe because an unmarked
store is always saved: its file is what stands on the disk, or what was read from there.
Any access to the disk may fail on the way.

## Implementation notes

`Session` is everything that can be done with one store while nobody else touches its
file: calls, and changes of the disk that leave what the path holds. As a disk carries
the outages that its next accesses meet, such a change also brings any outages about. A
draft of which only a part was written is a change of this kind, too.
The session remembers the edits that calls were asked for and have accepted, so that
`Sound` can compare the file in memory with what was read and all these edits.
-/

namespace AccountRoster

namespace KeyfileStore

/-- A file in memory is saved: its text is at the path, or the text from which it was
read is still there, or it is empty and nothing is there. -/
def Saved (path : String) (separator : Char) (first d : Disk) (file : Keyfile) : Prop :=
  d.contents path = .ok file.toData ∨
  (∃ text, first.contents path = .ok text ∧ d.contents path = .ok text ∧
    Keyfile.parse text separator = .ok file) ∨
  (d.contents path = .error .missing ∧ file = Keyfile.new separator)

/-- What can be done with the store of a path: the edits that were accepted, and the
store and the disk after them. -/
inductive Session (path : String) (separator : Char) (first : Disk) :
    List Keyfile.Edit → KeyfileStore → Disk → Prop
  | start : Session path separator first [] (new path separator) first
  | call {edits : List Keyfile.Edit} {s : KeyfileStore} {d : Disk}
      (h : Session path separator first edits s d) (call : StoreCall) :
      Session path separator first (edits ++ s.accepted d call) (s.ask d call).store
        (s.ask d call).disk
  /-- The disk changes, but not in what the path holds. -/
  | elsewhere {edits : List Keyfile.Edit} {s : KeyfileStore} {d : Disk}
      (h : Session path separator first edits s d) (e : Disk)
      (hsame : e.contents path = d.contents path) : Session path separator first edits s e

/-- What a session says of its store as long as nothing has been read, and of the file
in memory from then on. -/
structure Traced (path : String) (separator : Char) (first : Disk) (edits : List Keyfile.Edit)
    (s : KeyfileStore) (d : Disk) : Prop where
  unread : s.loaded = false →
    s = new path separator ∧ edits = [] ∧ d.contents path = first.contents path
  path_eq : s.path = path
  read : s.loaded = true → ∃ file, (new path separator).fileOf (first.contents path) = .ok file ∧
    s.file = edits.foldl Keyfile.edit file ∧
    ((∀ e ∈ edits, file.edit e = file) → s.dirty = false ∧ d.contents path = first.contents path)
  saved : s.loaded = true → s.dirty = false → Saved path separator first d s.file

variable {path : String} {separator : Char} {first : Disk} {edits : List Keyfile.Edit}
  {s : KeyfileStore} {d e : Disk}

/-! ### What the steps of a session keep -/

/-- A file that has just been read is saved. -/
theorem saved_of_fileOf {file : Keyfile}
    (hfile : (new path separator).fileOf (first.contents path) = .ok file)
    (hsame : d.contents path = first.contents path) : Saved path separator first d file := by
  unfold fileOf at hfile
  split at hfile
  next text htext =>
    refine Or.inr (Or.inl ⟨text, htext, hsame.trans htext, ?_⟩)
    unfold liftCodec at hfile
    split at hfile
    · cases hfile
      assumption
    · cases hfile
  next hmissing =>
    cases hfile
    exact Or.inr (Or.inr ⟨hsame.trans hmissing, rfl⟩)
  next => cases hfile

/-- A commit has nothing to do, writes the file, or fails and leaves it intact. -/
theorem commit_cases (s : KeyfileStore) (d : Disk) :
    ((s.loaded = false ∨ s.dirty = false) ∧ s.commit d = ⟨.ok true, s, d⟩) ∨
    (s.loaded = true ∧ s.dirty = true ∧
      ((∃ e, s.commit d = ⟨.ok true, { s with dirty := false }, e⟩ ∧
          e.contents s.path = .ok s.file.toData) ∨
        ∃ fault e, s.commit d = ⟨.error fault, s, e⟩ ∧ d.Intact s.path e)) := by
  unfold commit
  split
  next hidle => exact Or.inl ⟨hidle, rfl⟩
  next hbusy =>
    obtain ⟨hloaded, hdirty⟩ := not_or.mp hbusy
    refine Or.inr ⟨Bool.of_not_eq_false hloaded, Bool.of_not_eq_false hdirty, ?_⟩
    split
    next e hwrite => exact Or.inl ⟨e, rfl, contents_of_writeFile hwrite⟩
    next fault e hwrite => exact Or.inr ⟨fault, e, rfl, intact_of_writeFile hwrite⟩

namespace Traced

theorem start (path : String) (separator : Char) (first : Disk) :
    Traced path separator first [] (new path separator) first where
  unread _ := ⟨rfl, rfl, rfl⟩
  path_eq := rfl
  read := nofun
  saved := nofun

theorem elsewhere (h : Traced path separator first edits s d)
    (hsame : e.contents path = d.contents path) :
    Traced path separator first edits s e where
  unread hunread := by
    rw [hsame]
    exact h.unread hunread
  path_eq := h.path_eq
  read hloaded := by
    rw [hsame]
    exact h.read hloaded
  saved hloaded hclean := by
    rw [Saved, hsame]
    exact h.saved hloaded hclean

/-- The file is read, and nothing has been changed so far. -/
theorem load (h : Traced path separator first edits s d) (hunread : s.loaded = false)
    {file : Keyfile} (hread : s.readFile d = (.ok file, e)) :
    Traced path separator first edits { s with file, loaded := true } e := by
  obtain ⟨rfl, rfl, hsame⟩ := h.unread hunread
  have hcalm := calm_of_readFile hread
  rw [readFile_of_calm _ hcalm] at hread
  obtain ⟨hfile, rfl⟩ := Prod.mk.inj hread
  have hcontents : d.access.2.contents path = first.contents path :=
    (Disk.contents_access d path).trans hsame
  have hfirst : (new path separator).fileOf (first.contents path) = .ok file := by
    rw [← hsame]
    exact hfile
  exact ⟨nofun, rfl, fun _ => ⟨file, hfirst, rfl, fun _ => ⟨rfl, hcontents⟩⟩,
    fun _ _ => saved_of_fileOf hfirst hcontents⟩

/-- The file in memory is edited. -/
theorem amend (h : Traced path separator first edits s d) (hloaded : s.loaded = true)
    (more : List Keyfile.Edit) :
    Traced path separator first (edits ++ more) (more.foldl KeyfileStore.amend s) d := by
  obtain ⟨hfile, hsame, hpath⟩ := amendAll s more
  refine ⟨fun hunread => ?_, hpath.trans h.path_eq, fun _ => ?_, fun _ hclean => ?_⟩
  · rw [hsame, hloaded] at hunread
    cases hunread
  · obtain ⟨file, hfirst, hedits, hidle⟩ := h.read hloaded
    refine ⟨file, hfirst, ?_, fun hall => ?_⟩
    · rw [hfile, hedits, List.foldl_append]
    · obtain ⟨hbefore, hmore⟩ := List.forall_mem_append.mp hall
      have hunchanged : s.file = file := hedits.trans (editAll_of_idle hbefore)
      rw [amendAll_of_idle (s := s) (by rwa [hunchanged])]
      exact hidle hbefore
  · have hunchanged := amendAll_of_clean hclean
    rw [hunchanged] at hclean ⊢
    exact h.saved hloaded hclean

/-- A store that is marked has seen an edit that changed the file. -/
theorem edited (h : Traced path separator first edits s d) (hloaded : s.loaded = true)
    (hdirty : s.dirty = true) :
    ∃ file, (new path separator).fileOf (first.contents path) = .ok file ∧
      s.file = edits.foldl Keyfile.edit file ∧ ¬∀ e ∈ edits, file.edit e = file := by
  obtain ⟨file, hfirst, hedits, hidle⟩ := h.read hloaded
  refine ⟨file, hfirst, hedits, fun hall => ?_⟩
  rw [(hidle hall).1] at hdirty
  cases hdirty

theorem commit (h : Traced path separator first edits s d) :
    Traced path separator first edits (s.commit d).store (s.commit d).disk := by
  rcases s.commit_cases d with ⟨-, hcommit⟩ | ⟨hloaded, hdirty, hwrite⟩
  · rwa [hcommit]
  obtain ⟨file, hfirst, hedits, hbusy⟩ := h.edited hloaded hdirty
  rcases hwrite with ⟨e, hcommit, hcontents⟩ | ⟨fault, e, hcommit, -⟩
  · rw [hcommit]
    refine ⟨fun hunread => ?_, h.path_eq, fun _ => ⟨file, hfirst, hedits, fun hall => ?_⟩,
      fun _ _ => Or.inl ?_⟩
    · rw [hloaded] at hunread
      cases hunread
    · exact absurd hall hbusy
    · rw [← h.path_eq]
      exact hcontents
  · rw [hcommit]
    refine ⟨fun hunread => ?_, h.path_eq, fun _ => ⟨file, hfirst, hedits, fun hall => ?_⟩,
      fun _ hclean => ?_⟩
    · rw [hloaded] at hunread
      cases hunread
    · exact absurd hall hbusy
    · rw [hdirty] at hclean
      cases hclean

theorem ask (h : Traced path separator first edits s d) (call : StoreCall) :
    Traced path separator first (edits ++ s.accepted d call) (s.ask d call).store
      (s.ask d call).disk := by
  by_cases hcall : call = .commit
  · subst hcall
    have hnone : s.accepted d .commit = [] := by
      unfold accepted
      split <;> rfl
    rw [hnone, List.append_nil]
    exact h.commit
  · cases hloaded : s.loaded with
    | true =>
        obtain ⟨hdisk, hstore⟩ := ask_of_loaded hloaded d hcall
        rw [hdisk, hstore]
        exact h.amend hloaded _
    | false =>
        rcases ensureLoaded_cases hloaded d with ⟨file, hread, hensure⟩ | ⟨fault, -, hensure⟩
        · have hasked := ask_of_ensureLoaded hensure hcall
          have hloadedNow := loaded_of_ensureLoaded hensure
          obtain ⟨hdisk, hstore⟩ := ask_of_loaded hloadedNow d.access.2 hcall
          rw [accepted, hasked, hdisk, hstore]
          exact (h.load hloaded hread).amend hloadedNow _
        · have hasked := ask_of_unreadable hensure hcall
          rw [accepted, hasked]
          dsimp only
          rw [List.append_nil]
          exact h.elsewhere (Disk.contents_access d path)

end Traced

theorem Session.traced (h : Session path separator first edits s d) :
    Traced path separator first edits s d := by
  induction h with
  | start => exact Traced.start path separator first
  | call _ call ih => exact ih.ask call
  | elsewhere _ _ hsame ih => exact ih.elsewhere hsame

/-! ### The text of a file in memory -/

/-- What is made of a text, or of nothing, has valid names and values. -/
theorem wellFormed_of_fileOf {file : Keyfile} {found : Except DiskFault String}
    (h : (new path separator).fileOf found = .ok file) :
    file.WellFormed ∧ file.separator = separator := by
  unfold fileOf at h
  split at h
  next text =>
    cases hparse : Keyfile.parse text (new path separator).file.separator with
    | ok parsed =>
        rw [hparse] at h
        cases h
        exact Keyfile.wellFormed_of_parse hparse
    | error fault =>
        rw [hparse] at h
        cases h
  next =>
    cases h
    exact ⟨Keyfile.wellFormed_new separator, rfl⟩
  next => cases h

theorem wellFormed_editAll {file : Keyfile} (h : file.WellFormed ∧ file.separator = separator)
    (edits : List Keyfile.Edit) :
    (edits.foldl Keyfile.edit file).WellFormed ∧
      (edits.foldl Keyfile.edit file).separator = separator :=
  List.foldlRecOn (motive := fun f => f.WellFormed ∧ f.separator = separator) edits Keyfile.edit h
    fun f hf e _ => ⟨hf.1.edit e, (f.separator_edit e).trans hf.2⟩

/-- The text of a file in memory is read again as the same file, with its values settled. -/
theorem Session.parse_toData (h : Session path separator first edits s d)
    (hloaded : s.loaded = true) : Keyfile.parse s.file.toData separator = .ok s.file.settled := by
  obtain ⟨file, hread, hedits, -⟩ := h.traced.read hloaded
  obtain ⟨hwell, hseparator⟩ := wellFormed_editAll (wellFormed_of_fileOf hread) edits
  rw [← hedits] at hwell hseparator
  rw [← hseparator]
  exact Keyfile.parse_toData hwell

/-! ### The mark -/

/-- What can be relied on at any time of a session. -/
structure Sound (path : String) (separator : Char) (first : Disk) (edits : List Keyfile.Edit)
    (s : KeyfileStore) (d : Disk) : Prop where
  /-- As long as nothing has been read, nothing has been accepted. -/
  unread : s.loaded = false → s = new path separator ∧ edits = []
  /-- A store that is not marked is saved. -/
  saved : s.loaded = true → s.dirty = false → Saved path separator first d s.file
  /-- The file in memory is what was read, with every accepted edit made. -/
  file_eq : s.loaded = true → ∃ file,
    (new path separator).fileOf (first.contents path) = .ok file ∧
      s.file = edits.foldl Keyfile.edit file
  /-- Without a mark, or without a file, a commit touches neither store nor disk. -/
  commit_idle : s.loaded = false ∨ s.dirty = false → s.commit d = ⟨.ok true, s, d⟩
  /-- The mark is not set, and the path holds what it did, unless an edit has changed the
  file that was read. -/
  unmarked : (∀ file, (new path separator).fileOf (first.contents path) = .ok file →
      ∀ e ∈ edits, file.edit e = file) →
    s.dirty = false ∧ d.contents path = first.contents path
  /-- After a commit that succeeds the same file is saved, and if the store was marked its
  text is at the path, where it is read as this file with its values settled. -/
  commit_ok : ∀ answer, (s.commit d).answer = .ok answer → s.loaded = true →
    (s.commit d).store = { s with dirty := false } ∧
      Saved path separator first (s.commit d).disk s.file ∧
      (s.dirty = true → (s.commit d).disk.contents path = .ok s.file.toData ∧
        Keyfile.parse s.file.toData separator = .ok s.file.settled)
  /-- After a commit that fails the store is marked as before, and the text at the path
  is intact. -/
  commit_error : ∀ fault, (s.commit d).answer = .error fault →
    (s.commit d).store = s ∧ s.dirty = true ∧ d.Intact path (s.commit d).disk

/-- Whatever calls are made on a store and whichever accesses to the disk fail, its mark
is sound. -/
theorem Session.mark_sound (h : Session path separator first edits s d) :
    Sound path separator first edits s d where
  unread hunread := by
    obtain ⟨hnew, hnone, -⟩ := h.traced.unread hunread
    exact ⟨hnew, hnone⟩
  saved := h.traced.saved
  file_eq hloaded := by
    obtain ⟨file, hfirst, hedits, -⟩ := h.traced.read hloaded
    exact ⟨file, hfirst, hedits⟩
  commit_idle hidle := if_pos hidle
  unmarked hall := by
    cases hloaded : s.loaded with
    | false =>
        obtain ⟨rfl, -, hsame⟩ := h.traced.unread hloaded
        exact ⟨rfl, hsame⟩
    | true =>
        obtain ⟨file, hfirst, -, hidle⟩ := h.traced.read hloaded
        exact hidle (hall file hfirst)
  commit_ok answer hanswer hloaded := by
    rcases s.commit_cases d with
      ⟨hidle, hcommit⟩ | ⟨-, hdirty, ⟨e, hcommit, hcontents⟩ | ⟨fault, e, hcommit, -⟩⟩
    · have hclean : s.dirty = false := hidle.resolve_left (by simp [hloaded])
      have hsame : s = { s with dirty := false } := by rw [← hclean]
      rw [hcommit]
      refine ⟨hsame, h.traced.saved hloaded hclean, fun hdirty => ?_⟩
      rw [hclean] at hdirty
      cases hdirty
    · rw [h.traced.path_eq] at hcontents
      rw [hcommit]
      exact ⟨rfl, Or.inl hcontents, fun _ => ⟨hcontents, h.parse_toData hloaded⟩⟩
    · rw [hcommit] at hanswer
      cases hanswer
  commit_error fault hanswer := by
    rcases s.commit_cases d with
      ⟨-, hcommit⟩ | ⟨-, hdirty, ⟨e, hcommit, -⟩ | ⟨fault, e, hcommit, hintact⟩⟩
    · rw [hcommit] at hanswer
      cases hanswer
    · rw [hcommit] at hanswer
      cases hanswer
    · rw [h.traced.path_eq] at hintact
      rw [hcommit]
      exact ⟨rfl, hdirty, hintact⟩

/-- The draft cannot be written: the new account is still to be saved, and the file that
was read is intact. -/
theorem Session.mark_sound_outage :
    let first : Disk :=
      { Disk.empty.mount "a.cfg" (.text "[g]\n") with outages := [false, true] }
    let created := (new "a.cfg" ',').ask first (.create "h")
    let reply := created.store.commit created.disk
    reply.store.dirty = true ∧ reply.disk.contents "a.cfg" = .ok "[g]\n" := by
  intro first created reply
  have hsession : Session "a.cfg" ',' first _ created.store created.disk :=
    Session.start.call (.create "h")
  have hcontents : created.disk.contents "a.cfg" = .ok "[g]\n" :=
    Except.eq_ok_of_toOption (by decide +kernel)
  have hfails : reply.answer.toOption = none := by decide +kernel
  cases hanswer : reply.answer with
  | ok answer =>
      rw [hanswer] at hfails
      cases hfails
  | error fault =>
      obtain ⟨hstore, hdirty, hintact⟩ := hsession.mark_sound.commit_error fault hanswer
      rw [hstore]
      exact ⟨hdirty, hintact.kept _ hcontents⟩

/-! ### Reading a saved file -/

/-- A store that reads the file of an unmarked one finds the same entries, as far as they
are there or not. -/
theorem Session.read_back (h : Session path separator first edits s d) (hloaded : s.loaded = true)
    (hclean : s.dirty = false) :
    ∃ file, (new path separator).fileOf (d.contents path) = .ok file ∧
      ∀ group key, file.value? group key = none ↔ s.file.value? group key = none := by
  rcases h.traced.saved hloaded hclean with
    hwritten | ⟨text, -, htext, hparse⟩ | ⟨hmissing, hempty⟩
  · refine ⟨s.file.settled, ?_, fun group key => ?_⟩
    · rw [hwritten]
      exact congrArg liftCodec (h.parse_toData hloaded)
    · rw [Keyfile.value?_settled, Option.map_eq_none_iff]
  · refine ⟨s.file, ?_, fun _ _ => Iff.rfl⟩
    rw [htext]
    exact congrArg liftCodec hparse
  · refine ⟨s.file, ?_, fun _ _ => Iff.rfl⟩
    rw [hmissing, hempty]
    rfl

end KeyfileStore

end AccountRoster
