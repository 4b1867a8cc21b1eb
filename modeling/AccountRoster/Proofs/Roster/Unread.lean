import AccountRoster.Proofs.Roster.Neighbours

/-!
# A key-file that cannot be read is left alone

As long as no read of its file has succeeded, a key-file store is as it was at first. No
call on it changes anything on the disk, it owns no account, and it creates none, whoever
calls it and whatever else is done with the roster.

## Implementation notes

That a store writes nothing is said by what everything else keeps: any property of the
world that no other plugin makes false is still true. A read is an access, and may use up
an outage of the disk, so that the property must not speak of these.
-/

namespace AccountRoster

variable {ε : Type}

/-- Nothing is asked of the outages that are to come. -/
def World.Steady (J : World ε → Prop) : Prop :=
  ∀ (w : World ε) (outages : List Bool), J w → J { w with disk := { w.disk with outages } }

/-- The store in a slot has been read, or is as it was at first and something is true. -/
def World.Unspoiled (path : String) (separator : Char) (slot : Nat) (J : World ε → Prop)
    (w : World ε) : Prop :=
  (w.keyfiles slot).loaded = false →
    w.keyfiles slot = KeyfileStore.new path separator ∧ J w

namespace KeyfileStore

variable {s : KeyfileStore} {d : Disk} {call : StoreCall}

theorem loaded_ask (h : s.loaded = true) (d : Disk) (call : StoreCall) :
    (s.ask d call).store.loaded = true := by
  by_cases hcall : call = .commit
  · subst hcall
    exact loaded_commit h d
  · obtain ⟨-, hstore⟩ := ask_of_loaded h d hcall
    rw [hstore, (amendAll s _).2.1, h]

/-- A call on a store that has not been read leaves it so and the disk as it is, and
fails unless it is a commit; or it reads the file. -/
theorem ask_of_unread (h : s.loaded = false) (d : Disk) (call : StoreCall) :
    ((call = .commit ∨ (¬s.Readable d ∧ ∃ e, (s.ask d call).answer = .error e)) ∧
        (s.ask d call).store = s ∧
        ∃ outages, (s.ask d call).disk = { d with outages }) ∨
      (call ≠ .commit ∧ s.Readable d ∧ (s.ask d call).store.loaded = true) := by
  by_cases hcall : call = .commit
  · subst hcall
    have hcommit : s.ask d .commit = ⟨.ok (), s, d⟩ := by
      rw [ask, commit_of_unread h]
      rfl
    rw [hcommit]
    exact Or.inl ⟨Or.inl rfl, rfl, d.outages, rfl⟩
  · rcases ensureLoaded_cases h d with ⟨file, hread, hensure⟩ | ⟨e, hread, hensure⟩
    · have hloaded := loaded_of_ensureLoaded hensure
      rw [ask_of_ensureLoaded hensure hcall]
      exact Or.inr ⟨hcall, readable_of_readFile hread, loaded_ask hloaded _ call⟩
    · rw [ask_of_unreadable hensure hcall]
      refine Or.inl ⟨Or.inr ⟨fun hreadable => ?_, e, rfl⟩, rfl, d.access.2.outages, rfl⟩
      obtain ⟨file, e', hread', -⟩ := hreadable.exists_wellFormed
      rw [hread] at hread'
      cases hread'

end KeyfileStore

namespace World.Unspoiled

variable {path : String} {separator : Char} {slot : Nat} {J : World ε → Prop} {w w' : World ε}

/-- What leaves the store alone keeps it unspoiled, if it keeps what is true of the world. -/
theorem of_eq (h : Unspoiled path separator slot J w) (hstore : w'.keyfiles slot = w.keyfiles slot)
    (hkept : J w → J w') : Unspoiled path separator slot J w' := by
  intro hunread
  rw [hstore] at hunread ⊢
  obtain ⟨hnew, hJ⟩ := h hunread
  exact ⟨hnew, hkept hJ⟩

/-- Every call on the store keeps it unspoiled. -/
theorem visit (hJ : World.Steady J) (h : Unspoiled path separator slot J w) (call : StoreCall) :
    Unspoiled path separator slot J (w.visit slot call) := by
  intro hunread
  rw [World.keyfiles_visit] at hunread ⊢
  have hbefore : (w.keyfiles slot).loaded = false := by
    cases hloaded : (w.keyfiles slot).loaded with
    | false => rfl
    | true =>
        rw [KeyfileStore.loaded_ask hloaded w.disk call] at hunread
        cases hunread
  obtain ⟨hnew, hholds⟩ := h hbefore
  rcases KeyfileStore.ask_of_unread hbefore w.disk call with
    ⟨-, hsame, outages, hdisk⟩ | ⟨-, -, hloaded⟩
  · refine ⟨hsame.trans hnew, ?_⟩
    have hworld : w.visit slot call = { w with disk := { w.disk with outages } } := by
      have hplain := w.afterKeyfile_same slot (.ok () : Except RosterError Unit)
      rw [World.visit, World.afterKeyfile, hsame, hdisk]
      exact congrArg (fun v : World ε => { v with disk := { w.disk with outages } }) hplain
    rw [hworld]
    exact hJ w outages hholds
  · rw [hloaded] at hunread
    cases hunread

end World.Unspoiled

/-! ### Everything that can happen around a store -/

/-- What operations on a roster and calls on a store lead to, in any order. All plugins
but the key-file leave its store alone and keep what is true of the world. -/
inductive Running.Surrounds (codec : Codec) (slot : Nat) (J : World ε → Prop)
    (s : Running (World ε)) : Running (World ε) → Prop
  | start : Surrounds codec slot J s s
  | operate {t : Running (World ε)} (h : Surrounds codec slot J s t)
      (operation : Operation (World ε))
      (hadmitted : operation.Admitted codec slot (fun _ _ => True) (fun w w' => J w → J w') t) :
      Surrounds codec slot J s (t.operate operation)
  /-- A call on the store that does not come from the roster. -/
  | visit {t : Running (World ε)} (h : Surrounds codec slot J s t) (call : StoreCall) :
      Surrounds codec slot J s ⟨t.roster, t.world.visit slot call⟩

/-- A plugin that keeps what is true of the world may push anything. -/
theorem Plugin.Keeps.tame {plugin : Plugin (World ε)} {J : World ε → Prop} (h : plugin.Keeps J)
    {slot : Nat} (hspares : plugin.Spares slot) (codec : Codec) :
    plugin.Tame codec slot (fun _ _ => True) fun w w' => J w → J w' where
  spares := hspares
  keeps _ := {
    list := fun c w' hw hJ => h.list c w' (hw hJ)
    get := fun c account key w' hw hJ => h.get c account key w' (hw hJ)
    set := fun c account key escaped w' hw hJ => h.set c account key escaped w' (hw hJ)
    setAttribute := fun c account name v w' hw hJ => h.setAttribute c account name v w' (hw hJ)
    setParameter := fun c account name v secret w' hw hJ =>
      h.setParameter c account name v secret w' (hw hJ)
    delete := fun c account key w' hw hJ => h.delete c account key w' (hw hJ)
    commit := fun c account w' hw hJ => h.commit c account w' (hw hJ)
    create := fun c manager protocol identification w' hw hJ =>
      h.create c manager protocol identification w' (hw hJ)
    ready := fun c w' hw hJ => h.ready c w' (hw hJ) }
  pushes _ _ _ _ _ _ := Or.inr fun _ _ _ _ _ _ _ _ => trivial

/-- An unread store is unspoiled, and the accounts of a read one are held in trust. -/
structure Aloof (codec : Codec) (path : String) (separator : Char) (slot : Nat)
    (J : World ε → Prop) (s : Running (World ε)) : Prop where
  custody : Custody codec slot (fun _ _ => True) (fun w w' => J w → J w') False s
  unspoiled : s.world.Unspoiled path separator slot J

namespace Aloof

variable {codec : Codec} {path : String} {separator : Char} {slot : Nat} {J : World ε → Prop}
  {s t : Running (World ε)}

theorem operate (hJ : World.Steady J) (h : Aloof codec path separator slot J s)
    (operation : Operation (World ε))
    (hadmitted : operation.Admitted codec slot (fun _ _ => True) (fun w w' => J w → J w') s) :
    Aloof codec path separator slot J (s.operate operation) where
  custody := h.custody.operate (upkeep_true codec) (fun _ hw => hw) operation hadmitted
  unspoiled := h.custody.holds (fun _ hw => hw) (fun _ _ hstore hkept hw => hw.of_eq hstore hkept)
    (KeyfileStore.keeps_of_visits fun _ call hw => hw.visit hJ call) h.unspoiled hadmitted

/-- A call on the store from elsewhere takes no file out of memory. -/
theorem visit (hJ : World.Steady J) (h : Aloof codec path separator slot J s) (call : StoreCall) :
    Aloof codec path separator slot J ⟨s.roster, s.world.visit slot call⟩ := by
  have htrust := h.custody.trust
  refine ⟨⟨h.custody.numbered, h.custody.sound, h.custody.plugins, h.custody.source,
    ⟨rfl, htrust.codec_eq, htrust.source, fun account record hrecord howned => ?_, False.elim⟩⟩,
    h.unspoiled.visit hJ call⟩
  obtain ⟨hloaded, -⟩ := htrust.related account record hrecord howned
  refine ⟨?_, trivial⟩
  rw [World.keyfiles_visit]
  exact KeyfileStore.loaded_ask hloaded _ call

theorem surrounds (hJ : World.Steady J) (h : Aloof codec path separator slot J s)
    (ht : s.Surrounds codec slot J t) : Aloof codec path separator slot J t := by
  induction ht with
  | start => exact h
  | operate _ operation hadmitted ih => exact ih.operate hJ operation hadmitted
  | visit _ call ih => exact ih.visit hJ call

end Aloof

/-- As long as no read of its file has succeeded, a key-file store is empty and unmarked.
What was true of the world and is kept by everything else is true. The store owns no
account; calls on it change nothing, and fail unless they are commits, until one of them
finds the file missing or readable; and an account that is created belongs to another
plugin. -/
theorem unread_left_alone {codec : Codec} {path : String} {separator : Char} {slot : Nat}
    {J : World ε → Prop} (hJ : World.Steady J) {w : World ε}
    (hnew : w.keyfiles slot = KeyfileStore.new path separator) (hw : J w) {s : Running (World ε)}
    (hs : (⟨Roster.new codec, w⟩ : Running (World ε)).Surrounds codec slot J s)
    (hunread : (s.world.keyfiles slot).loaded = false) :
    let store := s.world.keyfiles slot
    let keyfile := KeyfileStore.plugin ε slot
    store = KeyfileStore.new path separator ∧ J s.world ∧
    (∀ account, s.roster.owner? account ≠ some keyfile) ∧
    (∀ call : StoreCall, let reply := store.ask s.world.disk call
      ((call = .commit ∨ (¬store.Readable s.world.disk ∧ ∃ e, reply.answer = .error e)) ∧
        reply.store = store ∧ ∃ outages, reply.disk = { s.world.disk with outages }) ∨
      (call ≠ .commit ∧ store.Readable s.world.disk ∧ reply.store.loaded = true)) ∧
    ∀ provider manager protocol identification account,
      let reply := s.roster.create provider manager protocol identification s.world
      reply.answer = .ok account → (reply.world.keyfiles slot).loaded = false →
        ∃ plugin, reply.roster.owner? account = some plugin ∧ plugin ≠ keyfile := by
  intro store keyfile
  have hstart : Aloof codec path separator slot J ⟨Roster.new codec, w⟩ :=
    ⟨Custody.start codec slot _ _ w, fun _ => ⟨hnew, hw⟩⟩
  have haloof := hstart.surrounds hJ hs
  have howner {t : Running (World ε)} (ht : Aloof codec path separator slot J t)
      (hunread : (t.world.keyfiles slot).loaded = false) (account : String) :
      t.roster.owner? account ≠ some keyfile := by
    intro howner
    obtain ⟨-, -, hloaded, -⟩ := ht.custody.exists_record howner
    rw [hunread] at hloaded
    cases hloaded
  obtain ⟨hstore, hholds⟩ := haloof.unspoiled hunread
  refine ⟨hstore, hholds, howner haloof hunread,
    KeyfileStore.ask_of_unread hunread s.world.disk, ?_⟩
  intro provider manager protocol identification account reply hcreated hlater
  have hafter : Aloof codec path separator slot J reply.running :=
    haloof.operate hJ (.call (.create provider manager protocol identification)) trivial
  obtain ⟨-, p, -, hp⟩ := Roster.create_eq_ok hcreated
  obtain ⟨record, hrecord, -⟩ := Option.map_eq_some_iff.mp hp
  obtain ⟨-, plugin, hplugin⟩ := hafter.custody.sound account record hrecord
  have howned : reply.roster.owner? account = some plugin :=
    (Roster.owner?_eq_some_iff hafter.custody.ids_nodup hrecord).mpr hplugin
  refine ⟨plugin, howned, ?_⟩
  rintro rfl
  exact howner hafter hlater account howned

/-- A key-file with a line that is none is still what it was after other plugins have
loaded, an account was created and everything was committed. -/
theorem unread_left_alone_garbage :
    let garbage := "[idle/irc/bob0]\nNickname=bob\ngarbage line\n"
    let w := (World.new (Disk.empty.mount "a.cfg" (.text garbage)) ()).putKeyfile 0
      (KeyfileStore.new "a.cfg" ',')
    let start : Running (World Unit) := ⟨Roster.new {}, w⟩
    let s := start.operateAll [.register (KeyfileStore.plugin Unit 0),
      .register (MemoryStore.plugin Unit 0 { name := "memory" }), .load,
      .call (.create none "idle" "irc" "bob"), .call (.commit none)]
    s.world.disk.nodes ["a.cfg"] = some (.text garbage) ∧
      s.roster.owner? "idle/irc/bob0" ≠ some (KeyfileStore.plugin Unit 0) := by
  intro garbage w start s
  let J : World Unit → Prop := fun w => w.disk.nodes ["a.cfg"] = some (.text garbage)
  have hmemory (slot : Nat) (settings : MemorySettings) :
      (MemoryStore.plugin Unit slot settings).Tame {} 0 (fun _ _ => True) fun w w' => J w → J w' :=
    Plugin.Keeps.tame (MemoryStore.keeps (fun _ _ _ h => h) slot settings)
      (MemoryStore.spares 0 slot settings) {}
  have hs : start.Surrounds {} 0 J s :=
    ((((Running.Surrounds.start.operate
      (.register (KeyfileStore.plugin Unit 0)) (Or.inl rfl)).operate
      (.register (MemoryStore.plugin Unit 0 { name := "memory" })) (Or.inr (hmemory 0 _))).operate
      .load trivial).operate (.call (.create none "idle" "irc" "bob")) trivial).operate
      (.call (.commit none)) trivial
  obtain ⟨-, hkept, howner, -⟩ := unread_left_alone (J := J) (fun _ _ h => h) rfl
    (by decide +kernel) hs (by decide +kernel)
  exact ⟨hkept, howner "idle/irc/bob0"⟩

end AccountRoster
