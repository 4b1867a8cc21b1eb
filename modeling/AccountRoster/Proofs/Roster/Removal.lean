import AccountRoster.Proofs.Roster.Neighbours

/-!
# Removals reach the key-file

A removal is passed on to the owner of an account only if the cache has something to
remove. What a key-file stores of its accounts must therefore be cached, and is, but for
texts that are no attribute of their type: these were dropped when they were loaded, and
a removal finds nothing and leaves them in the file.

## Implementation notes

`Record.Covers` says what is cached of a group, in one direction only. The other one
fails, since a value may be too much for a key-file and is cached all the same. This is all
that the file in memory depends on, whatever happens on the disk. That the file on the disk
follows is read off the session of the store, and takes that nothing else writes there.
-/

namespace AccountRoster

variable {ε : Type}

/-- What a group holds is cached, unless it is no attribute of its type. -/
structure Record.Covers (codec : Codec) (record : Record) (entries : Dict String) : Prop where
  attributes : ∀ name text, FlatKey.isParameter name = false →
    record.attributes.get? name = none → entries.get? name = some text →
    codec.readAttribute name text = none
  parameters : ∀ name, record.parameterText? codec name = none →
    entries.get? (FlatKey.ofParameter name) = none

namespace Record.Covers

variable {codec : Codec} {record : Record} {entries : Dict String}

theorem ofEntries (codec : Codec) (owner : Nat) (entries : Dict String) :
    (Record.ofEntries codec owner entries).Covers codec entries where
  attributes name text hname hnone htext := by
    rw [attributes_ofEntries, Codec.attributeOf, hname, htext] at hnone
    exact hnone
  parameters name hnone := by
    rwa [parameterText?_ofEntries] at hnone

/-- An attribute is put into the record, and whatever is then stored of it is read
already. -/
theorem putAttribute (h : record.Covers codec entries) {name : String}
    (hname : FlatKey.isParameter name = false) {value : Option Value} {stored : Dict String}
    (hstored : value = none → stored.get? name = none)
    (hothers : ∀ other, name ≠ other → stored.get? other = entries.get? other) :
    (record.putAttribute name value).Covers codec stored where
  attributes other text hother hnone htext := by
    rw [attributes_putAttribute] at hnone
    by_cases heq : name = other
    · subst heq
      rw [if_pos rfl] at hnone
      rw [hstored hnone] at htext
      cases htext
    · rw [if_neg heq] at hnone
      rw [hothers other heq] at htext
      exact h.attributes other text hother hnone htext
  parameters parameter hnone := by
    rw [hothers _ (FlatKey.ne_ofParameter hname parameter)]
    exact h.parameters parameter hnone

theorem putTyped (h : record.Covers codec entries) {name : String} {value : Option Value}
    {stored : Dict String}
    (hstored : value = none → stored.get? (FlatKey.ofParameter name) = none)
    (hothers : ∀ other, FlatKey.ofParameter name ≠ other →
      stored.get? other = entries.get? other) :
    (record.putTyped name value).Covers codec stored where
  attributes other text hother hnone htext := by
    rw [hothers other (FlatKey.ne_ofParameter hother name).symm] at htext
    exact h.attributes other text hother hnone htext
  parameters other hnone := by
    rw [parameterText?_putTyped] at hnone
    by_cases heq : name = other
    · subst heq
      rw [if_pos rfl, Option.map_eq_none_iff] at hnone
      exact hstored hnone
    · rw [if_neg heq] at hnone
      rw [hothers _ fun hsame => heq (FlatKey.ofParameter_injective hsame)]
      exact h.parameters other hnone

end Record.Covers

theorem upkeep_covers (codec : Codec) : Upkeep codec (Record.Covers codec) where
  entered := Record.Covers.ofEntries codec
  removed_attribute record entries name hname h :=
    h.putAttribute hname (fun _ => Dict.get?_erase_self entries name) fun other hne => by
      rw [Dict.get?_erase, if_neg hne]
  removed_parameter record entries name h :=
    h.putTyped (fun _ => Dict.get?_erase_self entries _) fun other hne => by
      rw [Dict.get?_erase, if_neg hne]
  set_attribute record entries name v hname h :=
    ⟨h.putAttribute hname nofun fun _ _ => rfl,
      h.putAttribute hname nofun fun other hne => by rw [Dict.get?_insert, if_neg hne]⟩
  set_parameter record entries name v h :=
    ⟨h.putTyped nofun fun _ _ => rfl,
      h.putTyped nofun fun other hne => by rw [Dict.get?_insert, if_neg hne]⟩
  secret record entries name h := ⟨h.attributes, h.parameters⟩

/-! ### What a removal comes to -/

namespace Roster

variable {W : Type} {r : Roster W} {w : W} {account name : String} {answer : Bool}

/-- There is nothing to remove, or the owner is told to remove the attribute. -/
theorem setAttribute_none_cases (h : (r.setAttribute account name none w).answer = .ok answer) :
    ∃ record, FlatKey.isParameter name = false ∧ r.cache.record? account = some record ∧
      ((record.attributes.get? name = none ∧ answer = false ∧
          (r.setAttribute account name none w).running = ⟨r, w⟩) ∨
        ∃ later, later.owner = record.owner ∧
          (r.setAttribute account name none w).running =
            ⟨{ r with cache := r.cache.insert account later },
              ({ r with cache := r.cache.insert account later } : Roster W).dispatch
                { account, key := name, value := none } w⟩) := by
  obtain ⟨record, new, hname, hrecord, hnew, ⟨hagrees, hreply⟩ | hreply⟩ := setAttribute_cases h
  · cases hnew
    rw [hreply] at h
    cases h
    refine ⟨record, hname, hrecord, Or.inl ⟨?_, rfl, by rw [hreply]; rfl⟩⟩
    cases hvalue : record.attributes.get? name with
    | none => rfl
    | some old =>
        rw [hvalue] at hagrees
        cases hagrees
  · cases hnew
    exact ⟨record, hname, hrecord, Or.inr ⟨record.putAttribute name none, rfl, by rw [hreply]; rfl⟩⟩

/-- There is nothing to remove, or the owner is told to remove the parameter. -/
theorem setParameter_none_cases (h : (r.setParameter account name none w).answer = .ok answer) :
    ∃ record, r.cache.record? account = some record ∧
      ((record.parameterText? r.cache.codec name = none ∧
          (r.setParameter account name none w).running = ⟨r, w⟩) ∨
        ∃ later secret, later.owner = record.owner ∧
          (r.setParameter account name none w).running =
            ⟨{ r with cache := r.cache.insert account later },
              ({ r with cache := r.cache.insert account later } : Roster W).dispatch
                { account, key := FlatKey.ofParameter name, value := none, secret } w⟩) := by
  obtain ⟨record, hrecord, ⟨hsame, hreply⟩ | hreply⟩ := setParameter_cases h
  · refine ⟨record, hrecord, Or.inl ⟨?_, by rw [hreply]; rfl⟩⟩
    rcases Cache.changesParameter_eq_false hsame with ⟨old, new, -, hnew, -⟩ | ⟨htyped, hescaped⟩
    · cases hnew
    · rw [Record.parameterText?, htyped]
      exact hescaped
  · exact ⟨record, hrecord, Or.inr ⟨record.putTyped name none, _, rfl, by rw [hreply]; rfl⟩⟩

end Roster

/-- Since a roster was new, nothing but the key-file in a slot can have changed what its path
holds. What keeps all others from it may depend on the world: it was true at first, and the
others keep it true, as does the key-file. -/
def Running.SoleWriter (codec : Codec) (path : String) (slot : Nat) (w : World ε)
    (s : Running (World ε)) : Prop :=
  ∃ J : World ε → Prop, J w ∧ (KeyfileStore.plugin ε slot).Keeps J ∧
    (⟨Roster.new codec, w⟩ : Running (World ε)).Reaches codec slot (Record.Covers codec)
      (World.SparesFile J path) s

/-- The file in memory has no entry under a key. If nothing else writes to its path, the
file that is there after a commit has none either, unless the commit leaves a mark. -/
structure Reply.Removed (sole : Prop) (path : String) (separator : Char) (slot : Nat)
    (account key : String) {α : Type} (reply : Reply (World ε) α) : Prop where
  memory : (reply.world.keyfiles slot).file.value? account key = none
  disk : sole → ∀ target, let later := reply.roster.commit target reply.world
    (later.keyfiles slot).dirty = false → ∃ file,
      (KeyfileStore.new path separator).fileOf (later.disk.contents path) = .ok file ∧
        file.value? account key = none

/-- The key-file is told of a removal, and removes the entry. -/
theorem Custody.dispatch_none {codec : Codec} {slot : Nat} {R : Record → Dict String → Prop}
    {allowed : World ε → World ε → Prop} {complete : Prop} {s : Running (World ε)}
    (h : Custody codec slot R allowed complete s) {account : String}
    (howner : s.roster.owner? account = some (KeyfileStore.plugin ε slot)) {record later : Record}
    (hrecord : s.roster.cache.record? account = some record) (hsame : later.owner = record.owner)
    (key : String) (secret : Bool) :
    let w := ({ s.roster with cache := s.roster.cache.insert account later } :
      Roster (World ε)).dispatch { account, key, value := none, secret } s.world
    (w.keyfiles slot).loaded = true ∧ (w.keyfiles slot).file.value? account key = none := by
  intro w
  obtain ⟨-, -, hloaded, -⟩ := h.exists_record howner
  have hfollows : Follows slot s.world w _ :=
    h.follows_dispatch (u := { account, key, value := none, secret }) howner hrecord hsame
  refine ⟨hfollows.store.loaded_eq.trans hloaded, ?_⟩
  rw [hfollows.store.file_eq, Keyfile.updated, Keyfile.value?_removeKey, if_pos ⟨rfl, rfl⟩]

/-! ### The store on the way -/

/-- Something is true of the world, and what was done with the store in a slot was a
session. -/
def World.InSession (J : World ε → Prop) (path : String) (separator : Char) (slot : Nat)
    (first : Disk) (w : World ε) : Prop :=
  J w ∧ ∃ edits, KeyfileStore.Session path separator first edits (w.keyfiles slot) w.disk

namespace World.InSession

variable {J : World ε → Prop} {path : String} {separator : Char} {slot : Nat} {first : Disk}

theorem start {w : World ε} (hJ : J w) (hnew : w.keyfiles slot = KeyfileStore.new path separator) :
    InSession J path separator slot w.disk w := by
  refine ⟨hJ, [], ?_⟩
  rw [hnew]
  exact KeyfileStore.Session.start

/-- A session goes on elsewhere as long as the file is spared. -/
theorem lasting : World.Lasting slot (World.SparesFile J path)
    (InSession J path separator slot first) := by
  rintro w w' hstore hspares ⟨hJ, edits, hsession⟩
  obtain ⟨hJ', hsame⟩ := hspares hJ
  refine ⟨hJ', edits, ?_⟩
  rw [hstore]
  exact hsession.elsewhere w'.disk hsame

/-- Calls on the store go on with its session. -/
theorem keeps (hJ : (KeyfileStore.plugin ε slot).Keeps J) :
    (KeyfileStore.plugin ε slot).Keeps (InSession J path separator slot first) := by
  refine hJ.and (KeyfileStore.keeps_of_visits ?_)
  rintro w call ⟨edits, hsession⟩
  rw [World.keyfiles_visit]
  exact ⟨_, hsession.call call⟩

end World.InSession

/-- The store of a key-file is in session, and its plugin keeps what spares the file. -/
structure Attended (codec : Codec) (path : String) (separator : Char) (slot : Nat)
    (J : World ε → Prop) (first : Disk) (s : Running (World ε)) : Prop where
  keeps : (KeyfileStore.plugin ε slot).Keeps J
  custody : Custody codec slot (Record.Covers codec) (World.SparesFile J path) False s
  session : s.world.InSession J path separator slot first

namespace Attended

variable {codec : Codec} {path : String} {separator : Char} {slot : Nat} {J : World ε → Prop}
  {first : Disk} {s t : Running (World ε)} {account : String}

theorem operate (h : Attended codec path separator slot J first s)
    (operation : Operation (World ε))
    (hadmitted : operation.Admitted codec slot (Record.Covers codec) (World.SparesFile J path) s) :
    Attended codec path separator slot J first (s.operate operation) where
  keeps := h.keeps
  custody := h.custody.operate (upkeep_covers codec) (World.sparesFile_refl J path) operation
    hadmitted
  session := h.custody.holds (World.sparesFile_refl J path) World.InSession.lasting
    (World.InSession.keeps h.keeps) h.session hadmitted

theorem reaches (h : Attended codec path separator slot J first s)
    (ht : s.Reaches codec slot (Record.Covers codec) (World.SparesFile J path) t) :
    Attended codec path separator slot J first t := by
  induction ht with
  | start => exact h
  | step _ operation hadmitted ih => exact ih.operate operation hadmitted

/-- An entry that is gone from the file in memory is gone from the disk after a commit. -/
theorem commit_removes (h : Attended codec path separator slot J first s)
    (hloaded : (s.world.keyfiles slot).loaded = true) {key : String}
    (hmemory : (s.world.keyfiles slot).file.value? account key = none) (target : Option String) :
    let later := s.roster.commit target s.world
    (later.keyfiles slot).dirty = false → ∃ file,
      (KeyfileStore.new path separator).fileOf (later.disk.contents path) = .ok file ∧
        file.value? account key = none := by
  intro later hclean
  obtain ⟨-, edits, hsession⟩ := (h.operate (.call (.commit target)) trivial).session
  obtain ⟨hstays, hfile⟩ := Trust.undisturbed_commit h.custody.plugins rfl target s.world hloaded
  obtain ⟨file, hread, hsame⟩ := hsession.read_back hstays hclean
  refine ⟨file, hread, (hsame account key).mpr ?_⟩
  change (later.keyfiles slot).file.value? account key = none
  rw [hfile]
  exact hmemory

end Attended

/-- What nothing else has written to is still attended to after a further call. -/
theorem Running.SoleWriter.attended {codec : Codec} {path : String} {separator : Char}
    {slot : Nat} {w : World ε} (hnew : w.keyfiles slot = KeyfileStore.new path separator)
    {s : Running (World ε)} (h : s.SoleWriter codec path slot w) (call : Call) :
    ∃ J, Attended codec path separator slot J w.disk (s.operate (.call call)) := by
  obtain ⟨J, hJ, hkeeps, hs⟩ := h
  have hstart : Attended codec path separator slot J w.disk ⟨Roster.new codec, w⟩ :=
    ⟨hkeeps, Custody.start codec slot _ _ w, World.InSession.start hJ hnew⟩
  exact ⟨J, (hstart.reaches hs).operate (.call call) trivial⟩

/-- A removal that has left no entry in memory is complete. -/
theorem Reply.removed_of_memory {codec : Codec} {path : String} {separator : Char} {slot : Nat}
    {first : Disk} {sole : Prop} {α : Type} {reply : Reply (World ε) α}
    (hsole : sole → ∃ J, Attended codec path separator slot J first reply.running)
    {w : World ε} (hworld : reply.world = w) (hloaded : (w.keyfiles slot).loaded = true)
    {account key : String} (hmemory : (w.keyfiles slot).file.value? account key = none) :
    reply.Removed sole path separator slot account key := by
  subst hworld
  refine ⟨hmemory, fun hs target => ?_⟩
  obtain ⟨J, hattended⟩ := hsole hs
  exact hattended.commit_removes hloaded hmemory target

/-- Whatever was done since a roster was new, by plugins that leave the store of a key-file
alone and push only what they are asked for or what does no harm: a removal that succeeds
for an account of the key-file has removed the entry from the file in memory, whether or not
there was one, and if nothing else writes to its path, a commit removes it from the disk. The
one exception is an entry whose text is no attribute of its type: to the cache it is not
there, and it stays. -/
theorem removal_reaches_keyfile {codec : Codec} {path : String} {separator : Char} {slot : Nat}
    {w : World ε} (hnew : w.keyfiles slot = KeyfileStore.new path separator)
    {s : Running (World ε)}
    (hs : (⟨Roster.new codec, w⟩ : Running (World ε)).Reaches codec slot (Record.Covers codec)
      (fun _ _ => True) s)
    {account : String} (howner : s.roster.owner? account = some (KeyfileStore.plugin ε slot)) :
    let sole := s.SoleWriter codec path slot w
    (∀ name answer, let reply := s.roster.setAttribute account name none s.world
      reply.answer = .ok answer →
        reply.Removed sole path separator slot account name ∨
        (answer = false ∧ reply.running = s ∧
          ∃ text, (s.world.keyfiles slot).file.value? account name = some text ∧
            codec.readAttribute name text = none)) ∧
    ∀ name answer, let reply := s.roster.setParameter account name none s.world
      reply.answer = .ok answer →
        reply.Removed sole path separator slot account (FlatKey.ofParameter name) := by
  intro sole
  have hcustody := (Custody.start codec slot (Record.Covers codec) (fun _ _ => True) w).reaches
    (upkeep_covers codec) (fun _ => trivial) hs
  obtain ⟨record, hrecord, hloaded, hcovers⟩ := hcustody.exists_record howner
  constructor
  · intro name answer reply hanswer
    have hsole (h : sole) : ∃ J, Attended codec path separator slot J w.disk reply.running :=
      h.attended hnew (.setAttribute account name none)
    obtain ⟨found, hname, hfound, hcases⟩ := Roster.setAttribute_none_cases hanswer
    obtain rfl : record = found := Option.some_inj.mp (hrecord.symm.trans hfound)
    rcases hcases with ⟨hnone, hfalse, hsame⟩ | ⟨later, hlater, hrunning⟩
    · have hworld : reply.world = s.world := congrArg Running.world hsame
      cases htext : (s.world.keyfiles slot).file.value? account name with
      | none => exact Or.inl (Reply.removed_of_memory hsole hworld hloaded htext)
      | some text =>
          exact Or.inr ⟨hfalse, hsame, text, rfl, hcovers.attributes name text hname hnone htext⟩
    · have hworld : reply.world = _ := congrArg Running.world hrunning
      obtain ⟨hstays, hgone⟩ := hcustody.dispatch_none howner hrecord hlater name false
      exact Or.inl (Reply.removed_of_memory hsole hworld hstays hgone)
  · intro name answer reply hanswer
    have hsole (h : sole) : ∃ J, Attended codec path separator slot J w.disk reply.running :=
      h.attended hnew (.setParameter account name none)
    obtain ⟨found, hfound, hcases⟩ := Roster.setParameter_none_cases hanswer
    obtain rfl : record = found := Option.some_inj.mp (hrecord.symm.trans hfound)
    rcases hcases with ⟨hnone, hsame⟩ | ⟨later, secret, hlater, hrunning⟩
    · have hworld : reply.world = s.world := congrArg Running.world hsame
      rw [hcustody.trust.codec_eq] at hnone
      exact Reply.removed_of_memory hsole hworld hloaded (hcovers.parameters name hnone)
    · have hworld : reply.world = _ := congrArg Running.world hrunning
      obtain ⟨hstays, hgone⟩ := hcustody.dispatch_none howner hrecord hlater
        (FlatKey.ofParameter name) secret
      exact Reply.removed_of_memory hsole hworld hstays hgone

/-- Beside an in-process store, and a key-file of the same name in another folder that was
written to, a parameter is removed from a file that was read, and a commit removes it from
the disk. -/
theorem removal_reaches_keyfile_read :
    let text := "[a]\nNickname=bob\nparam-server=x\n"
    let disk := (Disk.empty.mount "x/a.cfg" (.text text)).mount "y/a.cfg" (.text "[b]\n")
    let w := ((World.new disk ()).putKeyfile 0 (KeyfileStore.new "x/a.cfg" ',')).putKeyfile 1
      (KeyfileStore.new "y/a.cfg" ',')
    let keyfile := KeyfileStore.plugin Unit 0
    let further := KeyfileStore.plugin Unit 1
    let memory := MemoryStore.plugin Unit 0 { name := "memory" }
    let start : Running (World Unit) := ⟨Roster.new {}, w⟩
    let joined := start.operateAll [.register keyfile, .register further, .register memory]
    let s := joined.operateAll
      [.load, .call (.setAttribute "b" "Nickname" (some (.string "eve"))), .call (.commit none)]
    let reply := s.roster.setParameter "a" "server" none s.world
    (s.world.keyfiles 0).file.value? "a" "param-server" = some "x" ∧
      s.world.disk.contents "y/a.cfg" = .ok "[b]\nNickname=eve\n" ∧
      (reply.world.keyfiles 0).file.value? "a" "param-server" = none ∧
      ∃ file, (KeyfileStore.new "x/a.cfg" ',').fileOf
          ((reply.roster.commit none reply.world).disk.contents "x/a.cfg") = .ok file ∧
        file.value? "a" "param-server" = none := by
  intro text disk w keyfile further memory start joined s reply
  have hother : (0 : Nat) ≠ 1 := by decide
  let second : Nat → Prop := fun other => other = 1
  have hreaches {allowed : World Unit → World Unit → Prop}
      (hfurther : further.Tame {} 0 (Record.Covers {}) allowed)
      (hmemory : memory.Tame {} 0 (Record.Covers {}) allowed) :
      start.Reaches {} 0 (Record.Covers {}) allowed s :=
    (((((Running.Reaches.start.step (.register keyfile) (Or.inl rfl)).step
      (.register further) (Or.inr hfurther)).step (.register memory) (Or.inr hmemory)).step
      .load trivial).step (.call (.setAttribute "b" "Nickname" (some (.string "eve")))) trivial).step
      (.call (.commit none)) trivial
  have hs : start.Reaches {} 0 (Record.Covers {}) (fun _ _ => True) s :=
    hreaches
      ((KeyfileStore.spares_of_ne hother).tame_of_pushesOwn (KeyfileStore.pushesOwn Unit 1) {} _)
      ((MemoryStore.spares 0 0 _).tame_of_pushesOwn (MemoryStore.pushesOwn Unit 0 _) {} _)
  have hapart : disk.Apart "x/a.cfg" "y/a.cfg" :=
    Disk.apart_of_spot (show disk.spot "x/a.cfg" = .ok ["x", "a.cfg"] from rfl)
      (show disk.spot "y/a.cfg" = .ok ["y", "a.cfg"] from rfl)
      (show disk.spot "y/a.cfg.tmp" = .ok ["y", "a.cfg.tmp"] from rfl) (by decide) (by decide)
  have hsole : s.SoleWriter {} "x/a.cfg" 0 w :=
    ⟨World.Apart "x/a.cfg" 0 second, ⟨rfl, ⟨text, rfl⟩, fun _ hsecond => hsecond ▸ hapart⟩,
      KeyfileStore.keeps_apart,
      hreaches (KeyfileStore.tame_of_apart hother (show second 1 from rfl) {} _)
        (MemoryStore.tame_of_apart _ {} _)⟩
  have howner : s.roster.owner? "a" = some keyfile := by
    have hleads : joined.LeadsTo (fun _ => True) s :=
      joined.leadsTo_operateAll fun _ _ _ _ => trivial
    have hnumbered : joined.roster.Numbered :=
      (Roster.numbered_new {}).registerAll [keyfile, further, memory]
    have hregistered : (⟨0, keyfile⟩ : Registered (World Unit)) ∈ joined.roster.registry :=
      Roster.mem_register.mpr (Or.inr (Roster.mem_register.mpr (Or.inr List.mem_cons_self)))
    obtain ⟨record, hrecord, hzero⟩ := Option.map_eq_some_iff.mp
      (show (s.roster.cache.record? "a").map Record.owner = some 0 by decide +kernel)
    rw [Roster.owner?_eq_some_iff (hleads.numbered hnumbered).nodup hrecord, hzero]
    exact hleads.subset hregistered
  have hremoved : reply.Removed (s.SoleWriter {} "x/a.cfg" 0 w) "x/a.cfg" ',' 0 "a"
      "param-server" :=
    (removal_reaches_keyfile rfl hs howner).2 "server" true
      (Except.eq_ok_of_toOption (by decide +kernel))
  exact ⟨by decide +kernel, Except.eq_ok_of_toOption (by decide +kernel), hremoved.memory,
    hremoved.disk hsole none (by decide +kernel)⟩

/-- A flag that is neither on nor off is not cached. Its removal succeeds, and changes
neither the file in memory nor the one on the disk. -/
theorem removal_leaves_unreadable_flag :
    let text := "[a]\nEnabled=maybe\n"
    let w := (World.new (Disk.empty.mount "a.cfg" (.text text)) ()).putKeyfile 0
      (KeyfileStore.new "a.cfg" ',')
    let start : Running (World Unit) := ⟨Roster.new {}, w⟩
    let s := start.operateAll [.register (KeyfileStore.plugin Unit 0), .load]
    let reply := s.roster.setAttribute "a" "Enabled" none s.world
    s.roster.owner? "a" = some (KeyfileStore.plugin Unit 0) ∧ reply.answer = .ok false ∧
      (reply.world.keyfiles 0).file.value? "a" "Enabled" = some "maybe" ∧
      (reply.roster.commit none reply.world).disk.contents "a.cfg" = .ok text := by
  intro text w start s reply
  exact ⟨Roster.owner?_of_load {} _ w (by decide +kernel),
    Except.eq_ok_of_toOption (by decide +kernel), by decide +kernel,
    Except.eq_ok_of_toOption (by decide +kernel)⟩

end AccountRoster
