import AccountRoster.Backend
import AccountRoster.Proofs.Backend.Memory
import AccountRoster.Proofs.Roster.Operations
import AccountRoster.Proofs.Roster.ReadBack

/-!
# Secret marks reach a store with the next change

A mark is set in the cache, and a plugin hears of it when the parameter is written. An
in-process store then keeps the mark until the parameter is deleted. A write of the value
that is cached already tells a plugin nothing, so a mark that was set after the value stays
in the cache until the value changes.
-/

namespace AccountRoster

variable {ε : Type}

/-- A typed parameter leaves its own mark in the store, if it comes with one, and no other. -/
theorem MemoryStore.isSecret_setParameter (s : MemoryStore) (account name : String) (v : Value)
    (secret : Bool) (other : String) :
    (s.setParameter account name v secret).isSecret account other =
      ((secret && decide (name = other)) || s.isSecret account other) := by
  have hstored : (s.setParameter account name v secret).accounts.get? account = some
      { s.account account with
        escaped := (s.account account).escaped.erase name
        typed := (s.account account).typed.insert name v
        secrets := if secret then (s.account account).secrets.add name
          else (s.account account).secrets } := Dict.get?_insert_self _ _ _
  rw [isSecret, account_of_get? hstored]
  cases secret with
  | false => rfl
  | true => exact Names.has_add _ _ _

theorem Cache.isSecret_makeSecret {c : Cache} {account : String} {record : Record}
    (h : c.record? account = some record) (name : String) :
    (c.makeSecret account name).isSecret account name = true := by
  have hmarked : (c.makeSecret account name).record? account = some (record.markSecret name) := by
    rw [makeSecret, record?_modify, if_pos rfl, h, Option.map_some]
  rw [isSecret, hmarked]
  dsimp only
  rw [Record.isSecret, Record.markSecret, Names.has_add, decide_eq_true rfl, Bool.true_or]

namespace Roster

variable {slot : Nat} {settings : MemorySettings} {r : Roster (World ε)} {account : String}

theorem owner?_makeSecret {W : Type} (r : Roster W) (account name other : String) :
    (r.makeSecret account name).owner? other = r.owner? other := by
  have hcache : (r.makeSecret account name).cache = r.cache.makeSecret account name := rfl
  rw [owner?, hcache, Cache.makeSecret, Cache.record?_modify, owner?]
  split
  · cases r.cache.record? other <;> rfl
  · rfl

/-- An in-process store takes a typed parameter with its mark. -/
theorem tell_memory_parameter (r : Roster (World ε)) (account name : String) (v : Value)
    (secret : Bool) (w : World ε) :
    r.tell (MemoryStore.plugin ε slot settings)
        { account, key := FlatKey.ofParameter name, value := some v, secret } w =
      w.putMemory slot ((w.memories slot).setParameter account name v secret) := by
  unfold tell offer
  dsimp only
  rw [FlatKey.ofText_ofParameter]
  rfl

/-- A write of a parameter of a cached account is answered, and tells the owner if it
changes something. -/
theorem setParameter_of_record {W : Type} {r : Roster W} {account : String} {record : Record}
    (h : r.cache.record? account = some record) (name : String) (value : Option Value) (w : W) :
    let written : Roster W :=
      { r with cache := r.cache.insert account (record.putTyped name value) }
    r.setParameter account name value w =
      if r.cache.changesParameter record name value = true then
        ⟨.ok true, written, written.dispatch
          { account, key := FlatKey.ofParameter name, value, secret := record.isSecret name } w⟩
      else ⟨.ok false, r, w⟩ := by
  intro written
  have hfind := Cache.find_of_record? h
  rw [setParameter, Cache.planParameter, hfind]
  dsimp only
  split <;> rfl

/-- A marked parameter of an in-process store has its mark there after a write, if the write
has changed something or if the mark was there before. -/
theorem setParameter_of_isSecret
    (howner : r.owner? account = some (MemoryStore.plugin ε slot settings)) {name : String}
    (hsecret : r.cache.isSecret account name = true) (value : Value) (w : World ε) :
    let reply := r.setParameter account name (some value) w
    ∃ changed, reply.answer = .ok changed ∧ reply.roster.cache.isSecret account name = true ∧
      ((reply.world.memories slot).isSecret account name = true ↔
        changed = true ∨ (w.memories slot).isSecret account name = true) := by
  intro reply
  obtain ⟨record, hrecord, -⟩ := Option.bind_eq_some_iff.mp howner
  have hmark : record.isSecret name = true := by
    rwa [Cache.isSecret, hrecord] at hsecret
  have hreply := setParameter_of_record hrecord name (some value) w
  split at hreply
  next =>
    have halike := readsAlikeBut_insert hrecord (record.sameBut_putTyped name (some value))
    have hmemory := (halike.owners account).1.trans howner
    have hstored : (reply.world.memories slot).isSecret account name = true := by
      change ((r.setParameter account name (some value) w).world.memories slot).isSecret _ _ = _
      rw [hreply]
      dsimp only
      rw [dispatch, hmemory]
      dsimp only
      rw [tell_memory_parameter, hmark, World.memories_putMemory_self,
        MemoryStore.isSecret_setParameter, decide_eq_true rfl]
      rfl
    refine ⟨true, congrArg Reply.answer hreply, ?_, fun _ => Or.inl rfl, fun _ => hstored⟩
    exact (congrArg (fun reply => reply.roster.cache.isSecret account name) hreply).trans
      ((halike.secrets account name).trans hsecret)
  next =>
    refine ⟨false, congrArg Reply.answer hreply, ?_, ?_⟩
    · exact (congrArg (fun reply => reply.roster.cache.isSecret account name) hreply).trans hsecret
    · have hworld : reply.world = w := congrArg Reply.world hreply
      rw [hworld]
      simp

end Roster

/-- A parameter of an in-process store that is marked and then written is secret in the
cache, and in the store exactly if the write has changed something or if it was secret there
before. -/
theorem secret_mark_reaches_iff {slot : Nat} {settings : MemorySettings}
    {r : Roster (World ε)} {account : String}
    (howner : r.owner? account = some (MemoryStore.plugin ε slot settings)) (name : String)
    (value : Value) (w : World ε) :
    let reply := (r.makeSecret account name).setParameter account name (some value) w
    ∃ changed, reply.answer = .ok changed ∧ reply.roster.cache.isSecret account name = true ∧
      ((reply.world.memories slot).isSecret account name = true ↔
        changed = true ∨ (w.memories slot).isSecret account name = true) := by
  obtain ⟨record, hrecord, -⟩ := Option.bind_eq_some_iff.mp howner
  have hmarked : (r.makeSecret account name).cache.isSecret account name = true :=
    Cache.isSecret_makeSecret hrecord name
  have howner' : (r.makeSecret account name).owner? account =
      some (MemoryStore.plugin ε slot settings) :=
    (r.owner?_makeSecret account name account).trans howner
  exact Roster.setParameter_of_isSecret howner' hmarked value w

/-- A password that is marked before it is set is secret in the store. -/
theorem secret_mark_reaches_new_password :
    let memory := MemoryStore.plugin Unit 0 { name := "memory" }
    let stored := ({} : MemoryStore).seed "a" "DisplayName" (.string "x")
    let w := (World.new Disk.empty ()).putMemory 0 stored
    let loaded := ((Roster.new {} : Roster (World Unit)).register memory).load w
    let reply := (loaded.roster.makeSecret "a" "password").setParameter "a" "password"
      (some (.string "x")) loaded.world
    reply.answer = .ok true ∧ (reply.world.memories 0).isSecret "a" "password" = true := by
  intro memory stored w loaded reply
  have howner : loaded.roster.owner? "a" = some memory :=
    Roster.owner?_of_load {} memory w (by decide +kernel)
  have hanswer : reply.answer = .ok true := Except.eq_ok_of_toOption (by decide +kernel)
  obtain ⟨changed, hchanged, -, hreaches⟩ := secret_mark_reaches_iff howner "password"
    (.string "x") loaded.world
  have htrue : changed = true := Except.ok.inj (hchanged.symm.trans hanswer)
  refine ⟨hanswer, ?_⟩
  rw [hreaches]
  exact Or.inl htrue

/-- A password that is marked after it was set is not secret in the store, although it is
set once more. -/
theorem secret_mark_misses_old_password :
    let memory := MemoryStore.plugin Unit 0 { name := "memory" }
    let stored := ({} : MemoryStore).seed "a" "DisplayName" (.string "x")
    let w := (World.new Disk.empty ()).putMemory 0 stored
    let loaded := ((Roster.new {} : Roster (World Unit)).register memory).load w
    let first := loaded.roster.setParameter "a" "password" (some (.string "x")) loaded.world
    let second := (first.roster.makeSecret "a" "password").setParameter "a" "password"
      (some (.string "x")) first.world
    loaded.answer = .ok () ∧ first.roster.owner? "a" = some memory ∧ second.answer = .ok false ∧
      second.roster.cache.isSecret "a" "password" = true ∧
      (second.world.memories 0).isSecret "a" "password" = false := by
  intro memory stored w loaded first second
  have howner : loaded.roster.owner? "a" = some memory :=
    Roster.owner?_of_load {} memory w (by decide +kernel)
  have hkept : first.roster.owner? "a" = loaded.roster.owner? "a" :=
    ((Roster.readsAlikeBut_setParameter _).owners "a").1
  exact ⟨Except.eq_ok_of_toOption (by decide +kernel), hkept.trans howner,
    Except.eq_ok_of_toOption (by decide +kernel), by decide +kernel, by decide +kernel⟩

end AccountRoster
