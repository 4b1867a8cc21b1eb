import AccountRoster.Proofs.Roster.Operations
import AccountRoster.Proofs.Roster.ReadBack
import AccountRoster.Proofs.Roster.Transcript

/-!
# What a write asks of plugins

A write is settled on the cache before a plugin hears of it. Only one that changes the
cache asks anything, and it asks the owner of the account: to delete the flat key, or to
take the value with its type, and then the text of it if there are no types for the
plugin. A write that is made again finds its value there, and asks nothing.

## Implementation notes

Both operations settle a plan and carry it out, so both are `Roster.Writes`, for the
place in a record that they write to. That a plugin sees the cache with the new value in
it is part of the transcript, where each question has the cache it was asked with.
-/

namespace AccountRoster

variable {W : Type}

/-- The typed write that an update asks of a plugin. -/
def Update.exchange (u : Update) (value : Value) (answer : Except RosterError TypedWrite) :
    Exchange :=
  match FlatKey.ofText u.key with
  | .attr name => .setAttribute u.account name value answer
  | .param name => .setParameter u.account name value u.secret answer

theorem Update.exchange_attribute {name : String} (h : FlatKey.isParameter name = false)
    (account : String) (value : Option Value) :
    ({ account, key := name, value } : Update).exchange = .setAttribute account name := by
  funext v answer
  rw [exchange, FlatKey.ofText_eq_attr_iff.mpr ⟨rfl, h⟩]

theorem Update.exchange_parameter (account name : String) (value : Option Value)
    (secret : Bool) :
    ({ account, key := FlatKey.ofParameter name, value, secret } : Update).exchange =
      fun v => .setParameter account name v secret := by
  funext v answer
  rw [exchange, FlatKey.ofText_ofParameter]

/-- What a plugin is asked when a flat key gets a new value, or none. -/
inductive Registered.Told (p : Registered W) (cache : Cache) (account key : String)
    (typed : Value → Except RosterError TypedWrite → Exchange) :
    Option Value → List (Consultation W) → Prop where
  /-- A removal is a deletion of the flat key. -/
  | removal (answer : Except RosterError Bool) :
      p.Told cache account key typed none [⟨p, cache, .delete account (some key) answer⟩]
  /-- A plugin that stores a typed value, or fails to, is not asked again. -/
  | value (v : Value) (answer : Except RosterError TypedWrite)
      (h : answer ≠ .ok .unimplemented) :
      p.Told cache account key typed (some v) [⟨p, cache, typed v answer⟩]
  /-- A plugin without typed values is given the text. -/
  | text (v : Value) (answer : Except RosterError Bool) :
      p.Told cache account key typed (some v)
        [⟨p, cache, typed v (.ok .unimplemented)⟩,
          ⟨p, cache, .set account key (cache.codec.escape v) answer⟩]

namespace Roster

variable {r : Roster W} {w : W} {account name : String} {value : Option Value} {answer : Bool}

/-! ### The same writes with a transcript -/

theorem offer_transcribed (r : Roster W) (p : Registered W) (u : Update) (v : Value) (w : W)
    (log : List (Consultation W)) :
    r.transcribed.offer p.transcribed.plugin u v (w, log) =
      ((r.offer p.plugin u v w).1, (r.offer p.plugin u v w).2,
        log ++ [⟨p, r.cache, u.exchange v (r.offer p.plugin u v w).1⟩]) := by
  unfold offer Update.exchange
  cases FlatKey.ofText u.key <;> rfl

theorem tell_transcribed (r : Roster W) (p : Registered W) (u : Update) (w : W)
    (log : List (Consultation W)) :
    ∃ asked, p.Told r.cache u.account u.key u.exchange u.value asked ∧
      r.transcribed.tell p.transcribed.plugin u (w, log) =
        (r.tell p.plugin u w, log ++ asked) := by
  unfold tell
  cases u.value with
  | none => exact ⟨_, Registered.Told.removal _, rfl⟩
  | some v =>
      dsimp only
      rw [offer_transcribed]
      obtain ⟨answer, w'⟩ := r.offer p.plugin u v w
      match answer with
      | .ok .unimplemented =>
          exact ⟨_, Registered.Told.text v _, congrArg (Prod.mk _) (List.append_assoc _ _ _)⟩
      | .ok .stored => exact ⟨_, Registered.Told.value v (.ok .stored) nofun, rfl⟩
      | .error e => exact ⟨_, Registered.Told.value v (.error e) nofun, rfl⟩

/-- Whoever is told about an update owns the account, and a roster in which nobody owns it
asks nothing. -/
theorem dispatch_transcribed (r : Roster W) (u : Update) (w : W)
    (log : List (Consultation W)) :
    ∃ asked, r.transcribed.dispatch u (w, log) = (r.dispatch u w, log ++ asked) ∧
      (r.owner? u.account = none ∨ ∃ p ∈ r.registry, r.owner? u.account = some p.plugin ∧
        p.Told r.cache u.account u.key u.exchange u.value asked) := by
  rw [dispatch, dispatch]
  rcases r.owner?_transcribed u.account with ⟨hnone, hnone'⟩ | ⟨p, hp, howner, howner'⟩
  · rw [hnone, hnone']
    exact ⟨[], by rw [List.append_nil], Or.inl rfl⟩
  · obtain ⟨asked, htold, htell⟩ := r.tell_transcribed p u w log
    rw [howner, howner']
    exact ⟨asked, htell, Or.inr ⟨p, hp, rfl, htold⟩⟩

theorem carryOut_transcribed (r : Roster W) (w : W)
    (plan : Except RosterError (Option (Cache × Update))) :
    ∃ log, r.transcribed.carryOut (w, []) plan = (r.carryOut w plan).transcribed log := by
  match plan with
  | .error e => exact ⟨[], rfl⟩
  | .ok none => exact ⟨[], rfl⟩
  | .ok (some (cache, update)) =>
      let written : Roster W := { r with cache }
      obtain ⟨asked, hdispatch, -⟩ := written.dispatch_transcribed update w []
      exact ⟨asked, congrArg (Reply.mk (.ok true) written.transcribed) hdispatch⟩

/-! ### The protocol -/

/-- How a write goes, if `held` is what a record has in the place that is written to and
`new` is what it is to have there. -/
structure Writes (r : Roster W) (w : W) (account key : String)
    (new : Except RosterError (Option Value)) (held : Record → Option Value)
    (typed : Value → Except RosterError TypedWrite → Exchange)
    (plain : Reply W Bool) (reply : Reply (Transcribed W) Bool) : Prop where
  /-- The write is the same without a transcript. -/
  same : ∃ log, reply = plain.transcribed log
  /-- A write that is refused, or changes nothing, leaves the cache alone and asks nothing. -/
  unasked : reply.answer ≠ .ok true → reply.roster = r.transcribed ∧ reply.world = (w, [])
  /-- A write that changes something has the owner told what is cached now. -/
  told : reply.answer = .ok true → ∃ p ∈ r.registry, r.owner? account = some p.plugin ∧
    ∃ record, reply.roster.cache.record? account = some record ∧ new = .ok (held record) ∧
      p.Told reply.roster.cache account key typed (held record) reply.world.2

theorem carryOut_unasked {plan : Except RosterError (Option (Cache × Update))}
    (h : (r.carryOut w plan).answer ≠ .ok true) :
    (r.carryOut w plan).roster = r ∧ (r.carryOut w plan).world = w := by
  unfold carryOut at h ⊢
  split
  next => exact ⟨rfl, rfl⟩
  next => exact ⟨rfl, rfl⟩
  next => exact absurd rfl h

/-- The owner of an account is told about the record that replaces the one of the account. -/
theorem told_of_insert {record later : Record} {key : FlatKey} {u : Update}
    {new : Except RosterError (Option Value)} {held : Record → Option Value}
    (hrecord : r.cache.record? u.account = some record) (hsame : record.SameBut key later)
    (howner : r.owner? u.account ≠ none) (hheld : held later = u.value)
    (hnew : new = .ok u.value) (w : W) :
    let written : Roster W := { r with cache := r.cache.insert u.account later }
    ∃ p ∈ r.registry, r.owner? u.account = some p.plugin ∧
      ∃ record, written.cache.record? u.account = some record ∧ new = .ok (held record) ∧
        p.Told written.cache u.account u.key u.exchange (held record)
          (written.transcribed.dispatch u (w, [])).2 := by
  intro written
  have halike : written.owner? u.account = r.owner? u.account :=
    ((readsAlikeBut_insert hrecord hsame).owners u.account).1
  obtain ⟨asked, hdispatch, hnone | ⟨p, hp, hplugin, htold⟩⟩ :=
    written.dispatch_transcribed u w []
  · exact absurd (halike.symm.trans hnone) howner
  · refine ⟨p, hp, halike.symm.trans hplugin, later, Cache.record?_insert_self _ _ _, ?_⟩
    rw [hheld, hdispatch]
    exact ⟨hnew, htold⟩

/-- A write of an attribute to an account, if cached accounts have owners. -/
theorem writes_setAttribute
    (howner : ∀ record, r.cache.record? account = some record → r.owner? account ≠ none)
    (value : Option Value) (w : W) :
    r.Writes w account name (r.cache.attributeValue name value)
      (fun record => record.attributes.get? name) (.setAttribute account name)
      (r.setAttribute account name value w)
      (r.transcribed.setAttribute account name value (w, [])) where
  same := carryOut_transcribed r w (r.cache.planAttribute account name value)
  unasked := carryOut_unasked
  told h := by
    obtain ⟨record, new, hname, hrecord, hnew, ⟨-, hreply⟩ | hreply⟩ := setAttribute_cases h
    · rw [hreply] at h
      cases h
    · have hcached : r.cache.record? account = some record := hrecord
      have hput : (record.putAttribute name new).attributes.get? name = new := by
        rw [Record.attributes_putAttribute, if_pos rfl]
      rw [hreply, ← Update.exchange_attribute hname account new]
      exact told_of_insert (u := { account, key := name, value := new }) hcached
        (record.sameBut_putAttribute name new) (howner record hcached) hput hnew w

theorem writes_setParameter
    (howner : ∀ record, r.cache.record? account = some record → r.owner? account ≠ none)
    (value : Option Value) (w : W) :
    r.Writes w account (FlatKey.ofParameter name) (.ok value)
      (fun record => record.typed.get? name)
      (fun v => .setParameter account name v (r.cache.isSecret account name))
      (r.setParameter account name value w)
      (r.transcribed.setParameter account name value (w, [])) where
  same := carryOut_transcribed r w (r.cache.planParameter account name value)
  unasked := carryOut_unasked
  told h := by
    obtain ⟨record, hrecord, ⟨-, hreply⟩ | hreply⟩ := setParameter_cases h
    · rw [hreply] at h
      cases h
    · have hcached : r.cache.record? account = some record := hrecord
      have hput : (record.putTyped name value).typed.get? name = value := by
        rw [Record.typed_putTyped, if_pos rfl]
      have hsecret : r.cache.isSecret account name = record.isSecret name := by
        rw [Cache.isSecret, hcached]
      rw [hreply, hsecret, ← Update.exchange_parameter account name value]
      exact told_of_insert
        (u := { account, key := FlatKey.ofParameter name, value, secret := record.isSecret name })
        hcached (record.sameBut_putTyped name value) (howner record hcached) hput rfl w

end Roster

/-- Whatever was done with a roster, a cached account has an owner. -/
theorem Running.owner?_operateAll (codec : Codec) (w : W) (operations : List (Operation W))
    (account : String) :
    let s := (⟨Roster.new codec, w⟩ : Running W).operateAll operations
    ∀ record, s.roster.cache.record? account = some record → s.roster.owner? account ≠ none := by
  intro s record hrecord
  have hs : (⟨Roster.new codec, w⟩ : Running W).LeadsTo (fun _ => True) s :=
    Running.leadsTo_operateAll _ fun _ _ _ _ => trivial
  have hnumbered : s.roster.Numbered := hs.numbered (Roster.numbered_new codec)
  have hsound : s.roster.cache.Sound s.roster.HasNumber := by
    apply hs.edits.sound
    intro account record hnone
    cases hnone
  obtain ⟨-, plugin, hplugin⟩ := hsound account record hrecord
  rw [(Roster.owner?_eq_some_iff hnumbered.nodup hrecord).mpr hplugin]
  exact Option.some_ne_none _

/-- Whatever plugins there are and whatever was done before: a write that is refused or
changes nothing leaves the cache as it is and asks no plugin anything. One that changes
something has put the new value in the cache before the first question, and asks the owner
of the account only. It has the flat key deleted, or it offers exactly the value that is
cached now, for a parameter with the mark that is cached, and gives the text of the value
under the flat key if and only if the plugin answers that it takes no typed values. -/
theorem write_tells_owner (codec : Codec) (w : W) (operations : List (Operation W))
    (account name : String) (value : Option Value) :
    let s := (⟨Roster.new codec, w⟩ : Running W).operateAll operations
    s.roster.Writes s.world account name (s.roster.cache.attributeValue name value)
        (fun record => record.attributes.get? name) (.setAttribute account name)
        (s.roster.setAttribute account name value s.world)
        (s.roster.transcribed.setAttribute account name value (s.world, [])) ∧
      s.roster.Writes s.world account (FlatKey.ofParameter name) (.ok value)
        (fun record => record.typed.get? name)
        (fun v => .setParameter account name v (s.roster.cache.isSecret account name))
        (s.roster.setParameter account name value s.world)
        (s.roster.transcribed.setParameter account name value (s.world, [])) := by
  intro s
  have howner := Running.owner?_operateAll codec w operations account
  exact ⟨Roster.writes_setAttribute howner value s.world,
    Roster.writes_setParameter howner value s.world⟩

/-- The owner of an account that is told the text of a parameter, as it takes no typed
values, is offered the value with its mark first. -/
theorem write_tells_owner_keyfile :
    let w := (World.new Disk.empty ()).putKeyfile 0 (KeyfileStore.new "a.cfg" ',')
    let operations : List (Operation (World Unit)) := [.register (KeyfileStore.plugin Unit 0),
      .load, .call (.create none "m" "p" "i"), .call (.makeSecret "m/p/i0" "password")]
    let s := (⟨Roster.new {}, w⟩ : Running (World Unit)).operateAll operations
    let reply := s.roster.transcribed.setParameter "m/p/i0" "password" (some (.string "x"))
      (s.world, [])
    ∃ p answer, s.roster.owner? "m/p/i0" = some p.plugin ∧
      reply.world.2 =
        [⟨p, reply.roster.cache,
            .setParameter "m/p/i0" "password" (.string "x") true (.ok .unimplemented)⟩,
          ⟨p, reply.roster.cache, .set "m/p/i0" "param-password" "x" answer⟩] := by
  intro w operations s reply
  have hanswer : reply.answer = .ok true := Except.eq_ok_of_toOption (by decide +kernel)
  have hlength : reply.world.2.length = 2 := by decide +kernel
  have hsecret : s.roster.cache.isSecret "m/p/i0" "password" = true := by decide +kernel
  have htext : reply.roster.cache.codec.escape (.string "x") = "x" := by decide +kernel
  have hkey : FlatKey.ofParameter "password" = "param-password" := by decide +kernel
  have hwrites := (write_tells_owner {} w operations "m/p/i0" "password" (some (.string "x"))).2
  change s.roster.Writes _ _ _ _ _ _ _ reply at hwrites
  obtain ⟨p, -, howner, record, -, hnew, htold⟩ := hwrites.told hanswer
  rw [← Except.ok.inj hnew, hsecret, hkey] at htold
  generalize hasked : reply.world.2 = asked at hlength htold ⊢
  cases htold with
  | value v answer h => cases hlength
  | text v answer =>
      rw [htext]
      exact ⟨p, answer, howner, rfl⟩

/-! ### Writing again -/

namespace Value

theorem isNan_of_type {v : Value} (h : v.type ≠ .double) : v.isNan = false := by
  cases v with
  | double d => exact absurd rfl h
  | _ => rfl

theorem agrees?_self {value : Option Value} (h : ∀ v, value = some v → v.isNan = false) :
    agrees? value value = true := by
  cases value with
  | none => rfl
  | some v => exact agrees_self (h v rfl)

end Value

namespace Cache

variable {c : Cache} {account name : String} {record : Record} {value new : Option Value}

/-- No attribute takes a double, so what one takes agrees with itself. -/
theorem agrees?_attributeValue (h : c.attributeValue name value = .ok new) :
    Value.agrees? new new = true := by
  apply Value.agrees?_self
  rintro v rfl
  obtain ⟨given, type, -, htype, hcoerce⟩ := attributeValue_eq_some h
  apply Value.isNan_of_type
  rw [Codec.type_of_coerce hcoerce]
  exact Schema.attributeType_ne_double htype

theorem planAttribute_of_agrees (hname : FlatKey.isParameter name = false)
    (hrecord : c.record? account = some record) (hnew : c.attributeValue name value = .ok new)
    (hagrees : Value.agrees? (record.attributes.get? name) new = true) :
    c.planAttribute account name value = .ok none := by
  have hfind := find_of_record? hrecord
  simp only [planAttribute, hname, hnew, hfind, hagrees, Bool.false_eq_true, if_false, if_true]

theorem planParameter_of_same (hrecord : c.record? account = some record)
    (hsame : c.changesParameter record name value = false) :
    c.planParameter account name value = .ok none := by
  have hfind := find_of_record? hrecord
  simp only [planParameter, hfind, hsame, Bool.false_eq_true, if_false]

/-- A parameter that was written is typed or gone, and is not changed by the same value. -/
theorem changesParameter_putTyped (hnan : ∀ v, value = some v → v.isNan = false) :
    c.changesParameter (record.putTyped name value) name value = false := by
  have htyped : (record.putTyped name value).typed.get? name = value := by
    rw [Record.typed_putTyped, if_pos rfl]
  have hescaped : (record.putTyped name value).escaped.get? name = none := by
    rw [Record.escaped_putTyped, if_pos rfl]
  rw [changesParameter, htyped, hescaped]
  cases value with
  | none => rfl
  | some v => simp only [Value.agrees?_self hnan, Bool.not_true]

end Cache

namespace Roster

variable {r : Roster W} {w : W} {account name : String} {value : Option Value} {answer : Bool}

/-- An attribute that was written finds the value there, in whatever world. -/
theorem setAttribute_again (h : (r.setAttribute account name value w).answer = .ok answer)
    (w' : W) :
    (r.setAttribute account name value w).roster.setAttribute account name value w' =
      ⟨.ok false, (r.setAttribute account name value w).roster, w'⟩ := by
  obtain ⟨record, new, hname, hrecord, hnew, ⟨hagrees, hreply⟩ | hreply⟩ := setAttribute_cases h
  · rw [hreply]
    dsimp only
    rw [setAttribute, Cache.planAttribute_of_agrees hname hrecord hnew hagrees]
    rfl
  · have hput : Value.agrees? ((record.putAttribute name new).attributes.get? name) new = true := by
      rw [Record.attributes_putAttribute, if_pos rfl]
      exact Cache.agrees?_attributeValue hnew
    have hplan := Cache.planAttribute_of_agrees hname
      (r.cache.record?_insert_self account (record.putAttribute name new)) hnew hput
    rw [hreply]
    dsimp only
    rw [setAttribute, hplan]
    rfl

theorem setParameter_again (h : (r.setParameter account name value w).answer = .ok answer)
    (hnan : ∀ v, value = some v → v.isNan = false) (w' : W) :
    (r.setParameter account name value w).roster.setParameter account name value w' =
      ⟨.ok false, (r.setParameter account name value w).roster, w'⟩ := by
  obtain ⟨record, hrecord, ⟨hsame, hreply⟩ | hreply⟩ := setParameter_cases h
  · rw [hreply]
    dsimp only
    rw [setParameter, Cache.planParameter_of_same hrecord hsame]
    rfl
  · have hplan := Cache.planParameter_of_same
      (r.cache.record?_insert_self account (record.putTyped name value))
      (Cache.changesParameter_putTyped hnan)
    rw [hreply]
    dsimp only
    rw [setParameter, hplan]
    rfl

end Roster

/-- Whatever roster it is and whatever its plugins answer: if a write is answered, the
same write made again answers that nothing has changed, leaves the roster as the first has
left it and asks no plugin anything. Only a parameter that is not a number is never taken
for the same. -/
theorem write_idempotent (r : Roster W) (account name : String) (value : Option Value) (w : W) :
    let attr := r.transcribed.setAttribute account name value (w, [])
    let param := r.transcribed.setParameter account name value (w, [])
    ((∃ log, attr = (r.setAttribute account name value w).transcribed log) ∧
      ∀ answer, attr.answer = .ok answer →
        attr.roster.setAttribute account name value attr.world =
          ⟨.ok false, attr.roster, attr.world⟩) ∧
      (∃ log, param = (r.setParameter account name value w).transcribed log) ∧
      ∀ answer, param.answer = .ok answer → (∀ v, value = some v → v.isNan = false) →
        param.roster.setParameter account name value param.world =
          ⟨.ok false, param.roster, param.world⟩ := by
  intro attr param
  refine ⟨⟨?_, ?_⟩, ?_, ?_⟩
  · exact Roster.carryOut_transcribed r w (r.cache.planAttribute account name value)
  · exact fun answer h => Roster.setAttribute_again h attr.world
  · exact Roster.carryOut_transcribed r w (r.cache.planParameter account name value)
  · exact fun answer h hnan => Roster.setParameter_again h hnan param.world

/-- A text that is converted for an attribute, and kept as it is for a parameter, is told
to the owner once. -/
theorem write_idempotent_converted :
    let memory := MemoryStore.plugin Unit 0 { name := "memory" }
    let start : Running (World Unit) := ⟨Roster.new {}, World.new Disk.empty ()⟩
    let s := start.operateAll [.register memory, .call (.create none "m" "p" "i")]
    let value := some (Value.string "true")
    let attr := s.roster.transcribed.setAttribute "m/p/i0" "Enabled" value (s.world, [])
    let param := s.roster.transcribed.setParameter "m/p/i0" "Enabled" value (s.world, [])
    attr.answer = .ok true ∧ attr.world.2.length = 1 ∧
      attr.roster.setAttribute "m/p/i0" "Enabled" value attr.world =
        ⟨.ok false, attr.roster, attr.world⟩ ∧
      param.answer = .ok true ∧ param.world.2.length = 1 ∧
      param.roster.setParameter "m/p/i0" "Enabled" value param.world =
        ⟨.ok false, param.roster, param.world⟩ := by
  intro memory start s value attr param
  have hattr : attr.answer = .ok true := Except.eq_ok_of_toOption (by decide +kernel)
  have hparam : param.answer = .ok true := Except.eq_ok_of_toOption (by decide +kernel)
  have hnan : ∀ v, some (Value.string "true") = some v → v.isNan = false := by
    rintro v ⟨⟩
    rfl
  obtain ⟨⟨-, hagain⟩, -, hagain'⟩ := write_idempotent s.roster "m/p/i0" "Enabled" value s.world
  exact ⟨hattr, by decide +kernel, hagain true hattr, hparam, by decide +kernel,
    hagain' true hparam hnan⟩

end AccountRoster
