import AccountRoster.Command
import AccountRoster.Proofs.Roster.Commits
import AccountRoster.Proofs.Roster.Dispatch
import AccountRoster.Proofs.Roster.SecretMarks
import AccountRoster.Proofs.Roster.TypedReads

/-!
# What is printed can be set

The text that is printed of an attribute is read as the value that the attribute has, so
that setting it changes nothing. A parameter may be kept in another type than the one in
which it is printed: setting the text then changes how it is kept, and what is printed of it
in this type stays the same.

## Implementation notes

An attribute of the schema has its schema type, and no schema type is that of a double, so
that the value which is read agrees with the one that is there. A parameter may be a double
that is no number, which agrees with nothing and is then stored once more; and zero agrees with
zero of the other sign, which is then not stored, so that the last statement leaves doubles out.
-/

namespace AccountRoster

/-- The name of a known attribute is not the key of a parameter. -/
theorem Schema.isParameter_of_attributeType {name : String} {type : ValueType}
    (h : Schema.attributeType name = some type) : FlatKey.isParameter name = false := by
  have hknown : ∀ e ∈ Schema.knownAttributes, FlatKey.isParameter e.1 = false := by
    decide +kernel
  exact hknown (name, type) (Schema.mem_knownAttributes h)

namespace Running

variable {W : Type} {s t u : Running W} {dropped : String → Prop}

theorem EditedFrom.trans (hst : s.EditedFrom dropped t) (htu : t.EditedFrom dropped u) :
    s.EditedFrom dropped u where
  registry := htu.registry.trans hst.registry
  edits := by
    refine hst.edits.trans (htu.edits.mono ?_ fun _ hd => hd)
    rintro n ⟨plugin, hp⟩
    exact ⟨plugin, hst.registry ▸ hp⟩

theorem editedFrom_run (s : Running W) (calls : List Call) :
    s.EditedFrom (fun _ => True) (s.run calls) :=
  run_keeps (fun _ _ _ ht => ht.trans (editedFrom_perform _ fun _ _ => trivial))
    (EditedFrom.refl s _)

end Running

namespace Cache

variable {c : Cache} {account name : String} {type : ValueType} {value : Value}

/-- A parameter is read in the type that was asked for. -/
theorem type_of_getParameter (h : c.getParameter account name (some type) = .ok value) :
    value.type = type := by
  unfold getParameter at h
  split at h
  next => cases h
  next record _ =>
    split at h
    next stored _ => exact Codec.type_of_coerce (liftCodec_eq_ok h)
    next =>
      split at h
      next text _ => exact Codec.type_of_unescape (liftCodec_eq_ok h)
      next => cases h

theorem exists_record_of_getParameter {type : Option ValueType}
    (h : c.getParameter account name type = .ok value) :
    ∃ record, c.record? account = some record := by
  cases hrecord : c.record? account with
  | some record => exact ⟨record, rfl⟩
  | none =>
      rw [getParameter, find, hrecord] at h
      cases h

/-- A known attribute takes a value of its schema type as it is. -/
theorem attributeValue_of_type (c : Cache) (h : Schema.attributeType name = some value.type) :
    c.attributeValue name (some value) = .ok (some value) := by
  rw [attributeValue, h]
  dsimp only
  rw [Codec.coerce_type]

/-- A mark does not change what is read of a parameter. -/
theorem getParameter_makeSecret (c : Cache) (account name other : String)
    (type : Option ValueType) :
    (c.makeSecret account name).getParameter account other type =
      c.getParameter account other type := by
  have hcodec : (c.makeSecret account name).codec = c.codec := codec_modify c account _
  have hrecord := c.record?_modify account account fun record => record.markSecret name
  rw [if_pos rfl] at hrecord
  unfold getParameter convert find
  rw [hcodec, makeSecret, hrecord]
  cases c.record? account <;> rfl

end Cache

namespace Roster

variable {W : Type} {r : Roster W} {account name : String} {value : Value}

/-- A write of an attribute of a cached account is answered if the value can be taken, and
changes something unless the value is there. -/
theorem setAttribute_of_record {record : Record} {value new : Option Value}
    (hrecord : r.cache.record? account = some record) (hname : FlatKey.isParameter name = false)
    (hnew : r.cache.attributeValue name value = .ok new) (w : W) :
    let written : Roster W :=
      { r with cache := r.cache.insert account (record.putAttribute name new) }
    r.setAttribute account name value w =
      if Value.agrees? (record.attributes.get? name) new = true then ⟨.ok false, r, w⟩
      else ⟨.ok true, written, written.dispatch { account, key := name, value := new } w⟩ := by
  intro written
  have hfind := Cache.find_of_record? hrecord
  rw [setAttribute, Cache.planAttribute, if_neg (by simp [hname]), hnew]
  dsimp only
  rw [hfind]
  dsimp only
  split <;> rfl

/-- The roster in which a parameter is marked as secret, if that is asked for. -/
def marked (r : Roster W) (account name : String) (secret : Bool) : Roster W :=
  if secret then r.makeSecret account name else r

theorem codec_marked (r : Roster W) (account name : String) (secret : Bool) :
    (r.marked account name secret).cache.codec = r.cache.codec := by
  cases secret with
  | false => rfl
  | true => exact Cache.codec_modify r.cache account _

theorem getParameter_marked (r : Roster W) (account name : String) (secret : Bool)
    (type : Option ValueType) :
    (r.marked account name secret).cache.getParameter account name type =
      r.cache.getParameter account name type := by
  cases secret with
  | false => rfl
  | true => exact r.cache.getParameter_makeSecret account name name type

theorem exists_record_marked {record : Record} (h : r.cache.record? account = some record)
    (name : String) (secret : Bool) :
    ∃ later, (r.marked account name secret).cache.record? account = some later := by
  cases secret with
  | false => exact ⟨record, h⟩
  | true =>
      refine ⟨record.markSecret name, ?_⟩
      change (r.cache.modify account _).record? account = _
      rw [Cache.record?_modify, if_pos rfl, h, Option.map_some]

theorem exists_answer_setParameter {record : Record} (h : r.cache.record? account = some record)
    (name : String) (value : Option Value) (w : W) :
    ∃ changed, (r.setParameter account name value w).answer = .ok changed := by
  rw [setParameter_of_record h]
  split
  · exact ⟨true, rfl⟩
  · exact ⟨false, rfl⟩

/-- A value that was read of a parameter and is stored is read once more in its type, also
if it is no number. -/
theorem getParameter_setParameter_read {type : ValueType}
    (h : r.cache.getParameter account name (some type) = .ok value) (w : W) :
    (r.setParameter account name (some value) w).roster.cache.getParameter account name
      (some type) = .ok value := by
  obtain ⟨record, hrecord⟩ := Cache.exists_record_of_getParameter h
  rw [setParameter_of_record hrecord]
  split
  next =>
    have htyped : (record.putTyped name (some value)).typed.get? name = some value := by
      rw [Record.typed_putTyped, if_pos rfl]
    dsimp only
    rw [Cache.getParameter_of_typed (Cache.record?_insert_self _ _ _) htyped,
      ← Cache.type_of_getParameter h]
    exact Cache.convert_type value
  next => exact h

end Roster

namespace Command

variable {W : Type} {r : Roster W} {account name text : String} {type : ValueType} {value : Value}

theorem committed_of_ok {reply : Reply W Bool} {changed : Bool} (h : reply.answer = .ok changed) :
    committed account reply =
      ⟨.ok "", reply.roster, reply.roster.commit (some account) reply.world⟩ := by
  rw [committed, h]

/-! ### Attributes -/

theorem get_attribute (hname : FlatKey.isParameter name = false)
    (h : r.cache.getAttribute account name none = .ok value) (w : W) :
    (run r w (.get account name none)).answer = .ok (r.cache.codec.escape value ++ "\n") := by
  rw [run, look, readType]
  dsimp only
  rw [valueText, FlatKey.ofText_of_isParameter_false hname]
  dsimp only
  rw [h]
  rfl

/-- The text of a known attribute is read in its schema type, and the value is set. -/
theorem set_attribute (htype : Schema.attributeType name = some type)
    (hread : r.cache.codec.unescape text type = .ok value) (w : W) :
    run r w (.set account name text none false) =
      committed account (r.setAttribute account name (some value) w) := by
  have hname := Schema.isParameter_of_attributeType htype
  rw [run, setValue, readType, FlatKey.ofText_of_isParameter_false hname]
  dsimp only
  rw [if_neg Bool.false_ne_true, setAttribute, htype]
  dsimp only [Option.or, Option.getD]
  rw [readValue, hread]

/-- An attribute in its schema type is printed, and what is printed can be set without any
effect but a commit. -/
theorem set_printed_attribute (hs : r.cache.codec.Safe) {record : Record}
    (hrecord : r.cache.record? account = some record)
    (htype : Schema.attributeType name = some value.type)
    (hvalue : record.attributes.get? name = some value) (w : W) :
    (run r w (.get account name none)).answer = .ok (r.cache.codec.escape value ++ "\n") ∧
      run r w (.set account name (r.cache.codec.escape value) none false) =
        ⟨.ok "", r, r.commit (some account) w⟩ := by
  have hname := Schema.isParameter_of_attributeType htype
  have hnew := r.cache.attributeValue_of_type htype
  have hagrees : Value.agrees? (record.attributes.get? name) (some value) = true := by
    rw [hvalue]
    exact Cache.agrees?_attributeValue hnew
  have hget : r.cache.getAttribute account name none = .ok value := by
    rw [Cache.getAttribute_eq hrecord, hvalue]
    rfl
  refine ⟨get_attribute hname hget w, ?_⟩
  rw [set_attribute htype (Codec.unescape_escape_type hs value),
    Roster.setAttribute_of_record hrecord hname hnew, if_pos hagrees]
  rfl

/-- A text that is set for a known attribute is printed as the text of the value as which it
is read. -/
theorem print_set_attribute {record : Record} (hrecord : r.cache.record? account = some record)
    (htype : Schema.attributeType name = some type)
    (hread : r.cache.codec.unescape text type = .ok value) (w : W) :
    let reply := run r w (.set account name text none false)
    reply.answer = .ok "" ∧ (run reply.roster reply.world (.get account name none)).answer =
      .ok (r.cache.codec.escape value ++ "\n") := by
  intro reply
  obtain rfl := Codec.type_of_unescape hread
  have hname := Schema.isParameter_of_attributeType htype
  let written := r.setAttribute account name (some value) w
  obtain ⟨changed, hchanged⟩ : ∃ changed, written.answer = .ok changed := by
    change ∃ changed, (r.setAttribute account name (some value) w).answer = .ok changed
    rw [Roster.setAttribute_of_record hrecord hname (r.cache.attributeValue_of_type htype)]
    split
    · exact ⟨false, rfl⟩
    · exact ⟨true, rfl⟩
  have hreply : reply =
      ⟨.ok "", written.roster, written.roster.commit (some account) written.world⟩ :=
    (set_attribute htype hread w).trans (committed_of_ok hchanged)
  have hcodec : written.roster.cache.codec = r.cache.codec :=
    ((Running.EditedFrom.refl ⟨r, w⟩ fun _ => True).setAttribute account name
      (some value)).edits.codec_eq
  obtain ⟨own, new, hown, hcoerce, hget⟩ := Roster.getAttribute_setAttribute hchanged
  obtain rfl : value.type = own := Option.some.inj (htype.symm.trans hown)
  obtain rfl : value = new := Except.ok.inj (Codec.coerce_type.symm.trans hcoerce)
  rw [hreply]
  refine ⟨rfl, ?_⟩
  rw [← hcodec]
  exact get_attribute hname hget _

/-! ### Parameters -/

/-- A parameter is printed in a type if there is one of the given signature, as the text of
what is read in that type. -/
theorem get_parameter_iff {signature : String} {w : W} :
    (run r w (.get account (FlatKey.ofParameter name) (some signature))).answer =
        .ok (text ++ "\n") ↔
      ∃ type value, ValueType.ofSignature? signature = some type ∧
        r.cache.getParameter account name (some type) = .ok value ∧
        r.cache.codec.escape value = text := by
  rw [run, look, readType]
  cases ValueType.ofSignature? signature with
  | none => simp
  | some type =>
      dsimp only
      rw [valueText, FlatKey.ofText_ofParameter]
      dsimp only
      cases hread : r.cache.getParameter account name (some type) with
      | ok value => simp [Except.map, String.append_left_inj, hread]
      | error e => cases e <;> simp [Except.map, hread]

/-- The text of a parameter is read in the given type. What is read in this type after the
write is printed. -/
theorem print_set_parameter {signature : String}
    (htype : ValueType.ofSignature? signature = some type)
    (hread : r.cache.codec.unescape text type = .ok value) {record : Record}
    (hrecord : r.cache.record? account = some record) (secret : Bool) (w : W)
    (hwritten : ((r.marked account name secret).setParameter account name (some value)
      w).roster.cache.getParameter account name (some type) = .ok value) :
    let reply := run r w (.set account (FlatKey.ofParameter name) text (some signature) secret)
    reply.answer = .ok "" ∧
      (run reply.roster reply.world
        (.get account (FlatKey.ofParameter name) (some signature))).answer =
          .ok (r.cache.codec.escape value ++ "\n") := by
  intro reply
  let marked := r.marked account name secret
  let written := marked.setParameter account name (some value) w
  obtain ⟨later, hlater⟩ := Roster.exists_record_marked hrecord name secret
  obtain ⟨changed, hchanged⟩ := Roster.exists_answer_setParameter hlater name (some value) w
  have hvalue : readValue (if secret then r.makeSecret account name else r).cache.codec text type =
      .ok value := by
    change readValue marked.cache.codec text type = .ok value
    rw [readValue, Roster.codec_marked, hread]
  have hreply : reply =
      ⟨.ok "", written.roster, written.roster.commit (some account) written.world⟩ := by
    change run r w (.set _ _ _ _ _) = _
    rw [run, setValue, readType, htype, FlatKey.ofText_ofParameter]
    dsimp only
    rw [setParameter]
    dsimp only [Option.getD]
    rw [hvalue]
    exact committed_of_ok hchanged
  have hcodec : written.roster.cache.codec = r.cache.codec :=
    ((Running.EditedFrom.refl ⟨marked, w⟩ fun _ => True).setParameter account name
      (some value)).edits.codec_eq.trans (r.codec_marked account name secret)
  rw [hreply]
  refine ⟨rfl, get_parameter_iff.mpr ⟨type, value, htype, hwritten, ?_⟩⟩
  exact congrArg (Codec.escape · value) hcodec

/-- What is printed of a parameter in a type can be set in that type, and is then printed
again. -/
theorem set_printed_parameter (hs : r.cache.codec.Safe) {signature : String} {w : W}
    (h : (run r w (.get account (FlatKey.ofParameter name) (some signature))).answer =
      .ok (text ++ "\n")) (secret : Bool) :
    let reply := run r w (.set account (FlatKey.ofParameter name) text (some signature) secret)
    reply.answer = .ok "" ∧
      (run reply.roster reply.world
        (.get account (FlatKey.ofParameter name) (some signature))).answer =
          .ok (text ++ "\n") := by
  obtain ⟨type, value, htype, hvalue, rfl⟩ := get_parameter_iff.mp h
  obtain ⟨record, hrecord⟩ := Cache.exists_record_of_getParameter hvalue
  have hread : r.cache.codec.unescape (r.cache.codec.escape value) type = .ok value := by
    rw [← Cache.type_of_getParameter hvalue, Codec.unescape_escape_type hs]
  have hmarked := (r.getParameter_marked account name secret (some type)).trans hvalue
  exact print_set_parameter htype hread hrecord secret w
    (Roster.getParameter_setParameter_read hmarked w)

/-- A text that is set for a parameter in a type other than that of a double is printed in
this type as the text of the value as which it is read. -/
theorem print_set_parameter_of_ne_double (hs : r.cache.codec.Safe) {signature : String}
    (htype : ValueType.ofSignature? signature = some type) (hdouble : type ≠ .double)
    (hread : r.cache.codec.unescape text type = .ok value) {record : Record}
    (hrecord : r.cache.record? account = some record) (secret : Bool) (w : W) :
    let reply := run r w (.set account (FlatKey.ofParameter name) text (some signature) secret)
    reply.answer = .ok "" ∧
      (run reply.roster reply.world
        (.get account (FlatKey.ofParameter name) (some signature))).answer =
          .ok (r.cache.codec.escape value ++ "\n") := by
  obtain rfl := Codec.type_of_unescape hread
  have hsafe : (r.marked account name secret).cache.codec.Safe := by
    rwa [Roster.codec_marked]
  obtain ⟨later, hlater⟩ := Roster.exists_record_marked hrecord name secret
  obtain ⟨changed, hchanged⟩ := Roster.exists_answer_setParameter hlater name (some value) w
  obtain ⟨⟨found, hfound, hagrees⟩, -⟩ :=
    Roster.getParameter_setParameter hsafe hchanged (Value.isNan_of_type hdouble)
  rw [Value.eq_of_agrees hagrees hdouble] at hfound
  exact print_set_parameter htype hread hrecord secret w hfound

end Command

/-- Load built-in backends under a codec that loses nothing, and make any calls. What is
printed of a known attribute can then be set, which changes neither the cache nor what the
backends store, and nothing on the disk if there was nothing to write, as is so after a load.
What is printed of a parameter in any type can be set in this type, marked as secret or not,
and is then printed in it again. Any text that is set is printed as the text of the value as
which it is read, unless this is a double. -/
theorem printed_sets_back (codec : Codec) (hs : codec.separator ∉ ['\\', 's', 'n', 't', 'r'])
    {ε : Type} (built : List (Nat × BackendConfig)) (identifier : Option (Identifier (World ε)))
    (w : World ε) :
    let loaded := (Roster.ofBackends codec built identifier).load w
    (w.Clean → loaded.world.Clean) ∧ ∀ calls : List Call,
      let s := loaded.running.run calls
      let reply (command : Command) := Command.run s.roster s.world command
      let next (first second : Command) :=
        (Command.run (reply first).roster (reply first).world second).answer
      ∀ account,
        (∀ record name type value, s.roster.cache.record? account = some record →
          Schema.attributeType name = some type → record.attributes.get? name = some value →
          ∃ text, (reply (.get account name none)).answer = .ok (text ++ "\n") ∧
            let write := Command.set account name text none false
            (reply write).answer = .ok "" ∧ (reply write).roster = s.roster ∧
              s.world.SameStored (reply write).world) ∧
        (∀ name signature text secret,
          let read := Command.get account (FlatKey.ofParameter name) (some signature)
          let write := Command.set account (FlatKey.ofParameter name) text (some signature) secret
          (reply read).answer = .ok (text ++ "\n") →
            (reply write).answer = .ok "" ∧ next write read = .ok (text ++ "\n")) ∧
        ∀ record text type value, s.roster.cache.record? account = some record →
          codec.unescape text type = .ok value → type ≠ .double →
          (∀ name, Schema.attributeType name = some type →
            let write := Command.set account name text none false
            (reply write).answer = .ok "" ∧
              next write (.get account name none) = .ok (codec.escape value ++ "\n")) ∧
          ∀ name signature secret, ValueType.ofSignature? signature = some type →
            let read := Command.get account (FlatKey.ofParameter name) (some signature)
            let write := Command.set account (FlatKey.ofParameter name) text (some signature) secret
            (reply write).answer = .ok "" ∧ next write read = .ok (codec.escape value ++ "\n") := by
  intro loaded
  have hbuilt : BuiltFrom built (Roster.ofBackends codec built identifier).registry :=
    Roster.builtFrom_ofBackends codec built identifier
  refine ⟨Roster.clean_load hbuilt, fun calls => ?_⟩
  intro s reply next account
  let start : Running (World ε) := ⟨Roster.ofBackends codec built identifier, w⟩
  have hempty : start.roster.cache = { codec } := Roster.cache_registerAll (Roster.new codec) _
  have hedited : start.EditedFrom (fun _ => True) s :=
    (Running.EditedFrom.refl start _).load.trans (Running.editedFrom_run _ calls)
  have hcodec : s.roster.cache.codec = codec := by rw [hedited.edits.codec_eq, hempty]
  have hsafe : s.roster.cache.codec.Safe := hcodec ▸ hs
  have hsound : s.roster.cache.Sound start.roster.HasNumber := by
    refine hedited.edits.sound ?_
    rw [hempty]
    exact nofun
  rw [← hedited.registry] at hbuilt
  refine ⟨?_, ?_, ?_⟩
  · intro record name type value hrecord htype hvalue
    obtain rfl : value.type = type :=
      (hsound account record hrecord).1.fits name value hvalue type htype
    obtain ⟨hget, hset⟩ := Command.set_printed_attribute hsafe hrecord htype hvalue s.world
    refine ⟨_, hget, ?_⟩
    dsimp only [reply]
    rw [hset]
    exact ⟨rfl, rfl, Roster.sameStored_commit hbuilt account⟩
  · intro name signature text secret read write hget
    exact Command.set_printed_parameter hsafe hget secret
  · intro record text type value hrecord hread hdouble
    rw [← hcodec] at hread ⊢
    refine ⟨fun name htype => ?_, fun name signature secret htype => ?_⟩
    · exact Command.print_set_attribute hrecord htype hread s.world
    · exact Command.print_set_parameter_of_ne_double hsafe htype hdouble hread hrecord secret
        s.world

/-- A port with a leading zero is printed as a number, and as the same number once this was
set. -/
theorem printed_sets_back_port :
    let text := "[a]\nNickname=bob\nparam-port=07\n"
    let w := (World.new (Disk.empty.mount "a.cfg" (.text text)) ()).putKeyfile 0
      (.new "a.cfg" ',')
    let s := ((Roster.ofBackends {} [(0, .keyfile "a.cfg" ',')] none).load w).running
    let read := Command.get "a" "param-port" (some "u")
    let reply := Command.run s.roster s.world (.set "a" "param-port" "7" (some "u") false)
    (Command.run s.roster s.world read).answer = .ok "7\n" ∧ reply.answer = .ok "" ∧
      (Command.run reply.roster reply.world read).answer = .ok "7\n" := by
  intro text w s read reply
  have hget : (Command.run s.roster s.world read).answer = .ok "7\n" :=
    Except.eq_ok_of_toOption (by decide +kernel)
  have hprinted := printed_sets_back {} (by decide) [(0, .keyfile "a.cfg" ',')] none w
  obtain ⟨-, hparameter, -⟩ := hprinted.2 [] "a"
  exact ⟨hget, hparameter "port" "u" "7" false hget⟩

end AccountRoster
