import AccountRoster.Proofs.Codec.OneLine
import AccountRoster.Proofs.Codec.RoundTrip
import AccountRoster.Proofs.Roster.Plans

/-!
# What is written is read, and nothing else changes

A write that is answered can be read back at once: an attribute in its schema type, a
parameter in the type of the value that was given, and nothing under a key that was
removed. That also holds if the write has found nothing to change. Whatever a write
answers, everything under other keys and of other accounts reads as before.

## Implementation notes

A write changes one record under one flat key at most. What two records have in common
but for one key is `Record.SameBut`, what two rosters show alike is
`Roster.ReadsAlikeBut`, and every read of the second is a field of the first. A parameter
that is left as it is was compared by its text, so reading it back takes the round trip
of the codec.
-/

namespace AccountRoster

/-! ### Equal values -/

namespace Value

variable {a b : Value}

theorem eq_of_agrees (h : a.agrees b = true) (hb : b.type ≠ .double) : a = b := by
  unfold agrees at h
  split at h
  next => exact absurd rfl hb
  next => exact of_decide_eq_true h

theorem type_eq_of_agrees (h : a.agrees b = true) : a.type = b.type := by
  unfold agrees at h
  split at h
  next => rfl
  next => exact congrArg type (of_decide_eq_true h)

end Value

/-- No known attribute is a double, so values of attributes agree only if they are equal. -/
theorem Schema.attributeType_ne_double {name : String} {type : ValueType}
    (h : Schema.attributeType name = some type) : type ≠ .double := by
  have hnone : ∀ a ∈ Schema.knownAttributes, a.2 ≠ .double := by decide
  exact hnone (name, type) (mem_knownAttributes h)

/-! ### One flat key -/

/-- Two records that are alike but for what is stored under one flat key. -/
structure Record.SameBut (key : FlatKey) (record later : Record) : Prop where
  owner : later.owner = record.owner
  secrets : later.secrets = record.secrets
  attributes : ∀ name, key ≠ .attr name →
    later.attributes.get? name = record.attributes.get? name
  typed : ∀ name, key ≠ .param name → later.typed.get? name = record.typed.get? name
  escaped : ∀ name, key ≠ .param name → later.escaped.get? name = record.escaped.get? name

namespace Record

theorem sameBut_putAttribute (record : Record) (name : String) (value : Option Value) :
    record.SameBut (.attr name) (record.putAttribute name value) where
  owner := rfl
  secrets := rfl
  attributes other hother := by
    rw [attributes_putAttribute, if_neg fun heq => hother (congrArg FlatKey.attr heq)]
  typed _ _ := rfl
  escaped _ _ := rfl

theorem sameBut_putTyped (record : Record) (name : String) (value : Option Value) :
    record.SameBut (.param name) (record.putTyped name value) where
  owner := rfl
  secrets := rfl
  attributes _ _ := rfl
  typed other hother := by
    rw [typed_putTyped, if_neg fun heq => hother (congrArg FlatKey.param heq)]
  escaped other hother := by
    rw [escaped_putTyped, if_neg fun heq => hother (congrArg FlatKey.param heq)]

theorem SameBut.text? {key : FlatKey} {record later : Record} (h : record.SameBut key later)
    (codec : Codec) {flat : String} (hflat : key ≠ FlatKey.ofText flat) :
    later.text? codec flat = record.text? codec flat := by
  unfold Record.text?
  split
  next name hname =>
    rw [hname] at hflat
    rw [h.attributes name hflat]
  next name hname =>
    rw [hname] at hflat
    rw [parameterText?, parameterText?, h.typed name hflat, h.escaped name hflat]

end Record

/-- Two rosters of which everything is read alike but what an account has under one flat
key. -/
structure Roster.ReadsAlikeBut {W : Type} (account : String) (key : FlatKey)
    (r later : Roster W) : Prop where
  attributes : ∀ other name type, (account = other → key ≠ .attr name) →
    later.cache.getAttribute other name type = r.cache.getAttribute other name type
  parameters : ∀ other name type, (account = other → key ≠ .param name) →
    later.cache.getParameter other name type = r.cache.getParameter other name type
  texts : ∀ other flat, (account = other → key ≠ FlatKey.ofText flat) →
    later.cache.text? other flat = r.cache.text? other flat
  secrets : ∀ other name, later.cache.isSecret other name = r.cache.isSecret other name
  accounts : ∀ other, later.cache.contains other = r.cache.contains other
  records : ∀ other, account ≠ other → later.cache.record? other = r.cache.record? other
  owners : ∀ other, later.owner? other = r.owner? other ∧ later.ownerName other = r.ownerName other

namespace Roster

variable {W : Type} {r : Roster W} {w : W} {account name : String} {key : FlatKey}

theorem readsAlikeBut_refl (r : Roster W) : r.ReadsAlikeBut account key r where
  attributes _ _ _ _ := rfl
  parameters _ _ _ _ := rfl
  texts _ _ _ := rfl
  secrets _ _ := rfl
  accounts _ := rfl
  records _ _ := rfl
  owners _ := ⟨rfl, rfl⟩

/-- A record that is replaced by one that is the same but for a key shows under that key
only. -/
theorem readsAlikeBut_insert {record later : Record}
    (hrecord : r.cache.record? account = some record) (hsame : record.SameBut key later) :
    r.ReadsAlikeBut account key { r with cache := r.cache.insert account later } := by
  have hself : (r.cache.insert account later).record? account = some later :=
    Cache.record?_insert_self _ _ _
  have hother {other : String} (hne : account ≠ other) :
      (r.cache.insert account later).record? other = r.cache.record? other := by
    rw [Cache.record?_insert, if_neg hne]
  constructor
  case attributes =>
    intro other name type hkey
    by_cases heq : account = other
    · subst heq
      simp only [Cache.getAttribute, Cache.find, hself, hrecord, hsame.attributes name (hkey rfl)]
      rfl
    · simp only [Cache.getAttribute, Cache.find, hother heq]
      rfl
  case parameters =>
    intro other name type hkey
    by_cases heq : account = other
    · subst heq
      simp only [Cache.getParameter, Cache.find, hself, hrecord, hsame.typed name (hkey rfl),
        hsame.escaped name (hkey rfl)]
      rfl
    · simp only [Cache.getParameter, Cache.find, hother heq]
      rfl
  case texts =>
    intro other flat hkey
    by_cases heq : account = other
    · subst heq
      rw [Cache.text?, Cache.text?, hself, hrecord]
      exact hsame.text? _ (hkey rfl)
    · rw [Cache.text?, Cache.text?, hother heq]
      rfl
  case secrets =>
    intro other name
    by_cases heq : account = other
    · subst heq
      simp only [Cache.isSecret, hself, hrecord, Record.isSecret, hsame.secrets]
    · simp only [Cache.isSecret, hother heq]
  case accounts =>
    intro other
    change ((r.cache.insert account later).record? other).isSome = (r.cache.record? other).isSome
    by_cases heq : account = other
    · subst heq
      rw [hself, hrecord]
      rfl
    · rw [hother heq]
  case records => exact fun other hne => hother hne
  case owners =>
    intro other
    by_cases heq : account = other
    · subst heq
      simp only [owner?, ownerName, Cache.find, hself, hrecord, Option.bind_some, Except.map,
        hsame.owner]
      exact ⟨rfl, rfl⟩
    · simp only [owner?, ownerName, Cache.find, hother heq]
      exact ⟨rfl, rfl⟩

/-- A write of an attribute shows under the name of the attribute only, whatever it
answers. -/
theorem readsAlikeBut_setAttribute (value : Option Value) :
    r.ReadsAlikeBut account (.attr name) (r.setAttribute account name value w).roster := by
  cases hanswer : (r.setAttribute account name value w).answer with
  | error e =>
      rw [setAttribute, carryOut_of_error hanswer]
      exact readsAlikeBut_refl r
  | ok answer =>
      obtain ⟨record, new, -, hrecord, -, ⟨-, hreply⟩ | hreply⟩ := setAttribute_cases hanswer
      · rw [hreply]
        exact readsAlikeBut_refl r
      · rw [hreply]
        exact readsAlikeBut_insert hrecord (record.sameBut_putAttribute name new)

theorem readsAlikeBut_setParameter (value : Option Value) :
    r.ReadsAlikeBut account (.param name) (r.setParameter account name value w).roster := by
  cases hanswer : (r.setParameter account name value w).answer with
  | error e =>
      rw [setParameter, carryOut_of_error hanswer]
      exact readsAlikeBut_refl r
  | ok answer =>
      obtain ⟨record, hrecord, ⟨-, hreply⟩ | hreply⟩ := setParameter_cases hanswer
      · rw [hreply]
        exact readsAlikeBut_refl r
      · rw [hreply]
        exact readsAlikeBut_insert hrecord (record.sameBut_putTyped name value)

/-! ### Reading back -/

end Roster

namespace Cache

variable {c : Cache} {account name : String} {record : Record} {type : Option ValueType}

theorem getAttribute_eq (h : c.record? account = some record) :
    c.getAttribute account name type =
      match record.attributes.get? name with
      | some value => c.convert value type
      | none => .error (.notStored account name) := by
  cases hvalue : record.attributes.get? name with
  | none => simp only [getAttribute, find, h, hvalue]
  | some value => simp only [getAttribute, find, h, hvalue]

theorem getParameter_of_typed (h : c.record? account = some record) {value : Value}
    (hvalue : record.typed.get? name = some value) :
    c.getParameter account name type = c.convert value type := by
  simp only [getParameter, find, h, hvalue]

theorem getParameter_of_untyped (h : c.record? account = some record)
    (hnone : record.typed.get? name = none) :
    c.getParameter account name type =
      match record.escaped.get? name with
      | some text => liftCodec (c.codec.unescape text (type.getD .string))
      | none => .error (.notStored account (FlatKey.ofParameter name)) := by
  cases hescaped : record.escaped.get? name with
  | none => simp only [getParameter, find, h, hnone, hescaped]
  | some text => simp only [getParameter, find, h, hnone, hescaped]

/-- An attribute that a record does not have is found neither as a value nor as a text. -/
theorem notFound_of_attributes (h : c.record? account = some record)
    (hname : FlatKey.isParameter name = false) (hnone : record.attributes.get? name = none) :
    (∀ type, c.getAttribute account name type = .error (.notStored account name)) ∧
      c.text? account name = none := by
  constructor
  · intro type
    rw [getAttribute_eq h, hnone]
  · rw [text?, h, Option.bind_some, Record.text?, FlatKey.ofText_eq_attr_iff.mpr ⟨rfl, hname⟩]
    exact congrArg (Option.map c.codec.escape) hnone

theorem notFound_of_parameters (h : c.record? account = some record)
    (htyped : record.typed.get? name = none) (hescaped : record.escaped.get? name = none) :
    (∀ type, c.getParameter account name type =
        .error (.notStored account (FlatKey.ofParameter name))) ∧
      c.text? account (FlatKey.ofParameter name) = none := by
  constructor
  · intro type
    rw [getParameter_of_untyped h htyped, hescaped]
  · rw [text?, h, Option.bind_some, Record.text?, FlatKey.ofText_ofParameter]
    dsimp only
    rw [Record.parameterText?, htyped]
    exact hescaped

/-- A value is given in its own type as it is. -/
theorem convert_type (value : Value) : c.convert value (some value.type) = .ok value := by
  rw [convert, Codec.coerce_type]
  rfl

end Cache

namespace Roster

variable {W : Type} {r : Roster W} {w : W} {account name : String} {value : Value}
  {answer : Bool}

/-- What an attribute takes is read back, also where it was there before. -/
theorem getAttribute_setAttribute
    (h : (r.setAttribute account name (some value) w).answer = .ok answer) :
    ∃ type new, Schema.attributeType name = some type ∧
      r.cache.codec.coerce value type = .ok new ∧
      (r.setAttribute account name (some value) w).roster.cache.getAttribute account name none =
        .ok new := by
  obtain ⟨record, new?, -, hrecord, hnew, hcases⟩ := setAttribute_cases h
  cases new? with
  | none => exact absurd hnew Cache.attributeValue_ne_none
  | some new =>
      obtain ⟨given, type, hgiven, htype, hcoerce⟩ := Cache.attributeValue_eq_some hnew
      cases hgiven
      refine ⟨type, new, htype, hcoerce, ?_⟩
      rcases hcases with ⟨hagrees, hreply⟩ | hreply
      · rw [hreply, Cache.getAttribute_eq hrecord]
        cases hold : record.attributes.get? name with
        | none =>
            rw [hold] at hagrees
            cases hagrees
        | some old =>
            rw [hold] at hagrees
            have hdouble : new.type ≠ .double := by
              rw [Codec.type_of_coerce hcoerce]
              exact Schema.attributeType_ne_double htype
            rw [Value.eq_of_agrees hagrees hdouble]
            rfl
      · rw [hreply, Cache.getAttribute_eq (Cache.record?_insert_self _ _ _),
          Record.attributes_putAttribute, if_pos rfl]
        rfl

/-- What a parameter takes is read back in its type. A parameter that is left as it is has
the value already, or a text that is read as the value. -/
theorem getParameter_setParameter (hs : r.cache.codec.Safe)
    (h : (r.setParameter account name (some value) w).answer = .ok answer)
    (hnan : value.isNan = false) :
    (∃ read, (r.setParameter account name (some value) w).roster.cache.getParameter account name
        (some value.type) = .ok read ∧ read.agrees value = true) ∧
      (answer = true →
        (r.setParameter account name (some value) w).roster.cache.getParameter account name none =
          .ok value) := by
  obtain ⟨record, hrecord, ⟨hsame, hreply⟩ | hreply⟩ := setParameter_cases h
  · rw [hreply] at h ⊢
    cases h
    refine ⟨?_, nofun⟩
    rcases Cache.changesParameter_eq_false hsame with
      ⟨old, new, htyped, hnew, hagrees⟩ | ⟨htyped, hescaped⟩
    · cases hnew
      refine ⟨old, ?_, hagrees⟩
      rw [Cache.getParameter_of_typed hrecord htyped, ← Value.type_eq_of_agrees hagrees]
      exact Cache.convert_type old
    · refine ⟨value, ?_, Value.agrees_self hnan⟩
      rw [Cache.getParameter_of_untyped hrecord htyped, hescaped]
      exact congrArg liftCodec (Codec.unescape_escape hs hnan)
  · rw [hreply]
    have htyped : (record.putTyped name (some value)).typed.get? name = some value := by
      rw [Record.typed_putTyped, if_pos rfl]
    have hself : (r.cache.insert account (record.putTyped name (some value))).record? account =
        some (record.putTyped name (some value)) :=
      Cache.record?_insert_self _ _ _
    refine ⟨⟨value, ?_, Value.agrees_self hnan⟩, fun _ => ?_⟩
    · rw [Cache.getParameter_of_typed hself htyped]
      exact Cache.convert_type value
    · exact Cache.getParameter_of_typed hself htyped

/-- A removed attribute is not found, in whatever type it is asked for. -/
theorem getAttribute_setAttribute_none
    (h : (r.setAttribute account name none w).answer = .ok answer) :
    (∀ type, (r.setAttribute account name none w).roster.cache.getAttribute account name type =
        .error (.notStored account name)) ∧
      (r.setAttribute account name none w).roster.cache.text? account name = none := by
  obtain ⟨record, new, hname, hrecord, hnew, ⟨hagrees, hreply⟩ | hreply⟩ := setAttribute_cases h
  · cases hnew
    have hnone : record.attributes.get? name = none := by
      cases hold : record.attributes.get? name with
      | none => rfl
      | some old =>
          rw [hold] at hagrees
          cases hagrees
    rw [hreply]
    exact Cache.notFound_of_attributes hrecord hname hnone
  · cases hnew
    rw [hreply]
    refine Cache.notFound_of_attributes (Cache.record?_insert_self _ _ _) hname ?_
    rw [Record.attributes_putAttribute, if_pos rfl]

/-- A removed parameter is gone from both places. -/
theorem getParameter_setParameter_none
    (h : (r.setParameter account name none w).answer = .ok answer) :
    (∀ type, (r.setParameter account name none w).roster.cache.getParameter account name type =
        .error (.notStored account (FlatKey.ofParameter name))) ∧
      (r.setParameter account name none w).roster.cache.text? account
        (FlatKey.ofParameter name) = none := by
  obtain ⟨record, hrecord, ⟨hsame, hreply⟩ | hreply⟩ := setParameter_cases h
  · rw [hreply]
    rcases Cache.changesParameter_eq_false hsame with ⟨old, new, -, hnew, -⟩ | ⟨htyped, hescaped⟩
    · cases hnew
    · exact Cache.notFound_of_parameters hrecord htyped hescaped
  · rw [hreply]
    refine Cache.notFound_of_parameters (Cache.record?_insert_self _ _ _) ?_ ?_
    · rw [Record.typed_putTyped, if_pos rfl]
    · rw [Record.escaped_putTyped, if_pos rfl]

/-- Under a codec that loses nothing, an attribute is read back in its schema type and a
parameter in the type of the value that was set, whether the write has changed anything or
not; a parameter that was changed is read back without a type as well. What was removed is
found in no type and has no text. All else reads as it did before the write, whatever the
answer was. -/
theorem write_reads_back {W : Type} (r : Roster W) (hs : r.cache.codec.Safe)
    (account name : String) (w : W) :
    (∀ value answer,
        let reply := r.setAttribute account name (some value) w
        reply.answer = .ok answer →
          ∃ type new, Schema.attributeType name = some type ∧
            r.cache.codec.coerce value type = .ok new ∧
            reply.roster.cache.getAttribute account name none = .ok new) ∧
      (∀ value answer,
        let reply := r.setParameter account name (some value) w
        reply.answer = .ok answer → value.isNan = false →
          (∃ read, reply.roster.cache.getParameter account name (some value.type) = .ok read ∧
            read.agrees value = true) ∧
          (answer = true → reply.roster.cache.getParameter account name none = .ok value)) ∧
      (∀ answer,
        let reply := r.setAttribute account name none w
        reply.answer = .ok answer →
          (∀ type, reply.roster.cache.getAttribute account name type =
            .error (.notStored account name)) ∧
          reply.roster.cache.text? account name = none) ∧
      (∀ answer,
        let reply := r.setParameter account name none w
        reply.answer = .ok answer →
          (∀ type, reply.roster.cache.getParameter account name type =
            .error (.notStored account (FlatKey.ofParameter name))) ∧
          reply.roster.cache.text? account (FlatKey.ofParameter name) = none) ∧
      ∀ value,
        r.ReadsAlikeBut account (.attr name) (r.setAttribute account name value w).roster ∧
        r.ReadsAlikeBut account (.param name) (r.setParameter account name value w).roster := by
  refine ⟨?_, ?_, ?_, ?_, ?_⟩
  · exact fun value answer h => getAttribute_setAttribute h
  · exact fun value answer h hnan => getParameter_setParameter hs h hnan
  · exact fun answer h => getAttribute_setAttribute_none h
  · exact fun answer h => getParameter_setParameter_none h
  · exact fun value => ⟨readsAlikeBut_setAttribute value, readsAlikeBut_setParameter value⟩

/-- A number that was pushed as a text is not changed by a write of that number, and is
read as the number all the same. -/
theorem write_reads_back_pushed_text :
    let pushed := (({} : Cache).insert "a" (Record.new 0)).take
      (.text "a" "param-port" (some "5222"))
    let reply := ({ cache := pushed } : Roster Unit).setParameter "a" "port"
      (some (.uint32 5222)) ()
    reply.answer = .ok false ∧
      ∃ read, reply.roster.cache.getParameter "a" "port" (some .uint32) = .ok read ∧
        read.agrees (.uint32 5222) = true := by
  intro pushed reply
  have hs : pushed.codec.Safe := show Codec.defaultSeparator ∉ Escape.letters by decide
  have hanswer : reply.answer = .ok false := Except.eq_ok_of_toOption (by decide +kernel)
  obtain ⟨-, hparameter, -⟩ := write_reads_back ({ cache := pushed } : Roster Unit) hs "a" "port" ()
  exact ⟨hanswer, (hparameter (.uint32 5222) false hanswer rfl).1⟩

end Roster

end AccountRoster
