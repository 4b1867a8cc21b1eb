import AccountRoster.Proofs.Keyfile.Surviving
import AccountRoster.Proofs.Roster.WriteThrough

/-!
# What a new reader finds

A roster that loads the texts of another one, each of them changed in some way,
answers as the other one does exactly if every changed text still reads as what
was cached.

## Implementation notes

The change is the identity for a file that was not written since it was read, and
`Keyfile.settle` for one that was. A parameter is compared through the type of its
cached value, since a text alone does not tell the type.
-/

namespace AccountRoster

variable {ε : Type}

/-- A new cache answers as the old one does: it has the same accounts, every
attribute, and every parameter that a key-file can hold and that is a number or no
double. -/
structure Cache.Persists (c d : Cache) : Prop where
  accounts : ∀ account, d.contains account = c.contains account
  attributes : ∀ account name, d.getAttribute account name none = c.getAttribute account name none
  parameters : ∀ account name v, Keyfile.isKeyName (FlatKey.ofParameter name) = true →
    c.getParameter account name none = .ok v → v.isNan = false →
      d.getParameter account name (some v.type) = .ok v

/-- Every text of a key-file reads as what is cached after a change of the texts. -/
structure ReadsAfter (codec : Codec) (change : String → String) (c : Cache) (f : Keyfile) :
    Prop where
  attributes : ∀ account name text, FlatKey.isParameter name = false →
    f.value? account name = some text →
      codec.readAttribute name (change text) = codec.readAttribute name text
  parameters : ∀ account name text v, Keyfile.isKeyName (FlatKey.ofParameter name) = true →
    f.value? account (FlatKey.ofParameter name) = some text →
      c.getParameter account name none = .ok v → v.isNan = false →
        codec.unescape (change text) v.type = .ok v

namespace Cache

variable {c d : Cache} {account : String} {record : Record}

theorem getAttribute_of_record (h : c.record? account = some record) (name : String) :
    c.getAttribute account name none =
      (record.attributes.get? name).elim (.error (.notStored account name)) .ok := by
  rw [getAttribute, find, h]
  dsimp only
  cases record.attributes.get? name <;> rfl

theorem getAttribute_of_none (h : c.record? account = none) (name : String) :
    c.getAttribute account name none = .error (.accountNotFound account) := by
  rw [getAttribute, find, h]

/-- A parameter that is read without a type is typed, or a text that is read as a
string. -/
theorem getParameter_eq_ok (h : c.record? account = some record) {name : String} {v : Value}
    (hread : c.getParameter account name none = .ok v) :
    record.parameterText? c.codec name = some (c.codec.escape v) ∨
      ∃ text, record.parameterText? c.codec name = some text ∧
        c.codec.unescape text v.type = .ok v := by
  rw [getParameter, find, h] at hread
  dsimp only at hread
  rw [Record.parameterText?]
  cases htyped : record.typed.get? name with
  | some old =>
      rw [htyped] at hread
      cases hread
      exact Or.inl rfl
  | none =>
      rw [htyped] at hread
      dsimp only at hread
      cases hescaped : record.escaped.get? name with
      | none =>
          rw [hescaped] at hread
          cases hread
      | some text =>
          rw [hescaped] at hread
          cases hunescape : c.codec.unescape text .string with
          | error fault =>
              dsimp only [Option.getD_none] at hread
              rw [hunescape] at hread
              cases hread
          | ok value =>
              dsimp only [Option.getD_none] at hread
              rw [hunescape] at hread
              cases hread
              refine Or.inr ⟨text, rfl, ?_⟩
              rw [Codec.type_of_unescape hunescape, hunescape]

/-- A loaded parameter is read off its text. -/
theorem getParameter_ofKeyfile {codec : Codec} {f : Keyfile} {entries : Dict String}
    (h : f.groups.get? account = some entries) (name : String) (type : ValueType) :
    (ofKeyfile codec 0 f).getParameter account name (some type) =
      match entries.get? (FlatKey.ofParameter name) with
      | some text => liftCodec (codec.unescape text type)
      | none => .error (.notStored account (FlatKey.ofParameter name)) := by
  rw [getParameter, find, record?_ofKeyfile, h, Option.map_some]
  dsimp only
  rw [Record.typed_ofEntries, Record.escaped_ofEntries]
  rfl

end Cache

namespace Codec

variable {codec : Codec} {entries : Dict String} {name : String}

theorem attributeOf_of_get? (hname : FlatKey.isParameter name = false) {text : String}
    (h : entries.get? name = some text) :
    codec.attributeOf entries name = codec.readAttribute name text := by
  rw [attributeOf, hname, if_neg Bool.false_ne_true, h, Option.bind_some]

/-- An attribute stays if its text goes on to read as it. -/
theorem attributeOf_map {change : String → String}
    (h : ∀ text, FlatKey.isParameter name = false → entries.get? name = some text →
      codec.readAttribute name (change text) = codec.readAttribute name text) :
    codec.attributeOf (entries.map change) name = codec.attributeOf entries name := by
  rw [attributeOf, attributeOf, Dict.get?_map]
  cases hname : FlatKey.isParameter name with
  | true => rfl
  | false =>
      cases htext : entries.get? name with
      | none => rfl
      | some text => exact h text hname htext

end Codec

/-- What is answered for a value that may be missing tells which it is. -/
theorem Except.answer_injective {ε α : Type} {e : ε} {a b : Option α}
    (h : a.elim (Except.error e) Except.ok = b.elim (Except.error e) Except.ok) : a = b := by
  cases a with
  | none =>
      cases b with
      | none => rfl
      | some w => cases h
  | some v =>
      cases b with
      | none => cases h
      | some w =>
          cases h
          rfl

namespace Coherent

variable {codec : Codec} {slot : Nat} {identifier : Option (Identifier (World ε))}
  {s : Running (World ε)}

/-- The text of a parameter that is read without a type. -/
theorem exists_text (h : Coherent codec slot identifier s) {account name : String} {v : Value}
    (hname : Keyfile.isKeyName (FlatKey.ofParameter name) = true)
    (hread : s.roster.cache.getParameter account name none = .ok v) :
    ∃ text, (s.world.keyfiles slot).file.value? account (FlatKey.ofParameter name) = some text ∧
      (text = codec.escape v ∨ codec.unescape text v.type = .ok v) := by
  rcases h.account_cases account with
    ⟨hnone, -⟩ | ⟨record, entries, hsome, hgroup, hmirrors⟩
  · rw [Cache.getParameter, Cache.find, hnone] at hread
    cases hread
  · have htext := hmirrors.parameters name hname
    have hvalue : (s.world.keyfiles slot).file.value? account (FlatKey.ofParameter name) =
        entries.get? (FlatKey.ofParameter name) := by
      rw [Keyfile.value?, Keyfile.entries_of_get? hgroup]
    rw [hvalue, ← htext, ← h.codec_eq]
    rcases Cache.getParameter_eq_ok hsome hread with hescape | ⟨text, hstored, hunescape⟩
    · exact ⟨_, hescape, Or.inl rfl⟩
    · exact ⟨text, hstored, Or.inr hunescape⟩

/-- Texts that are left as they are read as what is cached. -/
theorem readsAfter_id (hsafe : codec.Safe) (h : Coherent codec slot identifier s) :
    ReadsAfter codec id s.roster.cache (s.world.keyfiles slot).file where
  attributes := fun _ _ _ _ _ => rfl
  parameters := by
    intro account name text v hname htext hread hnan
    obtain ⟨stored, hstored, hreads⟩ := h.exists_text hname hread
    rw [htext] at hstored
    cases hstored
    rcases hreads with rfl | hunescape
    · exact Codec.unescape_escape hsafe hnan
    · exact hunescape

/-- Settling changes nothing in a file that is settled. -/
theorem readsAfter_settle (hsafe : codec.Safe) (h : Coherent codec slot identifier s)
    (hsettled : (s.world.keyfiles slot).file.settled = (s.world.keyfiles slot).file) :
    ReadsAfter codec Keyfile.settle s.roster.cache (s.world.keyfiles slot).file := by
  have hid := h.readsAfter_id hsafe
  have hsettle := Keyfile.settled_eq_self_iff.mp hsettled
  refine ⟨fun account name text hname htext => ?_, fun account name text v hname htext => ?_⟩
  · rw [hsettle account name text htext]
  · rw [hsettle _ _ text htext]
    exact hid.parameters account name text v hname htext

/-- A cache made from a file with changed texts answers as before exactly if every
changed text still reads as what is cached. -/
theorem persists_iff (h : Coherent codec slot identifier s) (change : String → String)
    {g : Keyfile} (hgroups : ∀ account, g.groups.get? account =
      ((s.world.keyfiles slot).file.groups.get? account).map fun entries => entries.map change) :
    s.roster.cache.Persists (Cache.ofKeyfile codec 0 g) ↔
      ReadsAfter codec change s.roster.cache (s.world.keyfiles slot).file := by
  constructor
  · intro hpersists
    refine ⟨fun account name text hname htext => ?_, fun account name text v hname htext => ?_⟩
    · rcases h.account_cases account with
        ⟨-, hnone⟩ | ⟨record, entries, hsome, hgroup, hmirrors⟩
      · rw [Keyfile.get?_of_value? htext] at hnone
        cases hnone
      · rw [Keyfile.value?, Keyfile.entries_of_get? hgroup] at htext
        have hnew := Cache.record?_ofKeyfile codec 0 g account
        rw [hgroups, hgroup, Option.map_some, Option.map_some] at hnew
        have hsame := hpersists.attributes account name
        rw [Cache.getAttribute_of_record hnew, Cache.getAttribute_of_record hsome,
          Record.attributes_ofEntries, hmirrors.attributes, Codec.attributeOf_of_get? hname htext,
          Codec.attributeOf_of_get? hname (Dict.get?_map_of_get? change htext)] at hsame
        exact Except.answer_injective hsame
    · intro hread hnan
      have hnew : g.groups.get? account =
          some (((s.world.keyfiles slot).file.entries account).map change) := by
        rw [hgroups, Keyfile.get?_of_value? htext, Option.map_some]
      have hsame := hpersists.parameters account name v hname hread hnan
      rw [Cache.getParameter_ofKeyfile hnew, Dict.get?_map_of_get? change htext] at hsame
      exact liftCodec_eq_ok hsame
  · intro hreads
    refine ⟨fun account => ?_, fun account name => ?_, fun account name v hname hread hnan => ?_⟩
    · change Option.isSome (Cache.record? _ account) = (s.roster.cache.record? account).isSome
      rw [Cache.record?_ofKeyfile, hgroups]
      rcases h.account_cases account with ⟨hnone, hgroup⟩ | ⟨_, _, hsome, hgroup, -⟩
      · rw [hnone, hgroup]
        rfl
      · rw [hsome, hgroup]
        rfl
    · have hnew := Cache.record?_ofKeyfile codec 0 g account
      rw [hgroups] at hnew
      rcases h.account_cases account with
        ⟨hnone, hgroup⟩ | ⟨record, entries, hsome, hgroup, hmirrors⟩
      · rw [hgroup] at hnew
        rw [Cache.getAttribute_of_none hnew, Cache.getAttribute_of_none hnone]
      · rw [hgroup, Option.map_some, Option.map_some] at hnew
        rw [Cache.getAttribute_of_record hnew, Cache.getAttribute_of_record hsome,
          Record.attributes_ofEntries, hmirrors.attributes]
        rw [Codec.attributeOf_map fun text hname htext => hreads.attributes account name text hname
          (by rw [Keyfile.value?, Keyfile.entries_of_get? hgroup, htext])]
    · obtain ⟨text, htext, -⟩ := h.exists_text hname hread
      have hnew : g.groups.get? account =
          some (((s.world.keyfiles slot).file.entries account).map change) := by
        rw [hgroups, Keyfile.get?_of_value? htext, Option.map_some]
      rw [Cache.getParameter_ofKeyfile hnew, Dict.get?_map_of_get? change htext]
      exact congrArg liftCodec (hreads.parameters account name text v hname htext hread hnan)

end Coherent

end AccountRoster
