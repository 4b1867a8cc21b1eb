import AccountRoster.Command
import AccountRoster.Proofs.Cache.FlatKeys
import AccountRoster.Proofs.Roster.Operations

/-!
# Secrets are not shown

What a command prints of an account tells nothing of its secret parameters but their
names. Two rosters that differ in secrets only are shown alike, whatever is stored of a
secret and in whichever form: a value, a text, or a text that cannot be read.

## Implementation notes

Two records that differ in secrets have the same names of parameters, but one may keep a
name among its values where the other keeps it among its texts. The listing therefore has
to be compared as a whole (`Record.flatKeys_congr`); everything else that is read of a
parameter is read under one name.
-/

namespace AccountRoster

variable {W : Type}

/-- Two records with the same attributes and the same parameters, but for what is stored of
the secret ones. -/
structure Record.SameButSecrets (r r' : Record) : Prop where
  owner : r.owner = r'.owner
  attributes : r.attributes = r'.attributes
  secrets : r.secrets = r'.secrets
  names : ∀ name, r.hasParameter name = r'.hasParameter name
  others : ∀ name, r.isSecret name = false →
    r.typed.get? name = r'.typed.get? name ∧ r.escaped.get? name = r'.escaped.get? name

/-- Two rosters with the same plugins and the same accounts, but for their secrets. -/
structure Roster.SameButSecrets (r r' : Roster W) : Prop where
  registry : r.registry = r'.registry
  codec : r.cache.codec = r'.cache.codec
  records : ∀ account, Option.Rel Record.SameButSecrets (r.cache.record? account)
    (r'.cache.record? account)

namespace Record.SameButSecrets

variable {r r' : Record}

theorem isSecret (h : r.SameButSecrets r') (name : String) : r.isSecret name = r'.isSecret name :=
  congrArg (Names.has · name) h.secrets

theorem flatKeys (h : r.SameButSecrets r') (hr : r.Consistent) (hr' : r'.Consistent) :
    r.flatKeys = r'.flatKeys :=
  flatKeys_congr hr hr' h.attributes h.names

theorem parameterText? (h : r.SameButSecrets r') (codec : Codec) {name : String}
    (hopen : r.isSecret name = false) :
    r.parameterText? codec name = r'.parameterText? codec name := by
  obtain ⟨htyped, hescaped⟩ := h.others name hopen
  rw [Record.parameterText?, Record.parameterText?, htyped, hescaped]

end Record.SameButSecrets

/-- A value and a text of one secret make records that differ in secrets only. -/
theorem Record.sameButSecrets_put {r : Record} {name : String} (hsecret : r.isSecret name = true)
    (v : Value) (text : String) :
    (r.putTyped name (some v)).SameButSecrets (r.putEscaped name (some text)) where
  owner := rfl
  attributes := rfl
  secrets := rfl
  names other := by
    rw [hasParameter, hasParameter, Dict.contains_eq, Dict.contains_eq, Dict.contains_eq,
      Dict.contains_eq, typed_putTyped, escaped_putTyped, typed_putEscaped, escaped_putEscaped]
    by_cases heq : name = other
    · simp only [if_pos heq, Option.isSome_some, Option.isSome_none, Bool.or_false, Bool.false_or]
    · simp only [if_neg heq]
  others other hopen := by
    have hne : name ≠ other := by
      rintro rfl
      exact Bool.false_ne_true (hopen.symm.trans hsecret)
    rw [typed_putTyped, escaped_putTyped, typed_putEscaped, escaped_putEscaped, if_neg hne,
      if_neg hne, if_neg hne, if_neg hne]
    exact ⟨rfl, rfl⟩

theorem Record.SameButSecrets.refl (r : Record) : r.SameButSecrets r where
  owner := rfl
  attributes := rfl
  secrets := rfl
  names _ := rfl
  others _ _ := ⟨rfl, rfl⟩

/-- So do reports of a value and of a text. -/
theorem Roster.sameButSecrets_take (r : Roster W) {account name : String}
    (hsecret : r.cache.isSecret account name = true) (v : Value) (text : String) :
    ({ r with cache := r.cache.take (.param account name (some v) false) } :
      Roster W).SameButSecrets
        { r with cache := r.cache.take (.text account (FlatKey.ofParameter name) (some text)) } where
  registry := rfl
  codec := by
    change (r.cache.modify _ _).codec = (r.cache.modify _ _).codec
    rw [Cache.codec_modify, Cache.codec_modify]
  records other := by
    change Option.Rel _ ((r.cache.modify _ _).record? other) ((r.cache.modify _ _).record? other)
    rw [Cache.record?_modify, Cache.record?_modify]
    split
    next heq =>
      subst heq
      unfold Cache.isSecret at hsecret
      split at hsecret
      next record hrecord =>
        rw [hrecord, Option.map_some, Option.map_some, FlatKey.ofText_ofParameter]
        exact Option.Rel.some (Record.sameButSecrets_put hsecret v text)
      next => cases hsecret
    next =>
      cases r.cache.record? other with
      | none => exact Option.Rel.none
      | some record => exact Option.Rel.some (Record.SameButSecrets.refl record)

namespace Roster.SameButSecrets

variable {r r' : Roster W} (h : r.SameButSecrets r') (account : String)

include h

/-- An account is cached in both rosters, or in neither. -/
theorem record_cases :
    (r.cache.record? account = none ∧ r'.cache.record? account = none) ∨
      ∃ record record', r.cache.record? account = some record ∧
        r'.cache.record? account = some record' ∧ record.SameButSecrets record' := by
  have hrecords := h.records account
  revert hrecords
  cases r.cache.record? account <;> cases r'.cache.record? account
  · exact fun _ => Or.inl ⟨rfl, rfl⟩
  · exact nofun
  · exact nofun
  · exact fun | .some hsame => Or.inr ⟨_, _, rfl, rfl, hsame⟩

theorem convert : r.cache.convert = r'.cache.convert := by
  funext value type
  unfold Cache.convert
  rw [h.codec]

theorem attributeNames : r.cache.attributeNames account = r'.cache.attributeNames account := by
  unfold Cache.attributeNames Cache.find
  rcases h.record_cases account with ⟨hnone, hnone'⟩ | ⟨record, record', hsome, hsome', hsame⟩
  · rw [hnone, hnone']
  · rw [hsome, hsome']
    exact congrArg (fun attributes : Dict Value => Except.ok attributes.keys) hsame.attributes

theorem ownerName : r.ownerName account = r'.ownerName account := by
  unfold Roster.ownerName Cache.find Roster.pluginName Roster.plugin?
  rw [h.registry]
  rcases h.record_cases account with ⟨hnone, hnone'⟩ | ⟨record, record', hsome, hsome', hsame⟩
  · rw [hnone, hnone']
  · rw [hsome, hsome']
    dsimp only [Except.map]
    rw [hsame.owner]

theorem isSecret (name : String) :
    r.cache.isSecret account name = r'.cache.isSecret account name := by
  unfold Cache.isSecret
  rcases h.record_cases account with ⟨hnone, hnone'⟩ | ⟨record, record', hsome, hsome', hsame⟩
  · rw [hnone, hnone']
  · rw [hsome, hsome']
    exact hsame.isSecret name

/-- The keys are listed in the same order, in whichever place a record keeps its secrets. -/
theorem listKeys {owners owners' : Nat → Prop} (hr : r.cache.Sound owners)
    (hr' : r'.cache.Sound owners') : r.cache.listKeys account = r'.cache.listKeys account := by
  unfold Cache.listKeys
  rcases h.record_cases account with ⟨hnone, hnone'⟩ | ⟨record, record', hsome, hsome', hsame⟩
  · rw [hnone, hnone']
  · rw [hsome, hsome']
    exact hsame.flatKeys (hr account record hsome).1 (hr' account record' hsome').1

theorem getAttribute (name : String) (type : Option ValueType) :
    r.cache.getAttribute account name type = r'.cache.getAttribute account name type := by
  unfold Cache.getAttribute Cache.find
  rw [h.convert]
  rcases h.record_cases account with ⟨hnone, hnone'⟩ | ⟨record, record', hsome, hsome', hsame⟩
  · rw [hnone, hnone']
  · rw [hsome, hsome']
    dsimp only
    rw [hsame.attributes]

section Open

variable {name : String} (hopen : r.cache.isSecret account name = false)

include hopen

theorem getParameter (type : Option ValueType) :
    r.cache.getParameter account name type = r'.cache.getParameter account name type := by
  unfold Cache.getParameter Cache.find
  rw [h.convert, h.codec]
  rcases h.record_cases account with ⟨hnone, hnone'⟩ | ⟨record, record', hsome, hsome', hsame⟩
  · rw [hnone, hnone']
  · rw [Cache.isSecret, hsome] at hopen
    obtain ⟨htyped, hescaped⟩ := hsame.others name hopen
    rw [hsome, hsome']
    dsimp only
    rw [htyped, hescaped]

theorem storedParameter :
    Command.storedParameter r.cache account name =
      Command.storedParameter r'.cache account name := by
  unfold Command.storedParameter Cache.text? Record.text?
  rw [FlatKey.ofText_ofParameter, h.codec]
  rcases h.record_cases account with ⟨hnone, hnone'⟩ | ⟨record, record', hsome, hsome', hsame⟩
  · rw [hnone, hnone']
  · rw [Cache.isSecret, hsome] at hopen
    rw [hsome, hsome', Option.bind_some, Option.bind_some]
    dsimp only
    rw [hsame.parameterText? _ hopen]

end Open

/-- A secret is shown as a secret, and any other parameter is the same. -/
theorem shownParameter :
    Command.shownParameter r.cache account = Command.shownParameter r'.cache account := by
  funext name
  unfold Command.shownParameter Command.parameterJson
  rw [← h.isSecret account name]
  cases hsecret : r.cache.isSecret account name with
  | true => rfl
  | false => rw [h.getParameter account hsecret, h.storedParameter account hsecret]

theorem shownAttribute :
    Command.shownAttribute r.cache account = Command.shownAttribute r'.cache account := by
  funext name
  rw [Command.shownAttribute, Command.shownAttribute, h.getAttribute]

theorem accountJson {owners owners' : Nat → Prop} (hr : r.cache.Sound owners)
    (hr' : r'.cache.Sound owners') :
    Command.accountJson r account = Command.accountJson r' account := by
  unfold Command.accountJson
  rw [h.attributeNames, h.shownAttribute, h.shownParameter, h.listKeys account hr hr',
    h.ownerName]

end Roster.SameButSecrets

/-- Two rosters that differ in secrets only, and whose records are consistent, print the same
of every account, or fail with the same error. -/
theorem inspect_conceals_secrets {r r' : Roster W} (h : r.SameButSecrets r')
    (hr : r.cache.Sound r.HasNumber) (hr' : r'.cache.Sound r'.HasNumber) (account : String)
    (w w' : W) :
    (Command.run r w (.inspect account)).answer = (Command.run r' w' (.inspect account)).answer := by
  unfold Command.run Command.look
  dsimp only
  rw [h.accountJson account hr hr']

/-- A password that is reported as a value, and one that is reported as a text which cannot
be read, are shown alike. -/
theorem inspect_conceals_password :
    let memory := MemoryStore.plugin Unit 0 { name := "memory" }
    let start : Running (World Unit) := ⟨Roster.new {}, World.new Disk.empty ()⟩
    let s := start.operateAll [.register memory, .call (.create none "m" "p" "i"),
      .call (.setParameter "m/p/i0" "port" (some (.uint32 5222))),
      .call (.makeSecret "m/p/i0" "password")]
    let known := s.operate (.report (.param "m/p/i0" "password" (some (.string "hunter2")) false))
    let unread := s.operate (.report (.text "m/p/i0" "param-password" (some "\\")))
    known.roster.cache.text? "m/p/i0" "param-password" = some "hunter2" ∧
      unread.roster.cache.text? "m/p/i0" "param-password" = some "\\" ∧
      (Command.run known.roster known.world (.inspect "m/p/i0")).answer =
        (Command.run unread.roster unread.world (.inspect "m/p/i0")).answer := by
  intro memory start s known unread
  have hsame : known.roster.SameButSecrets unread.roster :=
    s.roster.sameButSecrets_take (by decide +kernel) (.string "hunter2") "\\"
  have hleads : start.LeadsTo (fun _ => True) s := start.leadsTo_operateAll fun _ _ _ _ => trivial
  have hknown : start.LeadsTo (fun _ => True) known :=
    hleads.trans (s.leadsTo_operate fun _ _ => trivial)
  have hunread : start.LeadsTo (fun _ => True) unread :=
    hleads.trans (s.leadsTo_operate fun _ _ => trivial)
  exact ⟨by decide +kernel, by decide +kernel, inspect_conceals_secrets hsame
    (hknown.edits.sound nofun) (hunread.edits.sound nofun) "m/p/i0" known.world unread.world⟩

end AccountRoster
