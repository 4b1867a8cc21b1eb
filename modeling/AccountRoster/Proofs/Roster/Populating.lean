import AccountRoster.Proofs.Roster.Loading
import AccountRoster.Roster.Identification

/-!
# Filling an account that has just been created

A record of which nothing is known takes the manager, the protocol and all parameters
of a new account, one write after the other. None of these writes can be refused, so
that an account that was created is also filled.

## Implementation notes

Every write goes to a place of the record where nothing stands. It therefore changes
something, also where the value is one that does not agree with itself.
-/

namespace AccountRoster

namespace Record

/-- The record of an account that was created and filled. -/
def ofCreation (owner : Nat) (manager protocol : String) (parameters : Parameters) : Record where
  owner := owner
  attributes := (Dict.empty.insert Schema.manager (.string manager)).insert Schema.protocol
    (.string protocol)
  typed := parameters
  escaped := Dict.empty
  secrets := Dict.empty

/-- Put parameters in, one after the other. -/
def putAll (r : Record) (parameters : List (String × Value)) : Record :=
  parameters.foldl (fun r e => r.putTyped e.1 (some e.2)) r

/-- Parameters are put in as values if no texts are in their way. -/
theorem putAll_of_no_texts {r : Record} (h : r.escaped = Dict.empty)
    (parameters : List (String × Value)) :
    r.putAll parameters =
      { r with typed := parameters.foldl (fun d e => d.insert e.1 e.2) r.typed } := by
  induction parameters generalizing r with
  | nil => rfl
  | cons e more ih =>
      have herased : r.escaped.erase e.1 = Dict.empty := by
        rw [h]
        exact Dict.erase_of_get? (Dict.get?_empty e.1)
      have hput : r.putTyped e.1 (some e.2) =
          { r with typed := r.typed.insert e.1 e.2 } := by
        rw [putTyped, herased, ← h]
        rfl
      rw [putAll, List.foldl_cons, hput]
      exact ih h

/-- The record of a new account with its manager and its protocol. -/
def named (owner : Nat) (manager protocol : String) : Record :=
  ((new owner).putAttribute Schema.manager (some (.string manager))).putAttribute
    Schema.protocol (some (.string protocol))

theorem putAll_named (owner : Nat) (manager protocol : String) (parameters : Parameters) :
    (named owner manager protocol).putAll parameters.entries =
      ofCreation owner manager protocol parameters := by
  rw [putAll_of_no_texts rfl]
  exact congrArg (fun typed => { ofCreation owner manager protocol parameters with typed })
    (Dict.ofList_entries parameters)

end Record

theorem Cache.insert_of_record? {c : Cache} {account : String} {record : Record}
    (h : c.record? account = some record) : c.insert account record = c :=
  congrArg (Cache.mk c.codec) (Dict.insert_of_get? h)

theorem Codec.coerce_string (codec : Codec) (text : String) :
    codec.coerce (.string text) .string = .ok (.string text) :=
  coerce_type

namespace Roster

variable {W : Type} {r : Roster W} {account : String} {record : Record}

/-- The roster with another record of an account. -/
def recording (r : Roster W) (account : String) (record : Record) : Roster W :=
  { r with cache := r.cache.insert account record }

@[simp] theorem record?_recording (r : Roster W) (account : String) (record : Record) :
    (r.recording account record).cache.record? account = some record :=
  Cache.record?_insert_self _ _ _

@[simp] theorem recording_recording (r : Roster W) (account : String) (a b : Record) :
    (r.recording account a).recording account b = r.recording account b :=
  congrArg (fun c => { r with cache := c }) (r.cache.insert_insert account a b)

theorem recording_self (h : r.cache.record? account = some record) :
    r.recording account record = r :=
  congrArg (fun c => { r with cache := c }) (Cache.insert_of_record? h)

/-- An account for which nothing is pushed is entered as one of which nothing is known. -/
theorem addCreated_of_silent {p : Registered W} (hnew : r.cache.record? account = none) {w : W}
    (hsilent : ∀ c : Cache, (p.plugin.get c account none w).2.1 = []) :
    ∃ w', r.addCreated p account w =
      ⟨.ok account, r.recording account (Record.new p.id), w'⟩ := by
  let entered := r.recording account (Record.new p.id)
  have hfetch : (entered.fetch p.plugin account none w).roster = entered := by
    rw [fetch, hsilent]
    rfl
  have hadd : r.addAccount p account w =
      ⟨.ok (), entered, (entered.fetch p.plugin account none w).world⟩ := by
    rw [addAccount, hnew]
    exact congrArg (Reply.mk (.ok ()) · _) hfetch
  exact ⟨_, congrArg (Reply.andThen · fun _ r w => ⟨.ok account, r, w⟩) hadd⟩

/-- A text attribute of the schema is set where none stands. -/
theorem setString_of_absent (h : r.cache.record? account = some record) {name : String}
    (hname : FlatKey.isParameter name = false) (htype : Schema.attributeType name = some .string)
    (habsent : record.attributes.get? name = none) (text : String) (w : W) :
    ∃ w', r.setString account name (some text) w =
      ⟨.ok true, r.recording account (record.putAttribute name (some (.string text))), w'⟩ := by
  have hvalue : r.cache.attributeValue name (some (.string text)) = .ok (some (.string text)) := by
    rw [Cache.attributeValue, htype]
    dsimp only
    rw [Codec.coerce_string]
  have hplan : r.cache.planAttribute account name (some (.string text)) =
      .ok (some (r.cache.insert account (record.putAttribute name (some (.string text))),
        { account, key := name, value := some (.string text) })) := by
    rw [Cache.planAttribute, hname, hvalue, Cache.find, h]
    dsimp only
    rw [habsent]
    rfl
  exact ⟨_, congrArg (r.carryOut w) hplan⟩

/-- A parameter is set where none stands. -/
theorem setParameter_of_absent (h : r.cache.record? account = some record) {name : String}
    (htyped : record.typed.get? name = none) (hescaped : record.escaped.get? name = none)
    (value : Value) (w : W) :
    ∃ w', r.setParameter account name (some value) w =
      ⟨.ok true, r.recording account (record.putTyped name (some value)), w'⟩ := by
  have hchanges : r.cache.changesParameter record name (some value) = true := by
    rw [Cache.changesParameter, htyped, hescaped]
    rfl
  have hplan : r.cache.planParameter account name (some value) =
      .ok (some (r.cache.insert account (record.putTyped name (some value)),
        { account, key := FlatKey.ofParameter name, value := some value,
          secret := record.isSecret name })) := by
    rw [Cache.planParameter, Cache.find, h]
    exact if_pos hchanges
  exact ⟨_, congrArg (r.carryOut w) hplan⟩

/-- Parameters of different names are set where none of them stands. -/
theorem setParameters_of_absent {parameters : List (String × Value)}
    (hsorted : parameters.Pairwise fun a b => a.1 < b.1)
    (h : r.cache.record? account = some record)
    (habsent : ∀ e ∈ parameters,
      record.typed.get? e.1 = none ∧ record.escaped.get? e.1 = none) (w : W) :
    ∃ w', setParameters account parameters r w =
      ⟨.ok (), r.recording account (record.putAll parameters), w'⟩ := by
  induction parameters generalizing r record w with
  | nil =>
      refine ⟨w, ?_⟩
      rw [setParameters, Record.putAll, List.foldl_nil, recording_self h]
  | cons e more ih =>
      obtain ⟨hfirst, hmore⟩ := List.pairwise_cons.mp hsorted
      obtain ⟨⟨htyped, hescaped⟩, hrest⟩ := List.forall_mem_cons.mp habsent
      obtain ⟨w', hset⟩ := setParameter_of_absent h htyped hescaped e.2 w
      have hstill : ∀ e' ∈ more, (record.putTyped e.1 (some e.2)).typed.get? e'.1 = none ∧
          (record.putTyped e.1 (some e.2)).escaped.get? e'.1 = none := by
        intro e' he'
        have hne : e.1 ≠ e'.1 := String.ne_of_lt (hfirst e' he')
        rw [Record.typed_putTyped, Record.escaped_putTyped, if_neg hne, if_neg hne]
        exact hrest e' he'
      obtain ⟨w'', hset'⟩ := ih hmore (r.record?_recording account _) hstill w'
      refine ⟨w'', ?_⟩
      rw [setParameters, hset]
      dsimp only [Reply.andThen]
      rw [hset', recording_recording]
      rfl

/-- An account of which nothing is known is filled. -/
theorem populate_of_new {owner : Nat} (h : r.cache.record? account = some (Record.new owner))
    (manager protocol : String) (parameters : Parameters) (w : W) :
    ∃ w', r.populate account manager protocol parameters w =
      ⟨.ok account, r.recording account (Record.ofCreation owner manager protocol parameters),
        w'⟩ := by
  have hnew : (Record.new owner).attributes.get? Schema.manager = none := rfl
  obtain ⟨w₁, hmanager⟩ := setString_of_absent h (by decide) (by decide) hnew manager w
  have hother : ((Record.new owner).putAttribute Schema.manager
      (some (.string manager))).attributes.get? Schema.protocol = none := by
    rw [Record.attributes_putAttribute]
    exact if_neg (by decide)
  obtain ⟨w₂, hprotocol⟩ := setString_of_absent (r.record?_recording account _) (by decide)
    (by decide) hother protocol w₁
  rw [recording_recording, ← Record.named] at hprotocol
  have hnone : ∀ e ∈ parameters.entries,
      (Record.named owner manager protocol).typed.get? e.1 = none ∧
        (Record.named owner manager protocol).escaped.get? e.1 = none :=
    fun _ _ => ⟨rfl, rfl⟩
  obtain ⟨w₃, hparameters⟩ := setParameters_of_absent parameters.sorted
    (r.record?_recording account _) hnone w₂
  rw [recording_recording, Record.putAll_named] at hparameters
  refine ⟨w₃, ?_⟩
  rw [populate, hmanager]
  dsimp only [Reply.andThen]
  rw [hprotocol]
  dsimp only
  rw [hparameters]

end Roster

end AccountRoster
