import AccountRoster.Proofs.Roster.Coupling
import AccountRoster.Proofs.Roster.Registry
import AccountRoster.Proofs.Roster.Transcript
import AccountRoster.Roster.Lifecycle

/-!
# Who creates an account

Without a provider the plugins are asked in the order of the registry, up to the first
that creates the account; with one, only the first plugin of that provider is asked. What
a plugin has created is entered unless there is an account of that name, so a creation
either adds that one account or leaves the cache as it is.

## Implementation notes

A plugin is asked in the world that the others have left, so that who has declined is a
matter of the run and not of the registry. A `Search` is what there is to say about it: the
answers that were given, and who has ended it. Asking and entering are separate
steps, and `Roster.conclude` is the second of them for either kind of search.
-/

namespace AccountRoster

variable {W : Type}

/-- The account that a plugin has created, by its answer. -/
def Registered.taking (p : Registered W) :
    Except RosterError (Option String) → Option (Registered W × String)
  | .ok (some name) => some (p, name)
  | _ => none

/-- How plugins were asked to create an account: those that have declined or failed, with
their answers, and the one that has created it, with the name. -/
structure Search (W : Type) where
  refusals : List (Registered W × Except RosterError (Option String))
  taker : Option (Registered W × String)

namespace Search

/-- What was answered, in order. -/
def answers (search : Search W) : List (Registered W × Except RosterError (Option String)) :=
  search.refusals ++ search.taker.toList.map fun q => (q.1, .ok (some q.2))

/-- The questions that were asked, in order. -/
def questions (search : Search W) (cache : Cache)
    (creation : Except RosterError (Option String) → Exchange) : List (Consultation W) :=
  search.answers.map fun q => ⟨q.1, cache, creation q.2⟩

end Search

namespace Roster

/-- What is done after plugins were asked to create an account. -/
def conclude (r : Roster W) : Option (Registered W × String) → W → Reply W String
  | none, w => ⟨.error .noStorageAvailable, r, w⟩
  | some (p, name), w => r.addCreated p name w

/-- That a plugin is asked for the data of an account that was entered for it. -/
def Fetch (r : Roster W) (p : Registered W) (name : String) (c : Consultation W) : Prop :=
  ∃ answer pushes,
    c = ⟨p, r.cache.insert name (Record.new p.id), .get name none answer pushes⟩

/-- What is done with the answer of a plugin that was picked. -/
def heed (r : Roster W) (p : Registered W) :
    Except RosterError (Option String) → W → Reply W String
  | .ok (some name), w => r.addCreated p name w
  | .ok none, w => ⟨.error (.storage (p.plugin.name ++ " declined to create the account")), r, w⟩
  | .error e, w => ⟨.error e, r, w⟩

/-- What comes of an account that a plugin has created, if one has. -/
structure Admits (r : Roster W) (taker : Option (Registered W × String))
    (reply : Reply W String) (fetches : List (Consultation W)) : Prop where
  /-- The name is answered if the account is new. -/
  ok_iff : ∀ name, reply.answer = .ok name ↔
    ∃ p, taker = some (p, name) ∧ r.cache.record? name = none
  /-- An account of that name is a conflict between its owner and the plugin. -/
  conflict : ∀ p name record, taker = some (p, name) → r.cache.record? name = some record →
    reply.answer =
      .error (.accountConflict name (r.pluginName record.owner) p.plugin.name)
  /-- The account is all that the cache gains, and the plugin owns it. -/
  gains : ∀ p name, taker = some (p, name) → reply.answer = .ok name →
    r.cache.Enters name p.id reply.roster.cache ∧ reply.roster.owner? name = some p.plugin
  unchanged : ∀ e, reply.answer = .error e → reply.roster = r
  /-- Beyond the creation, the plugin is asked for the data of the account at most. -/
  fetched : ∀ c ∈ fetches, ∃ p name, taker = some (p, name) ∧ r.Fetch p name c

/-- How a creation without a provider goes. -/
structure Arbitrates (r : Roster W) (creation : Except RosterError (Option String) → Exchange)
    (search : Search W) (reply : Reply W String) (log : List (Consultation W)) : Prop where
  /-- The plugins that are asked are the first of the registry, in its order. -/
  inOrder : search.answers.map Prod.fst <+: r.registry
  /-- Unless one of them creates the account, the whole registry is asked. -/
  exhausted : search.taker = none → search.refusals.map Prod.fst = r.registry
  /-- All have declined or failed but the one that ends the search. -/
  refused : ∀ q ∈ search.refusals, ∀ name, q.2 ≠ .ok (some name)
  asked : ∃ fetches, log = search.questions r.cache creation ++ fetches ∧
    r.Admits search.taker reply fetches
  /-- There is no fourth answer. -/
  answered : (∃ name, reply.answer = .ok name) ∨
    (∃ name old new, reply.answer = .error (.accountConflict name old new)) ∨
    reply.answer = .error .noStorageAvailable
  conflict_iff : ∀ name old new, reply.answer = .error (.accountConflict name old new) ↔
    ∃ p record, search.taker = some (p, name) ∧ r.cache.record? name = some record ∧
      old = r.pluginName record.owner ∧ new = p.plugin.name
  /-- Nobody can store the account if every plugin has declined or failed. -/
  nobody_iff : reply.answer = .error .noStorageAvailable ↔
    search.refusals.map Prod.fst = r.registry

/-- How a creation goes for which one plugin was picked, by what that plugin answers. -/
structure Picks (r : Roster W) (creation : Except RosterError (Option String) → Exchange)
    (p : Registered W) (answer : Except RosterError (Option String)) (reply : Reply W String)
    (log : List (Consultation W)) : Prop where
  asked : ∃ fetches, log = ⟨p, r.cache, creation answer⟩ :: fetches ∧
    r.Admits (p.taking answer) reply fetches
  declined : answer = .ok none →
    reply.answer = .error (.storage (p.plugin.name ++ " declined to create the account"))
  failed : ∀ e, answer = .error e → reply.answer = .error e

variable {r : Roster W} {manager protocol identification : String}

/-! ### The account that was created -/

theorem addCreated_of_some {p : Registered W} {name : String} {record : Record}
    (h : r.cache.record? name = some record) (w : W) :
    r.addCreated p name w =
      ⟨.error (.accountConflict name (r.pluginName record.owner) p.plugin.name), r, w⟩ := by
  rw [addCreated, addAccount, h]
  rfl

theorem addCreated_of_none {p : Registered W} {name : String}
    (h : r.cache.record? name = none) (w : W) :
    r.addCreated p name w =
      let entered : Roster W := { r with cache := r.cache.insert name (Record.new p.id) }
      ⟨.ok name, (entered.fetch p.plugin name none w).roster,
        (entered.fetch p.plugin name none w).world⟩ := by
  rw [addCreated, addAccount, h]
  rfl

theorem addCreated_transcribed (r : Roster W) (p : Registered W) (name : String) (w : W)
    (log : List (Consultation W)) :
    ∃ fetches, r.transcribed.addCreated p.transcribed name (w, log) =
        (r.addCreated p name w).transcribed (log ++ fetches) ∧
      ∀ c ∈ fetches, r.Fetch p name c := by
  cases hrecord : r.cache.record? name with
  | some record =>
      have hrecord' : r.transcribed.cache.record? name = some record := hrecord
      refine ⟨[], ?_, fun c hc => absurd hc List.not_mem_nil⟩
      rw [addCreated_of_some hrecord, addCreated_of_some hrecord', pluginName_transcribed,
        List.append_nil]
      rfl
  | none =>
      have hrecord' : r.transcribed.cache.record? name = none := hrecord
      let entered := r.cache.insert name (Record.new p.id)
      let got := p.plugin.get entered name none w
      rw [addCreated_of_none hrecord, addCreated_of_none hrecord']
      refine ⟨[⟨p, entered, .get name none got.1 got.2.1⟩], rfl, fun c hc => ?_⟩
      exact ⟨got.1, got.2.1, List.mem_singleton.mp hc⟩

theorem conclude_transcribed (r : Roster W) (taker : Option (Registered W × String)) (w : W)
    (log : List (Consultation W)) :
    ∃ fetches,
      r.transcribed.conclude (taker.map fun q => (q.1.transcribed, q.2)) (w, log) =
        (r.conclude taker w).transcribed (log ++ fetches) ∧
      ∀ c ∈ fetches, ∃ p name, taker = some (p, name) ∧ r.Fetch p name c := by
  cases taker with
  | none =>
      refine ⟨[], ?_, fun c hc => absurd hc List.not_mem_nil⟩
      rw [List.append_nil]
      rfl
  | some q =>
      obtain ⟨p, name⟩ := q
      obtain ⟨fetches, hsame, hfetches⟩ := r.addCreated_transcribed p name w log
      exact ⟨fetches, hsame, fun c hc => ⟨p, name, rfl, hfetches c hc⟩⟩

section Conclusion

variable {taker : Option (Registered W × String)}

theorem answer_conclude_ok_iff (w : W) (name : String) :
    (r.conclude taker w).answer = .ok name ↔
      ∃ p, taker = some (p, name) ∧ r.cache.record? name = none := by
  constructor
  · intro h
    cases taker with
    | none => cases h
    | some q =>
        obtain ⟨p, other⟩ := q
        rw [conclude] at h
        cases hrecord : r.cache.record? other with
        | some record =>
            rw [addCreated_of_some hrecord] at h
            cases h
        | none =>
            rw [addCreated_of_none hrecord] at h
            cases h
            exact ⟨p, rfl, hrecord⟩
  · rintro ⟨p, rfl, hrecord⟩
    rw [conclude, addCreated_of_none hrecord]

theorem answer_conclude_conflict_iff (w : W) (name old new : String) :
    (r.conclude taker w).answer = .error (.accountConflict name old new) ↔
      ∃ p record, taker = some (p, name) ∧ r.cache.record? name = some record ∧
        old = r.pluginName record.owner ∧ new = p.plugin.name := by
  constructor
  · intro h
    cases taker with
    | none => cases h
    | some q =>
        obtain ⟨p, other⟩ := q
        rw [conclude] at h
        cases hrecord : r.cache.record? other with
        | some record =>
            rw [addCreated_of_some hrecord] at h
            cases h
            exact ⟨p, record, rfl, hrecord, rfl, rfl⟩
        | none =>
            rw [addCreated_of_none hrecord] at h
            cases h
  · rintro ⟨p, record, rfl, hrecord, rfl, rfl⟩
    rw [conclude, addCreated_of_some hrecord]

theorem answer_conclude_nobody_iff (w : W) :
    (r.conclude taker w).answer = .error .noStorageAvailable ↔ taker = none := by
  constructor
  · intro h
    cases taker with
    | none => rfl
    | some q =>
        obtain ⟨p, name⟩ := q
        rw [conclude] at h
        cases hrecord : r.cache.record? name with
        | some record =>
            rw [addCreated_of_some hrecord] at h
            cases h
        | none =>
            rw [addCreated_of_none hrecord] at h
            cases h
  · rintro rfl
    rfl

/-- The account is new, or it is a conflict, or nobody has created one. -/
theorem answer_conclude_cases (w : W) :
    (∃ name, (r.conclude taker w).answer = .ok name) ∨
      (∃ name old new, (r.conclude taker w).answer = .error (.accountConflict name old new)) ∨
      (r.conclude taker w).answer = .error .noStorageAvailable := by
  cases taker with
  | none => exact Or.inr (Or.inr rfl)
  | some q =>
      obtain ⟨p, name⟩ := q
      rw [conclude]
      cases hrecord : r.cache.record? name with
      | none =>
          rw [addCreated_of_none hrecord]
          exact Or.inl ⟨name, rfl⟩
      | some record =>
          rw [addCreated_of_some hrecord]
          exact Or.inr (Or.inl ⟨name, _, _, rfl⟩)

/-- A plugin of the registry enters what it has created, or nothing changes. -/
theorem admits_conclude (hids : (r.registry.map Registered.id).Nodup)
    (hown : ∀ p ∈ r.registry, p.plugin.PushesOwn)
    (htaker : ∀ p name, taker = some (p, name) → p ∈ r.registry) (w : W)
    {fetches : List (Consultation W)}
    (hfetches : ∀ c ∈ fetches, ∃ p name, taker = some (p, name) ∧ r.Fetch p name c) :
    r.Admits taker (r.conclude taker w) fetches where
  ok_iff := answer_conclude_ok_iff w
  conflict p name record h hrecord :=
    (answer_conclude_conflict_iff w _ _ _).mpr ⟨p, record, h, hrecord, rfl, rfl⟩
  gains p name h hanswer := by
    obtain ⟨-, -, hrecord⟩ := (answer_conclude_ok_iff w name).mp hanswer
    have hp := htaker p name h
    rw [h, conclude, addCreated_of_none hrecord]
    have henters : r.cache.Enters name p.id _ :=
      (r.cache.enters_insert name (Record.new p.id)).takeAll
        (hown p hp (r.cache.insert name (Record.new p.id)) name none w)
    refine ⟨henters, ?_⟩
    obtain ⟨record, hfound, howner⟩ := Option.map_eq_some_iff.mp henters.owner
    have hfind : (r.plugin? record.owner) = some p.plugin := by
      rw [howner]
      exact (plugin?_eq_some_iff hids).mpr hp
    dsimp only
    rw [owner?]
    refine (congrArg (Option.bind · _) hfound).trans ?_
    exact hfind
  unchanged e h := by
    cases taker with
    | none => rfl
    | some q =>
        obtain ⟨p, name⟩ := q
        rw [conclude] at h ⊢
        cases hrecord : r.cache.record? name with
        | some record => rw [addCreated_of_some hrecord]
        | none =>
            rw [addCreated_of_none hrecord] at h
            cases h
  fetched := hfetches

end Conclusion

/-! ### The search -/

theorem create_transcribed {p : Registered W} {cache : Cache} {w w' : W}
    {answer : Except RosterError (Option String)}
    (h : p.plugin.create cache manager protocol identification w = (answer, w'))
    (log : List (Consultation W)) :
    p.transcribed.plugin.create cache manager protocol identification (w, log) =
      (answer, w', log ++ [⟨p, cache, .create manager protocol identification answer⟩]) := by
  change p.consult cache _ (p.plugin.create cache manager protocol identification) (w, log) = _
  rw [Registered.consult, h]

theorem createFirst_cons_of_taken {p : Registered W} {w w' : W} {name : String}
    (h : p.plugin.create r.cache manager protocol identification w = (.ok (some name), w'))
    (more : List (Registered W)) :
    r.createFirst manager protocol identification (p :: more) w = r.addCreated p name w' := by
  rw [createFirst, h]

theorem createFirst_cons_of_refused {p : Registered W} {w w' : W}
    {answer : Except RosterError (Option String)}
    (h : p.plugin.create r.cache manager protocol identification w = (answer, w'))
    (hrefused : ∀ name, answer ≠ .ok (some name)) (more : List (Registered W)) :
    r.createFirst manager protocol identification (p :: more) w =
      r.createFirst manager protocol identification more w' := by
  rw [createFirst, h]
  match answer with
  | .ok (some name) => exact absurd rfl (hrefused name)
  | .ok none => rfl
  | .error e => rfl

/-- Plugins are asked in order until one creates the account. -/
theorem createFirst_searched (r : Roster W) (manager protocol identification : String)
    (plugins : List (Registered W)) (w : W) (log : List (Consultation W)) :
    ∃ (search : Search W) (w' : W),
      search.answers.map Prod.fst <+: plugins ∧
      (search.taker = none → search.refusals.map Prod.fst = plugins) ∧
      (∀ q ∈ search.refusals, ∀ name, q.2 ≠ .ok (some name)) ∧
      r.createFirst manager protocol identification plugins w = r.conclude search.taker w' ∧
      r.transcribed.createFirst manager protocol identification
          (plugins.map Registered.transcribed) (w, log) =
        r.transcribed.conclude (search.taker.map fun q => (q.1.transcribed, q.2))
          (w', log ++ search.questions r.cache (.create manager protocol identification)) := by
  induction plugins generalizing w log with
  | nil =>
      have hlog : log ++ ([] : List (Consultation W)) = log := List.append_nil log
      refine ⟨⟨[], none⟩, w, List.prefix_refl _, fun _ => rfl,
        fun q hq => absurd hq List.not_mem_nil, rfl, ?_⟩
      exact congrArg (Reply.mk (.error .noStorageAvailable) r.transcribed)
        (congrArg (Prod.mk w) hlog.symm)
  | cons p more ih =>
      cases hcreate : p.plugin.create r.cache manager protocol identification w with
      | mk answer w' =>
        have hcreate' := create_transcribed hcreate log
        by_cases htaken : ∃ name, answer = .ok (some name)
        · obtain ⟨name, rfl⟩ := htaken
          refine ⟨⟨[], some (p, name)⟩, w', ⟨more, rfl⟩, nofun,
            fun q hq => absurd hq List.not_mem_nil, createFirst_cons_of_taken hcreate more, ?_⟩
          exact createFirst_cons_of_taken (r := r.transcribed) hcreate' _
        · have hrefused : ∀ name, answer ≠ .ok (some name) := fun name h => htaken ⟨name, h⟩
          obtain ⟨search, w'', horder, hall, hrefusals, hplain, htranscribed⟩ :=
            ih w' (log ++ [⟨p, r.cache, .create manager protocol identification answer⟩])
          refine ⟨⟨(p, answer) :: search.refusals, search.taker⟩, w'', ?_, fun h => ?_, ?_, ?_, ?_⟩
          · exact (List.cons_prefix_cons).mpr ⟨rfl, horder⟩
          · exact congrArg (List.cons p) (hall h)
          · exact List.forall_mem_cons.mpr ⟨hrefused, hrefusals⟩
          · rw [createFirst_cons_of_refused hcreate hrefused, hplain]
          · rw [List.map_cons, createFirst_cons_of_refused hcreate' hrefused, htranscribed,
              List.append_assoc]
            rfl

/-- A search of the whole registry settles who creates the account. -/
theorem create_arbitrated (hids : (r.registry.map Registered.id).Nodup)
    (hown : ∀ p ∈ r.registry, p.plugin.PushesOwn) (w : W) :
    ∃ search log,
      r.transcribed.createFirst manager protocol identification r.transcribed.registry (w, []) =
        (r.createFirst manager protocol identification r.registry w).transcribed log ∧
      r.Arbitrates (.create manager protocol identification) search
        (r.createFirst manager protocol identification r.registry w) log := by
  obtain ⟨search, w', horder, hall, hrefusals, hplain, htranscribed⟩ :=
    r.createFirst_searched manager protocol identification r.registry w []
  obtain ⟨fetches, hsame, hfetches⟩ := r.conclude_transcribed search.taker w'
    (search.questions r.cache (.create manager protocol identification))
  have htaker : ∀ p name, search.taker = some (p, name) → p ∈ r.registry := by
    intro p name h
    refine horder.subset (List.mem_map_of_mem (a := (p, .ok (some name))) ?_)
    rw [Search.answers, h]
    exact List.mem_append_right _ List.mem_cons_self
  have hnobody : search.taker = none ↔ search.refusals.map Prod.fst = r.registry := by
    refine ⟨hall, fun hrefused => ?_⟩
    cases htaken : search.taker with
    | none => rfl
    | some q =>
        have hlength := horder.length_le
        rw [Search.answers, htaken, ← hrefused] at hlength
        simp at hlength
  rw [hplain]
  refine ⟨search, _, htranscribed.trans hsame, horder, hall, hrefusals, ⟨fetches, rfl, ?_⟩,
    ?_, ?_, ?_⟩
  · exact admits_conclude hids hown htaker w' hfetches
  · exact answer_conclude_cases w'
  · exact answer_conclude_conflict_iff w'
  · exact (answer_conclude_nobody_iff w').trans hnobody

/-! ### A plugin that was picked -/

theorem createWith_of_unknown {provider : String}
    (h : ∀ p ∈ r.registry, p.plugin.provider ≠ some provider) (w : W) :
    r.createWith provider manager protocol identification w =
      ⟨.error (.providerNotFound provider), r, w⟩ := by
  have hfind : r.registry.find? (fun p => p.plugin.provider == some provider) = none := by
    rw [List.find?_eq_none]
    intro p hp
    simpa using h p hp
  rw [createWith, hfind]

/-- What the plugin of a provider answers is taken, and nobody else is asked. -/
theorem createWith_eq {provider : String} {p : Registered W}
    (h : r.registry.find? (fun p => p.plugin.provider == some provider) = some p) {w w' : W}
    {answer : Except RosterError (Option String)}
    (hcreate : p.plugin.create r.cache manager protocol identification w = (answer, w')) :
    r.createWith provider manager protocol identification w = r.heed p answer w' := by
  rw [createWith, h]
  dsimp only
  rw [hcreate]
  match answer with
  | .ok (some name) => rfl
  | .ok none => rfl
  | .error e => rfl

/-- A creation that fails with nothing entered. -/
theorem admits_none (e : RosterError) (w : W) : r.Admits none ⟨.error e, r, w⟩ [] where
  ok_iff _ := ⟨nofun, fun ⟨_, h, _⟩ => nomatch h⟩
  conflict _ _ _ h := nomatch h
  gains _ _ h := nomatch h
  unchanged _ _ := rfl
  fetched _ hc := absurd hc List.not_mem_nil

theorem createWith_picks (hids : (r.registry.map Registered.id).Nodup)
    (hown : ∀ p ∈ r.registry, p.plugin.PushesOwn) {provider : String} {p : Registered W}
    (h : r.registry.find? (fun p => p.plugin.provider == some provider) = some p) (w : W) :
    ∃ answer log,
      r.transcribed.createWith provider manager protocol identification (w, []) =
        (r.createWith provider manager protocol identification w).transcribed log ∧
      r.Picks (.create manager protocol identification) p answer
        (r.createWith provider manager protocol identification w) log := by
  have h' : r.transcribed.registry.find? (fun p => p.plugin.provider == some provider) =
      some p.transcribed := by
    rw [find?_provider_transcribed, h]
    rfl
  cases hcreate : p.plugin.create r.cache manager protocol identification w with
  | mk answer w' =>
    have hcreate' := create_transcribed hcreate []
    rw [createWith_eq h hcreate, createWith_eq (r := r.transcribed) h' hcreate']
    refine ⟨answer, ?_⟩
    match answer with
    | .ok (some name) =>
        obtain ⟨fetches, hsame, hfetches⟩ := r.addCreated_transcribed p name w'
          [⟨p, r.cache, .create manager protocol identification (.ok (some name))⟩]
        refine ⟨_, hsame, ⟨fetches, rfl, ?_⟩, nofun, nofun⟩
        refine admits_conclude hids hown ?_ w' fun c hc => ⟨p, name, rfl, hfetches c hc⟩
        rintro _ _ ⟨⟩
        exact List.mem_of_find?_eq_some h
    | .ok none =>
        exact ⟨[_], rfl, ⟨[], rfl, admits_none _ w'⟩, fun _ => rfl, nofun⟩
    | .error e =>
        refine ⟨[_], rfl, ⟨[], rfl, admits_none e w'⟩, nofun, ?_⟩
        rintro _ ⟨⟩
        rfl

end Roster

/-- Whatever the cache is and whatever plugins answer, if they push only what they are
asked for. Without a provider, plugins are asked in the order of the registry up to the
first that creates the account, or to the end if none does: its name is answered if there
was no account of that name, there is a conflict if there was one, and nobody can store
the account exactly if all have declined or failed. With a provider, the first plugin of that provider is asked and no
other. A creation that succeeds enters just that account, for the plugin that has created
it, and one that fails leaves the roster as it was. -/
theorem creation_arbitrated {r : Roster W} (hnumbered : r.Numbered)
    (hown : ∀ p ∈ r.registry, p.plugin.PushesOwn) {manager protocol : String}
    (hmanager : manager ≠ "") (hprotocol : protocol ≠ "") (identification : String) (w : W) :
    let creation := Exchange.create manager protocol identification
    (∃ search log,
      r.transcribed.create none manager protocol identification (w, []) =
        (r.create none manager protocol identification w).transcribed log ∧
      r.Arbitrates creation search (r.create none manager protocol identification w) log) ∧
      ∀ provider,
        ((∀ p ∈ r.registry, p.plugin.provider ≠ some provider) →
          r.transcribed.create (some provider) manager protocol identification (w, []) =
            ⟨.error (.providerNotFound provider), r.transcribed, w, []⟩) ∧
        ∀ before p after, r.registry = before ++ p :: after →
          (∀ q ∈ before, q.plugin.provider ≠ some provider) →
          p.plugin.provider = some provider →
          ∃ answer log,
            r.transcribed.create (some provider) manager protocol identification (w, []) =
              (r.create (some provider) manager protocol identification w).transcribed log ∧
            r.Picks creation p answer
              (r.create (some provider) manager protocol identification w) log := by
  intro creation
  have hnamed : ¬(manager = "" ∨ protocol = "") := not_or.mpr ⟨hmanager, hprotocol⟩
  simp only [Roster.create, if_neg hnamed]
  refine ⟨Roster.create_arbitrated hnumbered.nodup hown w, fun provider => ⟨fun hunknown => ?_, ?_⟩⟩
  · apply Roster.createWith_of_unknown
    intro p hp
    obtain ⟨q, hq, rfl⟩ := List.mem_map.mp hp
    exact hunknown q hq
  · intro before p after hregistry hbefore hprovider
    have hfind : r.registry.find? (fun p => p.plugin.provider == some provider) = some p := by
      rw [List.find?_eq_some_iff_append]
      refine ⟨by simpa using hprovider, before, after, hregistry, fun q hq => ?_⟩
      simpa using hbefore q hq
    exact Roster.createWith_picks hnumbered.nodup hown hfind w

/-- A plugin that creates nothing leaves the account to the next one, and a provider that
no plugin has is not found. -/
theorem creation_arbitrated_second :
    let memory := MemoryStore.plugin Unit 0 { name := "memory", refuseCreate := true }
    let keyfile := KeyfileStore.plugin Unit 0
    let r := (Roster.new {} : Roster (World Unit)).registerAll [keyfile, memory]
    let w := (World.new Disk.empty ()).putKeyfile 0 (KeyfileStore.new "a.cfg" ',')
    let reply := r.create none "m" "p" "i" w
    r.registry = [⟨1, memory⟩, ⟨0, keyfile⟩] ∧ reply.answer = .ok "m/p/i0" ∧
      (∃ p : Registered (World Unit), r.cache.Enters "m/p/i0" p.id reply.roster.cache ∧
        reply.roster.owner? "m/p/i0" = some p.plugin) ∧
      r.transcribed.create (some "c") "m" "p" "i" (w, []) =
        ⟨.error (.providerNotFound "c"), r.transcribed, w, []⟩ := by
  intro memory keyfile r w reply
  have hnumbered : r.Numbered := (Roster.numbered_new {}).registerAll _
  have hregistry : r.registry = [⟨1, memory⟩, ⟨0, keyfile⟩] := rfl
  have hown : ∀ p ∈ r.registry, p.plugin.PushesOwn := by
    rw [hregistry]
    refine List.forall_mem_cons.mpr ⟨MemoryStore.pushesOwn Unit 0 _, ?_⟩
    exact List.forall_mem_singleton.mpr (KeyfileStore.pushesOwn Unit 0)
  have hunknown : ∀ p ∈ r.registry, p.plugin.provider ≠ some "c" := by
    rw [hregistry]
    refine List.forall_mem_cons.mpr ⟨nofun, List.forall_mem_singleton.mpr ?_⟩
    decide
  have hanswer : reply.answer = .ok "m/p/i0" := Except.eq_ok_of_toOption (by decide +kernel)
  obtain ⟨⟨search, log, -, harbitrated⟩, hprovider⟩ := creation_arbitrated hnumbered hown
    (show "m" ≠ "" by decide) (show "p" ≠ "" by decide) "i" w
  obtain ⟨fetches, -, hadmits⟩ := harbitrated.asked
  obtain ⟨p, htaker, -⟩ := (hadmits.ok_iff "m/p/i0").mp hanswer
  exact ⟨hregistry, hanswer, ⟨p, hadmits.gains p _ htaker hanswer⟩, (hprovider "c").1 hunknown⟩

end AccountRoster
