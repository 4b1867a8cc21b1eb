import AccountRoster.Proofs.Roster.Calls

/-!
# Writes that are settled on the cache

A write that changes something changes one record: an attribute takes its value in
its schema type, and a parameter becomes typed. A write that changes nothing has found
the value, or the text of the parameter, there already. What a write keeps true of
cache and owner together, the whole operation keeps true.
-/

namespace AccountRoster

namespace Cache

/-- An attribute that takes a value takes it in its schema type. -/
theorem attributeValue_eq_some {c : Cache} {name : String} {value : Option Value} {v : Value}
    (h : c.attributeValue name value = .ok (some v)) :
    ∃ given type, value = some given ∧ Schema.attributeType name = some type ∧
      c.codec.coerce given type = .ok v := by
  cases value with
  | none => cases h
  | some given =>
      rw [attributeValue] at h
      cases htype : Schema.attributeType name with
      | none =>
          rw [htype] at h
          cases h
      | some type =>
          rw [htype] at h
          dsimp only at h
          cases hcoerce : c.codec.coerce given type with
          | error fault =>
              rw [hcoerce] at h
              cases h
          | ok converted =>
              rw [hcoerce] at h
              cases h
              exact ⟨given, type, rfl, rfl, hcoerce⟩

/-- An attribute that is not removed takes a value. -/
theorem attributeValue_ne_none {c : Cache} {name : String} {given : Value} :
    c.attributeValue name (some given) ≠ .ok none := by
  rw [attributeValue]
  split
  · nofun
  · split <;> nofun

theorem find_eq_ok {c : Cache} {account : String} {record : Record}
    (h : c.find account = .ok record) : c.record? account = some record := by
  unfold find at h
  split at h
  next found => cases h; exact found
  next => cases h

theorem find_of_record? {c : Cache} {account : String} {record : Record}
    (h : c.record? account = some record) : c.find account = .ok record := by
  rw [find, h]

/-- A write of an attribute that changes something changes one record. -/
theorem planAttribute_eq_some {c c' : Cache} {account name : String} {value : Option Value}
    {u : Update} (h : c.planAttribute account name value = .ok (some (c', u))) :
    ∃ record new, FlatKey.isParameter name = false ∧ c.record? account = some record ∧
      c.attributeValue name value = .ok new ∧
      c' = c.insert account (record.putAttribute name new) ∧
      u = { account, key := name, value := new } := by
  unfold planAttribute at h
  split at h
  next => cases h
  next hname =>
    split at h
    next => cases h
    next new hnew =>
      split at h
      next => cases h
      next record hrecord =>
        split at h
        next => cases h
        next =>
          cases h
          exact ⟨record, new, by simpa using hname, find_eq_ok hrecord, hnew, rfl, rfl⟩

/-- A write of an attribute that changes nothing has found the value there. -/
theorem planAttribute_eq_none {c : Cache} {account name : String} {value : Option Value}
    (h : c.planAttribute account name value = .ok none) :
    ∃ record new, FlatKey.isParameter name = false ∧ c.record? account = some record ∧
      c.attributeValue name value = .ok new ∧
      Value.agrees? (record.attributes.get? name) new = true := by
  unfold planAttribute at h
  split at h
  next => cases h
  next hname =>
    split at h
    next => cases h
    next new hnew =>
      split at h
      next => cases h
      next record hrecord =>
        split at h
        next hagrees =>
          exact ⟨record, new, by simpa using hname, find_eq_ok hrecord, hnew, hagrees⟩
        next => cases h

/-- A write of a parameter that changes something changes one record. -/
theorem planParameter_eq_some {c c' : Cache} {account name : String} {value : Option Value}
    {u : Update} (h : c.planParameter account name value = .ok (some (c', u))) :
    ∃ record, c.record? account = some record ∧
      c' = c.insert account (record.putTyped name value) ∧
      u = { account, key := FlatKey.ofParameter name, value, secret := record.isSecret name } := by
  unfold planParameter at h
  split at h
  next => cases h
  next record hrecord =>
    split at h
    next =>
      cases h
      exact ⟨record, find_eq_ok hrecord, rfl, rfl⟩
    next => cases h

theorem planParameter_eq_none {c : Cache} {account name : String} {value : Option Value}
    (h : c.planParameter account name value = .ok none) :
    ∃ record, c.record? account = some record ∧
      c.changesParameter record name value = false := by
  unfold planParameter at h
  split at h
  next => cases h
  next record hrecord =>
    split at h
    next => cases h
    next hsame => exact ⟨record, find_eq_ok hrecord, by simpa using hsame⟩

/-- A parameter that is not changed has the value already, or has its text and no value. -/
theorem changesParameter_eq_false {c : Cache} {record : Record} {name : String}
    {value : Option Value} (h : c.changesParameter record name value = false) :
    (∃ old new, record.typed.get? name = some old ∧ value = some new ∧ old.agrees new = true) ∨
      record.typed.get? name = none ∧
        record.escaped.get? name = value.map c.codec.escape := by
  rw [changesParameter] at h
  cases htyped : record.typed.get? name with
  | some old =>
      rw [htyped] at h
      cases value with
      | none => cases h
      | some new => exact Or.inl ⟨old, new, rfl, rfl, by simpa [Value.agrees?] using h⟩
  | none =>
      rw [htyped] at h
      cases hescaped : record.escaped.get? name with
      | some text => exact Or.inr ⟨rfl, by simpa [hescaped] using h⟩
      | none =>
          rw [hescaped] at h
          cases value with
          | none => exact Or.inr ⟨rfl, rfl⟩
          | some new => cases h

end Cache

section Answered

variable {W : Type} {r : Roster W} {w : W} {account name : String} {value : Option Value}
  {answer : Bool}

/-- A write that is refused leaves the roster as it is. -/
theorem Roster.carryOut_of_error {plan : Except RosterError (Option (Cache × Update))}
    {e : RosterError} (h : (r.carryOut w plan).answer = .error e) :
    (r.carryOut w plan).roster = r := by
  unfold carryOut at h ⊢
  split
  next => rfl
  next => rfl
  next => cases h

/-- A write of an attribute that is answered has found the value there, or puts it there
and tells the owner. -/
theorem Roster.setAttribute_cases (h : (r.setAttribute account name value w).answer = .ok answer) :
    ∃ record new, FlatKey.isParameter name = false ∧ r.cache.record? account = some record ∧
      r.cache.attributeValue name value = .ok new ∧
      (Value.agrees? (record.attributes.get? name) new = true ∧
          r.setAttribute account name value w = ⟨.ok false, r, w⟩ ∨
        let written := { r with cache := r.cache.insert account (record.putAttribute name new) }
        r.setAttribute account name value w =
          ⟨.ok true, written, written.dispatch { account, key := name, value := new } w⟩) := by
  unfold setAttribute at h ⊢
  cases hplan : r.cache.planAttribute account name value with
  | error e =>
      rw [hplan] at h
      cases h
  | ok plan =>
      cases plan with
      | none =>
          obtain ⟨record, new, hname, hrecord, hnew, hagrees⟩ := Cache.planAttribute_eq_none hplan
          exact ⟨record, new, hname, hrecord, hnew, Or.inl ⟨hagrees, rfl⟩⟩
      | some change =>
          obtain ⟨c, u⟩ := change
          obtain ⟨record, new, hname, hrecord, hnew, rfl, rfl⟩ := Cache.planAttribute_eq_some hplan
          exact ⟨record, new, hname, hrecord, hnew, Or.inr rfl⟩

/-- A write of a parameter that is answered has found nothing to change, or makes the
parameter typed and tells the owner. -/
theorem Roster.setParameter_cases (h : (r.setParameter account name value w).answer = .ok answer) :
    ∃ record, r.cache.record? account = some record ∧
      (r.cache.changesParameter record name value = false ∧
          r.setParameter account name value w = ⟨.ok false, r, w⟩ ∨
        let written := { r with cache := r.cache.insert account (record.putTyped name value) }
        r.setParameter account name value w =
          ⟨.ok true, written, written.dispatch
            { account, key := FlatKey.ofParameter name, value, secret := record.isSecret name }
              w⟩) := by
  unfold setParameter at h ⊢
  cases hplan : r.cache.planParameter account name value with
  | error e =>
      rw [hplan] at h
      cases h
  | ok plan =>
      cases plan with
      | none =>
          obtain ⟨record, hrecord, hsame⟩ := Cache.planParameter_eq_none hplan
          exact ⟨record, hrecord, Or.inl ⟨hsame, rfl⟩⟩
      | some change =>
          obtain ⟨c, u⟩ := change
          obtain ⟨record, hrecord, rfl, rfl⟩ := Cache.planParameter_eq_some hplan
          exact ⟨record, hrecord, Or.inr rfl⟩

end Answered

/-- A write that is carried out keeps what its effect on cache and owner keeps. -/
theorem Roster.carryOut_keeps {W : Type} {P : Running W → Prop} {r : Roster W} {w : W}
    (h : P ⟨r, w⟩) {plan : Except RosterError (Option (Cache × Update))}
    (hplan : ∀ c u, plan = .ok (some (c, u)) →
      P ⟨{ r with cache := c }, ({ r with cache := c } : Roster W).dispatch u w⟩) :
    P (r.carryOut w plan).running := by
  unfold carryOut
  split
  · exact h
  · exact h
  next c u => exact hplan c u rfl

end AccountRoster
