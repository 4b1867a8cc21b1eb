import AccountRoster.Cache
import AccountRoster.Proofs.Codec.OneLine
import Mathlib.Logic.Relation

/-!
# Edits of the cache

Whatever is done to the cache is a chain of edits: an account is entered with
nothing but its owner, a cached record is changed, or an account is dropped. What
is true of every edit is true of every chain of them.

## Implementation notes

`Cache.Edit` is told which numbers an owner may have and which accounts may be
dropped, so that a chain says both. A record changes by putting one thing in its
place, and an attribute is put only if it fits the schema: this is all that the
conversions of pushed and of written values have to give.
-/

namespace AccountRoster

open Relation (ReflTransGen)

/-- Whether a value may stand under the name of an attribute: one of the schema has
its schema type. -/
def Schema.Fits (name : String) (v : Value) : Prop :=
  ∀ type, Schema.attributeType name = some type → v.type = type

/-- The account that a push is about. -/
def Push.account : Push → String
  | .text account _ _ | .attr account _ _ | .param account _ _ _ | .makeSecret account _ => account

namespace Record

/-- Something is put into a record, or taken out of it. -/
inductive Edit : Record → Record → Prop
  | attr (r : Record) (name : String) (value : Option Value)
      (h : ∀ v, value = some v → Schema.Fits name v) : Edit r (r.putAttribute name value)
  | typed (r : Record) (name : String) (value : Option Value) : Edit r (r.putTyped name value)
  | escaped (r : Record) (name : String) (text : Option String) : Edit r (r.putEscaped name text)
  | secret (r : Record) (name : String) : Edit r (r.markSecret name)

/-- A parameter is in one place at most, and every attribute fits the schema. -/
structure Consistent (r : Record) : Prop where
  onePlace : ∀ name, r.typed.get? name = none ∨ r.escaped.get? name = none
  fits : ∀ name v, r.attributes.get? name = some v → Schema.Fits name v

theorem consistent_new (owner : Nat) : (new owner).Consistent where
  onePlace := fun _ => Or.inl rfl
  fits := nofun

variable {r r' : Record}

theorem Edit.owner_eq (h : Edit r r') : r'.owner = r.owner := by
  cases h <;> rfl

theorem Edit.consistent (h : Edit r r') (hr : r.Consistent) : r'.Consistent := by
  cases h with
  | attr name value hfits =>
      refine ⟨hr.onePlace, fun other v hv => ?_⟩
      rw [putAttribute, Dict.get?_put] at hv
      by_cases heq : name = other
      · rw [if_pos heq] at hv
        exact heq ▸ hfits v hv
      · rw [if_neg heq] at hv
        exact hr.fits other v hv
  | typed name value =>
      refine ⟨fun other => ?_, hr.fits⟩
      rw [typed_putTyped, escaped_putTyped]
      by_cases heq : name = other
      · exact Or.inr (if_pos heq)
      · rw [if_neg heq, if_neg heq]
        exact hr.onePlace other
  | escaped name text =>
      refine ⟨fun other => ?_, hr.fits⟩
      rw [typed_putEscaped, escaped_putEscaped]
      by_cases heq : name = other
      · exact Or.inl (if_pos heq)
      · rw [if_neg heq, if_neg heq]
        exact hr.onePlace other
  | secret name => exact ⟨hr.onePlace, hr.fits⟩

/-- A record keeps its owner through any edits. -/
theorem owner_eq_of_edits (h : ReflTransGen Edit r r') : r'.owner = r.owner := by
  induction h with
  | refl => rfl
  | tail _ hedit ih => exact hedit.owner_eq.trans ih

theorem consistent_of_edits (h : ReflTransGen Edit r r') (hr : r.Consistent) :
    r'.Consistent := by
  induction h with
  | refl => exact hr
  | tail _ hedit ih => exact hedit.consistent ih

end Record

namespace Cache

/-- An account is entered, written or dropped. -/
inductive Edit (owners : Nat → Prop) (dropped : String → Prop) : Cache → Cache → Prop
  | enter (c : Cache) (account : String) (owner : Nat) (hnew : c.record? account = none)
      (howner : owners owner) : Edit owners dropped c (c.insert account (Record.new owner))
  | write (c : Cache) (account : String) (record record' : Record)
      (hrecord : c.record? account = some record) (h : ReflTransGen Record.Edit record record') :
      Edit owners dropped c (c.insert account record')
  | drop (c : Cache) (account : String) (h : dropped account) :
      Edit owners dropped c (c.erase account)

/-- A chain of edits. -/
abbrev Edits (owners : Nat → Prop) (dropped : String → Prop) : Cache → Cache → Prop :=
  ReflTransGen (Edit owners dropped)

variable {owners owners' : Nat → Prop} {dropped dropped' : String → Prop} {c d : Cache}

theorem Edits.mono (h : Edits owners dropped c d) (howners : ∀ n, owners n → owners' n)
    (hdropped : ∀ account, dropped account → dropped' account) : Edits owners' dropped' c d := by
  refine Relation.ReflTransGen.mono (fun a b hedit => ?_) c d h
  cases hedit with
  | enter account owner hnew howner => exact Edit.enter a account owner hnew (howners owner howner)
  | write account record record' hrecord hedits =>
      exact Edit.write a account record record' hrecord hedits
  | drop account hdrop => exact Edit.drop a account (hdropped account hdrop)

/-- An account that may not be dropped stays, with its owner. -/
theorem Edit.exists_record (h : Edit owners dropped c d) {account : String}
    (hkept : ¬dropped account) {record : Record} (hrecord : c.record? account = some record) :
    ∃ later, d.record? account = some later ∧ later.owner = record.owner := by
  cases h with
  | enter other owner hnew howner =>
      have hne : other ≠ account := by
        rintro rfl
        rw [hnew] at hrecord
        cases hrecord
      rw [record?_insert, if_neg hne]
      exact ⟨record, hrecord, rfl⟩
  | write other before after hbefore hedits =>
      rw [record?_insert]
      by_cases heq : other = account
      · subst heq
        rw [hbefore] at hrecord
        cases hrecord
        exact ⟨after, if_pos rfl, Record.owner_eq_of_edits hedits⟩
      · exact ⟨record, (if_neg heq).trans hrecord, rfl⟩
  | drop other hdrop =>
      have hne : other ≠ account := by
        rintro rfl
        exact hkept hdrop
      rw [record?_erase, if_neg hne]
      exact ⟨record, hrecord, rfl⟩

theorem Edits.exists_record (h : Edits owners dropped c d) {account : String}
    (hkept : ¬dropped account) {record : Record} (hrecord : c.record? account = some record) :
    ∃ later, d.record? account = some later ∧ later.owner = record.owner := by
  induction h with
  | refl => exact ⟨record, hrecord, rfl⟩
  | tail _ hedit ih =>
      obtain ⟨middle, hmiddle, howner⟩ := ih
      obtain ⟨later, hlater, heq⟩ := hedit.exists_record hkept hmiddle
      exact ⟨later, hlater, heq.trans howner⟩

theorem Edits.codec_eq (h : Edits owners dropped c d) : d.codec = c.codec := by
  induction h with
  | refl => rfl
  | tail _ hedit ih =>
      refine Eq.trans ?_ ih
      cases hedit <;> rfl

/-- Every record of a cache is consistent and has one of the given owners. -/
def Sound (owners : Nat → Prop) (c : Cache) : Prop :=
  ∀ account record, c.record? account = some record → record.Consistent ∧ owners record.owner

theorem Edit.sound (h : Edit owners dropped c d) (hc : c.Sound owners) : d.Sound owners := by
  intro account later hlater
  cases h with
  | enter other owner hnew howner =>
      rw [record?_insert] at hlater
      by_cases heq : other = account
      · rw [if_pos heq] at hlater
        cases hlater
        exact ⟨Record.consistent_new owner, howner⟩
      · rw [if_neg heq] at hlater
        exact hc account later hlater
  | write other before after hbefore hedits =>
      rw [record?_insert] at hlater
      by_cases heq : other = account
      · rw [if_pos heq] at hlater
        cases hlater
        obtain ⟨hconsistent, howner⟩ := hc other before hbefore
        rw [Record.owner_eq_of_edits hedits]
        exact ⟨Record.consistent_of_edits hedits hconsistent, howner⟩
      · rw [if_neg heq] at hlater
        exact hc account later hlater
  | drop other hdrop =>
      rw [record?_erase] at hlater
      by_cases heq : other = account
      · rw [if_pos heq] at hlater
        cases hlater
      · rw [if_neg heq] at hlater
        exact hc account later hlater

theorem Edits.sound (h : Edits owners dropped c d) (hc : c.Sound owners) : d.Sound owners := by
  induction h with
  | refl => exact hc
  | tail _ hedit ih => exact hedit.sound ih

/-! ### What plugins push -/

theorem edits_modify (account : String) {change : Record → Record}
    (h : ∀ record, ReflTransGen Record.Edit record (change record)) :
    Edits owners dropped c (c.modify account change) := by
  unfold modify
  split
  next record hrecord =>
    exact ReflTransGen.single (Edit.write c account record _ hrecord (h record))
  next => exact ReflTransGen.refl

/-- Text is taken as an attribute in its schema type. -/
theorem fits_attributeOfText {name text : String} {v : Value}
    (h : c.attributeOfText name text = some v) : Schema.Fits name v := by
  intro type htype
  rw [attributeOfText, htype, Option.getD_some] at h
  exact Codec.type_of_unescape (Except.eq_ok_of_toOption h)

/-- A pushed attribute is taken in its schema type. -/
theorem fits_attributeOfValue {name : String} {value v : Value}
    (h : c.attributeOfValue name value = some v) : Schema.Fits name v := by
  intro type htype
  rw [attributeOfValue, htype] at h
  exact Codec.type_of_coerce (Except.eq_ok_of_toOption h)

/-- Whatever a plugin pushes edits records that are there. -/
theorem edits_take (push : Push) : Edits owners dropped c (c.take push) := by
  cases push with
  | text account key escaped =>
      apply edits_modify
      intro record
      split
      next name _ => exact ReflTransGen.single (Record.Edit.escaped record name escaped)
      next name _ =>
        apply ReflTransGen.single
        apply Record.Edit.attr
        intro v hv
        obtain ⟨text, -, hread⟩ := Option.bind_eq_some_iff.mp hv
        exact fits_attributeOfText hread
  | attr account name value =>
      apply edits_modify
      intro record
      apply ReflTransGen.single
      apply Record.Edit.attr
      intro v hv
      obtain ⟨given, -, hconverted⟩ := Option.bind_eq_some_iff.mp hv
      exact fits_attributeOfValue hconverted
  | param account name value secret =>
      apply edits_modify
      intro record
      have hput := ReflTransGen.single (Record.Edit.typed record name value)
      split
      · exact hput.tail (Record.Edit.secret _ name)
      · exact hput
  | makeSecret account name =>
      exact edits_modify account fun record => ReflTransGen.single (Record.Edit.secret record name)

theorem edits_takeAll (pushes : List Push) : Edits owners dropped c (c.takeAll pushes) := by
  induction pushes generalizing c with
  | nil => exact ReflTransGen.refl
  | cons push more ih => exact (edits_take push).trans ih

/-- Edits that neither enter nor drop an account leave the owners alone. -/
theorem Edits.owner_eq (h : Edits (fun _ => False) (fun _ => False) c d) (account : String) :
    (d.record? account).map Record.owner = (c.record? account).map Record.owner := by
  induction h with
  | refl => rfl
  | tail _ hedit ih =>
      refine Eq.trans ?_ ih
      cases hedit with
      | enter other owner hnew howner => exact howner.elim
      | drop other hdrop => exact hdrop.elim
      | write other before after hbefore hedits =>
          rw [record?_insert]
          by_cases heq : other = account
          · rw [if_pos heq, ← heq, hbefore]
            exact congrArg some (Record.owner_eq_of_edits hedits)
          · rw [if_neg heq]

/-- Pushes change no record but those of the accounts that they are about. -/
theorem record?_takeAll_of_ne (c : Cache) {pushes : List Push} {account : String}
    (h : ∀ push ∈ pushes, push.account ≠ account) :
    (c.takeAll pushes).record? account = c.record? account := by
  induction pushes generalizing c with
  | nil => rfl
  | cons push more ih =>
      obtain ⟨hne, hmore⟩ := List.forall_mem_cons.mp h
      have htake : (c.take push).record? account = c.record? account := by
        cases push <;> exact (record?_modify c _ account _).trans (if_neg hne)
      exact (ih (c.take push) hmore).trans htake

@[simp] theorem codec_takeAll (c : Cache) (pushes : List Push) :
    (c.takeAll pushes).codec = c.codec := by
  induction pushes generalizing c with
  | nil => rfl
  | cons push more ih =>
      have htake : (c.take push).codec = c.codec := by
        cases push <;> exact codec_modify c _ _
      exact (ih (c.take push)).trans htake

theorem owner_takeAll (c : Cache) (pushes : List Push) (account : String) :
    ((c.takeAll pushes).record? account).map Record.owner =
      (c.record? account).map Record.owner :=
  (edits_takeAll pushes).owner_eq account

end Cache

end AccountRoster
