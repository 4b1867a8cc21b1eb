import AccountRoster.Keyfile.Text
import AccountRoster.Proofs.Dict
import AccountRoster.Proofs.Keyfile.LineForms

/-!
# Key-files that can come about

A key-file is new, or has been read, and has then been edited. Whatever was
asked of it, refused calls included, its groups and keys have valid names and no
value holds a line feed.

## Implementation notes

Each operation has one equation that says what it leaves in the groups; that
names and values stay valid is read off these.
-/

namespace AccountRoster.Keyfile

/-! ### What the operations leave behind -/

theorem entries_of_get? {f : Keyfile} {group : String} {entries : Dict String}
    (h : f.groups.get? group = some entries) : f.entries group = entries := by
  rw [Keyfile.entries, h, Option.getD_some]

theorem get?_of_value? {f : Keyfile} {group key value : String}
    (h : f.value? group key = some value) :
    f.groups.get? group = some (f.entries group) := by
  cases hg : f.groups.get? group with
  | some entries => rw [entries_of_get? hg]
  | none =>
      rw [value?, Keyfile.entries, hg] at h
      cases h

/-- Entering what stands there already changes nothing. -/
theorem enter_of_value? {f : Keyfile} {group key escaped : String}
    (h : f.value? group key = some escaped) : f.enter group key escaped = f := by
  have hentries : (f.entries group).insert key escaped = f.entries group := Dict.insert_of_get? h
  have hgroups : f.groups.insert group (f.entries group) = f.groups :=
    Dict.insert_of_get? (get?_of_value? h)
  rw [enter, hentries, hgroups]

/-- A write with valid names and a value of one line enters that value, and tells whether
another text, or none, stood there. -/
theorem setValue_eq_of_valid (f : Keyfile) {group key escaped : String}
    (hg : isGroupName group = true) (hk : isKeyName key = true)
    (ho : isOneLine escaped = true) :
    f.setValue group key escaped =
      (.ok (decide (f.value? group key ≠ some escaped)), f.enter group key escaped) := by
  unfold setValue
  rw [if_neg (by simp [hg]), if_neg (by simp [hk, ho])]
  split
  next h => rw [enter_of_value? h, decide_eq_false (not_not_intro h)]
  next h => rw [decide_eq_true h]

theorem setValue_of_valid (f : Keyfile) {group key escaped : String}
    (hg : isGroupName group = true) (hk : isKeyName key = true)
    (ho : isOneLine escaped = true) :
    (f.setValue group key escaped).2 = f.enter group key escaped ∧
      ∃ change, (f.setValue group key escaped).1 = .ok change := by
  rw [f.setValue_eq_of_valid hg hk ho]
  exact ⟨rfl, _, rfl⟩

/-- A write leaves the file as it is, or its names and its value are valid. -/
theorem setValue_cases (f : Keyfile) (group key escaped : String) :
    (f.setValue group key escaped).2 = f ∨
      (isGroupName group = true ∧ isKeyName key = true ∧ isOneLine escaped = true ∧
        (f.setValue group key escaped).2 = f.enter group key escaped) := by
  by_cases hg : isGroupName group = true
  · by_cases hk : isKeyName key = true ∧ isOneLine escaped = true
    · exact Or.inr ⟨hg, hk.1, hk.2, (f.setValue_of_valid hg hk.1 hk.2).1⟩
    · refine Or.inl ?_
      unfold setValue
      rw [if_neg (by simp [hg]), if_pos (by simpa [Decidable.imp_iff_not_or] using hk)]
  · refine Or.inl ?_
    unfold setValue
    rw [if_pos (by simpa using hg)]

theorem groups_enter (f : Keyfile) (group key escaped other : String) :
    (f.enter group key escaped).groups.get? other =
      if group = other then some ((f.entries group).insert key escaped)
      else f.groups.get? other :=
  Dict.get?_insert f.groups group other _

theorem groups_openGroup_of_none {f : Keyfile} {group : String}
    (h : f.groups.get? group = none) (other : String) :
    (f.openGroup group).groups.get? other =
      if group = other then some Dict.empty else f.groups.get? other := by
  have hempty : f.entries group = Dict.empty := by rw [Keyfile.entries, h, Option.getD_none]
  rw [openGroup, hempty, Dict.get?_insert]

/-- Adding a group leaves the file as it is, or opens a group that was not there. -/
theorem addGroup_cases (f : Keyfile) (group : String) :
    ((f.addGroup group).2 = f ∧ (f.addGroup group).1 ≠ .ok true) ∨
      (isGroupName group = true ∧ f.groups.get? group = none ∧
        f.addGroup group = (.ok true, f.openGroup group)) := by
  unfold addGroup
  split
  next => exact Or.inl ⟨rfl, nofun⟩
  next hg =>
    split
    next => exact Or.inl ⟨rfl, nofun⟩
    next hnew =>
      exact Or.inr ⟨by simpa using hg, by simpa [hasGroup] using hnew, rfl⟩

/-- A removed key is gone from its group, whether or not it was there. -/
theorem groups_removeKey (f : Keyfile) (group key other : String) :
    (f.removeKey group key).2.groups.get? other =
      if group = other then (f.groups.get? other).map (·.erase key)
      else f.groups.get? other := by
  unfold removeKey
  split
  next value h =>
    rw [Dict.get?_insert]
    split
    next heq => rw [← heq, get?_of_value? h, Option.map_some]
    next => rfl
  next h =>
    split
    next heq =>
      subst heq
      cases hg : f.groups.get? group with
      | none => rfl
      | some entries =>
          rw [value?, entries_of_get? hg] at h
          rw [Option.map_some, Dict.erase_of_get? h]
    next => rfl

theorem entries_removeKey (f : Keyfile) (group key other : String) :
    (f.removeKey group key).2.entries other =
      if group = other then (f.entries other).erase key else f.entries other := by
  rw [entries, groups_removeKey]
  split
  next =>
    rw [entries]
    cases f.groups.get? other with
    | none => exact (Dict.erase_of_get? (Dict.get?_empty key)).symm
    | some entries => rfl
  next => rfl

theorem value?_removeKey (f : Keyfile) (group key other k : String) :
    (f.removeKey group key).2.value? other k =
      if group = other ∧ key = k then none else f.value? other k := by
  rw [value?, entries_removeKey]
  by_cases hg : group = other
  · by_cases hk : key = k <;> simp [hg, hk, Dict.get?_erase, value?]
  · simp [hg, value?]

theorem groups_removeGroup (f : Keyfile) (group other : String) :
    (f.removeGroup group).2.groups.get? other =
      if group = other then none else f.groups.get? other := by
  unfold removeGroup
  split
  next => exact Dict.get?_erase f.groups group other
  next h =>
    split
    next heq => simpa [hasGroup, heq] using h
    next => rfl

theorem value?_removeGroup (f : Keyfile) (group other k : String) :
    (f.removeGroup group).2.value? other k =
      if group = other then none else f.value? other k := by
  rw [value?, entries, groups_removeGroup]
  split <;> rfl

/-! ### What no operation changes -/

theorem separator_setValue (f : Keyfile) (group key escaped : String) :
    (f.setValue group key escaped).2.separator = f.separator := by
  rcases setValue_cases f group key escaped with heq | ⟨-, -, -, heq⟩
  · rw [heq]
  · rw [heq]
    rfl

theorem separator_removeKey (f : Keyfile) (group key : String) :
    (f.removeKey group key).2.separator = f.separator := by
  rw [removeKey]
  split <;> rfl

theorem separator_removeGroup (f : Keyfile) (group : String) :
    (f.removeGroup group).2.separator = f.separator := by
  rw [removeGroup]
  split <;> rfl

/-! ### Valid names and values -/

/-- Keys have valid names, and no value holds a line feed. -/
def ValidEntries (entries : Dict String) : Prop :=
  ∀ key value, entries.get? key = some value → isKeyName key = true ∧ '\n' ∉ value.toList

theorem validEntries_empty : ValidEntries Dict.empty := by
  intro key value h
  rw [Dict.get?_empty] at h
  cases h

/-- Each entry that is listed has a valid name and a value of one line. -/
theorem ValidEntries.of_mem {entries : Dict String} (h : ValidEntries entries)
    {entry : String × String} (he : entry ∈ entries.entries) :
    isKeyName entry.1 = true ∧ '\n' ∉ entry.2.toList :=
  h entry.1 entry.2 (Dict.get?_eq_some_iff.mpr he)

theorem ValidEntries.insert {entries : Dict String} (h : ValidEntries entries)
    {key value : String} (hk : isKeyName key = true) (hv : '\n' ∉ value.toList) :
    ValidEntries (entries.insert key value) := by
  intro other v hget
  rw [Dict.get?_insert] at hget
  split at hget
  next heq =>
    cases hget
    exact ⟨heq ▸ hk, hv⟩
  next => exact h other v hget

theorem ValidEntries.erase {entries : Dict String} (h : ValidEntries entries) (key : String) :
    ValidEntries (entries.erase key) := by
  intro other v hget
  rw [Dict.get?_erase] at hget
  split at hget
  next => cases hget
  next => exact h other v hget

/-- Groups have valid names and valid entries. -/
def WellFormed (f : Keyfile) : Prop :=
  ∀ group entries, f.groups.get? group = some entries →
    isGroupName group = true ∧ ValidEntries entries

theorem wellFormed_new (separator : Char) : (new separator).WellFormed := by
  intro group entries h
  cases h

namespace WellFormed

variable {f : Keyfile}

/-- Each group that is listed has a valid name and valid entries. -/
theorem of_mem (h : f.WellFormed) {group : String × Dict String}
    (hgroup : group ∈ f.groups.entries) : isGroupName group.1 = true ∧ ValidEntries group.2 :=
  h group.1 group.2 (Dict.get?_eq_some_iff.mpr hgroup)

theorem entries (h : f.WellFormed) (group : String) : ValidEntries (f.entries group) := by
  cases hg : f.groups.get? group with
  | none =>
      rw [Keyfile.entries, hg, Option.getD_none]
      exact validEntries_empty
  | some entries =>
      rw [entries_of_get? hg]
      exact (h group entries hg).2

theorem insert (h : f.WellFormed) {group : String} {entries : Dict String}
    (hg : isGroupName group = true) (he : ValidEntries entries) :
    WellFormed { f with groups := f.groups.insert group entries } := by
  intro other es hget
  rw [Dict.get?_insert] at hget
  split at hget
  next heq =>
    cases hget
    exact ⟨heq ▸ hg, he⟩
  next => exact h other es hget

theorem enter (h : f.WellFormed) {group key value : String} (hg : isGroupName group = true)
    (hk : isKeyName key = true) (hv : '\n' ∉ value.toList) :
    (f.enter group key value).WellFormed :=
  h.insert hg ((h.entries group).insert hk hv)

theorem openGroup (h : f.WellFormed) {group : String} (hg : isGroupName group = true) :
    (f.openGroup group).WellFormed :=
  h.insert hg (h.entries group)

theorem setValue (h : f.WellFormed) (group key escaped : String) :
    (f.setValue group key escaped).2.WellFormed := by
  rcases setValue_cases f group key escaped with heq | ⟨hg, hk, ho, heq⟩
  · rwa [heq]
  · rw [heq]
    refine h.enter hg hk fun hm => ?_
    simp only [isOneLine, List.all_eq_true] at ho
    exact absurd (ho '\n' hm) (by decide)

theorem addGroup (h : f.WellFormed) (group : String) : (f.addGroup group).2.WellFormed := by
  rcases addGroup_cases f group with ⟨heq, -⟩ | ⟨hg, -, heq⟩
  · rwa [heq]
  · rw [heq]
    exact h.openGroup hg

theorem removeKey (h : f.WellFormed) (group key : String) :
    (f.removeKey group key).2.WellFormed := by
  intro other entries hget
  rw [groups_removeKey] at hget
  split at hget
  next =>
    obtain ⟨before, hbefore, rfl⟩ := Option.map_eq_some_iff.mp hget
    obtain ⟨hg, he⟩ := h other before hbefore
    exact ⟨hg, he.erase key⟩
  next => exact h other entries hget

theorem removeGroup (h : f.WellFormed) (group : String) :
    (f.removeGroup group).2.WellFormed := by
  intro other entries hget
  rw [groups_removeGroup] at hget
  split at hget
  next => cases hget
  next => exact h other entries hget

end WellFormed

/-! ### Reading -/

theorem isGroupName_of_readLine {inGroup : Bool} {line : List Char} {group : String}
    (h : readLine inGroup line = .ok (.header group)) : isGroupName group = true := by
  obtain ⟨hform, -⟩ := readLine_eq_ok_iff.mp h
  cases hform with
  | header hfront hgroup hback => exact hgroup

/-- An entry is read inside a group only, with a valid key, and its value is an end of
its line without the blanks in front. -/
theorem entry_of_readLine {inGroup : Bool} {line : List Char} {key value : String}
    (h : readLine inGroup line = .ok (.entry key value)) :
    inGroup = true ∧ isKeyName key = true ∧
      ∃ text, text <:+ line ∧ value = String.ofList (Text.trimStart text) := by
  obtain ⟨hform, hin⟩ := readLine_eq_ok_iff.mp h
  cases hform with
  | @entry front before after _ _ hfront hkey hbefore hafter hvalue =>
      have htrim : Text.trimStart (after ++ value.toList) = value.toList :=
        Text.trimStart_eq_iff.mpr ⟨⟨after, hafter, rfl⟩, hvalue⟩
      refine ⟨hin ⟨key, value, rfl⟩, hkey, after ++ value.toList, ?_, ?_⟩
      · exact ⟨front ++ (key.toList ++ (before ++ ['='])), by simp⟩
      · rw [htrim, String.ofList_toList]

/-- What is not made false by opening groups and entering what lines hold. -/
structure KeptByReading (P : Keyfile → Prop) (lines : List (List Char)) : Prop where
  openGroup {f : Keyfile} (hf : P f) {group : String} (hgroup : isGroupName group = true) :
    P (f.openGroup group)
  enter {f : Keyfile} (hf : P f) {group key : String} {line text : List Char}
    (hgroup : isGroupName group = true) (hkey : isKeyName key = true) (hline : line ∈ lines)
    (htext : text <:+ line) : P (f.enter group key (String.ofList (Text.trimStart text)))

namespace KeptByReading

variable {P : Keyfile → Prop}

theorem tail {line : List Char} {more : List (List Char)} (hP : KeptByReading P (line :: more)) :
    KeptByReading P more where
  openGroup := hP.openGroup
  enter hf _ _ _ _ hgroup hkey hline := hP.enter hf hgroup hkey (List.mem_cons_of_mem line hline)

/-- Reading keeps what lines keep, as long as the open group has a valid name. -/
theorem readLines {lines : List (List Char)} (hP : KeptByReading P lines) {f g : Keyfile}
    {current : Option String} {number : Nat} (h : P f)
    (hcurrent : ∀ group, current = some group → isGroupName group = true)
    (hread : Keyfile.readLines f current number lines = .ok g) : P g := by
  induction lines generalizing f current number with
  | nil =>
      cases hread
      exact h
  | cons line more ih =>
      rw [Keyfile.readLines] at hread
      split at hread
      next => cases hread
      next => exact ih hP.tail h hcurrent hread
      next group hheader =>
        have hgroup := isGroupName_of_readLine hheader
        refine ih hP.tail (hP.openGroup h hgroup) (fun other hother => ?_) hread
        cases hother
        exact hgroup
      next key value hentry =>
        obtain ⟨hin, hkey, text, htext, heq⟩ := entry_of_readLine hentry
        obtain ⟨group, rfl⟩ := Option.isSome_iff_exists.mp hin
        have henter := hP.enter h (hcurrent group rfl) hkey List.mem_cons_self htext
        rw [← heq] at henter
        exact ih hP.tail henter hcurrent hread

theorem parse {text : String} {separator : Char} {f : Keyfile}
    (hP : KeptByReading P (Text.lines text.toList)) (hnew : P (new separator))
    (h : Keyfile.parse text separator = .ok f) : P f := by
  refine hP.readLines hnew (fun group hcurrent => ?_) h
  cases hcurrent

end KeptByReading

theorem wellFormed_of_parse {text : String} {separator : Char} {f : Keyfile}
    (h : parse text separator = .ok f) : f.WellFormed ∧ f.separator = separator := by
  have hkept : KeptByReading (fun f => f.WellFormed ∧ f.separator = separator)
      (Text.lines text.toList) := by
    refine ⟨fun hf _ hgroup => ⟨hf.1.openGroup hgroup, hf.2⟩, ?_⟩
    intro f hf group key line text hgroup hkey hline htext
    have hlf : '\n' ∉ (String.ofList (Text.trimStart text)).toList := by
      rw [String.toList_ofList]
      intro hm
      have htrimmed := (List.dropWhile_suffix Text.isBlank).trans htext
      exact Text.lf_notMem_of_mem_lines hline (htrimmed.subset hm)
    exact ⟨hf.1.enter hgroup hkey hlf, hf.2⟩
  exact hkept.parse ⟨wellFormed_new separator, rfl⟩ h

/-! ### Edits -/

/-- A change that can be asked of a key-file. -/
inductive Edit where
  | setValue (group key escaped : String)
  | setTyped (group key : String) (value : Option Value)
  | addGroup (group : String)
  | removeKey (group key : String)
  | removeGroup (group : String)

/-- The file after a change was asked for, carried out or not. -/
def edit (f : Keyfile) : Edit → Keyfile
  | .setValue group key escaped => (f.setValue group key escaped).2
  | .setTyped group key value => (f.setTyped group key value).2
  | .addGroup group => (f.addGroup group).2
  | .removeKey group key => (f.removeKey group key).2
  | .removeGroup group => (f.removeGroup group).2

/-- The key-files that are new or have been read, and what edits make of them. -/
inductive Reachable : Keyfile → Prop
  | fresh (separator : Char) : Reachable (new separator)
  | read {text : String} {separator : Char} {f : Keyfile}
      (h : parse text separator = .ok f) : Reachable f
  | edited {f : Keyfile} (h : Reachable f) (e : Edit) : Reachable (f.edit e)

theorem WellFormed.edit {f : Keyfile} (h : f.WellFormed) (e : Edit) : (f.edit e).WellFormed := by
  cases e with
  | setValue group key escaped => exact h.setValue group key escaped
  | setTyped group key value =>
      cases value with
      | some value => exact h.setValue group key (f.codec.escape value)
      | none => exact h.removeKey group key
  | addGroup group => exact h.addGroup group
  | removeKey group key => exact h.removeKey group key
  | removeGroup group => exact h.removeGroup group

theorem separator_edit (f : Keyfile) (e : Edit) : (f.edit e).separator = f.separator := by
  cases e with
  | setValue group key escaped => exact f.separator_setValue group key escaped
  | setTyped group key value =>
      cases value with
      | some value => exact f.separator_setValue group key (f.codec.escape value)
      | none => exact f.separator_removeKey group key
  | addGroup group =>
      change (f.addGroup group).2.separator = f.separator
      rcases addGroup_cases f group with ⟨heq, -⟩ | ⟨-, -, heq⟩
      · rw [heq]
      · rw [heq]
        rfl
  | removeKey group key => exact f.separator_removeKey group key
  | removeGroup group => exact f.separator_removeGroup group

/-- Every key-file that can come about has valid names and values. -/
theorem Reachable.wellFormed {f : Keyfile} (h : f.Reachable) : f.WellFormed := by
  induction h with
  | fresh separator => exact wellFormed_new separator
  | read h => exact (wellFormed_of_parse h).1
  | edited h e ih => exact ih.edit e

end AccountRoster.Keyfile
