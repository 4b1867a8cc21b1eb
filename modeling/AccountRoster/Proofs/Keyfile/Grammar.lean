import AccountRoster.Proofs.Keyfile.Reachable

/-!
# The grammar of key-files

A text is a key-file if each of its lines has a form that fits where it stands: an
entry needs a header on an earlier line, the other forms stand anywhere. The file has
the groups of the headers, and under every key the last entry that a header of its
group covers. A text that is none is refused at the first line that does not fit, and
nothing behind that line matters.

## Implementation notes

What a line is, and which group is open there, hangs on the lines up to it alone. So
the state of the reader is described by the lines that it has taken, `Describes`, with
one lemma for a line of each kind; that a whole text is read as the grammar says is one
induction on the lines that are left.
-/

namespace AccountRoster.Keyfile

/-! ### The grammar -/

section Grammar

variable (lines : List (List Char)) (i : Nat)

/-- What the line at an index says. -/
def SaysAt (said : Line) : Prop := ∃ line, lines[i]? = some line ∧ Says line said

/-- The last header before an index is that of a group. -/
def OpenAt (group : String) : Prop :=
  ∃ j < i, SaysAt lines j (.header group) ∧
    ∀ k < i, j < k → ∀ other, ¬SaysAt lines k (.header other)

/-- An entry of a group stands at an index. -/
def EntryAt (group key value : String) : Prop :=
  SaysAt lines i (.entry key value) ∧ OpenAt lines i group

/-- The line at an index has a form, and if it is an entry there is a header before it. -/
def FitsAt : Prop :=
  ∃ said, SaysAt lines i said ∧
    ((∃ key value, said = .entry key value) → ∃ j < i, ∃ group, SaysAt lines j (.header group))

/-- The first line that does not fit is at an index. -/
def FirstMisfit : Prop := i < lines.length ∧ ¬FitsAt lines i ∧ ∀ j < i, FitsAt lines j

/-- No later entry of the group has the key. -/
def LastEntry (group key value : String) : Prop :=
  ∃ i, EntryAt lines i group key value ∧ ∀ j > i, ∀ other, ¬EntryAt lines j group key other

end Grammar

variable {lines more : List (List Char)} {line : List Char} {i : Nat}
  {group key value : String} {said : Line}

/-! ### What lines before others say -/

theorem lt_of_saysAt (h : SaysAt lines i said) : i < lines.length := by
  obtain ⟨line, hline, -⟩ := h
  exact (List.getElem?_eq_some_iff.mp hline).1

theorem saysAt_append (h : i < lines.length) :
    SaysAt (lines ++ more) i said ↔ SaysAt lines i said := by
  rw [SaysAt, SaysAt, List.getElem?_append_left h]

/-- The line behind others is found at their number. -/
theorem saysAt_length : SaysAt (lines ++ line :: more) lines.length said ↔ Says line said := by
  simp [SaysAt]

theorem saysAt_concat :
    SaysAt (lines ++ [line]) i said ↔
      SaysAt lines i said ∨ i = lines.length ∧ Says line said := by
  constructor
  · intro h
    have hlt := lt_of_saysAt h
    rw [List.length_append, List.length_singleton] at hlt
    rcases Nat.lt_or_eq_of_le (Nat.le_of_lt_succ hlt) with hi | rfl
    · exact Or.inl ((saysAt_append hi).mp h)
    · exact Or.inr ⟨rfl, saysAt_length.mp h⟩
  · rintro (h | ⟨rfl, h⟩)
    · exact (saysAt_append (lt_of_saysAt h)).mpr h
    · exact saysAt_length.mpr h

theorem exists_saysAt_iff : (∃ i, SaysAt lines i said) ↔ ∃ line ∈ lines, Says line said := by
  constructor
  · rintro ⟨i, line, hline, h⟩
    exact ⟨line, List.mem_of_getElem? hline, h⟩
  · rintro ⟨line, hmem, h⟩
    obtain ⟨i, hi⟩ := List.mem_iff_getElem?.mp hmem
    exact ⟨i, line, hi, h⟩

theorem openAt_append (h : i ≤ lines.length) :
    OpenAt (lines ++ more) i group ↔ OpenAt lines i group := by
  have hform {j : Nat} (hj : j < i) (said : Line) :
      SaysAt (lines ++ more) j said ↔ SaysAt lines j said :=
    saysAt_append (Nat.lt_of_lt_of_le hj h)
  constructor
  · rintro ⟨j, hj, hheader, hlast⟩
    refine ⟨j, hj, (hform hj _).mp hheader, fun k hk hjk other => ?_⟩
    rw [← hform hk]
    exact hlast k hk hjk other
  · rintro ⟨j, hj, hheader, hlast⟩
    refine ⟨j, hj, (hform hj _).mpr hheader, fun k hk hjk other => ?_⟩
    rw [hform hk]
    exact hlast k hk hjk other

theorem fitsAt_append (h : i < lines.length) : FitsAt (lines ++ more) i ↔ FitsAt lines i := by
  have hheader : (∃ j < i, ∃ group, SaysAt (lines ++ more) j (.header group)) ↔
      ∃ j < i, ∃ group, SaysAt lines j (.header group) :=
    exists_congr fun j => and_congr_right fun hj =>
      exists_congr fun _ => saysAt_append (Nat.lt_trans hj h)
  rw [FitsAt, FitsAt, hheader]
  exact exists_congr fun said => and_congr_left fun _ => saysAt_append h

/-- After a header somewhere, some group is open. -/
theorem exists_openAt_iff :
    (∃ group, OpenAt lines i group) ↔ ∃ j < i, ∃ group, SaysAt lines j (.header group) := by
  constructor
  · rintro ⟨group, j, hj, hheader, -⟩
    exact ⟨j, hj, group, hheader⟩
  · intro h
    induction i with
    | zero =>
        obtain ⟨j, hj, -⟩ := h
        exact absurd hj (Nat.not_lt_zero j)
    | succ i ih =>
        by_cases hlast : ∃ group, SaysAt lines i (.header group)
        · obtain ⟨group, hgroup⟩ := hlast
          refine ⟨group, i, Nat.lt_succ_self i, hgroup, fun k hk hik => ?_⟩
          omega
        · obtain ⟨j, hj, group, hheader⟩ := h
          have hne : j ≠ i := by
            rintro rfl
            exact hlast ⟨group, hheader⟩
          obtain ⟨other, k, hk, hk', hbetween⟩ := ih ⟨j, by omega, group, hheader⟩
          refine ⟨other, k, by omega, hk', fun l hl hkl found hfound => ?_⟩
          rcases Nat.lt_or_eq_of_le (Nat.le_of_lt_succ hl) with hli | rfl
          · exact hbetween l hli hkl found hfound
          · exact hlast ⟨found, hfound⟩

/-! ### One more line -/

/-- A header opens its group and no other. -/
theorem openAt_concat_header {opened : String} (h : Says line (.header opened)) :
    OpenAt (lines ++ [line]) (lines.length + 1) group ↔ opened = group := by
  constructor
  · rintro ⟨j, hj, hheader, hlast⟩
    rcases Nat.lt_or_eq_of_le (Nat.le_of_lt_succ hj) with hj | rfl
    · exact absurd (saysAt_length.mpr h) (hlast _ (Nat.lt_succ_self _) hj opened)
    · cases h.unique (saysAt_length.mp hheader)
      rfl
  · rintro rfl
    refine ⟨lines.length, Nat.lt_succ_self _, saysAt_length.mpr h, fun k hk hlt => ?_⟩
    omega

/-- A line that is no header leaves the group open. -/
theorem openAt_concat_other (h : ∀ opened, ¬Says line (.header opened)) :
    OpenAt (lines ++ [line]) (lines.length + 1) group ↔ OpenAt lines lines.length group := by
  have hform (j : Nat) (other : String) :
      SaysAt (lines ++ [line]) j (.header other) ↔ SaysAt lines j (.header other) := by
    rw [saysAt_concat, or_iff_left fun hand => h other hand.2]
  simp only [OpenAt, hform]
  constructor
  · rintro ⟨j, -, hheader, hlast⟩
    exact ⟨j, lt_of_saysAt hheader, hheader, fun k hk => hlast k (Nat.lt_succ_of_lt hk)⟩
  · rintro ⟨j, hj, hheader, hlast⟩
    refine ⟨j, Nat.lt_succ_of_lt hj, hheader, fun k _ hjk other hother => ?_⟩
    exact hlast k (lt_of_saysAt hother) hjk other hother

theorem entryAt_concat :
    EntryAt (lines ++ [line]) i group key value ↔
      EntryAt lines i group key value ∨
        i = lines.length ∧ Says line (.entry key value) ∧ OpenAt lines lines.length group := by
  rw [EntryAt, EntryAt, saysAt_concat]
  constructor
  · rintro ⟨h | ⟨rfl, h⟩, hopen⟩
    · exact Or.inl ⟨h, (openAt_append (Nat.le_of_lt (lt_of_saysAt h))).mp hopen⟩
    · exact Or.inr ⟨rfl, h, (openAt_append (Nat.le_refl _)).mp hopen⟩
  · rintro (⟨h, hopen⟩ | ⟨rfl, h, hopen⟩)
    · exact ⟨Or.inl h, (openAt_append (Nat.le_of_lt (lt_of_saysAt h))).mpr hopen⟩
    · exact ⟨Or.inr ⟨rfl, h⟩, (openAt_append (Nat.le_refl _)).mpr hopen⟩

/-- An entry is the last one of its key. -/
theorem lastEntry_concat_self (h : Says line (.entry key value))
    (hopen : OpenAt lines lines.length group) {other : String} :
    LastEntry (lines ++ [line]) group key other ↔ value = other := by
  have hself : EntryAt (lines ++ [line]) lines.length group key value :=
    entryAt_concat.mpr (Or.inr ⟨rfl, h, hopen⟩)
  constructor
  · rintro ⟨i, hentry, hlast⟩
    rcases entryAt_concat.mp hentry with hearlier | ⟨rfl, hform, -⟩
    · exact absurd hself (hlast _ (lt_of_saysAt hearlier.1) value)
    · cases h.unique hform
      rfl
  · rintro rfl
    refine ⟨lines.length, hself, fun j hj other hother => ?_⟩
    have hlt := lt_of_saysAt hother.1
    rw [List.length_append, List.length_singleton] at hlt
    omega

/-- What is the last entry of a key stays so as long as no other one follows. -/
theorem lastEntry_concat_other
    (h : ∀ value, Says line (.entry key value) → ¬OpenAt lines lines.length group) :
    LastEntry (lines ++ [line]) group key value ↔ LastEntry lines group key value := by
  have hentry (j : Nat) (other : String) :
      EntryAt (lines ++ [line]) j group key other ↔ EntryAt lines j group key other := by
    rw [entryAt_concat, or_iff_left fun hand => h other hand.2.1 hand.2.2]
  simp only [LastEntry, hentry]

/-! ### The state of the reader -/

/-- The lines that were taken all fit, and group and file are what they say. -/
structure Describes (lines : List (List Char)) (f : Keyfile) (current : Option String) :
    Prop where
  fits : ∀ i < lines.length, FitsAt lines i
  opened : ∀ group, current = some group ↔ OpenAt lines lines.length group
  groups : ∀ group, group ∈ f.groupNames ↔ ∃ line ∈ lines, Says line (.header group)
  values : ∀ group key value, f.value? group key = some value ↔ LastEntry lines group key value

theorem describes_new (separator : Char) : Describes [] (new separator) none where
  fits := nofun
  opened _ := by simp [OpenAt, SaysAt]
  groups _ := by simp [groupNames, new, Dict.keys, Dict.empty]
  values _ _ _ := by simp [LastEntry, EntryAt, SaysAt]

theorem mem_groupNames_openGroup {f : Keyfile} {opened : String} :
    group ∈ (f.openGroup opened).groupNames ↔ opened = group ∨ group ∈ f.groupNames := by
  simp only [groupNames, Dict.mem_keys_iff, Dict.contains_eq, openGroup, Dict.get?_insert]
  by_cases h : opened = group <;> simp [h]

theorem mem_groupNames_enter {f : Keyfile} {other : String} :
    group ∈ (f.enter other key value).groupNames ↔ other = group ∨ group ∈ f.groupNames := by
  simp only [groupNames, Dict.mem_keys_iff, Dict.contains_eq, groups_enter]
  by_cases h : other = group <;> simp [h]

namespace Describes

variable {f : Keyfile} {current : Option String}

/-- The reader takes a line exactly if it fits. -/
theorem fitsAt_iff (h : Describes lines f current) :
    FitsAt (lines ++ line :: more) lines.length ↔
      ∃ said, readLine current.isSome line = .ok said := by
  have hopen : (∃ j < lines.length, ∃ group,
      SaysAt (lines ++ line :: more) j (.header group)) ↔ current.isSome = true := by
    rw [← exists_openAt_iff, Option.isSome_iff_exists]
    refine exists_congr fun group => ?_
    rw [openAt_append (Nat.le_refl _), h.opened]
  rw [FitsAt, hopen]
  simp only [saysAt_length, readLine_eq_ok_iff]

theorem fits_concat (h : Describes lines f current)
    (hread : readLine current.isSome line = .ok said) :
    ∀ i < (lines ++ [line]).length, FitsAt (lines ++ [line]) i := by
  intro i hi
  rw [List.length_append, List.length_singleton] at hi
  rcases Nat.lt_or_eq_of_le (Nat.le_of_lt_succ hi) with hi | rfl
  · exact (fitsAt_append hi).mpr (h.fits i hi)
  · exact h.fitsAt_iff.mpr ⟨said, hread⟩

theorem nothing (h : Describes lines f current)
    (hread : readLine current.isSome line = .ok .nothing) :
    Describes (lines ++ [line]) f current := by
  have hform := (readLine_eq_ok_iff.mp hread).1
  have hheader (group : String) : ¬Says line (.header group) := fun hother =>
    nomatch hform.unique hother
  have hentry (key value : String) : ¬Says line (.entry key value) := fun hother =>
    nomatch hform.unique hother
  refine ⟨h.fits_concat hread, fun group => ?_, fun group => ?_, fun group key value => ?_⟩
  · rw [List.length_append, List.length_singleton, openAt_concat_other hheader]
    exact h.opened group
  · simp [h.groups, hheader]
  · rw [lastEntry_concat_other fun value hvalue => absurd hvalue (hentry key value)]
    exact h.values group key value

theorem header (h : Describes lines f current)
    (hread : readLine current.isSome line = .ok (.header group)) :
    Describes (lines ++ [line]) (f.openGroup group) (some group) := by
  have hform := (readLine_eq_ok_iff.mp hread).1
  have hheader (other : String) : Says line (.header other) ↔ group = other := by
    constructor
    · intro hother
      cases hform.unique hother
      rfl
    · rintro rfl
      exact hform
  have hentry (key value : String) : ¬Says line (.entry key value) := fun hother =>
    nomatch hform.unique hother
  refine ⟨h.fits_concat hread, fun other => ?_, fun other => ?_, fun other key value => ?_⟩
  · rw [List.length_append, List.length_singleton, openAt_concat_header hform, Option.some_inj]
  · rw [mem_groupNames_openGroup, h.groups]
    simp [hheader, or_comm]
  · rw [value?, entries_openGroup, ← value?,
      lastEntry_concat_other fun value hvalue => absurd hvalue (hentry key value)]
    exact h.values other key value

theorem entry (h : Describes lines f (some group))
    (hread : readLine true line = .ok (.entry key value)) :
    Describes (lines ++ [line]) (f.enter group key value) (some group) := by
  have hform := (readLine_eq_ok_iff.mp hread).1
  have hheader (other : String) : ¬Says line (.header other) := fun hother =>
    nomatch hform.unique hother
  have hopen : OpenAt lines lines.length group := (h.opened group).mp rfl
  have hgroup : group ∈ f.groupNames := by
    obtain ⟨j, -, hj, -⟩ := hopen
    exact (h.groups group).mpr (exists_saysAt_iff.mp ⟨j, hj⟩)
  refine ⟨h.fits_concat hread, fun other => ?_, fun other => ?_, fun other k v => ?_⟩
  · rw [List.length_append, List.length_singleton, openAt_concat_other hheader]
    exact h.opened other
  · rw [mem_groupNames_enter, or_iff_right_of_imp fun heq => heq ▸ hgroup, h.groups]
    simp [hheader]
  · rw [value?_enter]
    split
    next heq =>
      obtain ⟨rfl, rfl⟩ := heq
      rw [lastEntry_concat_self hform hopen, Option.some_inj]
    next hne =>
      rw [h.values, lastEntry_concat_other]
      intro value' hvalue hother
      cases hform.unique hvalue
      exact hne ⟨Option.some_inj.mp ((h.opened other).mpr hother), rfl⟩

end Describes

/-! ### Reading all lines -/

/-- A reader that is described by the lines before reads the other lines up to the first
one that does not fit, and is described by all of them if there is none. -/
theorem readLines_cases {f : Keyfile} {current : Option String} (h : Describes lines f current) :
    (∃ g last, readLines f current (lines.length + 1) more = .ok g ∧
        Describes (lines ++ more) g last) ∨
      ∃ i detail, FirstMisfit (lines ++ more) i ∧
        readLines f current (lines.length + 1) more = .error (.invalidLine (i + 1) detail) := by
  induction more generalizing lines f current with
  | nil =>
      rw [List.append_nil]
      exact Or.inl ⟨f, current, rfl, h⟩
  | cons line more ih =>
      have hlength : lines.length + 1 = (lines ++ [line]).length := by simp
      have hmore : lines ++ line :: more = lines ++ [line] ++ more := by simp
      rw [readLines]
      cases hread : readLine current.isSome line with
      | error fault =>
          refine Or.inr ⟨lines.length, fault.detail, ⟨by simp, ?_, fun j hj => ?_⟩, rfl⟩
          · rw [h.fitsAt_iff, hread]
            rintro ⟨said, hsaid⟩
            cases hsaid
          · exact (fitsAt_append hj).mpr (h.fits j hj)
      | ok said =>
          rw [hlength, hmore]
          cases said with
          | nothing => exact ih (h.nothing hread)
          | header group => exact ih (h.header hread)
          | entry key value =>
              have hin := (readLine_eq_ok_iff.mp hread).2 ⟨key, value, rfl⟩
              obtain ⟨group, rfl⟩ := Option.isSome_iff_exists.mp hin
              exact ih (h.entry hread)

/-- What is behind a line that cannot be read makes no difference, and neither does the
file that the lines before it go into. -/
theorem readLines_append_of_error {f g : Keyfile} {current : Option String} {number : Nat}
    {fault : CodecFault} (h : readLines f current number lines = .error fault) :
    readLines g current number (lines ++ more) = .error fault := by
  induction lines generalizing f g current number with
  | nil => cases h
  | cons line rest ih =>
      rw [List.cons_append, readLines]
      rw [readLines] at h
      cases hread : readLine current.isSome line with
      | error found =>
          rw [hread] at h
          exact h
      | ok said =>
          rw [hread] at h
          cases said with
          | nothing => exact ih h
          | header group => exact ih h
          | entry key value => exact ih h

theorem readLines_new_cases (separator : Char) (lines : List (List Char)) :
    (∃ f last, readLines (new separator) none 1 lines = .ok f ∧ Describes lines f last) ∨
      ∃ i detail, FirstMisfit lines i ∧
        readLines (new separator) none 1 lines = .error (.invalidLine (i + 1) detail) :=
  readLines_cases (describes_new separator)

/-- The lines up to the first one that does not fit settle the fault. -/
theorem readLines_of_firstMisfit (h : FirstMisfit lines i) {c : Char} {fault : CodecFault}
    (hread : readLines (new c) none 1 lines = .error fault) {others : List (List Char)}
    (hothers : lines.take (i + 1) <+: others) (d : Char) :
    readLines (new d) none 1 others = .error fault := by
  obtain ⟨hi, hmisfit, -⟩ := h
  have hlength : i < (lines.take (i + 1)).length := by
    rw [List.length_take]
    omega
  have hsplit : lines.take (i + 1) ++ lines.drop (i + 1) = lines := List.take_append_drop _ _
  rcases readLines_new_cases c (lines.take (i + 1)) with
    ⟨f, last, -, hdescribes⟩ | ⟨j, detail, -, hfront⟩
  · -- the lines would all fit, also the one that does not
    exfalso
    apply hmisfit
    rw [← hsplit]
    exact (fitsAt_append hlength).mpr (hdescribes.fits i hlength)
  · have hsame : readLines (new c) none 1 lines = .error (.invalidLine (j + 1) detail) := by
      rw [← hsplit]
      exact readLines_append_of_error hfront
    rw [hread] at hsame
    cases hsame
    obtain ⟨rest, rfl⟩ := hothers
    exact readLines_append_of_error hfront

/-- A text is a key-file exactly if every line fits where it stands. The file has the
groups of all headers, and the value of a key is that of its last entry under any header
of the group. A text that is no key-file is refused with the number of the first line
that does not fit, and so is any text with the same lines up to that one. -/
theorem parse_meets_grammar (text : String) (separator : Char) :
    let lines := Text.lines text.toList
    ((∃ f, parse text separator = .ok f) ↔ ∀ i < lines.length, FitsAt lines i) ∧
      (∀ f, parse text separator = .ok f →
        f.separator = separator ∧
        (∀ group, group ∈ f.groupNames ↔ ∃ line ∈ lines, Says line (.header group)) ∧
        ∀ group key value, f.value? group key = some value ↔
          LastEntry lines group key value) ∧
      ∀ fault, parse text separator = .error fault →
        ∃ i detail, FirstMisfit lines i ∧ fault = .invalidLine (i + 1) detail ∧
          ∀ (other : String) (mark : Char), lines.take (i + 1) <+: Text.lines other.toList →
            parse other mark = .error fault := by
  intro lines
  have hparse : parse text separator = readLines (new separator) none 1 lines := rfl
  rcases readLines_new_cases separator lines with
    ⟨f, last, hread, hdescribes⟩ | ⟨i, detail, hmisfit, hread⟩
  · rw [hparse, hread]
    refine ⟨⟨fun _ => hdescribes.fits, fun _ => ⟨f, rfl⟩⟩, fun g hg => ?_, nofun⟩
    cases hg
    exact ⟨(wellFormed_of_parse hread).2, hdescribes.groups, hdescribes.values⟩
  · rw [hparse, hread]
    refine ⟨⟨nofun, fun hfits => ?_⟩, nofun, fun fault hfault => ?_⟩
    · exact absurd (hfits i hmisfit.1) hmisfit.2.1
    · cases hfault
      refine ⟨i, detail, hmisfit, rfl, fun other mark hother => ?_⟩
      exact readLines_of_firstMisfit hmisfit hread hother mark

/-- A header opens its group once more, and the later entry counts. A text is refused at
a line without an equals sign, whatever follows it. -/
theorem parse_reopened_and_refused :
    LastEntry (Text.lines "[g]\nk=1\n[h]\n [g] \nk = 2\n".toList) "g" "k" "2" ∧
      ∀ (other : String) (mark : Char),
        ["[g]".toList, "no sign".toList] <+: Text.lines other.toList →
          parse other mark = .error (.invalidLine 2 "expected key=value") := by
  constructor
  · let f := (((new ',').enter "g" "k" "1").openGroup "h").enter "g" "k" "2"
    have hread : parse "[g]\nk=1\n[h]\n [g] \nk = 2\n" ',' = .ok f := by
      decide +kernel
    obtain ⟨-, -, hvalues⟩ := (parse_meets_grammar _ ',').2.1 f hread
    exact (hvalues "g" "k" "2").mp (by decide +kernel)
  · have hread : parse "[g]\nno sign\n[h\n" ',' =
        .error (.invalidLine 2 "expected key=value") := by
      decide +kernel
    obtain ⟨i, detail, -, hfault, hshared⟩ := (parse_meets_grammar _ ',').2.2 _ hread
    cases hfault
    exact hshared

end AccountRoster.Keyfile
