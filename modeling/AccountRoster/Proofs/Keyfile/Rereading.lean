import AccountRoster.Proofs.Keyfile.Reachable

/-!
# Writing a key-file and reading it again

The text of a key-file is read as the same groups with the same keys. A value
is settled by that: it loses one carriage return at its end, and then the blanks
at its front.

## Implementation notes

Reading is followed along the text: a written line is cut off and read, then the
entries of one group, then one group after the other. A group that is read does
not exist yet, since the groups before it come first in the order.
-/

namespace AccountRoster.Keyfile

/-- What is left of a value after it was written and read again. -/
def settle (value : String) : String :=
  String.ofList (Text.trimStart (Text.dropReturn value.toList))

/-- The key-file with every value settled. -/
def settled (f : Keyfile) : Keyfile :=
  { f with groups := f.groups.map fun entries => entries.map settle }

/-! ### Settled values -/

/-- A value stays as it is if no blank leads it and no carriage return ends it. -/
theorem settle_eq_self_iff {value : String} :
    settle value = value ↔
      (∀ c, value.toList.head? = some c → Text.isBlank c = false) ∧
        value.toList.getLast? ≠ some '\r' := by
  have hchars : settle value = value ↔
      Text.trimStart (Text.dropReturn value.toList) = value.toList := by
    rw [← String.toList_inj, settle, String.toList_ofList]
  rw [hchars]
  constructor
  · intro h
    have hreturn : value.toList.getLast? ≠ some '\r' := by
      intro hlast
      have hlt := Text.length_dropReturn_lt hlast
      have hle := Text.length_trimStart_le (Text.dropReturn value.toList)
      rw [h] at hle
      omega
    have hdrop : Text.dropReturn value.toList = value.toList := if_neg hreturn
    rw [hdrop] at h
    exact ⟨Text.trimStart_eq_self_iff.mp h, hreturn⟩
  · rintro ⟨hfront, hreturn⟩
    have hdrop : Text.dropReturn value.toList = value.toList := if_neg hreturn
    rw [hdrop]
    exact Text.trimStart_eq_self_iff.mpr hfront

theorem get?_groups_settled (f : Keyfile) (group : String) :
    f.settled.groups.get? group = (f.groups.get? group).map fun entries => entries.map settle :=
  Dict.get?_map _ f.groups group

theorem groupNames_settled (f : Keyfile) : f.settled.groupNames = f.groupNames :=
  Dict.keys_map _ f.groups

theorem entries_settled (f : Keyfile) (group : String) :
    f.settled.entries group = (f.entries group).map settle := by
  rw [entries, get?_groups_settled, entries]
  cases f.groups.get? group with
  | none => rfl
  | some entries => rfl

theorem keys_settled (f : Keyfile) (group : String) : f.settled.keys group = f.keys group := by
  rw [keys, entries_settled, Dict.keys_map]
  rfl

theorem value?_settled (f : Keyfile) (group key : String) :
    f.settled.value? group key = (f.value? group key).map settle := by
  rw [value?, entries_settled, Dict.get?_map]
  rfl

/-- A key-file is as it was exactly when each of its values is. -/
theorem settled_eq_self_iff {f : Keyfile} :
    f.settled = f ↔ ∀ group key value, f.value? group key = some value → settle value = value := by
  constructor
  · intro h group key value hvalue
    have hmap := value?_settled f group key
    rw [h, hvalue, Option.map_some] at hmap
    exact (Option.some.inj hmap).symm
  · intro h
    have hgroups : f.groups.map (fun entries => entries.map settle) = f.groups := by
      refine Dict.map_eq_self_iff.mpr fun group entries hgroup => ?_
      refine Dict.map_eq_self_iff.mpr fun key value hvalue => ?_
      refine h group key value ?_
      rw [value?, entries_of_get? hgroup, hvalue]
    rw [settled, hgroups]

/-! ### Written lines -/

theorem lines_entryText {entry : String × String} (hkey : isKeyName entry.1 = true)
    (hvalue : '\n' ∉ entry.2.toList) (rest : List Char) :
    Text.lines (entryText entry ++ rest) =
      (entry.1.toList ++ '=' :: Text.dropReturn entry.2.toList) :: Text.lines rest := by
  obtain ⟨-, -, hchars, -⟩ := isKeyName_iff.mp hkey
  have hlf : '\n' ∉ entry.1.toList ++ '=' :: entry.2.toList := by
    intro hm
    rcases List.mem_append.mp hm with hm | hm
    · exact lf_notMem_of_control (fun c hc => (hchars c hc).2.2.2) hm
    · rcases List.mem_cons.mp hm with heq | hm
      · exact absurd heq (by decide)
      · exact hvalue hm
  have htext : entryText entry ++ rest =
      (entry.1.toList ++ '=' :: entry.2.toList) ++ '\n' :: rest := by
    simp [entryText]
  have hdrop : Text.dropReturn (entry.1.toList ++ '=' :: entry.2.toList) =
      entry.1.toList ++ '=' :: Text.dropReturn entry.2.toList := by
    rw [Text.dropReturn_append entry.1.toList (List.cons_ne_nil '=' entry.2.toList)]
    rw [Text.dropReturn_cons_of_ne (by decide)]
  rw [htext, Text.lines_append_lf hlf, hdrop]

theorem lines_groupText {group : String × Dict String} (hgroup : isGroupName group.1 = true)
    (rest : List Char) :
    Text.lines (groupText group ++ rest) =
      ('[' :: group.1.toList ++ [']']) ::
        Text.lines (group.2.entries.flatMap entryText ++ rest) := by
  obtain ⟨-, hchars⟩ := isGroupName_iff.mp hgroup
  have hlf : '\n' ∉ '[' :: group.1.toList ++ [']'] := by
    intro hm
    rcases List.mem_append.mp hm with hm | hm
    · rcases List.mem_cons.mp hm with heq | hm
      · exact absurd heq (by decide)
      · exact lf_notMem_of_control (fun c hc => (hchars c hc).2.2) hm
    · exact absurd (List.mem_singleton.mp hm) (by decide)
  have htext : groupText group ++ rest =
      ('[' :: group.1.toList ++ [']']) ++
        '\n' :: (group.2.entries.flatMap entryText ++ rest) := by
    simp [groupText]
  rw [htext, Text.lines_append_lf hlf]
  congr 1
  exact Text.dropReturn_concat ('[' :: group.1.toList) (by decide)

/-! ### Reading what was written -/

/-- The entries of the open group are entered one after the other, settled. -/
theorem readLines_entryTexts {entries : List (String × String)}
    (hvalid : ∀ entry ∈ entries, isKeyName entry.1 = true ∧ '\n' ∉ entry.2.toList)
    (f : Keyfile) (group : String) (known : Dict String) (number : Nat) (rest : List Char) :
    readLines { f with groups := f.groups.insert group known } (some group) number
        (Text.lines (entries.flatMap entryText ++ rest)) =
      readLines
        { f with
          groups := f.groups.insert group
            (entries.foldl (fun d entry => d.insert entry.1 (settle entry.2)) known) }
        (some group) (number + entries.length) (Text.lines rest) := by
  induction entries generalizing known number with
  | nil => rfl
  | cons entry more ih =>
      obtain ⟨hkey, hvalue⟩ := hvalid entry List.mem_cons_self
      have hmore : ∀ e ∈ more, isKeyName e.1 = true ∧ '\n' ∉ e.2.toList :=
        fun e he => hvalid e (List.mem_cons_of_mem entry he)
      have henter : enter { f with groups := f.groups.insert group known } group entry.1
          (settle entry.2) =
          { f with groups := f.groups.insert group (known.insert entry.1 (settle entry.2)) } := by
        have hknown : Keyfile.entries { f with groups := f.groups.insert group known } group =
            known := entries_of_get? (Dict.get?_insert_self f.groups group known)
        rw [enter, hknown, Dict.insert_insert]
      rw [List.flatMap_cons, List.append_assoc, lines_entryText hkey hvalue, readLines]
      rw [Option.isSome_some, readLine_entry hkey]
      dsimp only
      rw [Option.getD_some]
      have hread := ih hmore (known.insert entry.1 (settle entry.2)) (number + 1)
      rw [← henter] at hread
      rw [List.foldl_cons, List.length_cons, Nat.add_comm more.length 1, ← Nat.add_assoc]
      exact hread

/-- A written group that is not there yet is read as that group, settled. -/
theorem readLines_groupText {f : Keyfile} {group : String × Dict String}
    (hgroup : isGroupName group.1 = true) (hentries : ValidEntries group.2)
    (hfresh : f.groups.get? group.1 = none) (current : Option String) (number : Nat)
    (rest : List Char) :
    ∃ after, readLines f current number (Text.lines (groupText group ++ rest)) =
      readLines { f with groups := f.groups.insert group.1 (group.2.map settle) }
        (some group.1) after (Text.lines rest) := by
  have hopen : f.openGroup group.1 =
      { f with groups := f.groups.insert group.1 Dict.empty } := by
    rw [openGroup, Keyfile.entries, hfresh, Option.getD_none]
  refine ⟨number + 1 + group.2.entries.length, ?_⟩
  rw [lines_groupText hgroup, readLines, readLine_header hgroup]
  dsimp only
  rw [hopen, readLines_entryTexts fun _ => hentries.of_mem, Dict.foldl_insert_eq_map]

/-- Written groups that are not there yet are read as those groups, settled. -/
theorem readLines_groupsText {groups : List (String × Dict String)}
    (hsorted : groups.Pairwise fun a b => a.1 < b.1)
    (hvalid : ∀ group ∈ groups, isGroupName group.1 = true ∧ ValidEntries group.2)
    {f : Keyfile} (hfresh : ∀ group ∈ groups, f.groups.get? group.1 = none)
    (current : Option String) (number : Nat) :
    readLines f current number (Text.lines (groupsText groups)) =
      .ok { f with
        groups := groups.foldl (fun d group => d.insert group.1 (group.2.map settle)) f.groups } := by
  induction groups generalizing f current number with
  | nil => rfl
  | cons group more ih =>
      obtain ⟨hfirst, hrest⟩ := List.pairwise_cons.mp hsorted
      obtain ⟨hgroup, hentries⟩ := hvalid group List.mem_cons_self
      have hread := readLines_groupText hgroup hentries
        (hfresh group List.mem_cons_self) current number
      have hlater : ∀ g ∈ more, (f.groups.insert group.1 (group.2.map settle)).get? g.1 = none := by
        intro g hg
        have hne : group.1 ≠ g.1 := fun e => String.lt_irrefl g.1 (by
          have hlt := hfirst g hg
          rwa [e] at hlt)
        rw [Dict.get?_insert, if_neg hne]
        exact hfresh g (List.mem_cons_of_mem group hg)
      have hih := ih hrest (fun g hg => hvalid g (List.mem_cons_of_mem group hg))
        (f := { f with groups := f.groups.insert group.1 (group.2.map settle) }) hlater
        (some group.1)
      rw [List.foldl_cons]
      cases more with
      | nil =>
          obtain ⟨after, hafter⟩ := hread []
          rw [List.append_nil] at hafter
          rw [groupsText, hafter]
          exact hih after
      | cons next more =>
          obtain ⟨after, hafter⟩ := hread ('\n' :: groupsText (next :: more))
          -- the blank line between the groups says nothing
          rw [groupsText, hafter, Text.lines_lf, readLines]
          exact hih (after + 1)
          exact List.cons_ne_nil next more

/-- What is written of a key-file is read as that file, settled. -/
theorem parse_toData {f : Keyfile} (h : f.WellFormed) :
    parse f.toData f.separator = .ok f.settled := by
  rw [parse, toData, String.toList_ofList]
  rw [readLines_groupsText f.groups.sorted (fun _ => h.of_mem) (fun _ _ => rfl)]
  have hgroups := Dict.foldl_insert_eq_map (fun entries => entries.map settle) f.groups
  exact congrArg (fun groups => Except.ok { f with groups := groups }) hgroups

/-- Whatever was asked of a key-file, its text is read as a file with the same
groups and the same keys, and each value less one carriage return at its end and
then less the blanks at its front. It is the same file exactly when no value
starts with a blank or ends with a carriage return. -/
theorem Reachable.reread {f : Keyfile} (h : f.Reachable) :
    ∃ g, parse f.toData f.separator = .ok g ∧ g.separator = f.separator ∧
      g.groupNames = f.groupNames ∧ (∀ group, g.keys group = f.keys group) ∧
      (∀ group key, g.value? group key = (f.value? group key).map settle) ∧
      (g = f ↔ ∀ group key value, f.value? group key = some value →
        (∀ c, value.toList.head? = some c → Text.isBlank c = false) ∧
          value.toList.getLast? ≠ some '\r') := by
  refine ⟨f.settled, parse_toData h.wellFormed, rfl, groupNames_settled f, keys_settled f,
    value?_settled f, ?_⟩
  rw [settled_eq_self_iff]
  constructor
  · intro hs group key value hvalue
    exact settle_eq_self_iff.mp (hs group key value hvalue)
  · intro hs group key value hvalue
    exact settle_eq_self_iff.mpr (hs group key value hvalue)

/-- A value that was stored with a blank in front is read without it. -/
theorem Reachable.reread_blank :
    ∃ g, parse ((new ',').edit (.setValue "g" "k" " v")).toData ',' = .ok g ∧
      g.value? "g" "k" = some "v" := by
  have hstored : ((new ',').edit (.setValue "g" "k" " v")).Reachable :=
    Reachable.edited (Reachable.fresh ',') _
  obtain ⟨g, hparse, -, -, -, hvalue, -⟩ := Reachable.reread hstored
  refine ⟨g, hparse, ?_⟩
  rw [hvalue "g" "k"]
  decide +kernel

end AccountRoster.Keyfile
