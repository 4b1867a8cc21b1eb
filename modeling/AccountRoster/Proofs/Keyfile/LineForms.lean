import AccountRoster.Proofs.Keyfile.Lines
import AccountRoster.Proofs.Text.Trimming

/-!
# The forms of a line

A line is blank, a comment, a header or an entry, and which of them it is can be seen
from its form. `Says` gives these forms without a reader, and the reader of lines finds
exactly what a line says. A line has one form at most.

## Implementation notes

Each part of a line is read by one function, and each of these functions has one
equivalence that says how the text was put together. The reader of lines has four
cases, and every case is one of these equivalences.
-/

namespace AccountRoster.Keyfile

/-- What a line says by its form. -/
inductive Says : List Char → Line → Prop
  | blank {line : List Char} (h : Text.AllBlank line) : Says line .nothing
  | comment {front : List Char} (hfront : Text.AllBlank front) (rest : List Char) :
      Says (front ++ '#' :: rest) .nothing
  | header {front back : List Char} {group : String} (hfront : Text.AllBlank front)
      (hgroup : isGroupName group = true) (hback : Text.AllBlank back) :
      Says (front ++ '[' :: (group.toList ++ ']' :: back)) (.header group)
  | entry {front before after : List Char} {key value : String} (hfront : Text.AllBlank front)
      (hkey : isKeyName key = true) (hbefore : Text.AllBlank before)
      (hafter : Text.AllBlank after) (hvalue : Text.NoBlankFirst value.toList) :
      Says (front ++ (key.toList ++ (before ++ '=' :: (after ++ value.toList))))
        (.entry key value)

/-! ### The parts of a line -/

/-- A key goes up to the first equals sign. -/
theorem splitEntry_eq_some_iff {cs key value : List Char} :
    splitEntry cs = some (key, value) ↔ '=' ∉ key ∧ cs = key ++ '=' :: value := by
  constructor
  · intro h
    induction cs generalizing key with
    | nil => cases h
    | cons c rest ih =>
        rw [splitEntry] at h
        split at h
        next hc =>
          cases h
          exact ⟨List.not_mem_nil, by rw [hc, List.nil_append]⟩
        next hc =>
          obtain ⟨⟨k, v⟩, hrest, heq⟩ := Option.map_eq_some_iff.mp h
          cases heq
          obtain ⟨hk, rfl⟩ := ih hrest
          refine ⟨?_, rfl⟩
          rw [List.mem_cons, not_or]
          exact ⟨fun e => hc e.symm, hk⟩
  · rintro ⟨hkey, rfl⟩
    induction key with
    | nil => rfl
    | cons c key ih =>
        rw [List.mem_cons, not_or] at hkey
        rw [List.cons_append, splitEntry, if_neg fun e => hkey.1 e.symm, ih hkey.2]
        rfl

/-- A header ends with its bracket and blanks behind it. -/
theorem beforeBracket_eq_some_iff {cs name : List Char} :
    beforeBracket cs = some name ↔ ∃ back, Text.AllBlank back ∧ cs = name ++ ']' :: back := by
  have hbracket : Text.NoBlankLast (name ++ [']']) := by
    intro c hc
    rw [List.getLast?_concat] at hc
    cases hc
    decide
  have htrim : beforeBracket cs = some name ↔ Text.trimEnd cs = name ++ [']'] := by
    have hmirror : (Text.trimEnd cs).reverse = (name ++ [']']).reverse ↔
        Text.trimEnd cs = name ++ [']'] :=
      List.reverse_inj
    rw [beforeBracket, ← hmirror, List.reverse_concat]
    split
    next rest heq =>
      rw [heq, Option.some_inj, List.reverse_eq_iff]
      simp
    next hother =>
      exact iff_of_false nofun fun heq => hother _ heq
  rw [htrim, Text.trimEnd_eq_iff]
  simp [hbracket]

theorem readHeader_eq_ok_iff {rest : List Char} {said : Line} :
    readHeader rest = .ok said ↔
      ∃ group back, isGroupName group = true ∧ Text.AllBlank back ∧
        rest = group.toList ++ ']' :: back ∧ said = .header group := by
  constructor
  · intro h
    unfold readHeader at h
    split at h
    next => cases h
    next name hname =>
      split at h
      next hgroup =>
        cases h
        obtain ⟨back, hback, rfl⟩ := beforeBracket_eq_some_iff.mp hname
        exact ⟨String.ofList name, back, hgroup, hback, by rw [String.toList_ofList], rfl⟩
      next => cases h
  · rintro ⟨group, back, hgroup, hback, rfl, rfl⟩
    have hname : beforeBracket (group.toList ++ ']' :: back) = some group.toList :=
      beforeBracket_eq_some_iff.mpr ⟨back, hback, rfl⟩
    simp [readHeader, hname, hgroup]

/-- A key ends with no blank, so that the blanks before the equals sign can be told
from it. -/
theorem noBlank_of_isKeyName {key : String} (h : isKeyName key = true) :
    Text.NoBlankFirst key.toList ∧ Text.NoBlankLast key.toList := by
  obtain ⟨-, -, -, htrim⟩ := isKeyName_iff.mp h
  exact Text.trim_eq_self_iff.mp htrim

theorem readEntry_eq_ok_iff {cs : List Char} {said : Line} :
    readEntry cs = .ok said ↔
      ∃ key value before after, isKeyName key = true ∧ Text.AllBlank before ∧
        Text.AllBlank after ∧ Text.NoBlankFirst value.toList ∧
        cs = key.toList ++ (before ++ '=' :: (after ++ value.toList)) ∧
        said = .entry key value := by
  constructor
  · intro h
    unfold readEntry at h
    split at h
    next => cases h
    next key value hsplit =>
      dsimp only at h
      split at h
      next hkey =>
        cases h
        obtain ⟨-, rfl⟩ := splitEntry_eq_some_iff.mp hsplit
        obtain ⟨⟨before, hbefore, hcut⟩, -⟩ := Text.trimEnd_eq_iff.mp (rfl : Text.trimEnd key = _)
        obtain ⟨⟨after, hafter, hrest⟩, hvalue⟩ :=
          Text.trimStart_eq_iff.mp (rfl : Text.trimStart value = _)
        refine ⟨_, _, before, after, hkey, hbefore, hafter, ?_, ?_, rfl⟩
        · rwa [String.toList_ofList]
        · rw [String.toList_ofList, String.toList_ofList, ← hrest, ← List.append_assoc, ← hcut]
      next => cases h
  · rintro ⟨key, value, before, after, hkey, hbefore, hafter, hvalue, rfl, rfl⟩
    obtain ⟨-, -, hchars, -⟩ := isKeyName_iff.mp hkey
    have hequals : '=' ∉ key.toList ++ before := by
      intro hmem
      rcases List.mem_append.mp hmem with hmem | hmem
      · exact (hchars '=' hmem).1 rfl
      · exact absurd (hbefore '=' hmem) (by decide)
    have hsplit : splitEntry (key.toList ++ (before ++ '=' :: (after ++ value.toList))) =
        some (key.toList ++ before, after ++ value.toList) :=
      splitEntry_eq_some_iff.mpr ⟨hequals, (List.append_assoc _ _ _).symm⟩
    have hname : Text.trimEnd (key.toList ++ before) = key.toList :=
      Text.trimEnd_eq_iff.mpr ⟨⟨before, hbefore, rfl⟩, (noBlank_of_isKeyName hkey).2⟩
    have hstart : Text.trimStart (after ++ value.toList) = value.toList :=
      Text.trimStart_eq_iff.mpr ⟨⟨after, hafter, rfl⟩, hvalue⟩
    simp [readEntry, hsplit, hname, hstart, hkey]

/-! ### Lines -/

/-- A line is read exactly as what it says, but for an entry where no group is open. -/
theorem readLine_eq_ok_iff {inGroup : Bool} {line : List Char} {said : Line} :
    readLine inGroup line = .ok said ↔
      Says line said ∧ ((∃ key value, said = .entry key value) → inGroup = true) := by
  constructor
  · intro h
    obtain ⟨⟨front, hfront, hline⟩, -⟩ :=
      Text.trimStart_eq_iff.mp (rfl : Text.trimStart line = _)
    unfold readLine at h
    split at h
    next heq =>
      cases h
      exact ⟨Says.blank (Text.trimStart_eq_nil_iff.mp heq), nofun⟩
    next rest heq =>
      cases h
      rw [hline, heq]
      exact ⟨Says.comment hfront rest, nofun⟩
    next rest heq =>
      obtain ⟨group, back, hgroup, hback, rfl, rfl⟩ := readHeader_eq_ok_iff.mp h
      rw [hline, heq]
      exact ⟨Says.header hfront hgroup hback, nofun⟩
    next =>
      split at h
      next hin =>
        obtain ⟨key, value, before, after, hkey, hbefore, hafter, hvalue, heq, rfl⟩ :=
          readEntry_eq_ok_iff.mp h
        rw [hline, heq]
        exact ⟨Says.entry hfront hkey hbefore hafter hvalue, fun _ => hin⟩
      next => cases h
  · rintro ⟨hform, hin⟩
    cases hform with
    | blank h => rw [readLine, Text.trimStart_eq_nil_iff.mpr h]
    | @comment front hfront rest =>
        rw [readLine, Text.trimStart_append_cons hfront (by decide)]
        rfl
    | @header front back group hfront hgroup hback =>
        rw [readLine, Text.trimStart_append_cons hfront (by decide)]
        exact readHeader_eq_ok_iff.mpr ⟨group, back, hgroup, hback, rfl, rfl⟩
    | @entry front before after key value hfront hkey hbefore hafter hvalue =>
        obtain ⟨hne, hhash, hchars, -⟩ := isKeyName_iff.mp hkey
        have hread := readEntry_eq_ok_iff.mpr
          ⟨key, value, before, after, hkey, hbefore, hafter, hvalue, rfl, rfl⟩
        have hfirst := (noBlank_of_isKeyName hkey).1
        obtain ⟨c, rest, hcons⟩ : ∃ c rest, key.toList = c :: rest :=
          List.exists_cons_of_ne_nil fun e => hne (String.toList_inj.mp e)
        rw [hcons] at hhash hchars hfirst hread ⊢
        have hblank := Text.noBlankFirst_cons.mp hfirst
        -- the first character of a key opens neither a comment nor a header
        rw [readLine, List.cons_append, Text.trimStart_append_cons hfront hblank]
        split
        next heq => cases heq
        next heq => cases heq; exact absurd rfl hhash
        next heq => cases heq; exact absurd rfl (hchars '[' List.mem_cons_self).2.1
        next => rw [if_pos (hin ⟨key, value, rfl⟩)]; exact hread

/-- A line says one thing at most. -/
theorem Says.unique {line : List Char} {a b : Line} (ha : Says line a) (hb : Says line b) :
    a = b := by
  have hreadA : readLine true line = .ok a := readLine_eq_ok_iff.mpr ⟨ha, fun _ => rfl⟩
  have hreadB : readLine true line = .ok b := readLine_eq_ok_iff.mpr ⟨hb, fun _ => rfl⟩
  rw [hreadA] at hreadB
  cases hreadB
  rfl

/-! ### Written lines -/

/-- The header line of a valid group opens that group. -/
theorem readLine_header {group : String} (h : isGroupName group = true) (inGroup : Bool) :
    readLine inGroup ('[' :: group.toList ++ [']']) = .ok (.header group) := by
  have hform : Says ([] ++ '[' :: (group.toList ++ ']' :: [])) (.header group) :=
    Says.header Text.allBlank_nil h Text.allBlank_nil
  exact readLine_eq_ok_iff.mpr ⟨hform, nofun⟩

/-- The line of a valid key holds that key, and its value less the blanks at the
front. -/
theorem readLine_entry {key : String} (h : isKeyName key = true) (value : List Char) :
    readLine true (key.toList ++ '=' :: value) =
      .ok (.entry key (String.ofList (Text.trimStart value))) := by
  obtain ⟨⟨after, hafter, hvalue⟩, hfirst⟩ :=
    Text.trimStart_eq_iff.mp (rfl : Text.trimStart value = _)
  rw [← String.toList_ofList (l := Text.trimStart value)] at hvalue hfirst
  have hform := Says.entry Text.allBlank_nil h Text.allBlank_nil hafter hfirst
  rw [← hvalue] at hform
  exact readLine_eq_ok_iff.mpr ⟨hform, fun _ => rfl⟩

end AccountRoster.Keyfile
