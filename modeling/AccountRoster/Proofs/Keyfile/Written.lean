import AccountRoster.Proofs.Keyfile.Reachable

/-!
# Written key-files can be told apart

Two key-files with valid names and values are written alike only if they have the same
groups with the same entries. This goes further than that a text is read again: a reader
drops blanks at the front of a value, but they are written.

## Implementation notes

Two texts are compared from the front. What is written of a part is followed by any text
that can stand there, so that the parts on both sides have the same end.
-/

namespace AccountRoster

/-- Texts that agree are cut alike where a character comes first. -/
theorem Text.cut_inj {c : Char} {a b r s : List Char} (ha : c ∉ a) (hb : c ∉ b)
    (h : a ++ c :: r = b ++ c :: s) : a = b ∧ r = s := by
  have hlength : a.length = b.length := by
    have hindex := congrArg (List.idxOf c) h
    rwa [List.idxOf_append, List.idxOf_append, if_neg ha, if_neg hb, List.idxOf_cons_self,
      List.idxOf_cons_self, Nat.zero_add, Nat.zero_add] at hindex
  obtain ⟨hab, hrest⟩ := List.append_inj h hlength
  exact ⟨hab, (List.cons.inj hrest).2⟩

namespace Keyfile

/-- What can follow the entries of a group: nothing, or a blank line first. -/
def EndsGroup (rest : List Char) : Prop := ∀ c, rest.head? = some c → c = '\n'

theorem endsGroup_nil : EndsGroup [] := nofun

theorem endsGroup_lf (rest : List Char) : EndsGroup ('\n' :: rest) := by
  intro c hc
  exact (Option.some.inj hc).symm

variable {r s : List Char}

/-! ### Entries -/

theorem entryText_append_inj {a b : String × String} (ha : isKeyName a.1 = true)
    (hb : isKeyName b.1 = true) (hav : '\n' ∉ a.2.toList) (hbv : '\n' ∉ b.2.toList)
    (h : entryText a ++ r = entryText b ++ s) : a = b ∧ r = s := by
  have hequals {name : String} (hname : isKeyName name = true) : '=' ∉ name.toList := by
    obtain ⟨-, -, hchars, -⟩ := isKeyName_iff.mp hname
    exact fun hm => (hchars '=' hm).1 rfl
  simp only [entryText, List.append_assoc, List.cons_append, List.nil_append] at h
  obtain ⟨hkey, hafter⟩ := Text.cut_inj (hequals ha) (hequals hb) h
  obtain ⟨hvalue, hrest⟩ := Text.cut_inj hav hbv hafter
  exact ⟨Prod.ext (String.toList_inj.mp hkey) (String.toList_inj.mp hvalue), hrest⟩

/-- An entry does not start as the end of a group does. -/
theorem not_endsGroup_entryText {a : String × String} (ha : isKeyName a.1 = true) :
    ¬EndsGroup (entryText a ++ r) := by
  intro hends
  obtain ⟨hne, -, hchars, -⟩ := isKeyName_iff.mp ha
  cases hkey : a.1.toList with
  | nil => exact hne (String.toList_inj.mp hkey)
  | cons c more =>
      have hc : c = '\n' := hends c (by simp [entryText, hkey])
      rw [hkey] at hchars
      obtain ⟨-, -, -, hcontrol⟩ := hchars c List.mem_cons_self
      rw [hc] at hcontrol
      revert hcontrol
      decide

/-- Entries are told apart together with what follows them. -/
theorem entryTexts_append_inj {a b : List (String × String)}
    (ha : ∀ entry ∈ a, isKeyName entry.1 = true ∧ '\n' ∉ entry.2.toList)
    (hb : ∀ entry ∈ b, isKeyName entry.1 = true ∧ '\n' ∉ entry.2.toList)
    (hr : EndsGroup r) (hs : EndsGroup s)
    (h : a.flatMap entryText ++ r = b.flatMap entryText ++ s) : a = b ∧ r = s := by
  induction a generalizing b with
  | nil =>
      cases b with
      | nil => exact ⟨rfl, h⟩
      | cons y b =>
          rw [List.flatMap_nil, List.nil_append, List.flatMap_cons, List.append_assoc] at h
          -- one group would end where the other one has an entry
          rw [h] at hr
          exact absurd hr (not_endsGroup_entryText (hb y List.mem_cons_self).1)
  | cons x a ih =>
      obtain ⟨⟨hx, hxv⟩, has⟩ := List.forall_mem_cons.mp ha
      cases b with
      | nil =>
          rw [List.flatMap_nil, List.nil_append, List.flatMap_cons, List.append_assoc] at h
          rw [← h] at hs
          exact absurd hs (not_endsGroup_entryText hx)
      | cons y b =>
          obtain ⟨⟨hy, hyv⟩, hbs⟩ := List.forall_mem_cons.mp hb
          rw [List.flatMap_cons, List.flatMap_cons, List.append_assoc, List.append_assoc] at h
          obtain ⟨rfl, hmore⟩ := entryText_append_inj hx hy hxv hyv h
          obtain ⟨rfl, hrest⟩ := ih has hbs hmore
          exact ⟨rfl, hrest⟩

/-! ### Groups -/

theorem groupText_append_inj {a b : String × Dict String}
    (ha : isGroupName a.1 = true ∧ ValidEntries a.2)
    (hb : isGroupName b.1 = true ∧ ValidEntries b.2) (hr : EndsGroup r) (hs : EndsGroup s)
    (h : groupText a ++ r = groupText b ++ s) : a = b ∧ r = s := by
  have hbracket {name : String} (hname : isGroupName name = true) : ']' ∉ name.toList := by
    obtain ⟨-, hchars⟩ := isGroupName_iff.mp hname
    exact fun hm => (hchars ']' hm).2.1 rfl
  simp only [groupText, List.append_assoc, List.cons_append, List.nil_append,
    List.cons.injEq, true_and] at h
  obtain ⟨hname, hlines⟩ := Text.cut_inj (hbracket ha.1) (hbracket hb.1) h
  obtain ⟨-, hlines⟩ := List.cons.inj hlines
  obtain ⟨hentries, hrest⟩ :=
    entryTexts_append_inj (fun _ => ha.2.of_mem) (fun _ => hb.2.of_mem) hr hs hlines
  exact ⟨Prod.ext (String.toList_inj.mp hname) (Dict.ext_entries hentries), hrest⟩

/-- What follows a group: nothing, or a blank line and the groups after it. -/
def moreText : List (String × Dict String) → List Char
  | [] => []
  | group :: more => '\n' :: groupsText (group :: more)

theorem groupsText_cons (group : String × Dict String) (more : List (String × Dict String)) :
    groupsText (group :: more) = groupText group ++ moreText more := by
  cases more with
  | nil => exact (List.append_nil (groupText group)).symm
  | cons next more => rfl

theorem endsGroup_moreText (more : List (String × Dict String)) : EndsGroup (moreText more) := by
  cases more with
  | nil => exact endsGroup_nil
  | cons group more => exact endsGroup_lf (groupsText (group :: more))

theorem groupsText_of_moreText {a b : List (String × Dict String)}
    (h : moreText a = moreText b) : groupsText a = groupsText b := by
  cases a with
  | nil =>
      cases b with
      | nil => rfl
      | cons y b => cases h
  | cons x a =>
      cases b with
      | nil => cases h
      | cons y b => exact (List.cons.inj h).2

theorem groupsText_inj {a b : List (String × Dict String)}
    (ha : ∀ group ∈ a, isGroupName group.1 = true ∧ ValidEntries group.2)
    (hb : ∀ group ∈ b, isGroupName group.1 = true ∧ ValidEntries group.2)
    (h : groupsText a = groupsText b) : a = b := by
  induction a generalizing b with
  | nil =>
      cases b with
      | nil => rfl
      | cons y b =>
          rw [groupsText_cons] at h
          cases h
  | cons x a ih =>
      obtain ⟨hx, has⟩ := List.forall_mem_cons.mp ha
      cases b with
      | nil =>
          rw [groupsText_cons] at h
          cases h
      | cons y b =>
          obtain ⟨hy, hbs⟩ := List.forall_mem_cons.mp hb
          rw [groupsText_cons, groupsText_cons] at h
          obtain ⟨rfl, hmore⟩ :=
            groupText_append_inj hx hy (endsGroup_moreText a) (endsGroup_moreText b) h
          rw [ih has hbs (groupsText_of_moreText hmore)]

/-! ### Key-files -/

/-- Key-files with valid names and values are written alike exactly if they have the same
groups, those without entries among them. -/
theorem toData_eq_iff {f g : Keyfile} (hf : f.WellFormed) (hg : g.WellFormed) :
    f.toData = g.toData ↔ f.groups = g.groups := by
  constructor
  · intro h
    have htext : groupsText f.groups.entries = groupsText g.groups.entries :=
      String.ofList_injective h
    exact Dict.ext_entries (groupsText_inj (fun _ => hf.of_mem) (fun _ => hg.of_mem) htext)
  · intro h
    rw [toData, h, toData]

end Keyfile

end AccountRoster
