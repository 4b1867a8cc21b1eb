import AccountRoster.Proofs.Codec.OneLine
import AccountRoster.Proofs.Keyfile.Reachable

/-!
# Typed access to a key-file

What is set is read back in its type, what is removed is no more there in any type, and
no other entry is touched. A value can always be set, as its text is one line, and it is
told rightly whether that changed anything.

## Implementation notes

`value?_setTyped` says at once which text stands where after a change. The reads are a
question to the codec alone then.
-/

namespace AccountRoster.Keyfile

variable {f : Keyfile} {group key : String}

theorem codec_setTyped (f : Keyfile) (group key : String) (value : Option Value) :
    (f.setTyped group key value).2.codec = f.codec :=
  congrArg Codec.mk (f.separator_edit (.setTyped group key value))

/-- A value that is set under valid names is entered, and it is told whether another text,
or none, stood there. -/
theorem setTyped_some (hfits : f.codec.FitsKeyfile) (hgroup : isGroupName group = true)
    (hkey : isKeyName key = true) (v : Value) :
    f.setTyped group key (some v) =
      (.ok (decide (f.value? group key ≠ some (f.codec.escape v))),
        f.enter group key (f.codec.escape v)) :=
  f.setValue_eq_of_valid hgroup hkey (Codec.isOneLine_escape hfits.ne_lf hfits.ne_cr v)

/-- Setting and removing change the text of one entry. -/
theorem value?_setTyped (hfits : f.codec.FitsKeyfile) (hgroup : isGroupName group = true)
    (hkey : isKeyName key = true) (value : Option Value) (g k : String) :
    (f.setTyped group key value).2.value? g k =
      if group = g ∧ key = k then value.map f.codec.escape else f.value? g k := by
  cases value with
  | some v =>
      rw [setTyped_some hfits hgroup hkey]
      exact f.value?_enter group key (f.codec.escape v) g k
  | none => exact f.value?_removeKey group key g k

/-- A read of a text that stands for a value gives the value. -/
theorem typed?_of_value? {v : Value} (hsafe : f.codec.Safe) (hv : v.isNan = false)
    (h : f.value? group key = some (f.codec.escape v)) :
    f.typed? group key v.type = .ok (some v) := by
  rw [typed?, h]
  dsimp only
  rw [Codec.unescape_escape hsafe hv]
  rfl

/-- Under valid names a value is never refused and is read back in its type, unless it is
no number. A key that is removed has no value of any type. Either way it is told whether
the text of the entry has changed, and all others keep theirs. -/
theorem typed_access_laws (hseparator : f.separator ∉ ['\\', 's', 'n', 't', 'r', '\n', '\r'])
    (hgroup : isGroupName group = true) (hkey : isKeyName key = true) :
    (∀ v : Value,
        (f.setTyped group key (some v)).1 =
          .ok (decide (f.value? group key ≠ some (f.codec.escape v))) ∧
        (v.isNan = false →
          (f.setTyped group key (some v)).2.typed? group key v.type = .ok (some v))) ∧
      (f.setTyped group key none).1 = .ok (decide (f.value? group key ≠ none)) ∧
      (∀ type, (f.setTyped group key none).2.typed? group key type = .ok none) ∧
      ∀ (value : Option Value) (g k : String), (g, k) ≠ (group, key) →
        (f.setTyped group key value).2.value? g k = f.value? g k := by
  have hfits : f.codec.FitsKeyfile := Codec.fitsKeyfile_iff.mpr hseparator
  have htext (value : Option Value) :
      (f.setTyped group key value).2.value? group key = value.map f.codec.escape := by
    rw [value?_setTyped hfits hgroup hkey, if_pos ⟨rfl, rfl⟩]
  refine ⟨fun v => ⟨?_, fun hv => ?_⟩, ?_, fun type => ?_, fun value g k hne => ?_⟩
  · rw [setTyped_some hfits hgroup hkey]
  · have hcodec := f.codec_setTyped group key (some v)
    refine typed?_of_value? ?_ hv ?_
    · rw [hcodec]
      exact hfits.safe
    · rw [htext, hcodec]
      rfl
  · rw [setTyped, removeKey]
    split
    next h => rw [h]; rfl
    next h => rw [h]; rfl
  · rw [typed?, htext]
    rfl
  · rw [value?_setTyped hfits hgroup hkey, if_neg]
    rintro ⟨rfl, rfl⟩
    exact hne rfl

/-- A list with the separator in its items is set beside another entry, which is removed. -/
theorem typed_access_laws_list :
    let f := ((new ';').setValue "g" "Icon" "im-irc").2
    let v : Value := .stringArray ["a;b", "\n", ""]
    f.separator ∉ ['\\', 's', 'n', 't', 'r', '\n', '\r'] ∧
      isGroupName "g" = true ∧ isKeyName "URISchemes" = true ∧ v.isNan = false ∧
      (f.setTyped "g" "URISchemes" (some v)).1 = .ok true ∧
      (f.setTyped "g" "URISchemes" (some v)).2.typed? "g" "URISchemes" .stringArray =
        .ok (some v) ∧
      (f.setTyped "g" "URISchemes" (some v)).2.value? "g" "Icon" = some "im-irc" ∧
      (f.setTyped "g" "Icon" none).2.typed? "g" "Icon" .string = .ok none := by
  intro f v
  have hseparator : f.separator ∉ ['\\', 's', 'n', 't', 'r', '\n', '\r'] := by decide
  have hgroup : isGroupName "g" = true := by decide
  have hkey : isKeyName "URISchemes" = true := by decide
  have hicon : isKeyName "Icon" = true := by decide
  have hnew : f.value? "g" "URISchemes" = none := by decide +kernel
  have hold : f.value? "g" "Icon" = some "im-irc" := by decide +kernel
  obtain ⟨hset, -, -, hothers⟩ := typed_access_laws hseparator hgroup hkey
  obtain ⟨-, -, hremoved, -⟩ := typed_access_laws hseparator hgroup hicon
  obtain ⟨hreport, hread⟩ := hset v
  refine ⟨hseparator, hgroup, hkey, rfl, ?_, hread rfl, ?_, hremoved .string⟩
  · rw [hreport, hnew]
    rfl
  · rw [hothers (some v) "g" "Icon" (by decide), hold]

end AccountRoster.Keyfile
