import AccountRoster.Proofs.Cache.Edits
import Mathlib.Data.List.Nodup
import Mathlib.Data.String.Basic

/-!
# Listing flat keys and looking them up

A listing puts the attributes of a record and its marked parameters into one order. A
look-up reads the mark off the flat key and then searches one place. The two agree for as
long as no attribute goes by a name that carries the mark: such a name is listed once more
than it is found.

## Implementation notes

A listing is compared with the list that it orders. That list has no key twice exactly if
the attributes keep clear of the marked names, as a parameter is never in two places.
-/

namespace AccountRoster

namespace FlatKey

theorem ofText_of_isParameter_false {key : String} (h : isParameter key = false) :
    ofText key = .attr key :=
  ofText_eq_attr_iff.mpr ⟨rfl, h⟩

theorem exists_ofText_param {key : String} (h : isParameter key = true) :
    ∃ name, ofText key = .param name := by
  unfold isParameter at h
  split at h
  next name hname => exact ⟨name, hname⟩
  next => cases h

@[simp] theorem isParameter_ofParameter (name : String) :
    isParameter (ofParameter name) = true := by
  rw [isParameter, ofText_ofParameter]

/-- A key without the mark is that of no parameter. -/
theorem ne_ofParameter {key : String} (h : isParameter key = false) (name : String) :
    key ≠ ofParameter name := by
  rintro rfl
  rw [isParameter_ofParameter] at h
  cases h

end FlatKey

theorem Dict.nodup_keys {α : Type} (d : Dict α) : d.keys.Nodup :=
  d.keys_sorted.imp (Std.ne_of_lt ·)

namespace Record

variable {r : Record}

/-- Whether a parameter is in one place or the other. -/
def hasParameter (r : Record) (name : String) : Bool :=
  r.typed.contains name || r.escaped.contains name

/-- No attribute goes by a name that carries the mark of a parameter. -/
def Unmarked (r : Record) : Prop :=
  ∀ name, r.attributes.contains name = true → FlatKey.isParameter name = false

theorem isSome_parameterText? (codec : Codec) (r : Record) (name : String) :
    (r.parameterText? codec name).isSome = r.hasParameter name := by
  unfold parameterText? hasParameter
  rw [Dict.contains_eq, Dict.contains_eq]
  cases r.typed.get? name <;> rfl

/-- A text is stored under a flat key if what the key names is there. -/
theorem isSome_text? (codec : Codec) (r : Record) (key : String) :
    (r.text? codec key).isSome =
      match FlatKey.ofText key with
      | .attr name => r.attributes.contains name
      | .param name => r.hasParameter name := by
  unfold text?
  cases FlatKey.ofText key with
  | attr name => exact Option.isSome_map
  | param name => exact r.isSome_parameterText? codec name

/-! ### The listing -/

/-- The names of all parameters, first those of one place and then those of the other. -/
def parameterNames (r : Record) : List String := r.typed.keys ++ r.escaped.keys

theorem mem_parameterNames {name : String} :
    name ∈ r.parameterNames ↔ r.hasParameter name = true := by
  rw [parameterNames, List.mem_append, Dict.mem_keys_iff, Dict.mem_keys_iff, hasParameter,
    Bool.or_eq_true]

/-- A parameter that is in one place at most is named once at most. -/
theorem nodup_parameterNames (h : r.Consistent) : r.parameterNames.Nodup := by
  refine List.nodup_append.mpr ⟨r.typed.nodup_keys, r.escaped.nodup_keys, ?_⟩
  rintro name htyped other hescaped rfl
  rw [Dict.mem_keys_iff, Dict.contains_eq] at htyped hescaped
  rcases h.onePlace name with hnone | hnone
  · rw [hnone] at htyped
    cases htyped
  · rw [hnone] at hescaped
    cases hescaped

theorem flatKeys_perm (r : Record) :
    r.flatKeys.Perm (r.attributes.keys ++ r.parameterNames.map FlatKey.ofParameter) :=
  List.mergeSort_perm _ _

theorem flatKeys_sorted (r : Record) : r.flatKeys.Pairwise (· ≤ ·) := by
  have htrans (a b c : String) (hab : decide (a ≤ b) = true) (hbc : decide (b ≤ c) = true) :
      decide (a ≤ c) = true :=
    decide_eq_true (String.le_trans (of_decide_eq_true hab) (of_decide_eq_true hbc))
  have htotal (a b : String) : (decide (a ≤ b) || decide (b ≤ a)) = true := by
    simpa using String.le_total a b
  exact (List.pairwise_mergeSort htrans htotal _).imp of_decide_eq_true

theorem mem_flatKeys {key : String} :
    key ∈ r.flatKeys ↔ r.attributes.contains key = true ∨
      ∃ name, r.hasParameter name = true ∧ FlatKey.ofParameter name = key := by
  rw [r.flatKeys_perm.mem_iff, List.mem_append, Dict.mem_keys_iff, List.mem_map]
  simp only [mem_parameterNames]

/-- A key under which something is stored is listed. -/
theorem mem_flatKeys_of_isSome {codec : Codec} {key : String}
    (h : (r.text? codec key).isSome = true) : key ∈ r.flatKeys := by
  rw [isSome_text?] at h
  rw [mem_flatKeys]
  cases hkey : FlatKey.ofText key with
  | attr name =>
      rw [hkey] at h
      obtain ⟨rfl, -⟩ := FlatKey.ofText_eq_attr_iff.mp hkey
      exact Or.inl h
  | param name =>
      rw [hkey] at h
      exact Or.inr ⟨name, h, (FlatKey.ofText_eq_param_iff.mp hkey).symm⟩

/-- A listing is in strict order if no key is in it twice. -/
theorem flatKeys_strict_iff : r.flatKeys.Pairwise (· < ·) ↔ r.flatKeys.Nodup := by
  constructor
  · exact fun h => h.imp (Std.ne_of_lt ·)
  · intro h
    exact (r.flatKeys_sorted.and h).imp fun hand => Std.lt_of_le_of_ne hand.1 hand.2

/-- Records with the same attributes and the same names of parameters are listed alike. -/
theorem flatKeys_congr {r' : Record} (h : r.Consistent) (h' : r'.Consistent)
    (hattributes : r.attributes = r'.attributes)
    (hparameters : ∀ name, r.hasParameter name = r'.hasParameter name) :
    r.flatKeys = r'.flatKeys := by
  have hnames : r.parameterNames.Perm r'.parameterNames := by
    refine (List.perm_ext_iff_of_nodup (nodup_parameterNames h) (nodup_parameterNames h')).mpr ?_
    intro name
    rw [mem_parameterNames, mem_parameterNames, hparameters]
  have hperm : r.flatKeys.Perm r'.flatKeys := by
    refine r.flatKeys_perm.trans (List.Perm.trans ?_ r'.flatKeys_perm.symm)
    rw [hattributes]
    exact (hnames.map FlatKey.ofParameter).append_left _
  exact hperm.eq_of_pairwise (fun _ _ _ _ => String.le_antisymm) r.flatKeys_sorted
    r'.flatKeys_sorted

/-- A key is in a listing once if attributes keep clear of the marked names. -/
theorem nodup_flatKeys_iff (h : r.Consistent) :
    r.flatKeys.Nodup ↔ ∀ name, r.hasParameter name = true →
      r.attributes.contains (FlatKey.ofParameter name) = false := by
  have hmarked : (r.parameterNames.map FlatKey.ofParameter).Nodup :=
    (nodup_parameterNames h).map fun _ _ => FlatKey.ofParameter_injective
  rw [r.flatKeys_perm.nodup_iff, List.nodup_append]
  constructor
  · rintro ⟨-, -, hapart⟩ name hname
    refine Bool.eq_false_iff.mpr fun hattribute => ?_
    exact hapart _ (Dict.mem_keys_iff.mpr hattribute) _
      (List.mem_map_of_mem (mem_parameterNames.mpr hname)) rfl
  · intro hapart
    refine ⟨r.attributes.nodup_keys, hmarked, ?_⟩
    rintro key hkey other hother rfl
    obtain ⟨name, hname, rfl⟩ := List.mem_map.mp hother
    have hclear := hapart name (mem_parameterNames.mp hname)
    rw [Dict.mem_keys_iff, hclear] at hkey
    cases hkey

/-- A record is listed in strict order, and by the keys under which something is stored,
exactly if no attribute carries the mark. -/
theorem flatKeys_agree_iff (codec : Codec) (h : r.Consistent) :
    (r.flatKeys.Pairwise (· < ·) ∧
        ∀ key, key ∈ r.flatKeys ↔ (r.text? codec key).isSome = true) ↔ r.Unmarked := by
  rw [flatKeys_strict_iff, nodup_flatKeys_iff h]
  constructor
  · rintro ⟨hapart, hfound⟩ key hkey
    refine Bool.eq_false_iff.mpr fun hmarked => ?_
    -- the attribute is listed, so that a parameter of the name is found: its key is in twice
    obtain ⟨name, hname⟩ := FlatKey.exists_ofText_param hmarked
    obtain rfl := FlatKey.ofText_eq_param_iff.mp hname
    have hstored := (hfound _).mp (mem_flatKeys.mpr (Or.inl hkey))
    rw [isSome_text?, FlatKey.ofText_ofParameter] at hstored
    rw [hapart name hstored] at hkey
    cases hkey
  · intro hunmarked
    constructor
    · intro name _
      refine Bool.eq_false_iff.mpr fun hattribute => ?_
      exact FlatKey.ne_ofParameter (hunmarked _ hattribute) name rfl
    · refine fun key => ⟨fun hlisted => ?_, mem_flatKeys_of_isSome⟩
      rw [isSome_text?]
      rcases mem_flatKeys.mp hlisted with hattribute | ⟨name, hname, rfl⟩
      · rwa [FlatKey.ofText_of_isParameter_false (hunmarked key hattribute)]
      · rwa [FlatKey.ofText_ofParameter]

end Record

end AccountRoster
