import AccountRoster.Dict

/-!
# Laws of dictionaries

Entering the entries of a dictionary one after the other gives the dictionary
back, and changing every value leaves the keys alone. Writing what stands there
already, or removing what does not, changes nothing.
-/

namespace AccountRoster.Dict

variable {α β : Type}

theorem insert_insert (d : Dict α) (key : String) (a b : α) :
    (d.insert key a).insert key b = d.insert key b := by
  apply ext_get?
  intro other
  simp only [get?_insert]
  split <;> rfl

theorem insert_of_get? {d : Dict α} {key : String} {value : α} (h : d.get? key = some value) :
    d.insert key value = d := by
  apply ext_get?
  intro other
  rw [get?_insert]
  split
  next heq => rw [← heq, h]
  next => rfl

theorem erase_of_get? {d : Dict α} {key : String} (h : d.get? key = none) :
    d.erase key = d := by
  apply ext_get?
  intro other
  rw [get?_erase]
  split
  next heq => rw [← heq, h]
  next => rfl

/-- Change every value. -/
def map (change : α → β) (d : Dict α) : Dict β :=
  ⟨d.entries.map fun e => (e.1, change e.2), List.pairwise_map.mpr d.sorted⟩

theorem find_map (change : α → β) (key : String) (l : List (String × α)) :
    find key (l.map fun e => (e.1, change e.2)) = (find key l).map change := by
  induction l with
  | nil => rfl
  | cons e rest ih =>
      rw [List.map_cons, find, find, ih]
      split <;> rfl

theorem get?_map (change : α → β) (d : Dict α) (key : String) :
    (d.map change).get? key = (d.get? key).map change :=
  find_map change key d.entries

theorem get?_map_of_get? (change : α → β) {d : Dict α} {key : String} {value : α}
    (h : d.get? key = some value) : (d.map change).get? key = some (change value) := by
  rw [get?_map, h, Option.map_some]

theorem map_insert (change : α → β) (d : Dict α) (key : String) (value : α) :
    (d.insert key value).map change = (d.map change).insert key (change value) := by
  apply ext_get?
  intro other
  simp only [get?_map, get?_insert]
  split <;> rfl

theorem map_erase (change : α → β) (d : Dict α) (key : String) :
    (d.erase key).map change = (d.map change).erase key := by
  apply ext_get?
  intro other
  simp only [get?_map, get?_erase]
  split <;> rfl

@[simp] theorem keys_map (change : α → β) (d : Dict α) : (d.map change).keys = d.keys := by
  simp [keys, map, Function.comp_def]

theorem map_eq_self_iff {change : α → α} {d : Dict α} :
    d.map change = d ↔ ∀ key value, d.get? key = some value → change value = value := by
  constructor
  · intro h key value hv
    have hmap := get?_map change d key
    rw [h, hv, Option.map_some] at hmap
    exact (Option.some.inj hmap).symm
  · intro h
    apply ext_get?
    intro key
    rw [get?_map]
    cases hv : d.get? key with
    | none => rfl
    | some value => rw [Option.map_some, h key value hv]

theorem find_entries (d : Dict α) (key : String) : find key d.entries = d.get? key := rfl

theorem map_id (d : Dict α) : d.map id = d :=
  map_eq_self_iff.mpr fun _ _ _ => rfl

/-- What no entry changes is as before. -/
theorem foldl_keeps {σ γ : Type} {take : σ → α → σ} (observe : σ → γ)
    (keep : ∀ s e, observe (take s e) = observe s) (l : List α) (s : σ) :
    observe (l.foldl take s) = observe s := by
  induction l generalizing s with
  | nil => rfl
  | cons e rest ih => exact (ih (take s e)).trans (keep s e)

/-- What is observed after sorted entries were taken in, if the entry of one key
alone changes it: that entry is taken in once at most. -/
theorem foldl_observe {σ γ : Type} {take : σ → String × α → σ} {key : String} (observe : σ → γ)
    (change : γ → α → γ) (hit : ∀ s value, observe (take s (key, value)) = change (observe s) value)
    (miss : ∀ s e, e.1 ≠ key → observe (take s e) = observe s)
    {l : List (String × α)} (h : l.Pairwise fun a b => a.1 < b.1) (s : σ) :
    observe (l.foldl take s) = ((find key l).map (change (observe s))).getD (observe s) := by
  induction l generalizing s with
  | nil => rfl
  | cons e rest ih =>
      obtain ⟨hfirst, hrest⟩ := List.pairwise_cons.mp h
      rw [List.foldl_cons, ih hrest, find]
      by_cases heq : e.1 = key
      · subst heq
        have hnone : find e.1 rest = none :=
          find_eq_none fun e' he' heq' => String.lt_irrefl e.1 (by
            have hlt := hfirst e' he'
            rwa [heq'] at hlt)
        rw [hnone, if_pos rfl]
        exact hit s e.2
      · rw [if_neg heq, miss s e heq]

/-- Entering sorted entries puts each of them over what stood there. -/
theorem get?_foldl_insert {l : List (String × α)} (h : l.Pairwise (fun a b => a.1 < b.1))
    (d : Dict α) (key : String) :
    (l.foldl (fun d e => d.insert e.1 e.2) d).get? key = (find key l).or (d.get? key) := by
  rw [foldl_observe (fun d : Dict α => d.get? key) (fun _ value => some value)
    (fun d value => get?_insert_self d key value)
    (fun d e he => (get?_insert d e.1 key e.2).trans (if_neg he)) h d]
  cases find key l <;> rfl

/-- A dictionary is what its entries make. -/
theorem ofList_entries (d : Dict α) : ofList d.entries = d := by
  apply ext_get?
  intro key
  rw [ofList, get?_foldl_insert d.sorted, get?_empty, Option.or_none]
  rfl

/-- Entering changed values one after the other changes every value. -/
theorem foldl_insert_eq_map (change : α → β) (d : Dict α) :
    d.entries.foldl (fun made e => made.insert e.1 (change e.2)) empty = d.map change := by
  have hmap : (d.map change).entries = d.entries.map fun e => (e.1, change e.2) := rfl
  rw [← ofList_entries (d.map change), ofList, hmap, List.foldl_map]

end AccountRoster.Dict
