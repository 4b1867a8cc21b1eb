/-! # Dictionaries in key order

Every collection of the library that is named by text is a list of entries in
strictly increasing key order. The order belongs to the type, so a dictionary
is settled by its lookups: two with the same answers are equal.

## Implementation notes

Insertion and erasure work on the bare list and are shown to keep the order.
Each operation has one lemma about `get?`; later proofs use those and do not
unfold the list. -/

namespace AccountRoster

/-- Entries in strictly increasing order of their keys. -/
structure Dict (α : Type) where
  entries : List (String × α)
  sorted : entries.Pairwise (fun a b => a.1 < b.1)

namespace Dict

variable {α β : Type}

theorem ext_entries {a b : Dict α} (h : a.entries = b.entries) : a = b := by
  cases a; cases b; cases h; rfl

instance [DecidableEq α] : DecidableEq (Dict α) := fun a b =>
  if h : a.entries = b.entries then
    isTrue (ext_entries h)
  else
    isFalse fun e => h (e ▸ rfl)

/-- The dictionary without entries. -/
def empty : Dict α := ⟨[], List.Pairwise.nil⟩

instance : Inhabited (Dict α) := ⟨empty⟩

/-- The first value listed under `key`. -/
def find (key : String) : List (String × α) → Option α
  | [] => none
  | (k, v) :: rest => if k = key then some v else find key rest

/-- Put `value` under `key`, replacing what stood there. -/
def place (key : String) (value : α) : List (String × α) → List (String × α)
  | [] => [(key, value)]
  | (k, v) :: rest =>
      if key < k then (key, value) :: (k, v) :: rest
      else if key = k then (key, value) :: rest
      else (k, v) :: place key value rest

/-- Leave out every entry under `key`. -/
def drop (key : String) (entries : List (String × α)) : List (String × α) :=
  entries.filter fun e => e.1 != key

theorem mem_place {key : String} {value : α} {e : String × α}
    {l : List (String × α)} (h : e ∈ place key value l) :
    e = (key, value) ∨ e ∈ l := by
  induction l with
  | nil => simpa [place] using h
  | cons hd rest ih =>
      obtain ⟨k, v⟩ := hd
      rw [place] at h
      split at h
      · simpa using h
      · split at h <;> grind

theorem place_sorted {key : String} {value : α} {l : List (String × α)}
    (h : l.Pairwise (fun a b => a.1 < b.1)) :
    (place key value l).Pairwise (fun a b => a.1 < b.1) := by
  induction l with
  | nil => simp [place]
  | cons hd rest ih =>
      obtain ⟨k, v⟩ := hd
      have hrest := List.pairwise_cons.1 h
      rw [place]
      split
      next hlt =>
        refine List.pairwise_cons.2 ⟨fun e he => ?_, h⟩
        rcases List.mem_cons.1 he with rfl | he
        · exact hlt
        · exact String.lt_trans hlt (hrest.1 e he)
      next hlt =>
        split
        next heq =>
          subst heq
          exact List.pairwise_cons.2 ⟨hrest.1, hrest.2⟩
        next hne =>
          refine List.pairwise_cons.2 ⟨fun e he => ?_, ih hrest.2⟩
          rcases mem_place he with rfl | he
          · exact Decidable.byContradiction fun hn =>
              hne (String.le_antisymm (String.not_lt.1 hn) (String.not_lt.1 hlt))
          · exact hrest.1 e he

theorem drop_sorted {key : String} {l : List (String × α)}
    (h : l.Pairwise (fun a b => a.1 < b.1)) :
    (drop key l).Pairwise (fun a b => a.1 < b.1) :=
  h.sublist List.filter_sublist

theorem find_eq_none {key : String} {l : List (String × α)}
    (h : ∀ e ∈ l, e.1 ≠ key) : find key l = none := by
  induction l with
  | nil => rfl
  | cons hd rest ih =>
      rw [find, if_neg (h hd List.mem_cons_self)]
      exact ih fun e he => h e (List.mem_cons_of_mem _ he)

theorem find_place {key other : String} {value : α} {l : List (String × α)} :
    find other (place key value l) =
      if key = other then some value else find other l := by
  induction l with
  | nil => simp [place, find]
  | cons hd rest ih =>
      obtain ⟨k, v⟩ := hd
      rw [place]
      split
      · simp [find]
      · split
        next heq => subst heq; by_cases h : key = other <;> simp [find, h]
        next hne =>
          by_cases h : k = other
          · simp [find, h, show key ≠ other from h ▸ hne]
          · simp [find, h, ih]

theorem find_drop {key other : String} {l : List (String × α)} :
    find other (drop key l) = if key = other then none else find other l := by
  induction l with
  | nil => simp [drop, find]
  | cons hd rest ih =>
      obtain ⟨k, v⟩ := hd
      by_cases hk : k = key
      · subst hk
        have : drop k ((k, v) :: rest) = drop k rest := by simp [drop]
        rw [this, ih]
        by_cases h : k = other <;> simp [find, h]
      · have : drop key ((k, v) :: rest) = (k, v) :: drop key rest := by
          simp [drop, hk]
        rw [this]
        by_cases h : k = other
        · subst h; simp [find, Ne.symm hk]
        · simp [find, h, ih]

theorem find_eq_some_iff {key : String} {value : α} {l : List (String × α)}
    (h : l.Pairwise (fun a b => a.1 < b.1)) :
    find key l = some value ↔ (key, value) ∈ l := by
  induction l with
  | nil => simp [find]
  | cons hd rest ih =>
      obtain ⟨k, v⟩ := hd
      have hrest := List.pairwise_cons.1 h
      by_cases hk : k = key
      · subst hk
        have hout : ∀ v', (k, v') ∉ rest := fun v' hv =>
          String.lt_irrefl k (hrest.1 (k, v') hv)
        simp [find, hout, eq_comm]
      · have hpair : (key, value) ≠ (k, v) := fun e => hk (congrArg Prod.fst e).symm
        simp only [find, hk, if_false, List.mem_cons, hpair, false_or]
        exact ih hrest.2

theorem eq_of_find_eq {l₁ l₂ : List (String × α)}
    (h₁ : l₁.Pairwise (fun a b => a.1 < b.1))
    (h₂ : l₂.Pairwise (fun a b => a.1 < b.1))
    (h : ∀ key, find key l₁ = find key l₂) : l₁ = l₂ := by
  induction l₁ generalizing l₂ with
  | nil =>
      cases l₂ with
      | nil => rfl
      | cons hd rest => exact absurd (h hd.1) (by simp [find])
  | cons hd₁ rest₁ ih =>
      cases l₂ with
      | nil => exact absurd (h hd₁.1) (by simp [find])
      | cons hd₂ rest₂ =>
          have p₁ := List.pairwise_cons.1 h₁
          have p₂ := List.pairwise_cons.1 h₂
          have m₁ : hd₁ ∈ hd₂ :: rest₂ := (find_eq_some_iff h₂).1
            ((h hd₁.1).symm.trans ((find_eq_some_iff h₁).2 List.mem_cons_self))
          have m₂ : hd₂ ∈ hd₁ :: rest₁ := (find_eq_some_iff h₁).1
            ((h hd₂.1).trans ((find_eq_some_iff h₂).2 List.mem_cons_self))
          have heq : hd₁ = hd₂ := by
            rcases List.mem_cons.1 m₁ with e | m₁
            · exact e
            · rcases List.mem_cons.1 m₂ with e | m₂
              · exact e.symm
              · exact absurd (p₁.1 _ m₂) (String.lt_asymm (p₂.1 _ m₁))
          subst heq
          congr 1
          refine ih p₁.2 p₂.2 fun key => ?_
          by_cases hk : hd₁.1 = key
          · subst hk
            rw [find_eq_none fun e he eq => String.lt_irrefl _ (eq ▸ p₁.1 e he),
              find_eq_none fun e he eq => String.lt_irrefl _ (eq ▸ p₂.1 e he)]
          · simpa [find, hk] using h key

/-- The value under `key`, if there is one. -/
def get? (d : Dict α) (key : String) : Option α := find key d.entries

/-- Whether there is a value under `key`. -/
def contains (d : Dict α) (key : String) : Bool := (d.get? key).isSome

/-- The keys, in order. -/
def keys (d : Dict α) : List String := d.entries.map Prod.fst

/-- Whether there are no entries. -/
def isEmpty (d : Dict α) : Bool := d.entries.isEmpty

/-- Put `value` under `key`, replacing what stood there. -/
def insert (d : Dict α) (key : String) (value : α) : Dict α :=
  ⟨place key value d.entries, place_sorted d.sorted⟩

/-- Remove the entry under `key`. -/
def erase (d : Dict α) (key : String) : Dict α :=
  ⟨drop key d.entries, drop_sorted d.sorted⟩

/-- Put an optional value under `key`; `none` removes the entry. -/
def put (d : Dict α) (key : String) : Option α → Dict α
  | some value => d.insert key value
  | none => d.erase key

/-- Enter pairs from left to right, so that the last one under a key stays. -/
def ofList (pairs : List (String × α)) : Dict α :=
  pairs.foldl (fun d e => d.insert e.1 e.2) empty

/-- Two dictionaries with the same lookups are the same. -/
theorem ext_get? {a b : Dict α} (h : ∀ key, a.get? key = b.get? key) : a = b :=
  ext_entries (eq_of_find_eq a.sorted b.sorted h)

theorem get?_eq_some_iff {d : Dict α} {key : String} {value : α} :
    d.get? key = some value ↔ (key, value) ∈ d.entries :=
  find_eq_some_iff d.sorted

@[simp] theorem get?_empty (key : String) : (empty : Dict α).get? key = none := rfl

theorem get?_insert (d : Dict α) (key other : String) (value : α) :
    (d.insert key value).get? other = if key = other then some value else d.get? other :=
  find_place

@[simp] theorem get?_insert_self (d : Dict α) (key : String) (value : α) :
    (d.insert key value).get? key = some value := by
  simp [get?_insert]

theorem get?_erase (d : Dict α) (key other : String) :
    (d.erase key).get? other = if key = other then none else d.get? other :=
  find_drop

@[simp] theorem get?_erase_self (d : Dict α) (key : String) :
    (d.erase key).get? key = none := by
  simp [get?_erase]

theorem get?_put (d : Dict α) (key other : String) (value : Option α) :
    (d.put key value).get? other = if key = other then value else d.get? other := by
  cases value with
  | none => exact get?_erase d key other
  | some v => exact get?_insert d key other v

@[simp] theorem contains_eq (d : Dict α) (key : String) :
    d.contains key = (d.get? key).isSome := rfl

theorem mem_keys_iff {d : Dict α} {key : String} :
    key ∈ d.keys ↔ d.contains key = true := by
  simp only [keys, List.mem_map, contains_eq, Option.isSome_iff_exists,
    get?_eq_some_iff]
  constructor
  · rintro ⟨⟨k, v⟩, hm, rfl⟩; exact ⟨v, hm⟩
  · rintro ⟨v, hm⟩; exact ⟨(key, v), hm, rfl⟩

/-- Keys come in strictly increasing order, so none is listed twice. -/
theorem keys_sorted (d : Dict α) : d.keys.Pairwise (· < ·) :=
  List.pairwise_map.2 d.sorted

end Dict

/-- A set of names. -/
abbrev Names := Dict Unit

namespace Names

/-- Add a name. -/
def add (names : Names) (name : String) : Names := Dict.insert names name ()

/-- Take a name out. -/
def remove (names : Names) (name : String) : Names := Dict.erase names name

/-- Whether a name is in the set. -/
def has (names : Names) (name : String) : Bool := Dict.contains names name

@[simp] theorem has_add (names : Names) (name other : String) :
    (names.add name).has other = (decide (name = other) || names.has other) := by
  unfold has add
  rw [Dict.contains_eq, Dict.get?_insert]
  by_cases h : name = other <;> simp [h]

@[simp] theorem has_remove (names : Names) (name other : String) :
    (names.remove name).has other = (!decide (name = other) && names.has other) := by
  unfold has remove
  rw [Dict.contains_eq, Dict.get?_erase]
  by_cases h : name = other <;> simp [h]

end Names

end AccountRoster
