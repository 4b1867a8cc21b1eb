import AccountRoster.Cache
import AccountRoster.Proofs.Codec.Numeral
import Mathlib.Data.List.Nodup
import Mathlib.Data.List.Perm.Subperm

/-!
# Names of new accounts are free

A candidate for a name is its stem with a number, and different numbers are different
candidates. There is one candidate more than there are accounts, so that one of them
is free, and the name is the first such one.

## Implementation notes

A search that counts up from zero without a bound is a relation, `Cache.Counts`. Its counter
is a word, and it is stuck where the word has no successor. That it ends is a statement
about the accounts: the candidates before the free one are all cached.
-/

namespace AccountRoster

theorem Number.natText_injective : Function.Injective Number.natText := by
  intro m n h
  have hread (k : Nat) : Nat.ofDigitChars 10 (natText k) 0 = k := Nat.ofDigitChars_ten_toDigits
  rw [← hread m, h, hread n]

namespace Cache

theorem numberedName_injective (stem : String) : Function.Injective (numberedName stem) := by
  intro m n h
  have htext := congrArg String.toList h
  rw [numberedName, numberedName, String.toList_append, String.toList_append,
    String.toList_ofList, String.toList_ofList] at htext
  exact Number.natText_injective (List.append_cancel_left htext)

/-- One of the first candidates is not cached. -/
theorem exists_free (c : Cache) (stem : String) :
    ∃ n ∈ List.range (c.accounts.entries.length + 1), c.contains (numberedName stem n) = false := by
  by_contra hnone
  have hcached : ∀ n ∈ List.range (c.accounts.entries.length + 1),
      numberedName stem n ∈ c.accounts.keys := by
    intro n hn
    rw [Dict.mem_keys_iff]
    by_contra hfree
    exact hnone ⟨n, hn, Bool.eq_false_iff.mpr hfree⟩
  have hnodup : ((List.range (c.accounts.entries.length + 1)).map (numberedName stem)).Nodup :=
    List.nodup_range.map (numberedName_injective stem)
  have hsubset : (List.range (c.accounts.entries.length + 1)).map (numberedName stem) ⊆
      c.accounts.keys := by
    intro name hname
    obtain ⟨n, hn, rfl⟩ := List.mem_map.mp hname
    exact hcached n hn
  have hle := (List.subperm_of_subset hnodup hsubset).length_le
  rw [List.length_map, List.length_range, Dict.keys, List.length_map] at hle
  omega

/-- The name of a new account has the first number that is free, and no greater number than
there are accounts. -/
theorem exists_number (c : Cache) (manager protocol identification : String) :
    let candidate := numberedName (nameStem manager protocol identification)
    ∃ n ≤ c.accounts.entries.length, c.uniqueName manager protocol identification = candidate n ∧
      c.contains (candidate n) = false ∧ ∀ k < n, c.contains (candidate k) = true := by
  intro candidate
  obtain ⟨n, hn, hfree⟩ := c.exists_free (nameStem manager protocol identification)
  have hsome : ((List.range (c.accounts.entries.length + 1)).find? fun n =>
      !c.contains (candidate n)).isSome := by
    rw [List.find?_isSome]
    exact ⟨n, hn, by rw [hfree]; rfl⟩
  obtain ⟨found, hfound⟩ := Option.isSome_iff_exists.mp hsome
  have hname : c.uniqueName manager protocol identification = candidate found := by
    rw [uniqueName, hfound, Option.getD_some]
  obtain ⟨hunused, hrange, hbefore⟩ := List.find?_range_eq_some.mp hfound
  refine ⟨found, Nat.lt_succ_iff.mp (List.mem_range.mp hrange), hname, ?_, fun k hk => ?_⟩
  · simpa using hunused
  · simpa using hbefore k hk

/-- The name of a new account is not cached. -/
theorem contains_uniqueName (c : Cache) (manager protocol identification : String) :
    c.contains (c.uniqueName manager protocol identification) = false := by
  obtain ⟨n, -, hname, hfree, -⟩ := c.exists_number manager protocol identification
  rw [hname]
  exact hfree

theorem record?_uniqueName (c : Cache) (manager protocol identification : String) :
    c.record? (c.uniqueName manager protocol identification) = none := by
  have h := c.contains_uniqueName manager protocol identification
  rw [contains, Dict.contains_eq, Option.isSome_eq_false_iff, Option.isNone_iff_eq_none] at h
  exact h

/-! ### The search -/

/-- A search for a free candidate that starts at one number and ends at another. -/
inductive Counts (c : Cache) (candidate : Nat → String) : UInt64 → UInt64 → Prop
  /-- The search ends where the candidate is free. -/
  | free (n : UInt64) (h : c.contains (candidate n.toNat) = false) : Counts c candidate n n
  /-- It goes on where the candidate is cached, if the counter has room. -/
  | taken {n m : UInt64} (h : c.contains (candidate n.toNat) = true)
      (hroom : n.toNat + 1 < UInt64.size) (hnext : Counts c candidate (n + 1) m) :
      Counts c candidate n m

variable {c : Cache} {candidate : Nat → String}

/-- A search that ends, ends at one number only. -/
theorem Counts.unique {n m m' : UInt64} (h : c.Counts candidate n m)
    (h' : c.Counts candidate n m') : m = m' := by
  induction h with
  | free n hfree =>
      cases h' with
      | free => rfl
      | taken htaken => exact absurd (hfree.symm.trans htaken) nofun
  | taken htaken _ _ ih =>
      cases h' with
      | free _ hfree => exact absurd (hfree.symm.trans htaken) nofun
      | taken _ _ hnext => exact ih hnext

/-- A search passes the cached candidates and ends at the first free one, if the counter
has room for its number. -/
theorem counts_of_taken {k n : Nat} (hroom : n + k < UInt64.size)
    (htaken : ∀ i < k, c.contains (candidate (n + i)) = true)
    (hfree : c.contains (candidate (n + k)) = false) :
    c.Counts candidate (UInt64.ofNat n) (UInt64.ofNat (n + k)) := by
  have hcode : (UInt64.ofNat n).toNat = n := UInt64.toNat_ofNat_of_lt' (by omega)
  induction k generalizing n with
  | zero => exact Counts.free _ (by rwa [hcode])
  | succ k ih =>
      have hshift (i : Nat) : n + 1 + i = n + (i + 1) := by omega
      have hnext : c.Counts candidate (UInt64.ofNat (n + 1)) (UInt64.ofNat (n + 1 + k)) := by
        apply ih
        · rwa [hshift]
        · intro i hi
          rw [hshift]
          exact htaken (i + 1) (by omega)
        · rwa [hshift]
        · exact UInt64.toNat_ofNat_of_lt' (by omega)
      rw [hshift, UInt64.ofNat_add] at hnext
      refine Counts.taken ?_ ?_ hnext
      · rw [hcode]
        exact htaken 0 (by omega)
      · rw [hcode]
        omega

/-- Whatever is cached: the name of a new account is made of an identifier for its manager,
its protocol with underscores for hyphens, an identifier for what identifies it, and a number
in decimal. The name is not cached and those with a smaller number are, and the number is
at most that of the cached accounts. A search that counts up from zero, in words, ends
there and nowhere else. -/
theorem uniqueName_first_free (c : Cache) (manager protocol identification : String) :
    let candidate (n : Nat) : String :=
      Text.identifier manager ++ "/" ++ protocol.map (fun ch => if ch = '-' then '_' else ch) ++
        "/" ++ Text.identifier identification ++ n.repr
    ∃ n ≤ c.accounts.keys.length, c.uniqueName manager protocol identification = candidate n ∧
      c.contains (candidate n) = false ∧ (∀ k < n, c.contains (candidate k) = true) ∧
      (c.accounts.keys.length < UInt64.size →
        ∀ m, c.Counts candidate 0 m ↔ m = UInt64.ofNat n) := by
  intro candidate
  have hcandidate : candidate = numberedName (nameStem manager protocol identification) := by
    funext n
    simp only [candidate, numberedName, nameStem, ← String.toList_map, String.ofList_toList]
    rfl
  obtain ⟨n, hbound, hname, hfree, hbefore⟩ := c.exists_number manager protocol identification
  rw [hcandidate, Dict.keys, List.length_map]
  refine ⟨n, hbound, hname, hfree, hbefore, fun hroom m => ?_⟩
  have hends : c.Counts (numberedName (nameStem manager protocol identification)) 0
      (UInt64.ofNat n) := by
    have htaken : ∀ i < n, c.contains
        (numberedName (nameStem manager protocol identification) (0 + i)) = true := by
      intro i hi
      rw [Nat.zero_add]
      exact hbefore i hi
    have hcounts := counts_of_taken (n := 0) (by omega) htaken (by rwa [Nat.zero_add])
    rwa [Nat.zero_add] at hcounts
  constructor
  · exact fun h => h.unique hends
  · rintro rfl
    exact hends

/-- Names that only look like candidates are passed by: a leading zero is no decimal. -/
theorem uniqueName_first_free_third :
    let c : Cache := ((({} : Cache).insert "m/p_q/_310" (Record.new 0)).insert "m/p_q/_3100"
      (Record.new 0)).insert "m/p_q/_311" (Record.new 0)
    c.uniqueName "m" "p-q" "1" = "m/p_q/_312" ∧
      c.Counts (fun n => "m/p_q/_31" ++ n.repr) 0 2 := by
  intro c
  have hname : c.uniqueName "m" "p-q" "1" = "m/p_q/_312" := by decide +kernel
  obtain ⟨n, -, -, hfree, hbefore, hsearch⟩ := c.uniqueName_first_free "m" "p-q" "1"
  have hlength : c.accounts.keys.length = 3 := by decide +kernel
  have htwo : n = 2 := by
    have htaken : ∀ k < 2, c.contains (Text.identifier "m" ++ "/" ++
        "p-q".map (fun ch => if ch = '-' then '_' else ch) ++ "/" ++ Text.identifier "1" ++
          k.repr) = true := by
      decide +kernel
    rcases Nat.lt_trichotomy n 2 with hlt | heq | hgt
    · exact absurd (hfree.symm.trans (htaken n hlt)) nofun
    · exact heq
    · exact absurd (hbefore 2 hgt) (by decide +kernel)
  have hstem : Text.identifier "m" ++ "/" ++
      "p-q".map (fun ch => if ch = '-' then '_' else ch) ++ "/" ++ Text.identifier "1" =
        "m/p_q/_31" := by
    decide +kernel
  rw [hstem] at hsearch
  refine ⟨hname, (hsearch ?_ 2).mpr ?_⟩
  · rw [hlength]
    decide
  · rw [htwo]
    rfl

end Cache

end AccountRoster
