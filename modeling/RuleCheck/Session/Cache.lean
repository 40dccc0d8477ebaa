/-!
# Bounded caches

A cache holds what was computed for the keys that were used last, the most recent one first.  Beyond its
capacity the key that was not used for the longest time is dropped.
-/

namespace RuleCheck

/-- The results for the keys used last, the most recent first. -/
structure Cache (κ α : Type) where
  capacity : Nat
  entries : List (κ × α)

namespace Cache

variable {κ α : Type}

def empty (capacity : Nat) : Cache κ α := ⟨capacity, []⟩

def find? [DecidableEq κ] (cache : Cache κ α) (key : κ) : Option α :=
  (cache.entries.find? fun entry => entry.1 = key).map Prod.snd

def use [DecidableEq κ] (cache : Cache κ α) (key : κ) (result : α) : Cache κ α :=
  { cache with
    entries :=
      ((key, result) :: cache.entries.filter fun entry => entry.1 ≠ key).take cache.capacity }

/-- What was used just now is found, in a cache that can hold anything. -/
theorem find?_use_self [DecidableEq κ] (cache : Cache κ α) (key : κ) (result : α)
    (hcapacity : 0 < cache.capacity) : (cache.use key result).find? key = some result := by
  obtain ⟨n, hn⟩ : ∃ n, cache.capacity = n + 1 := ⟨cache.capacity - 1, by omega⟩
  simp [use, find?, hn]

theorem length_use_le [DecidableEq κ] (cache : Cache κ α) (key : κ) (result : α) :
    (cache.use key result).entries.length ≤ cache.capacity := by
  simp only [use, List.length_take]
  omega

/-- A cache holds only what a function computes. -/
def Holds (cache : Cache κ α) (f : κ → α) : Prop :=
  ∀ entry ∈ cache.entries, entry.2 = f entry.1

theorem holds_empty (capacity : Nat) (f : κ → α) : (empty capacity : Cache κ α).Holds f := by
  simp [Holds, empty]

theorem Holds.use [DecidableEq κ] {cache : Cache κ α} {f : κ → α} (h : cache.Holds f) (key : κ) :
    (cache.use key (f key)).Holds f := by
  intro entry hentry
  rcases List.mem_cons.1 (List.mem_of_mem_take hentry) with rfl | hold
  · rfl
  · exact h entry (List.mem_filter.1 hold).1

theorem Holds.find? [DecidableEq κ] {cache : Cache κ α} {f : κ → α} (h : cache.Holds f) {key : κ} {result : α}
    (hfound : cache.find? key = some result) : result = f key := by
  obtain ⟨entry, hentry, rfl⟩ := Option.map_eq_some_iff.1 hfound
  have hkey : entry.1 = key := by simpa using List.find?_some hentry
  rw [h entry (List.mem_of_find?_eq_some hentry), hkey]

end Cache

end RuleCheck
