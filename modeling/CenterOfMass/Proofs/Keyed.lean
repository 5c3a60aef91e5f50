import Mathlib.Data.List.Nodup

namespace CenterOfMass

variable {α β κ : Type}

theorem ne_of_nodup_middle {key : α → κ} {before after : List α} {a x : α}
    (h : ((before ++ a :: after).map key).Nodup) (hx : x ∈ before) : key x ≠ key a := by
  rw [List.map_append, List.map_cons, List.nodup_middle, List.nodup_cons, List.mem_append] at h
  intro hkey
  exact h.1 (.inl (hkey ▸ List.mem_map_of_mem hx))

variable [DecidableEq κ]

/-- Where no two have one key, the search for a key finds all that there is under it. -/
theorem find?_eq_some_iff_of_nodup {key : α → κ} {list : List α} (h : (list.map key).Nodup)
    {k : κ} {a : α} : list.find? (fun x => key x = k) = some a ↔ a ∈ list ∧ key a = k := by
  constructor
  · intro hfound
    exact ⟨List.mem_of_find?_eq_some hfound, by simpa using List.find?_some hfound⟩
  · rintro ⟨ha, rfl⟩
    obtain ⟨before, after, rfl⟩ := List.append_of_mem ha
    refine List.find?_eq_some_iff_append.mpr ⟨by simp, before, after, rfl, fun x hx => ?_⟩
    simpa using ne_of_nodup_middle h hx

theorem lookup_eq_some_of_nodup {pairs : List (κ × β)} (h : (pairs.map Prod.fst).Nodup) {k : κ}
    {b : β} (hb : (k, b) ∈ pairs) : pairs.lookup k = some b := by
  obtain ⟨before, after, rfl⟩ := List.append_of_mem hb
  refine List.lookup_eq_some_iff.mpr ⟨before, after, rfl, fun p hp => ?_⟩
  exact bne_iff_ne.mpr (ne_of_nodup_middle h hp).symm

end CenterOfMass
