import CenterOfMass.Analysis.ResultSet
import CenterOfMass.Proofs.Keyed
import Mathlib.Order.Bounds.Basic

namespace CenterOfMass

/-- The key at a place stands at an earlier place too. -/
def RepeatsAt (keys : List String) (i : Nat) : Prop :=
  ∃ j < i, ∃ k, keys[j]? = some k ∧ keys[i]? = some k

section Keys

variable {done keys : List String} {k : String}

theorem not_repeatsAt_of_lt (h : done.Nodup) {i : Nat} (hi : i < done.length) :
    ¬ RepeatsAt (done ++ keys) i := by
  rintro ⟨j, hj, k, hkj, hki⟩
  rw [List.getElem?_append_left (hj.trans hi)] at hkj
  rw [List.getElem?_append_left hi] at hki
  have hsame : j = i := (List.getElem?_inj (hj.trans hi) h).mp (hkj.trans hki.symm)
  exact hj.ne hsame

theorem isLeast_repeatsAt (h : done.Nodup) (hk : k ∈ done) :
    IsLeast {i | RepeatsAt (done ++ k :: keys) i} done.length := by
  constructor
  · obtain ⟨j, hj, hkj⟩ := List.mem_iff_getElem.mp hk
    refine ⟨j, hj, k, ?_, ?_⟩
    · rw [List.getElem?_append_left hj, List.getElem?_eq_getElem hj, hkj]
    · rw [List.getElem?_append_right (Nat.le_refl _), Nat.sub_self, List.getElem?_cons_zero]
  · intro i hi
    by_contra hlt
    exact not_repeatsAt_of_lt h (Nat.lt_of_not_le hlt) hi

/-- With some different keys behind it, the search goes on to the first place whose key is among
those before it. -/
theorem repeatedKey?_reverse_eq_some_iff (h : done.Nodup) :
    repeatedKey? done.reverse keys = some k ↔
      ∃ i, IsLeast {i | RepeatsAt (done ++ keys) i} i ∧ (done ++ keys)[i]? = some k := by
  induction keys generalizing done with
  | nil =>
    simp only [repeatedKey?, List.append_nil, reduceCtorEq, false_iff]
    rintro ⟨i, ⟨hi, -⟩, hk⟩
    obtain ⟨hlt, -⟩ := List.getElem?_eq_some_iff.mp hk
    rw [← List.append_nil done] at hi
    exact not_repeatsAt_of_lt h hlt hi
  | cons key keys ih =>
    by_cases hkey : key ∈ done
    · have hleast : IsLeast {i | RepeatsAt (done ++ key :: keys) i} done.length :=
        isLeast_repeatsAt h hkey
      have hplace : (done ++ key :: keys)[done.length]? = some key := by
        rw [List.getElem?_append_right (Nat.le_refl _), Nat.sub_self, List.getElem?_cons_zero]
      rw [repeatedKey?, if_pos (List.mem_reverse.mpr hkey)]
      constructor
      · rintro ⟨rfl⟩
        exact ⟨done.length, hleast, hplace⟩
      · rintro ⟨i, hi, hk⟩
        rw [hi.unique hleast, hplace] at hk
        exact hk
    · have hdone : (done ++ [key]).Nodup := by
        rw [List.nodup_append_comm, List.singleton_append]
        exact List.nodup_cons.mpr ⟨hkey, h⟩
      have hnext := ih hdone
      rw [List.reverse_append, List.reverse_singleton, List.singleton_append, List.append_assoc,
        List.singleton_append] at hnext
      rw [repeatedKey?, if_neg (mt List.mem_reverse.mp hkey), hnext]

theorem repeatedKey?_eq_some_iff :
    repeatedKey? [] keys = some k ↔
      ∃ i, IsLeast {i | RepeatsAt keys i} i ∧ keys[i]? = some k :=
  repeatedKey?_reverse_eq_some_iff List.nodup_nil

end Keys

namespace ResultSet

variable {R : Type} {entries : List (Entry R)} {s : ResultSet R}

theorem ofEntries_eq_ok_iff :
    ofEntries entries = .ok s ↔ s.entries = entries := by
  unfold ofEntries
  split
  · next key hkey =>
    simp only [reduceCtorEq, false_iff]
    rintro rfl
    have hnone := repeatedKey?_eq_none_iff.mpr ⟨s.keys_nodup, fun _ _ => List.not_mem_nil⟩
    rw [hnone] at hkey
    cases hkey
  · constructor
    · rintro ⟨rfl⟩
      rfl
    · rintro rfl
      rfl

theorem ofEntries_eq_error_iff {e : Failure} :
    ofEntries entries = .error e ↔
      ∃ key, repeatedKey? [] (entries.map Entry.key) = some key ∧ e = .duplicateKey key := by
  unfold ofEntries
  split
  · next key hkey =>
    rw [hkey]
    simp [eq_comm]
  · next hnone => simp [hnone]

/-- A key finds the entry under it, and no other. -/
theorem get?_eq_some_iff {key : String} {e : Entry R} :
    s.get? key = some e ↔ e ∈ s.entries ∧ e.key = key :=
  find?_eq_some_iff_of_nodup s.keys_nodup

theorem entry_eq_ok_iff {i : Nat} {e : Entry R} :
    s.entry i = .ok e ↔ s.entries[i]? = some e := by
  unfold entry
  cases s.entries[i]? <;> simp

theorem entry_eq_error_iff {i : Nat} {f : Failure} :
    s.entry i = .error f ↔ s.size ≤ i ∧ f = .outOfRange := by
  unfold entry size
  rw [← List.getElem?_eq_none_iff]
  cases s.entries[i]? <;> simp [eq_comm]

/-- A set that holds some entries in their order, each to be found under its key and at its
place. -/
structure Holds (s : ResultSet R) (entries : List (Entry R)) : Prop where
  entries_eq : s.entries = entries
  size_eq : s.size = entries.length
  isEmpty_iff : s.isEmpty = true ↔ entries = []
  keys_get : ∀ i : Nat, s.keys[i]? = entries[i]?.map Entry.key
  entry_iff : ∀ i e, s.entry i = .ok e ↔ entries[i]? = some e
  entry_beyond : ∀ i, entries.length ≤ i → s.entry i = .error .outOfRange
  get_iff : ∀ key e, s.get? key = some e ↔ e ∈ entries ∧ e.key = key
  get_key : ∀ (i : Nat) (key : String), s.keys[i]? = some key → s.get? key = entries[i]?
  downloadable_sublist : s.downloadable.Sublist entries
  mem_downloadable : ∀ e, e ∈ s.downloadable ↔ e ∈ entries ∧ e.inDownload = true

theorem holds_entries (s : ResultSet R) : s.Holds s.entries where
  entries_eq := rfl
  size_eq := rfl
  isEmpty_iff := List.isEmpty_iff
  keys_get _ := List.getElem?_map
  entry_iff _ _ := entry_eq_ok_iff
  entry_beyond _ h := entry_eq_error_iff.mpr ⟨h, rfl⟩
  get_iff _ _ := get?_eq_some_iff
  get_key i key h := by
    unfold keys at h
    rw [List.getElem?_map, Option.map_eq_some_iff] at h
    obtain ⟨e, he, hkey⟩ := h
    rw [he]
    exact get?_eq_some_iff.mpr ⟨List.mem_of_getElem? he, hkey⟩
  downloadable_sublist := List.filter_sublist
  mem_downloadable _ := List.mem_filter

/-- Entries make a set exactly if no two have one key, and the set is that sequence of entries. If
not, the key that is reported is the one at the first place whose key has stood before. -/
theorem ofEntries_keyed (entries : List (Entry R)) :
    ((∃ s, ofEntries entries = .ok s) ↔ (entries.map Entry.key).Nodup) ∧
    (∀ e, ofEntries entries = .error e ↔
      ∃ i key, IsLeast {i | RepeatsAt (entries.map Entry.key) i} i ∧
        (entries.map Entry.key)[i]? = some key ∧ e = .duplicateKey key) ∧
    ∀ s, ofEntries entries = .ok s → s.Holds entries := by
  refine ⟨?_, fun e => ?_, fun s h => ?_⟩
  · constructor
    · rintro ⟨s, hs⟩
      rw [← ofEntries_eq_ok_iff.mp hs]
      exact s.keys_nodup
    · intro hnodup
      exact ⟨⟨entries, hnodup⟩, ofEntries_eq_ok_iff.mpr rfl⟩
  · rw [ofEntries_eq_error_iff]
    simp only [repeatedKey?_eq_some_iff]
    constructor
    · rintro ⟨key, ⟨i, hi, hkey⟩, rfl⟩
      exact ⟨i, key, hi, hkey, rfl⟩
    · rintro ⟨i, key, hi, hkey, rfl⟩
      exact ⟨key, ⟨i, hi, hkey⟩, rfl⟩
  · rw [← ofEntries_eq_ok_iff.mp h]
    exact s.holds_entries

end ResultSet

end CenterOfMass
