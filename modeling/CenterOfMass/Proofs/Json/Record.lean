import CenterOfMass.Json.Decode
import CenterOfMass.Proofs.Keyed
import CenterOfMass.Proofs.Outcome

namespace CenterOfMass

variable {R α : Type}

/-- The fields of a record, each with what is to be read of it. -/
abbrev Filled (R : Type) := List (Field R × Draft R)

namespace Filled

/-- A record as an object that holds its fields and nothing else, in order. -/
def draft (filled : Filled R) : Draft R :=
  .object (filled.map fun p => (.text p.1.name, p.2)) .closed

/-- The fields as a reader finds them, the last one first. -/
def found (filled : Filled R) : Found R := filled.reverse.map fun p => (p.1.name, p.2)

/-- No two fields have one name, and what is read of them is of the kind that is asked for. -/
structure Sound (filled : Filled R) : Prop where
  names_nodup : (filled.map fun p => p.1.name).Nodup
  checked : ∀ p ∈ filled, p.1.check p.2 = .ok ()

variable {filled : Filled R}

theorem find?_eq_some (h : filled.Sound) {p : Field R × Draft R} (hp : p ∈ filled) :
    (filled.map Prod.fst).find? (·.name = p.1.name) = some p.1 := by
  have hnodup : ((filled.map Prod.fst).map Field.name).Nodup := by
    rw [List.map_map]
    exact h.names_nodup
  exact (find?_eq_some_iff_of_nodup hnodup).mpr ⟨List.mem_map_of_mem hp, rfl⟩

/-- A field comes up under its name. -/
theorem lookup_found (h : filled.Sound) {p : Field R × Draft R} (hp : p ∈ filled) :
    filled.found.lookup p.1.name = some p.2 := by
  apply lookup_eq_some_of_nodup
  · unfold found
    rw [List.map_reverse, List.map_reverse, List.nodup_reverse, List.map_map]
    exact h.names_nodup
  · unfold found
    exact List.mem_map.mpr ⟨p, List.mem_reverse.mpr hp, rfl⟩

section Get

variable {i : Nat} {f : Field R} {d : Draft R} {a : α} {take : Draft R → Except JsonFault α}

theorem get_found (h : filled.Sound) (hi : filled[i]? = some (f, d)) (hd : take d = .ok a) :
    filled.found.get f.name take = .ok a := by
  unfold Found.get
  rw [lookup_found h (List.mem_of_getElem? hi)]
  exact hd

theorem getOr_found (h : filled.Sound) (hi : filled[i]? = some (f, d)) (hd : take d = .ok a)
    (absent : α) : filled.found.getOr f.name take absent = .ok a := by
  unfold Found.getOr
  rw [lookup_found h (List.mem_of_getElem? hi)]
  exact hd

end Get

end Filled

namespace Draft

theorem members_filled {fields : List (Field R)} {filled : Filled R} (found : Found R)
    (hfields : ∀ p ∈ filled, fields.find? (·.name = p.1.name) = some p.1)
    (hsound : filled.Sound) (hnew : ∀ p ∈ filled, found.lookup p.1.name = none) :
    members fields found (filled.map fun p => (.text p.1.name, p.2)) =
      .ok (filled.found ++ found) := by
  -- Over the members. What has been found grows, and holds none of the names still to come.
  induction filled generalizing found with
  | nil => rfl
  | cons p filled ih =>
    obtain ⟨hnames, hchecked⟩ := hsound
    rw [List.map_cons, List.nodup_cons] at hnames
    rw [List.forall_mem_cons] at hfields hchecked hnew
    have hrest : ∀ q ∈ filled, List.lookup q.1.name ((p.1.name, p.2) :: found) = none := by
      intro q hq
      have hother : q.1.name ≠ p.1.name := by
        intro hname
        exact hnames.1 (hname ▸ List.mem_map_of_mem hq)
      rw [List.lookup_cons, beq_false_of_ne hother]
      exact hnew.2 q hq
    have hmore := ih _ hfields.2 ⟨hnames.2, hchecked.2⟩ hrest
    simp only [List.map_cons, members, Key.read, ok_bind, hfields.1, hnew.1, hchecked.1,
      Option.isSome_none, Bool.false_eq_true, if_false, hmore]
    simp [Filled.found]

/-- An object of exactly the fields of a record is read as that record. -/
theorem asRecord_filled {filled : Filled R} (h : filled.Sound) :
    asRecord (filled.map Prod.fst) filled.draft = .ok filled.found := by
  have hfields : ∀ p ∈ filled, (filled.map Prod.fst).find? (·.name = p.1.name) = some p.1 :=
    fun p hp => Filled.find?_eq_some h hp
  have hmembers := members_filled [] hfields h fun _ _ => rfl
  have hall : (filled.map Prod.fst).all (fun f =>
      !f.required || (filled.found.lookup f.name).isSome) = true := by
    simp only [List.all_map, List.all_eq_true, Function.comp_apply]
    intro p hp
    rw [Filled.lookup_found h hp, Option.isSome_some, Bool.or_true]
  rw [List.append_nil] at hmembers
  simp only [asRecord, Filled.draft, hmembers, ok_bind, Ending.check, hall, if_true, pure_eq_ok]

end Draft

end CenterOfMass
