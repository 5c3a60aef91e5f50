import CenterOfMass.Exchange.Parameters
import CenterOfMass.Proofs.Exchange.RawData
import CenterOfMass.Proofs.Json.Record
import CenterOfMass.Proofs.Numeric.Zeros
import CenterOfMass.Proofs.Scan.Parameters

namespace CenterOfMass

open Draft Extended

section Optional

variable {R : Type}

theorem asOptional_ofOption_flag (b : Option Bool) :
    asOptional asBool (Json.ofOption .bool b : Json R).draft = .ok b := by
  cases b <;> rfl

variable [Extended R]

theorem Json.ofNumber_of_isFinite {x : R} (h : isFinite x = true) : ofNumber x = .real x := by
  rw [ofNumber_eq_ofOption, Option.filter_some_pos h]
  rfl

theorem Json.ofNumber_eq_null_iff {x : R} : ofNumber x = .null ↔ isFinite x = false := by
  unfold ofNumber
  split_ifs with h <;> simp [h]

variable [NatCast R] [Neg R]

theorem asNumber_ofNumber {x : R} (h : isFinite x = true) :
    asNumber (Json.ofNumber x).draft = .ok x := by
  rw [Json.ofNumber_of_isFinite h]
  rfl

/-- A number that is not finite reads as one that has been left out. -/
theorem asOptional_ofNumber (x : R) :
    asOptional asNumber (Json.ofNumber x).draft = .ok ((some x).filter isFinite) := by
  rw [Json.ofNumber_eq_ofOption]
  cases (some x).filter isFinite <;> rfl

theorem asOptional_ofOption_number (x : Option R) :
    asOptional asNumber (Json.ofOption .ofNumber x).draft = .ok (x.filter isFinite) := by
  cases x with
  | none => rfl
  | some x => exact asOptional_ofNumber x

end Optional

theorem MaskDtype.ofDraft_name {R : Type} (t : MaskDtype) :
    ofDraft (.text t.name : Draft R) = .ok t := by
  cases t
  rfl

section Record

variable {R : Type} [Extended R] [NatCast R] [Neg R]

namespace UserParameters

/-- What is left of parameters once they have been written. -/
def written (u : UserParameters R) : UserParameters R where
  cx := u.cx.filter isFinite
  cy := u.cy.filter isFinite
  r := u.r.filter isFinite
  useSparse := u.useSparse

/-- The fields with what is written of some parameters. -/
def fields (u : UserParameters R) : Filled R :=
  [(.omissible "cx" (asOptional asNumber), (Json.ofOption .ofNumber u.cx).draft),
    (.omissible "cy" (asOptional asNumber), (Json.ofOption .ofNumber u.cy).draft),
    (.omissible "r" (asOptional asNumber), (Json.ofOption .ofNumber u.r).draft),
    (.omissible "use_sparse" (asOptional asBool), (Json.ofOption .bool u.useSparse).draft)]

theorem sound_fields (u : UserParameters R) : u.fields.Sound where
  names_nodup := by simp [fields, Field.omissible]
  checked := by
    simp [fields, Field.omissible, asOptional_ofOption_number, asOptional_ofOption_flag]

/-- Parameters as given are read back with what is left of them. -/
theorem ofDraft_draft (u : UserParameters R) : ofDraft u.toJson.draft = .ok u.written := by
  have hread := asRecord_filled u.sound_fields
  have hnumber (x : Option R) := asOptional_ofOption_number x
  have hcx := Filled.getOr_found u.sound_fields (i := 0) rfl (hnumber u.cx) none
  have hcy := Filled.getOr_found u.sound_fields (i := 1) rfl (hnumber u.cy) none
  have hr := Filled.getOr_found u.sound_fields (i := 2) rfl (hnumber u.r) none
  have hsparse := Filled.getOr_found u.sound_fields (i := 3) rfl
    (asOptional_ofOption_flag u.useSparse) none
  unfold ofDraft
  refine bind_eq_ok_iff.mpr ⟨_, hread, ?_⟩
  refine bind_eq_ok_iff.mpr ⟨_, hcx, ?_⟩
  refine bind_eq_ok_iff.mpr ⟨_, hcy, ?_⟩
  refine bind_eq_ok_iff.mpr ⟨_, hr, ?_⟩
  exact bind_eq_ok_iff.mpr ⟨_, hsparse, rfl⟩

end UserParameters

namespace Parameters

/-- The fields with what is written of some parameters. -/
def fields (p : Parameters R) : Filled R :=
  [(.needed "cx" asNumber, (Json.ofNumber p.cx).draft),
    (.needed "cy" asNumber, (Json.ofNumber p.cy).draft),
    (.needed "r" (asOptional asNumber), (Json.ofNumber p.r).draft),
    (.needed "use_sparse" asBool, .bool p.useSparse),
    (.needed "mask_count" asNatural, .natural p.maskCount),
    (.needed "mask_dtype" MaskDtype.ofDraft, .text p.maskDtype.name)]

variable {p : Parameters R}

theorem sound_fields (hcx : isFinite p.cx = true) (hcy : isFinite p.cy = true) :
    p.fields.Sound where
  names_nodup := by simp [fields, Field.needed]
  checked := by
    simp [fields, Field.needed, asNumber_ofNumber hcx, asNumber_ofNumber hcy,
      asOptional_ofNumber, asBool, asNatural, MaskDtype.ofDraft_name]

/-- A center with a place is read back, and a radius that is not finite as an unlimited one. -/
theorem ofDraft_draft (hcx : isFinite p.cx = true) (hcy : isFinite p.cy = true) :
    ofDraft p.toJson.draft = .ok { p with r := ((some p.r).filter isFinite).getD infinity } := by
  have hsound := sound_fields hcx hcy
  have hread := asRecord_filled hsound
  have hx := Filled.get_found hsound (i := 0) rfl (asNumber_ofNumber hcx)
  have hy := Filled.get_found hsound (i := 1) rfl (asNumber_ofNumber hcy)
  have hr := Filled.get_found hsound (i := 2) rfl (asOptional_ofNumber p.r)
  have hsparse : p.fields.found.get "use_sparse" asBool = .ok p.useSparse :=
    Filled.get_found hsound (i := 3) rfl rfl
  have hcount : p.fields.found.get "mask_count" asNatural = .ok p.maskCount :=
    Filled.get_found hsound (i := 4) rfl rfl
  have hdtype := Filled.get_found hsound (i := 5) rfl (MaskDtype.ofDraft_name p.maskDtype)
  unfold ofDraft
  refine bind_eq_ok_iff.mpr ⟨_, hread, ?_⟩
  refine bind_eq_ok_iff.mpr ⟨_, hx, ?_⟩
  refine bind_eq_ok_iff.mpr ⟨_, hy, ?_⟩
  refine bind_eq_ok_iff.mpr ⟨_, hr, ?_⟩
  refine bind_eq_ok_iff.mpr ⟨_, hsparse, ?_⟩
  refine bind_eq_ok_iff.mpr ⟨_, hcount, ?_⟩
  exact bind_eq_ok_iff.mpr ⟨_, hdtype, rfl⟩

end Parameters

end Record

theorem not_isFinite_infinity : isFinite (infinity : Float) = false := rfl

namespace Parameters.Accepted

variable {p : Parameters Float}

/-- A radius that is accepted is a number not below zero, or unlimited. -/
theorem radius_cases (h : p.Accepted) :
    isFinite p.r = true ∧ Nat.cast 0 ≤ p.r ∨ p.r = infinity := by
  have hle : Nat.cast 0 ≤ p.r := ordersNumbers_double.le_of_not_lt h.number_r rfl h.sign_r
  have hnumber := double_le_iff_number.mp hle
  rw [number_zero] at hnumber
  rcases Exact.zero_le_cases hnumber with htop | ⟨x, -, hx⟩
  · refine .inr (eq_of_number_eq (htop.trans ?_) ?_)
    · rfl
    · rw [htop]
      nofun
  · refine .inl ⟨?_, hle⟩
    rw [isFinite_eq_number, hx]
    rfl

theorem isFinite_r_iff (h : p.Accepted) : isFinite p.r = false ↔ p.r = infinity := by
  constructor
  · intro hr
    rcases h.radius_cases with ⟨hfinite, -⟩ | htop
    · exact absurd (hfinite.symm.trans hr) nofun
    · exact htop
  · intro htop
    rw [htop, not_isFinite_infinity]

end Parameters.Accepted

namespace UserParameters

variable {u : UserParameters Float} {d : Detector} {p : Parameters Float}

/-- What is left of an accepted parameter stands for the same value. -/
theorem getD_filter_isFinite {x : Option Float} {a : Float}
    (h : isFinite (x.getD a) = true ∨ x.getD a = a) : (x.filter isFinite).getD a = x.getD a := by
  cases x with
  | none => rfl
  | some x =>
    rw [Option.getD_some] at h ⊢
    cases hx : isFinite x with
    | true => rw [Option.filter_some_pos hx, Option.getD_some]
    | false =>
      rw [Option.filter_some_neg (by simp [hx]), Option.getD_none]
      rcases h with hfinite | rfl
      · exact absurd (hx.symm.trans hfinite) nofun
      · rfl

theorem filled_written (h : (u.filled d).Accepted) : u.written.filled d = u.filled d := by
  have hr : isFinite (u.r.getD infinity) = true ∨ u.r.getD infinity = infinity :=
    h.radius_cases.imp_left And.left
  unfold filled written
  simp only [getD_filter_isFinite (.inl h.finite_cx), getD_filter_isFinite (.inl h.finite_cy),
    getD_filter_isFinite hr]

theorem filter_isFinite_eq_self {x : Option Float} {a : Float}
    (h : isFinite (x.getD a) = true) : x.filter isFinite = x := by
  cases x with
  | none => rfl
  | some x => exact Option.filter_some_pos h

/-- Only an unlimited radius that has been given is lost, and is one that is left out then. -/
theorem written_eq_self_iff (h : (u.filled d).Accepted) :
    u.written = u ↔ u.r ≠ some infinity := by
  have hcx : u.cx.filter isFinite = u.cx := filter_isFinite_eq_self h.finite_cx
  have hcy : u.cy.filter isFinite = u.cy := filter_isFinite_eq_self h.finite_cy
  constructor
  · intro hu hr
    have hwritten := congrArg UserParameters.r hu
    rw [written, hr, Option.filter_some_neg (by simp [not_isFinite_infinity])] at hwritten
    cases hwritten
  · intro hr
    have hkept : u.r.filter isFinite = u.r := by
      cases hu : u.r with
      | none => rfl
      | some r =>
        apply Option.filter_some_pos
        have hcases := h.radius_cases
        simp only [filled, hu, Option.getD_some] at hcases
        rcases hcases with ⟨hfinite, -⟩ | rfl
        · exact hfinite
        · exact absurd hu hr
    unfold written
    rw [hcx, hcy, hkept]

end UserParameters

namespace Parameters.Accepted

variable {p : Parameters Float}

theorem ofDraft_draft (h : p.Accepted) : ofDraft p.toJson.draft = .ok p := by
  rw [Parameters.ofDraft_draft h.finite_cx h.finite_cy]
  have hr : ((some p.r).filter isFinite).getD infinity = p.r :=
    UserParameters.getD_filter_isFinite (x := some p.r) (h.radius_cases.imp_left And.left)
  rw [hr]

/-- Of all that is written, only an unlimited radius is null. -/
theorem eq_null_iff (h : p.Accepted) {members : List (String × Json Float)}
    (hp : p.toJson = .object members) {name : String} {value : Json Float}
    (hmem : (name, value) ∈ members) : value = .null ↔ name = "r" ∧ p.r = infinity := by
  have hr := h.isFinite_r_iff
  unfold toJson at hp
  obtain rfl := Json.object.inj hp
  simp only [List.mem_cons, Prod.mk.injEq, List.not_mem_nil, or_false] at hmem
  obtain ⟨rfl, rfl⟩ | ⟨rfl, rfl⟩ | ⟨rfl, rfl⟩ | ⟨rfl, rfl⟩ | ⟨rfl, rfl⟩ | ⟨rfl, rfl⟩ := hmem
  · simp [Json.ofNumber_of_isFinite h.finite_cx]
  · simp [Json.ofNumber_of_isFinite h.finite_cy]
  · simp [Json.ofNumber_eq_null_iff, hr]
  all_goals simp

end Parameters.Accepted

/-- What parameters that have been accepted keep when they are written and read again. -/
structure Parameters.Exchanged (u : UserParameters Float) (d : Detector) (p : Parameters Float) :
    Prop where
  finite_cx : isFinite p.cx = true
  finite_cy : isFinite p.cy = true
  radius : isFinite p.r = true ∧ Nat.cast 0 ≤ p.r ∨ p.r = infinity
  /-- As resolved they are read back as they were, an unlimited radius by way of null. -/
  resolved : Parameters.ofDraft p.toJson.draft = .ok p
  /-- As given they are read back as parameters that stand for the same ones, and as themselves
  unless the radius was given as an unlimited one. -/
  given : ∃ u', UserParameters.ofDraft u.toJson.draft = .ok u' ∧ u'.resolve d = .ok p ∧
    (u' = u ↔ u.r ≠ some infinity)
  /-- Nothing but an unlimited radius is written as null. -/
  null : ∃ members, p.toJson = .object members ∧ ∀ name value, (name, value) ∈ members →
    (value = .null ↔ name = "r" ∧ p.r = infinity)

/-- Parameters survive the way through JSON. -/
theorem UserParameters.exchanged {u : UserParameters Float} {d : Detector} {p : Parameters Float}
    (h : u.resolve d = .ok p) : Parameters.Exchanged u d p := by
  obtain ⟨rfl, haccepted⟩ := resolve_eq_ok_iff.mp h
  have hsame : u.written.filled d = u.filled d := filled_written haccepted
  have hagain : u.written.resolve d = .ok (u.filled d) :=
    resolve_eq_ok_iff.mpr ⟨hsame, haccepted⟩
  exact {
    finite_cx := haccepted.finite_cx
    finite_cy := haccepted.finite_cy
    radius := haccepted.radius_cases
    resolved := haccepted.ofDraft_draft
    given := ⟨u.written, ofDraft_draft u, hagain, written_eq_self_iff haccepted⟩
    null := ⟨_, rfl, fun _ _ hmem => haccepted.eq_null_iff rfl hmem⟩ }

/-- A radius that is given as an unlimited one, on a detector of four by six pixels. -/
theorem UserParameters.exchanged_unlimited :
    ∃ p, UserParameters.resolve ⟨none, some 1.5, some infinity, none⟩ ⟨4, 6⟩ = .ok p ∧
      p.r = infinity ∧ Parameters.Exchanged ⟨none, some 1.5, some infinity, none⟩ ⟨4, 6⟩ p :=
  have h : UserParameters.resolve ⟨none, some 1.5, some infinity, none⟩ ⟨4, 6⟩ =
      .ok (UserParameters.filled ⟨none, some 1.5, some infinity, none⟩ ⟨4, 6⟩) := by rfl
  ⟨_, h, rfl, UserParameters.exchanged h⟩

end CenterOfMass
