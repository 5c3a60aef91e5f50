import CenterOfMass.Scan.Parameters
import CenterOfMass.Proofs.Outcome

namespace CenterOfMass

variable {R : Type} [Scalar R]

/-- What is asked of the parameters of an analysis: a center with a place, and a radius that is a
number not below zero. -/
structure Parameters.Accepted (p : Parameters R) : Prop where
  finite_cx : Extended.isFinite p.cx = true
  finite_cy : Extended.isFinite p.cy = true
  number_r : Extended.isNaN p.r = false
  sign_r : ¬ p.r < Nat.cast 0

namespace UserParameters

variable {u : UserParameters R} {d : Detector} {p : Parameters R}

/-- The parameters as given, with the standard ones where they are left out. -/
def filled (u : UserParameters R) (d : Detector) : Parameters R where
  cx := u.cx.getD (Nat.cast d.width / Nat.cast 2)
  cy := u.cy.getD (Nat.cast d.height / Nat.cast 2)
  r := u.r.getD Extended.infinity
  useSparse := u.useSparse.getD false
  maskCount := 3
  maskDtype := .float32

theorem resolve_eq_ok_iff : u.resolve d = .ok p ↔ u.filled d = p ∧ p.Accepted := by
  unfold resolve
  constructor
  · intro h
    simp only at h
    split at h
    · cases h
    next hcx =>
    split at h
    · cases h
    next hcy =>
    split at h
    · cases h
    next hr =>
    obtain rfl := Except.ok.inj h
    simp only [Bool.or_eq_true, decide_eq_true_eq, not_or] at hr
    exact ⟨rfl, by simpa using hcx, by simpa using hcy, by simpa using hr.1, hr.2⟩
  · rintro ⟨rfl, hcx, hcy, hnumber, hsign⟩
    unfold filled at hcx hcy hnumber hsign
    simp only at hcx hcy hnumber hsign
    simp only [hcx, hcy, hnumber, hsign]
    rfl

end UserParameters

end CenterOfMass
