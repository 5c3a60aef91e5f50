import CenterOfMass.Image.Render

namespace CenterOfMass

variable {R : Type} [Sub R] [Div R] [NatCast R] [LE R] [DecidableLE R] [LT R] [DecidableLT R]
  [Extended R]

/-- What part of the way from the lower to the upper bound a value has come, no less than none and
no more than all of it. There is no way for a value that is not finite, nor between bounds that have
no finite distance above zero. -/
def normalized (low high v : R) : R :=
  let part := (v - low) / (high - low)
  let raised := if part < Nat.cast 0 then Nat.cast 0 else part
  if Extended.isFinite v = true ∧ Extended.isFinite (high - low) = true ∧
      ¬ high - low ≤ Nat.cast 0 then
    if Nat.cast 1 < raised then Nat.cast 1 else raised
  else Nat.cast 0

theorem position_eq_normalized (low high v : R) : position low high v = normalized low high v := by
  unfold position normalized clampUnit
  by_cases hv : Extended.isFinite v = true <;>
    by_cases hwide : high - low ≤ Nat.cast 0 <;>
    by_cases hrange : Extended.isFinite (high - low) = true <;>
    simp [hv, hwide, hrange]

end CenterOfMass
