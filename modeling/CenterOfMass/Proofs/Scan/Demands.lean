import CenterOfMass.Proofs.Scan.Parameters

namespace CenterOfMass

/-- Something asked of an input, and what is reported of one that lacks it. -/
structure Demand where
  met : Prop
  failure : Failure

/-- The failure is reported of a demand that is not met, and all demands before it are met. -/
def FirstUnmet : List Demand → Failure → Prop
  | [], _ => False
  | d :: ds, e => ¬ d.met ∧ e = d.failure ∨ d.met ∧ FirstUnmet ds e

/-- There is an outcome exactly if all demands are met, and if not, the first unmet one is
reported. -/
structure Demanded {α : Type} (demands : List Demand) (x : Except Failure α) : Prop where
  ok_iff : (∃ a, x = .ok a) ↔ ∀ d ∈ demands, d.met
  error_iff : ∀ e, x = .error e ↔ FirstUnmet demands e

namespace Demanded

variable {α β : Type} {d : Demand} {ds : List Demand} {x : Except Failure α}

theorem nil (a : α) : Demanded [] (.ok a) := by
  constructor
  · simp
  · intro e
    simp [FirstUnmet]

theorem cons_met (hd : d.met) (hx : Demanded ds x) : Demanded (d :: ds) x := by
  constructor
  · rw [hx.ok_iff]
    simp [hd]
  · intro e
    rw [hx.error_iff]
    simp [FirstUnmet, hd]

theorem cons_unmet (hd : ¬ d.met) : Demanded (d :: ds) (.error d.failure : Except Failure α) := by
  constructor
  · simp [hd]
  · intro e
    simp [FirstUnmet, hd, eq_comm]

/-- A check that is made before the others. -/
theorem guard {c : Prop} [Decidable c] (hc : c ↔ ¬ d.met) (hx : Demanded ds x) :
    Demanded (d :: ds) (if c then .error d.failure else x) := by
  by_cases hd : d.met
  · rw [if_neg (by simp [hc, hd])]
    exact cons_met hd hx
  · rw [if_pos (hc.mpr hd)]
    exact cons_unmet hd

/-- A step with one demand, which later steps build on. -/
theorem bind {f : α → Except Failure β} (hx : Demanded [d] x)
    (hf : ∀ a, x = .ok a → Demanded ds (f a)) : Demanded (d :: ds) (x >>= f) := by
  cases x with
  | ok a =>
    have hd : d.met := hx.ok_iff.mp ⟨a, rfl⟩ d (List.mem_singleton_self d)
    exact cons_met hd (hf a rfl)
  | error e =>
    obtain ⟨hd, rfl⟩ | ⟨-, hnone⟩ := (hx.error_iff e).mp rfl
    · exact cons_unmet hd
    · cases hnone

theorem bind_ok (hx : Demanded ds x) (g : α → β) : Demanded ds (x >>= fun a => .ok (g a)) := by
  obtain ⟨hok, herror⟩ := hx
  cases x with
  | ok a => exact ⟨by simpa using hok, by simpa using herror⟩
  | error e => exact ⟨by simpa using hok, by simpa using herror⟩

end Demanded

/-- A value of the upper layer, or one of the lower, or else the standard one. -/
def layered {α : Type} (upper lower : Option α) (standard : α) : α :=
  match upper, lower with
  | some a, _ => a
  | none, some a => a
  | none, none => standard

theorem getD_or_eq_layered {α : Type} (upper lower : Option α) (standard : α) :
    (upper.or lower).getD standard = layered upper lower standard := by
  cases upper <;> cases lower <;> rfl

namespace UserParameters

/-- Parameters below others that are the same wherever these are left out. -/
structure SameBelow {R : Type} (upper lower lower' : UserParameters R) : Prop where
  cx : upper.cx = none → lower.cx = lower'.cx
  cy : upper.cy = none → lower.cy = lower'.cy
  r : upper.r = none → lower.r = lower'.r
  useSparse : upper.useSparse = none → lower.useSparse = lower'.useSparse

theorem or_eq_or_of_none {α : Type} {upper lower lower' : Option α}
    (h : upper = none → lower = lower') : upper.or lower = upper.or lower' := by
  cases upper with
  | none => exact h rfl
  | some a => rfl

/-- What an upper layer sets hides all that lies below. -/
theorem SameBelow.override_eq {R : Type} {upper lower lower' : UserParameters R}
    (h : upper.SameBelow lower lower') : upper.override lower = upper.override lower' :=
  UserParameters.ext (or_eq_or_of_none h.cx) (or_eq_or_of_none h.cy) (or_eq_or_of_none h.r)
    (or_eq_or_of_none h.useSparse)

variable {R : Type} [Scalar R]

/-- The parameters that two layers come to on a detector. -/
def inEffect (upper lower : UserParameters R) (d : Detector) : Parameters R where
  cx := layered upper.cx lower.cx (Nat.cast d.width / Nat.cast 2)
  cy := layered upper.cy lower.cy (Nat.cast d.height / Nat.cast 2)
  r := layered upper.r lower.r Extended.infinity
  useSparse := layered upper.useSparse lower.useSparse false
  maskCount := 3
  maskDtype := .float32

theorem filled_override (upper lower : UserParameters R) (d : Detector) :
    (upper.override lower).filled d = upper.inEffect lower d := by
  unfold filled inEffect override
  simp only [getD_or_eq_layered]

end UserParameters

section Demands

variable {R : Type} [Scalar R]

/-- What is asked of a center and a radius, in the order of the checks. -/
def Parameters.demands (p : Parameters R) : List Demand :=
  [⟨Extended.isFinite p.cx = true, .invalidParameter "cx" (.notFinite (Scalar.text p.cx))⟩,
    ⟨Extended.isFinite p.cy = true, .invalidParameter "cy" (.notFinite (Scalar.text p.cy))⟩,
    ⟨Extended.isNaN p.r = false ∧ ¬ p.r < Nat.cast 0,
      .invalidParameter "r" (.notARadius (Scalar.text p.r))⟩]

theorem UserParameters.demanded_resolve (u : UserParameters R) (d : Detector) :
    Demanded (u.filled d).demands (u.resolve d) := by
  apply Demanded.guard (by simp [filled])
  apply Demanded.guard (by simp [filled])
  apply Demanded.guard
  · let r := (u.filled d).r
    change (Extended.isNaN r || decide (r < Nat.cast 0)) = true ↔
      ¬ (Extended.isNaN r = false ∧ ¬ r < Nat.cast 0)
    cases Extended.isNaN r <;> simp
  · exact .nil _

end Demands

namespace DatasetShape

/-- The detector that a signal's first two axes stand for. -/
def frame (s : DatasetShape) : Detector := ⟨s.signal.getD 0 0, s.signal.getD 1 0⟩

variable {s : DatasetShape} {d : Detector}

theorem detector_eq_ok_iff : s.detector = .ok d ↔ s.signal = [d.height, d.width] := by
  obtain ⟨navigation, signal⟩ := s
  obtain ⟨height, width⟩ := d
  match signal with
  | [] | [_] | _ :: _ :: _ :: _ => simp [detector, Detector.ofSignal]
  | [h, w] => simp [detector, Detector.ofSignal]

/-- A frame has two axes. -/
def signalDemand (s : DatasetShape) : Demand :=
  ⟨s.signal.length = 2, .unsupportedGeometry s.signal.length⟩

/-- A scan has one axis or two. -/
def scanDemand (s : DatasetShape) : Demand :=
  ⟨s.navigation.length = 1 ∨ s.navigation.length = 2, .shapeMismatch (.scan s.navigation)⟩

theorem demanded_detector (s : DatasetShape) : Demanded [s.signalDemand] s.detector := by
  obtain ⟨navigation, signal⟩ := s
  match signal with
  | [] | [_] | _ :: _ :: _ :: _ => exact .cons_unmet (by simp [signalDemand])
  | [h, w] => exact .cons_met rfl (.nil _)

theorem demanded_scan (s : DatasetShape) : Demanded [s.scanDemand] s.scan := by
  obtain ⟨navigation, signal⟩ := s
  match navigation with
  | [] | _ :: _ :: _ :: _ => exact .cons_unmet (by simp [scanDemand])
  | [w] => exact .cons_met (.inl rfl) (.nil _)
  | [h, w] => exact .cons_met (.inr rfl) (.nil _)

theorem frame_of_detector (h : s.detector = .ok d) : s.frame = d := by
  unfold frame
  rw [detector_eq_ok_iff.mp h]
  rfl

end DatasetShape

end CenterOfMass
