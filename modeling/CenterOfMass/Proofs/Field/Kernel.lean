import CenterOfMass.Proofs.Field.Accuracy
import Mathlib.Tactic.NoncommRing
import Mathlib.Tactic.NormNum

namespace CenterOfMass

section Slopes

variable {K : Type} [DivisionRing K] {order : EdgeOrder} {n : Nat}

-- Products need not commute, but those with a natural number do.

theorem slope_linear (a b : K) (f g : Fin n → K) (h : order.least ≤ n) (i : Fin n) :
    slope order (fun k => a * f k + b * g k) h i =
      a * slope order f h i + b * slope order g h i := by
  by_cases hi : i.val = 0
  · cases order with
    | first =>
      rw [slope_first_left h hi, slope_first_left h hi, slope_first_left h hi]
      noncomm_ring
    | second =>
      rw [slope_second_left h hi, slope_second_left h hi, slope_second_left h hi,
        ← mul_div_assoc, ← mul_div_assoc, ← add_div]
      push_cast
      congr 1
      noncomm_ring
  by_cases hn : i.val + 1 = n
  · cases order with
    | first =>
      rw [slope_first_right h hi hn, slope_first_right h hi hn, slope_first_right h hi hn]
      noncomm_ring
    | second =>
      rw [slope_second_right h hn, slope_second_right h hn, slope_second_right h hn,
        ← mul_div_assoc, ← mul_div_assoc, ← add_div]
      push_cast
      congr 1
      noncomm_ring
  · have hnext : i.val + 1 < n := by omega
    rw [slope_inner h hi hnext, slope_inner h hi hnext, slope_inner h hi hnext,
      ← mul_div_assoc, ← mul_div_assoc, ← add_div]
    noncomm_ring

theorem slope_const (c : K) (h : order.least ≤ n) (i : Fin n) :
    slope order (fun _ => c) h i = 0 := by
  by_cases hi : i.val = 0
  · cases order with
    | first => rw [slope_first_left h hi, sub_self]
    | second =>
      rw [slope_second_left h hi, div_eq_zero_iff]
      push_cast
      left
      noncomm_ring
  by_cases hn : i.val + 1 = n
  · cases order with
    | first => rw [slope_first_right h hi hn, sub_self]
    | second =>
      rw [slope_second_right h hn, div_eq_zero_iff]
      push_cast
      left
      noncomm_ring
  · rw [slope_inner h hi (by omega), sub_self, zero_div]

variable [NeZero (2 : K)] {f : Fin n → K}

/-- Without slopes inside a lane every other sample is the same. -/
theorem eq_of_slope_inner_eq_zero (h : order.least ≤ n) (hf : ∀ i, slope order f h i = 0) {k : Nat}
    (hk : k + 2 < n) : f ⟨k + 2, hk⟩ = f ⟨k, by omega⟩ := by
  have htwo : ((2 : Nat) : K) ≠ 0 := by exact_mod_cast two_ne_zero
  have hslope := hf ⟨k + 1, by omega⟩
  rw [slope_inner h (Nat.succ_ne_zero k) hk, div_eq_zero_iff] at hslope
  exact sub_eq_zero.mp (hslope.resolve_right htwo)

/-- The difference at the edge ties the samples of odd index to those of even index. -/
theorem eq_of_slope_left_eq_zero (h : order.least ≤ n) (hf : ∀ i, slope order f h i = 0)
    (hn : 1 < n) : f ⟨1, hn⟩ = f ⟨0, by omega⟩ := by
  cases order with
  | first =>
    have hslope := hf ⟨0, by omega⟩
    rw [slope_first_left h rfl] at hslope
    exact sub_eq_zero.mp hslope
  | second =>
    have htwo : ((2 : Nat) : K) ≠ 0 := by exact_mod_cast two_ne_zero
    have hfour : (2 * 2 : K) ≠ 0 := mul_ne_zero two_ne_zero two_ne_zero
    have hnext : f ⟨2, h⟩ = f ⟨0, by omega⟩ := eq_of_slope_inner_eq_zero h hf h
    have hslope := hf ⟨0, by omega⟩
    rw [slope_second_left h rfl, div_eq_zero_iff] at hslope
    have hedge := hslope.resolve_right htwo
    push_cast at hedge
    rw [hnext] at hedge
    have hdifference : 2 * 2 * (f ⟨1, hn⟩ - f ⟨0, by omega⟩) =
        -3 * f ⟨0, by omega⟩ + 4 * f ⟨1, hn⟩ - f ⟨0, by omega⟩ := by noncomm_ring
    exact sub_eq_zero.mp ((mul_eq_zero.mp (hdifference.trans hedge)).resolve_left hfour)

/-- A lane has no slopes exactly if all its samples are the same. The induction goes by two
samples, as the slopes inside do, and starts from the first two. -/
theorem slope_eq_zero_iff (h : order.least ≤ n) :
    (∀ i, slope order f h i = 0) ↔ ∃ c, ∀ i, f i = c := by
  have hn : 1 < n := by cases order <;> simp [EdgeOrder.least] at h <;> omega
  constructor
  · intro hf
    have hfirst : ∀ k (hk : k < n), f ⟨k, hk⟩ = f ⟨0, by omega⟩ := by
      intro k
      induction k using Nat.twoStepInduction with
      | zero => exact fun _ => rfl
      | one => exact fun _ => eq_of_slope_left_eq_zero h hf hn
      | more k ih _ =>
        intro hk
        exact (eq_of_slope_inner_eq_zero h hf hk).trans (ih (by omega))
    exact ⟨f ⟨0, by omega⟩, fun i => hfirst i i.isLt⟩
  · rintro ⟨c, hc⟩ i
    rw [show f = fun _ => c from funext hc]
    exact slope_const c h i

end Slopes

namespace Grid

variable {α : Type} {axis : Axis} {lane : Nat}

/-- The number of lanes along an axis. -/
def lanes (g : Grid α) : Axis → Nat
  | .rows => g.cols
  | .cols => g.rows

theorem lanes_eq {g g' : Grid α} (h : g.shape = g'.shape) (axis : Axis) :
    g.lanes axis = g'.lanes axis := by
  cases axis with
  | rows => exact cols_eq h
  | cols => exact rows_eq h

/-- Every lane along an axis holds one value, which may be another one in the next lane. -/
def ConstantAlong (g : Grid α) (axis : Axis) : Prop :=
  ∀ lane < g.lanes axis, ∃ c, g.LaneIs axis lane fun _ => c

theorem exists_laneIs [Zero α] (g : Grid α) (hlane : lane < g.lanes axis) :
    ∃ p, g.LaneIs axis lane p := by
  refine ⟨fun i => (g.sample? axis lane i).getD 0, fun i hi => ?_⟩
  cases axis with
  | rows =>
    have hplace : g.get? i lane = some (g.get ⟨i, hi⟩ ⟨lane, hlane⟩) := get?_of_lt hi hlane
    change g.get? i lane = some ((g.get? i lane).getD 0)
    rw [hplace]
    rfl
  | cols =>
    have hplace : g.get? lane i = some (g.get ⟨lane, hlane⟩ ⟨i, hi⟩) := get?_of_lt hlane hi
    change g.get? lane i = some ((g.get? lane i).getD 0)
    rw [hplace]
    rfl

theorem LaneIs.eq {g : Grid α} {p q : Nat → α} (hp : g.LaneIs axis lane p)
    (hq : g.LaneIs axis lane q) {i : Nat} (hi : i < g.length axis) : p i = q i :=
  Option.some.inj ((hp i hi).symm.trans (hq i hi))

theorem LaneIs.map {g : Grid α} {p : Nat → α} (hp : g.LaneIs axis lane p) (f : α → α) :
    (g.map f).LaneIs axis lane fun i => f (p i) := by
  intro i hi
  rw [length_eq (shape_map f g)] at hi
  have hsample := hp i hi
  cases axis with
  | rows => exact (get?_map f g).trans (congrArg (Option.map f) hsample)
  | cols => exact (get?_map f g).trans (congrArg (Option.map f) hsample)

theorem LaneIs.zipWith {a b : Grid α} {p q : Nat → α} (hp : a.LaneIs axis lane p)
    (hq : b.LaneIs axis lane q) (f : α → α → α) (h : a.shape = b.shape) :
    (Grid.zipWith f a b h).LaneIs axis lane fun i => f (p i) (q i) := by
  intro i hi
  have ha : i < a.length axis := by rwa [length_eq (shape_zipWith f a b h)] at hi
  have hb : i < b.length axis := length_eq h axis ▸ ha
  have hsample := hp i ha
  have hsample' := hq i hb
  cases axis with
  | rows => exact get?_zipWith f h hsample hsample'
  | cols => exact get?_zipWith f h hsample hsample'

theorem map_const_eq {g g' : Grid α} (h : g.shape = g'.shape) (c : α) :
    (g.map fun _ => c) = g'.map fun _ => c :=
  ext_get (rows_eq h) (cols_eq h) fun i j =>
    (get_map (fun _ => c) g i j).trans
      (get_map (fun _ => c) g' (i.cast (rows_eq h)) (j.cast (cols_eq h))).symm

/-- Tables of one shape are equal when they have the same lanes. -/
theorem ext_lanes (axis : Axis) {a b : Grid α} (h : a.shape = b.shape)
    (hlanes : ∀ lane < a.lanes axis, ∃ p, a.LaneIs axis lane p ∧ b.LaneIs axis lane p) : a = b := by
  refine ext_get? h fun i j => ?_
  by_cases hin : i < a.rows ∧ j < a.cols
  · cases axis with
    | rows =>
      obtain ⟨p, ha, hb⟩ := hlanes j hin.2
      exact (ha i hin.1).trans (hb i (hin.1.trans_eq (rows_eq h))).symm
    | cols =>
      obtain ⟨p, ha, hb⟩ := hlanes i hin.1
      exact (ha j hin.2).trans (hb j (hin.2.trans_eq (cols_eq h))).symm
  · have hin' : ¬ (i < b.rows ∧ j < b.cols) := by rwa [← rows_eq h, ← cols_eq h]
    rw [get?_eq_none hin, get?_eq_none hin']

end Grid

section Derivatives

variable {K : Type} [DivisionRing K] {axis : Axis} {order : EdgeOrder} {n : Nat}

/-- The slopes of the first samples of a sequence, as many as a lane has. -/
def slopes (order : EdgeOrder) (n : Nat) (p : Nat → K) (i : Nat) : K :=
  if h : order.least ≤ n ∧ i < n then slope order (fun k : Fin n => p k) h.1 ⟨i, h.2⟩ else 0

theorem slopes_of_lt (h : order.least ≤ n) (p : Nat → K) (i : Fin n) :
    slopes order n p i = slope order (fun k => p k) h i := dif_pos ⟨h, i.isLt⟩

theorem slopes_linear (a b : K) (p q : Nat → K) (i : Nat) :
    slopes order n (fun k => a * p k + b * q k) i =
      a * slopes order n p i + b * slopes order n q i := by
  by_cases h : order.least ≤ n ∧ i < n
  · simp only [slopes, dif_pos h]
    exact slope_linear a b _ _ h.1 ⟨i, h.2⟩
  · simp only [slopes, dif_neg h, mul_zero, add_zero]

theorem slopes_eq_zero_iff [NeZero (2 : K)] (h : order.least ≤ n) (p : Nat → K) :
    (∀ i < n, slopes order n p i = 0) ↔ ∃ c, ∀ i < n, p i = c := by
  calc (∀ i < n, slopes order n p i = 0)
      ↔ ∀ i : Fin n, slope order (fun k => p k) h i = 0 := by
        simp only [Fin.forall_iff, ← slopes_of_lt h]
    _ ↔ ∃ c, ∀ i : Fin n, p i = c := slope_eq_zero_iff h
    _ ↔ ∃ c, ∀ i < n, p i = c := by simp only [Fin.forall_iff]

namespace Grid

theorem LaneIs.slopes {g : Grid K} {lane : Nat} {p : Nat → K} (hp : g.LaneIs axis lane p)
    (h : order.least ≤ g.length axis) :
    (g.derivative axis order h).LaneIs axis lane (slopes order (g.length axis) p) :=
  hp.derivative h fun i => (slopes_of_lt h p i).symm

/-- The slopes of a sum of multiples are the sum of the multiples of the slopes. -/
theorem derivative_linear (a b : K) {g g' s d d' : Grid K} (hshape : g.shape = g'.shape)
    (hs : zipWith (fun x y => a * x + b * y) g g' hshape = s) (h : order.least ≤ g.length axis)
    (h' : order.least ≤ g'.length axis) (hsum : order.least ≤ s.length axis)
    (hd : g.derivative axis order h = d) (hd' : g'.derivative axis order h' = d')
    (hderivatives : d.shape = d'.shape) :
    s.derivative axis order hsum = zipWith (fun x y => a * x + b * y) d d' hderivatives := by
  subst hs hd hd'
  have hsides := (zipWith (fun x y => a * x + b * y) g g' hshape).shape_derivative axis order hsum
  refine ext_lanes axis (hsides.trans (g.shape_derivative axis order h).symm) ?_
  intro lane hlane
  rw [lanes_eq hsides] at hlane
  obtain ⟨p, hp⟩ := g.exists_laneIs hlane
  obtain ⟨q, hq⟩ := g'.exists_laneIs (lanes_eq hshape axis ▸ hlane)
  have hleft := (hp.zipWith hq (fun x y => a * x + b * y) hshape).slopes hsum
  have hright := (hp.slopes h).zipWith (hq.slopes h') (fun x y => a * x + b * y) hderivatives
  rw [length_eq (shape_zipWith _ g g' hshape), funext (slopes_linear a b p q)] at hleft
  rw [← length_eq hshape] at hright
  exact ⟨_, hleft, hright⟩

theorem derivative_eq_zero_iff [NeZero (2 : K)] {g : Grid K} (h : order.least ≤ g.length axis) :
    g.derivative axis order h = g.map (fun _ => 0) ↔ g.ConstantAlong axis := by
  constructor
  · intro hzero lane hlane
    obtain ⟨p, hp⟩ := g.exists_laneIs hlane
    have hslopes := hp.slopes h
    rw [hzero] at hslopes
    obtain ⟨c, hc⟩ := (slopes_eq_zero_iff h p).mp fun i hi => hslopes.eq (hp.map fun _ => 0) hi
    refine ⟨c, fun i hi => ?_⟩
    rw [← hc i hi]
    exact hp i hi
  · intro hconst
    refine ext_lanes axis (g.shape_derivative axis order h) fun lane hlane => ?_
    rw [lanes_eq (g.shape_derivative axis order h)] at hlane
    obtain ⟨c, hc⟩ := hconst lane hlane
    exact ⟨_, hc.derivative h (slope_const c h), hc.map fun _ => 0⟩

end Grid

end Derivatives

namespace Grid

variable {K : Type} [DivisionRing K]

theorem zipWith_sub_eq_zero_iff {d d' : Grid K} (h : d.shape = d'.shape) :
    zipWith (fun x y => x - y) d d' h = d.map (fun _ => 0) ↔ d = d' := by
  constructor
  · intro hzero
    refine ext_get? h fun i j => ?_
    have hplace := congrArg (fun g : Grid K => g.get? i j) hzero
    simp only [get?_zipWith_eq_map₂, get?_map] at hplace
    cases hx : d.get? i j with
    | none =>
      refine (Option.eq_none_iff_forall_ne_some.mpr fun y hy => ?_).symm
      obtain ⟨x, hx'⟩ := exists_get? h hy
      exact Option.some_ne_none x (hx'.symm.trans hx)
    | some x =>
      obtain ⟨y, hy⟩ := exists_get? h.symm hx
      rw [hx, hy] at hplace
      rw [hy, sub_eq_zero.mp (Option.some.inj hplace)]
  · rintro rfl
    refine ext_get? rfl fun i j => ?_
    rw [get?_zipWith_eq_map₂, get?_map]
    cases d.get? i j with
    | none => rfl
    | some x => exact congrArg some (sub_self x)

/-- The pattern of a checkerboard, whose value changes its sign from sample to sample. -/
def checkerboard (m n : Nat) (c : K) : Grid K := ofFn m n fun i j => (-1) ^ (i.val + j.val) * c

theorem not_constantAlong_checkerboard [NeZero (2 : K)] {m n : Nat} {c : K} (hc : c ≠ 0)
    {axis : Axis} (hlanes : 0 < (checkerboard m n c).lanes axis)
    (hlength : 2 ≤ (checkerboard m n c).length axis) :
    ¬ (checkerboard m n c).ConstantAlong axis := by
  intro hconst
  obtain ⟨d, hd⟩ := hconst 0 hlanes
  have hpattern : (checkerboard m n c).LaneIs axis 0 fun i => (-1) ^ i * c := by
    intro i hi
    cases axis with
    | rows => exact (get?_ofFn _ ⟨i, hi⟩ ⟨0, hlanes⟩)
    | cols => exact (get?_ofFn _ ⟨0, hlanes⟩ ⟨i, hi⟩).trans (by simp)
  have hfirst : (-1) ^ 0 * c = d := hpattern.eq hd (by omega)
  have hsecond : (-1) ^ 1 * c = d := hpattern.eq hd hlength
  have hequal : c = -c := by simpa using hfirst.trans hsecond.symm
  have hsum : 2 * c = 0 := (two_mul c).trans (eq_neg_iff_add_eq_zero.mp hequal)
  exact hc ((mul_eq_zero.mp hsum).resolve_left two_ne_zero)

section Gradient

variable {g g' : Grid K} {axis : Axis} {order : EdgeOrder}

theorem gradient_linear (h : order.least ≤ g.length axis) (hshape : g.shape = g'.shape) (a b : K) :
    ∃ (d d' : Grid K) (hderivatives : d.shape = d'.shape),
      g.gradient axis order = .ok d ∧ g'.gradient axis order = .ok d' ∧
      (zipWith (fun x y => a * x + b * y) g g' hshape).gradient axis order =
        .ok (zipWith (fun x y => a * x + b * y) d d' hderivatives) := by
  have h' : order.least ≤ g'.length axis := length_eq hshape axis ▸ h
  have hsum : order.least ≤ (zipWith (fun x y => a * x + b * y) g g' hshape).length axis :=
    h.trans_eq (length_eq (shape_zipWith _ g g' hshape) axis).symm
  have hderivatives : (g.derivative axis order h).shape = (g'.derivative axis order h').shape :=
    ((g.shape_derivative axis order h).trans hshape).trans (g'.shape_derivative axis order h').symm
  refine ⟨_, _, hderivatives, gradient_eq_ok h, gradient_eq_ok h', ?_⟩
  rw [gradient_eq_ok hsum, derivative_linear a b hshape rfl h h' hsum rfl rfl hderivatives]

variable [NeZero (2 : K)]

theorem gradient_eq_zero_iff (h : order.least ≤ g.length axis) :
    g.gradient axis order = .ok (g.map fun _ => 0) ↔ g.ConstantAlong axis := by
  rw [gradient_eq_ok h, Except.ok.injEq]
  exact derivative_eq_zero_iff h

theorem gradient_eq_iff (h : order.least ≤ g.length axis) (hshape : g.shape = g'.shape) :
    g.gradient axis order = g'.gradient axis order ↔
      (zipWith (fun x y => x - y) g g' hshape).ConstantAlong axis := by
  have hsub : (fun x y : K => x - y) = fun x y => 1 * x + -1 * y := by
    funext x y
    rw [one_mul, neg_one_mul, sub_eq_add_neg]
  have hlong : order.least ≤ (zipWith (fun x y => x - y) g g' hshape).length axis :=
    h.trans_eq (length_eq (shape_zipWith _ g g' hshape) axis).symm
  obtain ⟨d, d', hderivatives, hd, hd', hdifference⟩ := gradient_linear h hshape 1 (-1)
  rw [← hsub] at hdifference
  have hsides : d.shape = g.shape := by
    rw [gradient_eq_ok h] at hd
    exact Except.ok.inj hd ▸ g.shape_derivative axis order h
  calc g.gradient axis order = g'.gradient axis order
      ↔ d = d' := by rw [hd, hd', Except.ok.injEq]
    _ ↔ zipWith (fun x y => x - y) d d' hderivatives = d.map fun _ => 0 :=
      (zipWith_sub_eq_zero_iff hderivatives).symm
    _ ↔ (zipWith (fun x y => x - y) g g' hshape).gradient axis order =
        .ok ((zipWith (fun x y => x - y) g g' hshape).map fun _ => 0) := by
      rw [hdifference, Except.ok.injEq,
        map_const_eq (hsides.trans (shape_zipWith _ g g' hshape).symm)]
    _ ↔ (zipWith (fun x y => x - y) g g' hshape).ConstantAlong axis := gradient_eq_zero_iff hlong

/-- A checkerboard laid over a field shows in its gradient. -/
theorem gradient_add_checkerboard_ne (h : order.least ≤ g.length axis) {c : K} (hc : c ≠ 0)
    (hlanes : 0 < g.lanes axis) (hshape : g.shape = (checkerboard g.rows g.cols c).shape) :
    (zipWith (fun x y => x + y) g (checkerboard g.rows g.cols c) hshape).gradient axis order ≠
      g.gradient axis order := by
  intro heq
  have hsides := shape_zipWith (fun x y : K => x + y) g (checkerboard g.rows g.cols c) hshape
  have hoverlaid := zipWith_eq_ofFn (fun x y => x + y) hshape g.ofFn_get.symm rfl
  have hdifference := zipWith_eq_ofFn (fun x y => x - y) hsides hoverlaid g.ofFn_get.symm
  simp only [add_sub_cancel_left] at hdifference
  have hconst := (gradient_eq_iff (h.trans_eq (length_eq hsides axis).symm) hsides).mp heq
  rw [hdifference] at hconst
  have htwo : 2 ≤ order.least := by cases order <;> decide
  exact not_constantAlong_checkerboard hc hlanes (htwo.trans h) hconst

end Gradient

end Grid

/-- The gradient along an axis is linear, and what it loses of a field is what is constant along
every lane: it vanishes for such fields only, and two fields have the same gradient exactly if
their difference is such a field. A pattern that alternates from sample to sample always shows. -/
theorem gradient_loses_only_constants {K : Type} [DivisionRing K] [NeZero (2 : K)] (g : Grid K)
    (axis : Axis) (order : EdgeOrder) (h : order.least ≤ g.length axis) :
    (∀ (g' : Grid K) (hshape : g.shape = g'.shape) (a b : K),
      ∃ (d d' : Grid K) (hderivatives : d.shape = d'.shape),
        g.gradient axis order = .ok d ∧ g'.gradient axis order = .ok d' ∧
        (Grid.zipWith (fun x y => a * x + b * y) g g' hshape).gradient axis order =
          .ok (.zipWith (fun x y => a * x + b * y) d d' hderivatives)) ∧
    (g.gradient axis order = .ok (g.map fun _ => 0) ↔ g.ConstantAlong axis) ∧
    (∀ (g' : Grid K) (hshape : g.shape = g'.shape),
      g.gradient axis order = g'.gradient axis order ↔
        (Grid.zipWith (fun x y => x - y) g g' hshape).ConstantAlong axis) ∧
    ∀ c : K, c ≠ 0 → 0 < g.lanes axis →
      (Grid.zipWith (fun x y => x + y) g (.checkerboard g.rows g.cols c) rfl).gradient axis order ≠
        g.gradient axis order := by
  refine ⟨?_, Grid.gradient_eq_zero_iff h, ?_, ?_⟩
  · intro g' hshape a b
    exact Grid.gradient_linear h hshape a b
  · intro g' hshape
    exact Grid.gradient_eq_iff h hshape
  · intro c hc hlanes
    exact Grid.gradient_add_checkerboard_ne h hc hlanes rfl

/-- One row that alternates, with edges of the second order and only one place inside. -/
def zigzag : Grid ℚ := .ofFn 1 3 fun _ j => 5 + (-1) ^ j.val

theorem gradient_loses_only_constants_zigzag :
    EdgeOrder.second.least ≤ zigzag.length .cols ∧
      zigzag.gradient .cols .second ≠ .ok (zigzag.map fun _ => 0) := by
  have hlong : EdgeOrder.second.least ≤ zigzag.length .cols := by decide
  refine ⟨hlong, fun hzero => ?_⟩
  have hlosses := gradient_loses_only_constants zigzag .cols .second hlong
  obtain ⟨c, hc⟩ := hlosses.2.1.mp hzero 0 (by decide)
  have hfirst : some (5 + (-1) ^ 0 : ℚ) = some c := hc 0 (by decide)
  have hsecond : some (5 + (-1) ^ 1 : ℚ) = some c := hc 1 (by decide)
  have hequal := Option.some.inj (hfirst.trans hsecond.symm)
  norm_num at hequal

end CenterOfMass
