import CenterOfMass.Image.Wheel
import CenterOfMass.Proofs.Grid
import CenterOfMass.Proofs.Image.Render
import CenterOfMass.Proofs.Numeric.DoubleExact

namespace CenterOfMass

variable {R : Type} [Scalar R]

/-- A direction in which the numbers of an arithmetic lie beyond one another. Finite numbers leave
no gap: two that lie apart cannot both be beside a third. -/
structure OrdersFinite (beyond : R → R → Prop) : Prop where
  asymm : ∀ a b, beyond a b → ¬ beyond b a
  split : ∀ a b c, Extended.isFinite c = true → beyond a b → beyond a c ∨ beyond c b

theorem OrdersNumbers.ordersFinite (order : OrdersNumbers R) : OrdersFinite (R := R) (· < ·) where
  asymm _ _ := order.lt_asymm
  split _ _ _ hc := order.lt_or_lt (order.isNaN_of_isFinite hc)

theorem ordersFinite_double : OrdersFinite (R := Float) (· < ·) := ordersNumbers_double.ordersFinite

/-- A value that no other value lies beyond. -/
def IsExtreme (beyond : R → R → Prop) (value : R → Prop) (bound : R) : Prop :=
  value bound ∧ ∀ v, value v → ¬ beyond v bound

/-- A choice between two numbers that takes one beyond which neither of them lies. -/
structure Chooses (beyond : R → R → Prop) (choose : R → R → R) : Prop where
  eq_or_eq : ∀ a b, choose a b = a ∨ choose a b = b
  not_beyond_left : ∀ a b, ¬ beyond a (choose a b)
  not_beyond_right : ∀ a b, ¬ beyond b (choose a b)

namespace OrdersFinite

variable {beyond : R → R → Prop} (order : OrdersFinite beyond)

include order

theorem irrefl (a : R) : ¬ beyond a a := fun h => order.asymm a a h h

theorem swap : OrdersFinite (fun a b => beyond b a) where
  asymm a b h := order.asymm b a h
  split a b c hc h := (order.split b a c hc h).symm

theorem isExtreme_singleton (v : R) : IsExtreme beyond (· ∈ [v]) v := by
  refine ⟨List.mem_singleton_self v, ?_⟩
  intro u hu
  rw [List.mem_singleton.mp hu]
  exact order.irrefl v

/-- Keeping the first of two numbers only when the second lies beyond it. -/
theorem chooses_keep [DecidableRel beyond] :
    Chooses beyond fun a b => if beyond a b then a else b where
  eq_or_eq a b := by
    by_cases h : beyond a b <;> simp [h]
  not_beyond_left a b := by
    by_cases h : beyond a b
    · simpa [h] using order.irrefl a
    · simp [h]
  not_beyond_right a b := by
    by_cases h : beyond a b
    · simpa [h] using order.asymm a b h
    · simpa [h] using order.irrefl b

/-- Leaving the first of two numbers only for one beyond it. -/
theorem chooses_leave [DecidableRel beyond] :
    Chooses beyond fun a b => if beyond b a then b else a where
  eq_or_eq a b := by
    by_cases h : beyond b a <;> simp [h]
  not_beyond_left a b := by
    by_cases h : beyond b a
    · simpa [h] using order.asymm b a h
    · simpa [h] using order.irrefl a
  not_beyond_right a b := by
    by_cases h : beyond b a
    · simpa [h] using order.irrefl b
    · simp [h]

variable {choose : R → R → R} (chooses : Chooses beyond choose)

include chooses

theorem isExtreme_choose {seen : List R} {bound : R} (hbound : Extended.isFinite bound = true)
    (h : IsExtreme beyond (· ∈ seen) bound) (v : R) :
    IsExtreme beyond (· ∈ seen ++ [v]) (choose bound v) := by
  constructor
  · rcases chooses.eq_or_eq bound v with heq | heq <;> simp [heq, h.1]
  · intro u hu hbeyond
    rcases List.mem_append.mp hu with hu | hu
    · -- a number beyond the new bound is beyond the old one, or the old one is beyond the new
      rcases order.split u _ bound hbound hbeyond with hold | hnew
      · exact h.2 u hu hold
      · exact chooses.not_beyond_left bound v hnew
    · obtain rfl := List.mem_singleton.mp hu
      exact chooses.not_beyond_right bound u hbeyond

/-- One choice after the other ends with an extreme value of all that were seen. -/
theorem isExtreme_foldl {seen values : List R} {bound : R}
    (hbound : Extended.isFinite bound = true)
    (hvalues : ∀ v ∈ values, Extended.isFinite v = true)
    (h : IsExtreme beyond (· ∈ seen) bound) :
    IsExtreme beyond (· ∈ seen ++ values) (values.foldl choose bound) := by
  induction values generalizing seen bound with
  | nil => simpa using h
  | cons v vs ih =>
    obtain ⟨hv, hvs⟩ := List.forall_mem_cons.mp hvalues
    have hnext : Extended.isFinite (choose bound v) = true := by
      rcases chooses.eq_or_eq bound v with heq | heq
      · rwa [heq]
      · rwa [heq]
    have hall := ih hnext hvs (isExtreme_choose order chooses hbound h v)
    rwa [List.append_assoc] at hall

end OrdersFinite

/-- The bounds of the values that there are; both are zero where there is none. -/
def IsRange (value : R → Prop) (low high : R) : Prop :=
  (∀ v, ¬ value v) ∧ low = Nat.cast 0 ∧ high = Nat.cast 0 ∨
    IsExtreme (· < ·) value low ∧ IsExtreme (· > ·) value high

theorem foldl_widenRange (values : List R) (low high : R) :
    values.foldl widenRange (some (low, high)) =
      some (values.foldl (fun low v => if low < v then low else v) low,
        values.foldl (fun high v => if v < high then high else v) high) := by
  induction values generalizing low high with
  | nil => rfl
  | cons v vs ih => exact ih _ _

theorem isRange_colorRange (order : OrdersFinite (R := R) (· < ·)) (values : Array R) :
    IsRange (fun v => Extended.isFinite v = true ∧ v ∈ values.toList)
      (colorRange values).1 (colorRange values).2 := by
  have hvalue : (fun v => Extended.isFinite v = true ∧ v ∈ values.toList) =
      (· ∈ values.toList.filter Extended.isFinite) := by
    funext v
    rw [List.mem_filter, and_comm]
  have hfinite : ∀ v ∈ values.toList.filter Extended.isFinite, Extended.isFinite v = true := by
    intro v hv
    exact (List.mem_filter.mp hv).2
  rw [hvalue]
  unfold colorRange finiteRange
  cases hfilter : values.toList.filter Extended.isFinite with
  | nil => exact .inl ⟨fun v => List.not_mem_nil, rfl, rfl⟩
  | cons v vs =>
    rw [hfilter] at hfinite
    obtain ⟨hv, hvs⟩ := List.forall_mem_cons.mp hfinite
    have hrange : vs.foldl widenRange (widenRange none v) = _ := foldl_widenRange vs v v
    rw [List.foldl_cons, hrange, Option.getD_some]
    refine .inr ⟨?_, ?_⟩
    · exact order.isExtreme_foldl order.chooses_keep hv hvs (order.isExtreme_singleton v)
    · exact order.swap.isExtreme_foldl order.swap.chooses_keep hv hvs
        (order.swap.isExtreme_singleton v)

theorem isExtreme_longest (order : OrdersFinite (R := R) (· < ·))
    (hzero : Extended.isFinite (Nat.cast 0 : R) = true) (y x : Array R) :
    IsExtreme (· > ·) (fun m => m = Nat.cast 0 ∨ Extended.isFinite m = true ∧
      m ∈ List.zipWith Elementary.hypot y.toList x.toList) (Wheel.longest y x) := by
  have hvalue : (fun m : R => m = Nat.cast 0 ∨ Extended.isFinite m = true ∧
      m ∈ List.zipWith Elementary.hypot y.toList x.toList) =
      (· ∈ [Nat.cast 0] ++
        (List.zipWith Elementary.hypot y.toList x.toList).filter Extended.isFinite) := by
    funext m
    rw [List.mem_append, List.mem_singleton, List.mem_filter, and_comm]
  rw [hvalue]
  apply order.swap.isExtreme_foldl order.swap.chooses_leave hzero
  · intro m hm
    exact (List.mem_filter.mp hm).2
  · exact order.swap.isExtreme_singleton _

theorem isFinite_longest (order : OrdersFinite (R := R) (· < ·))
    (hzero : Extended.isFinite (Nat.cast 0 : R) = true) (y x : Array R) :
    Extended.isFinite (Wheel.longest y x) = true := by
  rcases (isExtreme_longest order hzero y x).1 with hlongest | ⟨hfinite, -⟩
  · rwa [hlongest]
  · exact hfinite

/-- A value as it is drawn, next to the least of the finite values of its table. -/
def scaledValue (logarithmic : Bool) (least v : R) : R :=
  if logarithmic then Elementary.log (v - least + Nat.cast 1) else v

theorem scaledValues_eq_map (logarithmic : Bool) (values : Array R) :
    scaledValues logarithmic values =
      values.map (scaledValue logarithmic (colorRange values).1) := by
  have hleast : ((finiteRange values.toList).map (·.1)).getD (Nat.cast 0) =
      (colorRange values).1 := by
    unfold colorRange
    cases finiteRange values.toList <;> rfl
  unfold scaledValues
  cases logarithmic with
  | false =>
    have hid : scaledValue false (colorRange values).1 = id := rfl
    rw [hid, Array.map_id]
    rfl
  | true =>
    rw [if_pos rfl, hleast]
    rfl

end CenterOfMass
