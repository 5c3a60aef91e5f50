import CenterOfMass.Proofs.Image.Stretch

namespace CenterOfMass

/-- What it asks of an arithmetic that the logarithms of distances can be stretched. -/
structure StretchesLogarithms (R : Type) [Add R] [Sub R] [Div R] [NatCast R] [LE R] [LT R]
    [Extended R] [Elementary R] : Prop extends Stretches R where
  add_one_le_add_one {a b : R} : a ≤ b → a + Nat.cast 1 ≤ b + Nat.cast 1
  zero_add_one : (Nat.cast 0 + Nat.cast 1 : R) = Nat.cast 1
  isFinite_add_one (a : R) : Extended.isFinite (a + Nat.cast 1) = Extended.isFinite a
  isFinite_of_sub {a b : R} : Extended.isFinite (a - b) = true → Extended.isFinite a = true
  log_le_log {a b : R} : Nat.cast 1 ≤ a → a ≤ b → Elementary.log a ≤ Elementary.log b
  log_one : Elementary.log (Nat.cast 1 : R) = Nat.cast 0
  isFinite_log {a : R} : Nat.cast 1 ≤ a → Extended.isFinite a = true →
    Extended.isFinite (Elementary.log a) = true
  isFinite_of_log {a : R} : Extended.isFinite (Elementary.log a) = true →
    Extended.isFinite a = true

section Scaling

variable {R : Type} [Scalar R]

/-- The place that the values of a table are drawn at. -/
def drawnPlace (logarithmic : Bool) (values : Array R) (v : R) : R :=
  let range := colorRange (scaledValues logarithmic values)
  position range.1 range.2 (scaledValue logarithmic (colorRange values).1 v)

theorem visualize_eq_stretchedImage (map : Colormap) (logarithmic : Bool) {values : Array R}
    {width height : Nat} (hsize : values.size = width * height)
    (hmemory : 8 * values.size < Word.memoryLimit) :
    visualize map logarithmic values width height =
      .ok (stretchedImage map values.toList (drawnPlace logarithmic values) width height) := by
  have hlist : (scaledValues logarithmic values).toList =
      values.toList.map (scaledValue logarithmic (colorRange values).1) := by
    rw [scaledValues_eq_map, Array.toList_map]
  rw [visualize_eq_ok map logarithmic hsize (by omega)]
  unfold stretchedImage drawnPlace
  generalize colorRange (scaledValues logarithmic values) = range
  rw [colorBytes, hlist, List.flatMap_map]

variable (laws : StretchesLogarithms R) {least a b v : R}

namespace StretchesLogarithms

include laws

theorem one_le (hleast : Extended.isFinite least = true) (h : least ≤ v) :
    Nat.cast 1 ≤ v - least + Nat.cast 1 := by
  have hdistance := laws.sub_le_sub hleast h
  rw [laws.sub_self hleast] at hdistance
  have hsum := laws.add_one_le_add_one hdistance
  rwa [laws.zero_add_one] at hsum

theorem scaledValue_le (hleast : Extended.isFinite least = true) (ha : least ≤ a) (hab : a ≤ b) :
    scaledValue true least a ≤ scaledValue true least b :=
  laws.log_le_log (laws.one_le hleast ha)
    (laws.add_one_le_add_one (laws.sub_le_sub hleast hab))

theorem scaledValue_self (hleast : Extended.isFinite least = true) :
    scaledValue true least least = Nat.cast 0 := by
  have hone : least - least + Nat.cast 1 = Nat.cast 1 := by
    rw [laws.sub_self hleast, laws.zero_add_one]
  exact (congrArg Elementary.log hone).trans laws.log_one

theorem isFinite_of_scaledValue (h : Extended.isFinite (scaledValue true least v) = true) :
    Extended.isFinite (v - least) = true :=
  laws.isFinite_add_one (v - least) ▸ laws.isFinite_of_log h

theorem isFinite_scaledValue (hleast : Extended.isFinite least = true) (hv : least ≤ v)
    (h : Extended.isFinite (v - least) = true) :
    Extended.isFinite (scaledValue true least v) = true :=
  laws.isFinite_log (laws.one_le hleast hv) ((laws.isFinite_add_one _).trans h)

end StretchesLogarithms

end Scaling

/-- The values of a table lie from zero to one, the least of the finite ones at zero. Finite values
lie as they lie in the table, as far as their distance from the least one is finite; those too far
away lie at zero. -/
structure StretchedByLogarithm {R : Type} [Scalar R] (value : R → Prop) (least : R)
    (place : R → R) : Prop where
  isNaN_eq : ∀ v, value v → Extended.isNaN (place v) = false
  zero_le : ∀ v, value v → Nat.cast 0 ≤ place v
  le_one : ∀ v, value v → place v ≤ Nat.cast 1
  least_le_zero : ∀ v, IsExtreme (· < ·) (fun v => Extended.isFinite v = true ∧ value v) v →
    place v ≤ Nat.cast 0
  mono : ∀ a b, value a → value b → Extended.isFinite a = true → Extended.isFinite b = true →
    Extended.isFinite (b - least) = true → a ≤ b → place a ≤ place b
  too_far : ∀ v, Extended.isFinite (v - least) = false → place v = Nat.cast 0

section Logarithm

variable {R : Type} [Scalar R] {values : Array R} {a b v w : R}

theorem mem_scaledValues_iff : w ∈ (scaledValues true values).toList ↔
    ∃ v ∈ values.toList, scaledValue true (colorRange values).1 v = w := by
  rw [scaledValues_eq_map, Array.toList_map, List.mem_map]

namespace StretchesLogarithms

variable (laws : StretchesLogarithms R)

include laws

theorem isFinite_least (values : Array R) : Extended.isFinite (colorRange values).1 = true :=
  (laws.isFinite_of_isRange (isRange_colorRange laws.ordersFinite values)).1

theorem least_le (hfinite : Extended.isFinite v = true) (hv : v ∈ values.toList) :
    (colorRange values).1 ≤ v :=
  (laws.bounds_of_isRange (isRange_colorRange laws.ordersFinite values) hfinite hv).1

theorem stretched_scaledValues (values : Array R) :
    let range := colorRange (scaledValues true values)
    Stretched (· ∈ (scaledValues true values).toList) range.1 range.2
      (position range.1 range.2) :=
  laws.stretched_position (isRange_colorRange laws.ordersFinite _)

theorem drawnPlace_le_drawnPlace (ha : a ∈ values.toList) (hb : b ∈ values.toList)
    (hafinite : Extended.isFinite a = true) (hbfinite : Extended.isFinite b = true)
    (hdistance : Extended.isFinite (b - (colorRange values).1) = true) (hab : a ≤ b) :
    drawnPlace true values a ≤ drawnPlace true values b := by
  have hleast := laws.isFinite_least values
  have hla := laws.least_le hafinite ha
  have hlb := laws.least_le hbfinite hb
  have hbelow := laws.sub_le_sub hleast hla
  rw [laws.sub_self hleast] at hbelow
  have hnear := laws.isFinite_of_le laws.isFinite_zero hdistance hbelow
    (laws.sub_le_sub hleast hab)
  exact (laws.stretched_scaledValues values).mono _ _ (mem_scaledValues_iff.mpr ⟨a, ha, rfl⟩)
    (mem_scaledValues_iff.mpr ⟨b, hb, rfl⟩) (laws.isFinite_scaledValue hleast hla hnear)
    (laws.isFinite_scaledValue hleast hlb hdistance) (laws.scaledValue_le hleast hla hab)

/-- No logarithm of a distance is below that of one. -/
theorem zero_le_of_mem_scaledValues (hw : w ∈ (scaledValues true values).toList)
    (hfinite : Extended.isFinite w = true) : Nat.cast 0 ≤ w := by
  obtain ⟨v, hv, rfl⟩ := mem_scaledValues_iff.mp hw
  have hleast := laws.isFinite_least values
  have hvfinite := laws.isFinite_of_sub (laws.isFinite_of_scaledValue hfinite)
  have hle := laws.scaledValue_le hleast (laws.le_refl (laws.isNaN_of_isFinite hleast))
    (laws.least_le hvfinite hv)
  rwa [laws.scaledValue_self hleast] at hle

theorem drawnPlace_least_le (hmem : (colorRange values).1 ∈ values.toList) :
    drawnPlace true values (colorRange values).1 ≤ Nat.cast 0 := by
  have hstretched := laws.stretched_scaledValues values
  have hlisted := mem_scaledValues_iff.mpr ⟨_, hmem, rfl⟩
  have hzero := laws.isFinite_zero
  unfold drawnPlace
  rw [laws.scaledValue_self (laws.isFinite_least values)] at hlisted ⊢
  by_cases hspreads : Spreads (colorRange (scaledValues true values)).1
      (colorRange (scaledValues true values)).2
  · rcases isRange_colorRange laws.ordersFinite (scaledValues true values) with
      ⟨hnone, -, -⟩ | ⟨⟨⟨hlow, hlowlisted⟩, -⟩, -⟩
    · exact absurd ⟨hzero, hlisted⟩ (hnone _)
    · have hle := hstretched.mono _ _ hlisted hlowlisted hzero hlow
        (laws.zero_le_of_mem_scaledValues hlowlisted hlow)
      rwa [hstretched.least hspreads] at hle
  · have hflat := hstretched.flat hspreads (Nat.cast 0)
    rw [hflat]
    exact laws.le_refl (laws.isNaN_of_isFinite hzero)

theorem stretchedByLogarithm (values : Array R) :
    StretchedByLogarithm (· ∈ values.toList) (colorRange values).1 (drawnPlace true values) := by
  have hleast := laws.isFinite_least values
  have hstretched := laws.stretched_scaledValues values
  have hmem {v : R} (hv : v ∈ values.toList) := mem_scaledValues_iff.mpr ⟨v, hv, rfl⟩
  refine ⟨fun v hv => hstretched.isNaN_eq _ (hmem hv), fun v hv => hstretched.zero_le _ (hmem hv),
    fun v hv => hstretched.le_one _ (hmem hv), ?_,
    fun a b => laws.drawnPlace_le_drawnPlace, ?_⟩
  · rintro v ⟨⟨hfinite, hv⟩, hextreme⟩
    rcases isRange_colorRange laws.ordersFinite values with ⟨hnone, -, -⟩ | ⟨⟨⟨-, hlisted⟩, -⟩, -⟩
    · exact absurd ⟨hfinite, hv⟩ (hnone v)
    · have hself : Extended.isFinite ((colorRange values).1 - (colorRange values).1) = true := by
        rw [laws.sub_self hleast]
        exact laws.isFinite_zero
      have hle : v ≤ (colorRange values).1 := laws.le_of_not_lt (laws.isNaN_of_isFinite hleast)
        (laws.isNaN_of_isFinite hfinite) (hextreme _ ⟨hleast, hlisted⟩)
      exact laws.le_trans (laws.drawnPlace_le_drawnPlace hv hlisted hfinite hleast hself hle)
        (laws.drawnPlace_least_le hlisted)
  · intro v hv
    refine hstretched.not_finite _ (Bool.eq_false_iff.mpr fun hfinite => ?_)
    exact absurd (laws.isFinite_of_scaledValue hfinite) (Bool.eq_false_iff.mp hv)

end StretchesLogarithms

end Logarithm

/-- What is assumed of the logarithm of doubles. -/
structure IsLogarithm (log : Float → Float) : Prop where
  mono {a b : Float} : Nat.cast 0 ≤ a → a ≤ b → log a ≤ log b
  one : log (Nat.cast 1) = Nat.cast 0
  infinity : log Extended.infinity = Extended.infinity
  isFinite {a : Float} : Nat.cast 1 ≤ a → a.isFinite = true → (log a).isFinite = true
  isNaN_of_not_le {a : Float} : ¬ Nat.cast 0 ≤ a → (log a).isNaN = true

/-- Doubles with a logarithm of choice. -/
@[reducible] def elementaryWith (log : Float → Float) : Elementary Float :=
  { (inferInstance : Elementary Float) with log := log }

namespace IsLogarithm

variable {log : Float → Float} (h : IsLogarithm log)

include h

theorem isFinite_of_log {a : Float} (hlog : (log a).isFinite = true) : a.isFinite = true := by
  have hnumber := number_eq_finite hlog
  by_cases hle : Nat.cast 0 ≤ a
  · by_contra hinfinite
    rw [double_le_iff_number, number_zero] at hle
    have hkind : Extended.isFinite (number a) = false :=
      (isFinite_eq_number a).symm.trans (Bool.eq_false_iff.mpr hinfinite)
    have hunlimited := Exact.eq_infinite_of_le hle hkind
    have hbeyond : (Extended.infinity : Float) ≤ a := by
      rw [double_le_iff_number, hunlimited]
      rfl
    have hlarge := h.mono (by decide) hbeyond
    rw [h.infinity, double_le_iff_number, hnumber] at hlarge
    cases hlarge
  · have hnumber : (log a).isNaN = false := ordersNumbers_double.isNaN_of_isFinite hlog
    exact absurd (h.isNaN_of_not_le hle) (Bool.eq_false_iff.mp hnumber)

theorem stretchesLogarithms :
    letI := elementaryWith log
    StretchesLogarithms Float :=
  letI := elementaryWith log
  { toStretches := stretches_double
    add_one_le_add_one := fun {a b} hab => by
      rw [double_le_iff_number] at hab ⊢
      rw [number_add, number_add, number_one]
      exact Exact.rounded_mono (Exact.add_le_add hab 1)
    zero_add_one := by decide
    isFinite_add_one := double_isFinite_add_one
    isFinite_of_sub := isFinite_of_sub
    log_le_log := fun hone hab =>
      h.mono (ordersNumbers_double.le_trans stretches_double.zero_le_one hone) hab
    log_one := h.one
    isFinite_log := h.isFinite
    isFinite_of_log := h.isFinite_of_log }

end IsLogarithm

@[reducible] def doublesWith (log : Float → Float) : Scalar Float :=
  { (inferInstance : Scalar Float) with toElementary := elementaryWith log }

/-- With logarithms a table of any values is drawn, and each value in the color of a place from zero
to one. The order is kept among the finite values whose distance from the least one is finite. -/
theorem visualize_logarithmic {log : Float → Float} (hlog : IsLogarithm log) (map : Colormap)
    {values : Array Float} {width height : Nat} (hsize : values.size = width * height)
    (hmemory : 8 * values.size < Word.memoryLimit) :
    letI := doublesWith log
    ∃ least greatest : Float,
      IsRange (fun v => Extended.isFinite v = true ∧ v ∈ values.toList) least greatest ∧
      StretchedByLogarithm (· ∈ values.toList) least (drawnPlace true values) ∧
      visualize map true values width height =
        .ok (stretchedImage map values.toList (drawnPlace true values) width height) := by
  let _ := doublesWith log
  have laws := hlog.stretchesLogarithms
  exact ⟨_, _, isRange_colorRange laws.ordersFinite values, laws.stretchedByLogarithm values,
    visualize_eq_stretchedImage map true hsize hmemory⟩

/-- As coarse as a logarithm can be that has its true value at the greatest number of
`wideTable`. -/
def stepLogarithm (x : Float) : Float :=
  if Nat.cast 0 ≤ x then
    if x ≤ Nat.cast 1 then Nat.cast 0
    else if x.isFinite then 709.7268368932282 else Extended.infinity
  else 0.0 / 0.0

theorem isLogarithm_stepLogarithm : IsLogarithm stepLogarithm where
  mono {a b} ha hab := by
    have hb := ordersNumbers_double.le_trans ha hab
    unfold stepLogarithm
    rw [if_pos ha, if_pos hb]
    by_cases hone : a ≤ Nat.cast 1
    · rw [if_pos hone]
      split_ifs <;> decide
    · have hfar : ¬ b ≤ Nat.cast 1 := fun h => hone (ordersNumbers_double.le_trans hab h)
      have hfinite : b.isFinite = true → a.isFinite = true := fun h =>
        ordersNumbers_double.isFinite_of_le stretches_double.isFinite_zero h ha hab
      rw [if_neg hone, if_neg hfar]
      split_ifs with ha hb hb
      · decide
      · decide
      · exact absurd (hfinite hb) ha
      · decide
  one := by decide
  infinity := by decide
  isFinite {a} hone ha := by
    have hzero := ordersNumbers_double.le_trans stretches_double.zero_le_one hone
    unfold stepLogarithm
    rw [if_pos hzero]
    split_ifs <;> decide
  isNaN_of_not_le {a} h := by
    unfold stepLogarithm
    rw [if_neg h]
    decide

/-- A table whose ends lie further apart than doubles reach. -/
def wideTable : Array Float := #[-1.7e308, 0.0, 1.7e308]

theorem visualize_logarithmic_wideTable :
    letI := doublesWith stepLogarithm
    IsLogarithm stepLogarithm ∧ wideTable.size = 3 * 1 ∧ 8 * wideTable.size < Word.memoryLimit ∧
    ∃ least greatest : Float,
      IsRange (fun v => Extended.isFinite v = true ∧ v ∈ wideTable.toList) least greatest ∧
      StretchedByLogarithm (· ∈ wideTable.toList) least (drawnPlace true wideTable) ∧
      visualize .greys true wideTable 3 1 =
        .ok (stretchedImage .greys wideTable.toList (drawnPlace true wideTable) 3 1) :=
  ⟨isLogarithm_stepLogarithm, rfl, by decide,
    visualize_logarithmic isLogarithm_stepLogarithm .greys rfl (by decide)⟩

/-- The greatest value of a table may lie at the end where the least one lies. -/
theorem drawnPlace_wideTable :
    letI := doublesWith stepLogarithm
    IsLogarithm stepLogarithm ∧
    visualize .greys true wideTable 3 1 =
      .ok (stretchedImage .greys wideTable.toList (drawnPlace true wideTable) 3 1) ∧
    (0.0 : Float) ∈ wideTable.toList ∧ (1.7e308 : Float) ∈ wideTable.toList ∧
    (0.0 : Float) ≤ 1.7e308 ∧ Float.isFinite 1.7e308 = true ∧
    drawnPlace true wideTable 0.0 = 1.0 ∧ drawnPlace true wideTable 1.7e308 = 0.0 := by
  let _ := doublesWith stepLogarithm
  refine ⟨isLogarithm_stepLogarithm, visualize_eq_stretchedImage .greys true rfl (by decide),
    ?_, ?_, ?_, ?_, ?_, ?_⟩
  · simp [wideTable]
  · simp [wideTable]
  all_goals decide +kernel


end CenterOfMass
