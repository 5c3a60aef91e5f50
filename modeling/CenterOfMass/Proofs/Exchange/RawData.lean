import CenterOfMass.Export
import CenterOfMass.Proofs.Json.Compact

namespace CenterOfMass

open Extended

section Bytes

theorem toList_loop_eq (bytes : ByteArray) (i : Nat) (done : List UInt8) :
    ByteArray.toList.loop bytes i done = done.reverse ++ bytes.data.toList.drop i := by
  fun_induction ByteArray.toList.loop bytes i done with
  | case1 i done hi ih =>
    have hlength : i < bytes.data.toList.length := hi
    have hget : bytes.get! i = bytes.data.toList[i] := getElem!_pos bytes.data i hi
    rw [ih, List.drop_eq_getElem_cons hlength, hget, List.reverse_cons, List.append_assoc]
    rfl
  | case2 i done hi =>
    have hlength : bytes.data.toList.length ≤ i := Nat.le_of_not_lt hi
    rw [List.drop_eq_nil_of_le hlength, List.append_nil]

/-- A text is what its bytes are read as. -/
theorem fromUTF8?_utf8Bytes (s : String) : String.fromUTF8? ⟨(utf8Bytes s).toArray⟩ = some s := by
  have hbytes : (⟨(utf8Bytes s).toArray⟩ : ByteArray) = s.toByteArray := by
    apply ByteArray.ext
    rw [utf8Bytes, ByteArray.toList, toList_loop_eq]
    rfl
  rw [hbytes, String.fromUTF8?, dif_pos s.isValidUTF8]
  rfl

end Bytes

namespace Json

variable {number? : String → Option Float}

/-- A whole number without a sign. -/
def natural? : Json String → Option Nat
  | .real word =>
    if word.toList.all Char.isDigit then some (Decimal.natOfDigits word.toList) else none
  | _ => none

/-- A number, or none if null stands in its place. -/
def cell? (number? : String → Option Float) : Json String → Option (Option Float)
  | .null => some none
  | .real word => (number? word).map some
  | _ => none

theorem natural?_spelled (n : Nat) : (natural n).spelled.natural? = some n := by
  have hdigits : (toString n).toList = Nat.toDigits 10 n := by
    rw [Nat.toString_eq_ofList_toDigits, String.toList_ofList]
  have hall : (Nat.toDigits 10 n).all Char.isDigit = true := by
    rw [List.all_eq_true]
    intro c hc
    exact Nat.isDigit_of_mem_toDigits (by decide) (by decide) hc
  have hvalue : Decimal.natOfDigits (Nat.toDigits 10 n) = n := Nat.ofDigitChars_ten_toDigits
  rw [spelled, natural?, hdigits, if_pos hall, hvalue]

theorem ofNumber_eq_ofOption {R : Type} [Extended R] (x : R) :
    ofNumber x = .ofOption .real ((some x).filter isFinite) := by
  unfold ofNumber
  cases h : isFinite x with
  | true => rw [Option.filter_some_pos h]; rfl
  | false => rw [Option.filter_some_neg (by simp [h])]; rfl

theorem cell?_ofNumber {x : Float}
    (h : isFinite x = true → number? (Decimal.jsonText x) = some x) :
    cell? number? (ofNumber x).spelled = some ((some x).filter isFinite) := by
  rw [ofNumber_eq_ofOption]
  cases hx : isFinite x with
  | true =>
    rw [Option.filter_some_pos hx]
    simp only [ofOption, spelled, cell?, h hx, Option.map_some]
  | false =>
    rw [Option.filter_some_neg (by simp [hx])]
    rfl

theorem mapM_cell?_ofNumber {xs : List Float}
    (h : ∀ x ∈ xs, isFinite x = true → number? (Decimal.jsonText x) = some x) :
    (spelledItems (xs.map ofNumber)).mapM (cell? number?) =
      some (xs.map fun x => (some x).filter isFinite) := by
  induction xs with
  | nil => rfl
  | cons x xs ih =>
    obtain ⟨hx, hxs⟩ := List.forall_mem_cons.mp h
    rw [List.map_cons, spelledItems, List.mapM_cons, cell?_ofNumber hx, ih hxs]
    rfl

end Json

namespace Grid

variable {number? : String → Option Float} {g a b : Grid Float}

/-- A table with its values that are finite; the others are missing. -/
def finite (g : Grid Float) : Grid (Option Float) := g.map fun x => (some x).filter isFinite

/-- The sides and the values of a table, in whatever order its members come. -/
def ofJson? (number? : String → Option Float) : Json String → Option (Grid (Option Float))
  | .object members => do
    let version ← members.lookup "v"
    let dim ← members.lookup "dim"
    let data ← members.lookup "data"
    match dim, data with
    | .array [rows, cols], .array cells =>
      if version.natural? ≠ some 1 then none
      else ofCells? (← rows.natural?) (← cols.natural?) (← cells.mapM (Json.cell? number?)).toArray
    | _, _ => none
  | _ => none

/-- The numbers of a table are read from their texts as what they are. -/
def ReadBack (number? : String → Option Float) (g : Grid Float) : Prop :=
  ∀ x ∈ g.cells.toList, isFinite x = true → number? (Decimal.jsonText x) = some x

/-- Of a table its sides and its finite values are written. -/
theorem toJson_eq (g : Grid Float) : g.toJson = .object [("v", .natural 1),
    ("dim", .array [.natural g.finite.rows, .natural g.finite.cols]),
    ("data", .array (g.finite.cells.toList.map (.ofOption .real)))] := by
  unfold toJson finite map
  simp only [Array.toList_map, List.map_map]
  congr 6
  apply List.map_congr_left
  intro x _
  exact Json.ofNumber_eq_ofOption x

/-- A table is read back with its sides and its finite values. -/
theorem ofJson?_spelled (h : g.ReadBack number?) :
    ofJson? number? g.toJson.spelled = some g.finite := by
  have hversion : (Json.real (toString 1)).natural? = some 1 := Json.natural?_spelled 1
  have hrows : (Json.real (toString g.rows)).natural? = some g.rows := Json.natural?_spelled _
  have hcols : (Json.real (toString g.cols)).natural? = some g.cols := Json.natural?_spelled _
  have hcells : (g.cells.toList.map fun x => (some x).filter isFinite).toArray =
      g.finite.cells := by
    rw [finite, map, ← Array.toList_map, Array.toArray_toList]
  show (if (Json.real (toString 1)).natural? ≠ some 1 then none else
    (Json.real (toString g.rows)).natural?.bind fun m =>
      (Json.real (toString g.cols)).natural?.bind fun n =>
        ((Json.spelledItems (g.cells.toList.map .ofNumber)).mapM (Json.cell? number?)).bind
          fun cells => ofCells? m n cells.toArray) = some g.finite
  rw [hversion, hrows, hcols, Json.mapM_cell?_ofNumber h, if_neg (by simp)]
  simp only [Option.bind_some, hcells]
  have hsize : g.finite.cells.size = g.rows * g.cols := g.finite.size_eq
  rw [ofCells?, dif_pos hsize]
  rfl

/-- The text of a table tells as much of it as its sides and its finite values. -/
theorem toJson_inj (h : a.finite = b.finite) : a.toJson = b.toJson := by
  rw [toJson_eq, toJson_eq, h]

theorem finite_inj (ha : ∀ x ∈ a.cells.toList, isFinite x = true)
    (hb : ∀ x ∈ b.cells.toList, isFinite x = true) : a.finite = b.finite ↔ a = b := by
  have hsome {g : Grid Float} (hg : ∀ x ∈ g.cells.toList, isFinite x = true) :
      g.finite.cells.toList = g.cells.toList.map some := by
    rw [finite, map, Array.toList_map]
    apply List.map_congr_left
    intro x hx
    exact Option.filter_some_pos (hg x hx)
  constructor
  · intro h
    have hcells := congrArg (fun g => g.cells.toList) h
    simp only [hsome ha, hsome hb] at hcells
    have hrows : a.finite.rows = b.finite.rows := congrArg Grid.rows h
    have hcols : a.finite.cols = b.finite.cols := congrArg Grid.cols h
    have hlists := (List.map_inj_right fun _ _ => Option.some.inj).mp hcells
    exact Grid.ext hrows hcols (Array.toList_inj.mp hlists)
  · intro h
    rw [h]

end Grid

namespace RawData

variable {number? : String → Option Float} {raw a b : RawData Float}

def finite : RawData Float → RawData (Option Float)
  | .single map => .single map.finite
  | .pair x y => .pair x.finite y.finite

/-- One table, or two of them in a list. -/
def ofJson? (number? : String → Option Float) : Json String → Option (RawData (Option Float))
  | .array [x, y] => do return .pair (← Grid.ofJson? number? x) (← Grid.ofJson? number? y)
  | value => (Grid.ofJson? number? value).map .single

/-- Reads a file of values. How its numbers are read is left open. -/
def read? (number? : String → Option Float) (bytes : List UInt8) :
    Option (RawData (Option Float)) := do
  let text ← String.fromUTF8? ⟨bytes.toArray⟩
  ofJson? number? (← Json.read? text)

def ReadBack (number? : String → Option Float) : RawData Float → Prop
  | .single map => map.ReadBack number?
  | .pair x y => x.ReadBack number? ∧ y.ReadBack number?

theorem ofJson?_spelled (h : raw.ReadBack number?) :
    ofJson? number? raw.toJson.spelled = some raw.finite := by
  cases raw with
  | single map =>
    have hmap := Grid.ofJson?_spelled h
    show (Grid.ofJson? number? map.toJson.spelled).map RawData.single = some (.single map.finite)
    rw [hmap]
    rfl
  | pair x y =>
    obtain ⟨hx, hy⟩ := h
    simp only [toJson, Json.spelled, Json.spelledItems, ofJson?, Grid.ofJson?_spelled hx,
      Grid.ofJson?_spelled hy]
    rfl

/-- A file of values is read back with their finite ones. -/
theorem read?_utf8Bytes (h : raw.ReadBack number?) :
    read? number? (utf8Bytes raw.toJson.compact) = some raw.finite := by
  rw [read?, fromUTF8?_utf8Bytes, Option.bind_eq_bind, Option.bind_some, Json.read?_compact,
    Option.bind_eq_bind, Option.bind_some, ofJson?_spelled h]

example : (toJson (.single ⟨1, 2, #[0.5, infinity], rfl⟩)).compact =
    "\x7b\"v\":1,\"dim\":[1,2],\"data\":[0.5,null]\x7d" := by decide +kernel

theorem toJson_inj (h : a.finite = b.finite) : a.toJson = b.toJson := by
  cases a with
  | single a =>
    cases b with
    | single b => exact Grid.toJson_inj (single.inj h)
    | pair => cases h
  | pair x y =>
    cases b with
    | single => cases h
    | pair x' y' =>
      obtain ⟨hx, hy⟩ := pair.inj h
      rw [toJson, toJson, Grid.toJson_inj hx, Grid.toJson_inj hy]

/-- Values have one file exactly if they have one shape and the same finite values. -/
theorem utf8Bytes_eq_iff (ha : a.ReadBack number?) (hb : b.ReadBack number?) :
    utf8Bytes a.toJson.compact = utf8Bytes b.toJson.compact ↔ a.finite = b.finite := by
  constructor
  · intro h
    have hread := read?_utf8Bytes ha
    rw [h, read?_utf8Bytes hb] at hread
    exact (Option.some.inj hread).symm
  · intro h
    rw [toJson_inj h]

end RawData

/-- What a file tells of a table: its sides, its finite values at their places, and that there are
others, if there are any. Tables of finite values each have a file of their own. -/
structure Grid.KeptBy (number? : String → Option Float) (map : Grid Float) (bytes : List UInt8) :
    Prop where
  read : map.ReadBack number? → RawData.read? number? bytes = some (.single map.finite)
  same_iff : ∀ other : Grid Float, map.ReadBack number? → other.ReadBack number? →
    (utf8Bytes (RawData.single other).toJson.compact = bytes ↔ other.finite = map.finite)
  eq_iff : ∀ other : Grid Float, map.ReadBack number? → other.ReadBack number? →
    (∀ x ∈ map.cells.toList, isFinite x = true) → (∀ x ∈ other.cells.toList, isFinite x = true) →
    (utf8Bytes (RawData.single other).toJson.compact = bytes ↔ other = map)

theorem Grid.keptBy_utf8Bytes (number? : String → Option Float) (map : Grid Float) :
    map.KeptBy number? (utf8Bytes (RawData.single map).toJson.compact) := by
  have hsame (other : Grid Float) (hmap : map.ReadBack number?)
      (hother : other.ReadBack number?) :
      utf8Bytes (RawData.single other).toJson.compact =
        utf8Bytes (RawData.single map).toJson.compact ↔ other.finite = map.finite := by
    have hfiles := RawData.utf8Bytes_eq_iff (a := .single other) (b := .single map) hother hmap
    rw [hfiles]
    exact RawData.single.injEq _ _ ▸ Iff.rfl
  have hread (hmap : (RawData.single map).ReadBack number?) := RawData.read?_utf8Bytes hmap
  refine ⟨hread, hsame, ?_⟩
  intro other hmap hother hfinite hfinite'
  rw [hsame other hmap hother, Grid.finite_inj hfinite' hfinite]

end CenterOfMass
