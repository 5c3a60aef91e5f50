import CenterOfMass.Proofs.Exchange.Parameters
import CenterOfMass.Proofs.Json.Pretty

namespace CenterOfMass

open Extended

namespace Json

def text? : Json String → Option String
  | .text s => some s
  | _ => none

/-- A text, or none if null stands in its place. -/
def name? : Json String → Option (Option String)
  | .null => some none
  | .text s => some (some s)
  | _ => none

theorem name?_ofOption (s : Option String) :
    name? (ofOption .text s : Json Float).spelled = some s := by
  cases s <;> rfl

end Json

namespace Parameters

variable {number? : String → Option Float} {p : Parameters Float}

/-- Parameters in whatever order they come. A radius that is null is an unlimited one. -/
def ofJson? (number? : String → Option Float) : Json String → Option (Parameters Float)
  | .object members => do
    let cx ← Json.cell? number? (← members.lookup "cx")
    let cy ← Json.cell? number? (← members.lookup "cy")
    let r ← Json.cell? number? (← members.lookup "r")
    let maskCount ← (← members.lookup "mask_count").natural?
    match ← members.lookup "use_sparse", ← members.lookup "mask_dtype" with
    | .bool useSparse, .text "float32" =>
      return ⟨← cx, ← cy, r.getD infinity, useSparse, maskCount, .float32⟩
    | _, _ => none
  | _ => none

/-- The numbers of some parameters are read from their texts as what they are. -/
def ReadBack (number? : String → Option Float) (p : Parameters Float) : Prop :=
  ∀ x ∈ [p.cx, p.cy, p.r], isFinite x = true → number? (Decimal.jsonText x) = some x

theorem ofJson?_spelled (h : p.Accepted) (hback : p.ReadBack number?) :
    ofJson? number? p.toJson.spelled = some p := by
  unfold ReadBack at hback
  simp only [List.forall_mem_cons] at hback
  have hcx := Json.cell?_ofNumber hback.1
  have hcy := Json.cell?_ofNumber hback.2.1
  have hr := Json.cell?_ofNumber hback.2.2.1
  rw [Option.filter_some_pos h.finite_cx] at hcx
  rw [Option.filter_some_pos h.finite_cy] at hcy
  have hcount : (Json.real p.maskCount.repr).natural? = some p.maskCount :=
    Json.natural?_spelled p.maskCount
  have hdtype : p.maskDtype = .float32 := by cases p.maskDtype; rfl
  have hradius : ((some p.r).filter isFinite).getD infinity = p.r :=
    UserParameters.getD_filter_isFinite (x := some p.r) (h.radius_cases.imp_left And.left)
  unfold ofJson? toJson
  simp [Json.spelled, Json.spelledMembers, List.lookup, hcx, hcy, hr, hcount, hradius,
    MaskDtype.name, ← hdtype]

end Parameters

namespace SummaryEntry

def ofJson? : Json String → Option SummaryEntry
  | .object members => do
    return ⟨← (← members.lookup "key").text?, ← (← members.lookup "title").text?,
      ← (← members.lookup "description").text?, ← (← members.lookup "image").text?,
      ← (← members.lookup "data").name?⟩
  | _ => none

theorem ofJson?_spelled (e : SummaryEntry) : ofJson? (e.toJson : Json Float).spelled = some e := by
  have hdata := Json.name?_ofOption e.data
  simp [ofJson?, toJson, Json.spelled, Json.spelledMembers, List.lookup, Json.text?, hdata]

end SummaryEntry

namespace Summary

variable {number? : String → Option Float} {s : Summary Float}

def ofJson? (number? : String → Option Float) : Json String → Option (Summary Float)
  | .object members => do
    let parameters ← Parameters.ofJson? number? (← members.lookup "parameters")
    match ← members.lookup "results" with
    | .array results => return ⟨parameters, ← results.mapM SummaryEntry.ofJson?⟩
    | _ => none
  | _ => none

/-- Reads a summary. How its numbers are read is left open. -/
def read? (number? : String → Option Float) (bytes : List UInt8) : Option (Summary Float) := do
  let text ← String.fromUTF8? ⟨bytes.toArray⟩
  ofJson? number? (← Json.readSpaced? text)

theorem mapM_ofJson?_toJson (results : List SummaryEntry) :
    (Json.spelledItems (results.map SummaryEntry.toJson)).mapM SummaryEntry.ofJson? =
      some results := by
  induction results with
  | nil => rfl
  | cons e results ih =>
    rw [List.map_cons, Json.spelledItems, List.mapM_cons, e.ofJson?_spelled, ih]
    rfl

theorem ofJson?_spelled (h : s.parameters.Accepted) (hback : s.parameters.ReadBack number?) :
    ofJson? number? s.toJson.spelled = some s := by
  have hparameters := Parameters.ofJson?_spelled h hback
  have hresults := mapM_ofJson?_toJson s.results
  simp [ofJson?, toJson, Json.spelled, Json.spelledMembers, List.lookup, hparameters, hresults]

/-- A summary is read back from its file with all that it lists, and with the parameters. -/
theorem read?_utf8Bytes (h : s.parameters.Accepted) (hback : s.parameters.ReadBack number?) :
    read? number? (utf8Bytes s.toJson.pretty) = some s := by
  rw [read?, fromUTF8?_utf8Bytes, Option.bind_eq_bind, Option.bind_some, Json.readSpaced?_pretty,
    Option.bind_eq_bind, Option.bind_some, ofJson?_spelled h hback]

end Summary

end CenterOfMass
