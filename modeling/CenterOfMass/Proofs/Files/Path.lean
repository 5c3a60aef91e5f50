import CenterOfMass.Files.Basic
import Mathlib.Data.String.Basic

namespace CenterOfMass

/-- A name that stands for an entry of a directory and for nothing else. -/
structure IsEntryName (name : String) : Prop where
  slash_notMem : '/' ∉ name.toList
  ne_empty : name ≠ ""
  ne_here : name ≠ "."
  ne_above : name ≠ ".."

instance (name : String) : Decidable (IsEntryName name) :=
  decidable_of_iff ('/' ∉ name.toList ∧ name ≠ "" ∧ name ≠ "." ∧ name ≠ "..")
    ⟨fun ⟨h₁, h₂, h₃, h₄⟩ => ⟨h₁, h₂, h₃, h₄⟩, fun ⟨h₁, h₂, h₃, h₄⟩ => ⟨h₁, h₂, h₃, h₄⟩⟩

section Steps

variable {path first rest directory name : String}

theorem pathSteps_slash (h : path.toList = first.toList ++ '/' :: rest.toList) :
    pathSteps path = pathSteps first ++ pathSteps rest := by
  have hsplit : List.splitOnP (· == '/') (first.toList ++ '/' :: rest.toList) =
      List.splitOnP (· == '/') first.toList ++ List.splitOnP (· == '/') rest.toList :=
    List.splitOnP_append_cons _ _ rfl
  unfold pathSteps
  rw [String.splitToList_of_valid, String.splitToList_of_valid, String.splitToList_of_valid, h,
    hsplit, List.map_append, List.filter_append]

theorem pathSteps_empty : pathSteps "" = [] := by
  unfold pathSteps
  rw [String.splitToList_of_valid]
  rfl

theorem IsEntryName.pathSteps_eq (h : IsEntryName name) : pathSteps name = [name] := by
  have hwhole : List.splitOnP (· == '/') name.toList = [name.toList] := by
    apply List.splitOnP_eq_singleton
    intro c hc
    apply beq_false_of_ne
    rintro rfl
    exact h.slash_notMem hc
  unfold pathSteps
  rw [String.splitToList_of_valid, hwhole, List.map_singleton, String.ofList_toList]
  simp [h.ne_empty]

theorem startsWith_slash_iff : path.startsWith "/" ↔ ['/'] <+: path.toList :=
  String.startsWith_string_iff

theorem endsWith_slash_iff : path.endsWith "/" ↔ ['/'] <:+ path.toList := by
  rw [String.endsWith_eq_endsWith_toSlice]
  refine String.Slice.endsWith_string_iff.trans ?_
  rw [String.copy_toSlice]
  rfl

theorem IsEntryName.not_startsWith_slash (h : IsEntryName name) : ¬ name.startsWith "/" := by
  intro hstart
  obtain ⟨cs, hcs⟩ := startsWith_slash_iff.mp hstart
  apply h.slash_notMem
  rw [← hcs]
  exact List.mem_cons_self

/-- A slash stands between the steps of the directory and the name, whichever of the two forms the
path of the directory has. -/
theorem IsEntryName.toList_joinPath (h : IsEntryName name) (hdirectory : directory ≠ "") :
    ∃ first : String, (joinPath directory name).toList = first.toList ++ '/' :: name.toList ∧
      pathSteps first = pathSteps directory := by
  unfold joinPath
  rw [if_neg h.not_startsWith_slash]
  by_cases hslash : directory.endsWith "/"
  · obtain ⟨cs, hcs⟩ := endsWith_slash_iff.mp hslash
    have hfirst : directory.toList = (String.ofList cs).toList ++ '/' :: "".toList := by
      simp [← hcs]
    refine ⟨String.ofList cs, ?_, ?_⟩
    · rw [if_pos (by simp [hslash]), String.toList_append, hfirst]
      simp
    · rw [pathSteps_slash hfirst, pathSteps_empty, List.append_nil]
  · refine ⟨directory, ?_, rfl⟩
    rw [if_neg (by simp [hslash, hdirectory]), String.toList_append, String.toList_append]
    simp

theorem IsEntryName.pathSteps_joinPath (h : IsEntryName name) (hdirectory : directory ≠ "") :
    pathSteps (joinPath directory name) = pathSteps directory ++ [name] := by
  obtain ⟨first, hjoined, hsteps⟩ := h.toList_joinPath hdirectory
  rw [pathSteps_slash hjoined, hsteps, h.pathSteps_eq]

theorem IsEntryName.startsWith_joinPath (h : IsEntryName name) (hdirectory : directory ≠ "") :
    (joinPath directory name).startsWith "/" = directory.startsWith "/" := by
  have hfirst : ∃ c cs, directory.toList = c :: cs := by
    apply List.exists_cons_of_ne_nil
    intro hempty
    exact hdirectory (String.toList_eq_nil_iff.mp hempty)
  obtain ⟨c, cs, hc⟩ := hfirst
  have hjoined : ∃ rest, (joinPath directory name).toList = c :: rest := by
    unfold joinPath
    rw [if_neg h.not_startsWith_slash]
    split
    · exact ⟨_, by rw [String.toList_append, hc]; rfl⟩
    · exact ⟨_, by rw [String.toList_append, String.toList_append, hc]; rfl⟩
  obtain ⟨rest, hrest⟩ := hjoined
  rw [Bool.eq_iff_iff, startsWith_slash_iff, startsWith_slash_iff, hc, hrest]
  simp

end Steps

end CenterOfMass
