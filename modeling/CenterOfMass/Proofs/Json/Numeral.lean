import CenterOfMass.Proofs.Json.Reader

namespace CenterOfMass

open Json

/-- A text made of the characters that numbers are written with. -/
def IsNumeral (s : String) : Prop := ∀ c ∈ s.toList, isNumeralChar c = true

namespace IsNumeral

variable {s t : String}

theorem of_all (h : s.toList.all isNumeralChar = true) : IsNumeral s := List.all_eq_true.mp h

theorem append (hs : IsNumeral s) (ht : IsNumeral t) : IsNumeral (s ++ t) := by
  intro c hc
  rw [String.toList_append] at hc
  exact (List.mem_append.mp hc).elim (hs c) (ht c)

theorem take (hs : IsNumeral s) (n : Nat) : IsNumeral (s.take n).toString := by
  intro c hc
  have htake : (s.take n).toString.toList = s.toList.take n := String.toList_copy_take
  rw [htake] at hc
  exact hs c (List.mem_of_mem_take hc)

theorem drop (hs : IsNumeral s) (n : Nat) : IsNumeral (s.drop n).toString := by
  intro c hc
  have hdrop : (s.drop n).toString.toList = s.toList.drop n := String.toList_copy_drop
  rw [hdrop] at hc
  exact hs c (List.mem_of_mem_drop hc)

theorem natural (n : Nat) : IsNumeral (toString n) := by
  intro c hc
  rw [Nat.toString_eq_ofList_toDigits, String.toList_ofList] at hc
  have hdigit : c.isDigit = true := Nat.isDigit_of_mem_toDigits (by decide) (by decide) hc
  unfold isNumeralChar
  rw [hdigit, Bool.true_or]

theorem zeros (n : Nat) : IsNumeral (Decimal.zeros n) := by
  intro c hc
  rw [Decimal.zeros, String.toList_ofList] at hc
  obtain rfl := List.eq_of_mem_replicate hc
  decide

theorem integer (n : Int) : IsNumeral (toString n) := by
  cases n with
  | ofNat n => exact natural n
  | negSucc n =>
    have hminus : IsNumeral "-" := .of_all (by decide)
    exact hminus.append (natural (n + 1))

end IsNumeral

namespace Decimal

theorem isNumeral_positional {digits whole : String} (hdigits : IsNumeral digits)
    (hwhole : IsNumeral whole) (point : Int) : IsNumeral (positional digits point whole) := by
  have hpoint : IsNumeral "." := .of_all (by decide)
  have hzero : IsNumeral "0." := .of_all (by decide)
  unfold positional
  dsimp only
  split_ifs
  · exact (hdigits.append (.zeros _)).append hwhole
  · exact ((hdigits.take _).append hpoint).append (hdigits.drop _)
  · exact (hzero.append (.zeros _)).append hdigits

theorem isNumeral_jsonText (x : Float) : IsNumeral (jsonText x) := by
  have hsign : IsNumeral (if negative x then "-" else "") := by
    apply IsNumeral.of_all
    cases negative x <;> decide
  have hzero : IsNumeral "0.0" := .of_all (by decide)
  have hwhole : IsNumeral ".0" := .of_all (by decide)
  have hpoint : IsNumeral "." := .of_all (by decide)
  have hpower : IsNumeral "e" := .of_all (by decide)
  have hempty : IsNumeral "" := .of_all (by decide)
  unfold jsonText
  dsimp only
  generalize (if negative x then "-" else "") = sign at hsign ⊢
  generalize shortestOfBinary .toEven (Binary.ofBits x.abs.toBits) = d
  have hdigits : IsNumeral (toString d.digits) := .natural d.digits
  generalize toString d.digits = digits at hdigits ⊢
  have hfraction : IsNumeral (if (digits.drop 1).toString.isEmpty then ""
      else "." ++ (digits.drop 1).toString) := by
    split
    · exact hempty
    · exact hpoint.append (hdigits.drop 1)
  generalize (if (digits.drop 1).toString.isEmpty then ""
    else "." ++ (digits.drop 1).toString) = fraction at hfraction ⊢
  split_ifs
  · exact hsign.append hzero
  · exact hsign.append (isNumeral_positional hdigits hwhole _)
  · exact (((hsign.append (hdigits.take 1)).append hfraction).append hpower).append (.integer _)

theorem positional_ne_empty {whole : String} (hwhole : whole ≠ "") (digits : String)
    (point : Int) : positional digits point whole ≠ "" := by
  unfold positional
  dsimp only
  split_ifs <;> simp [String.append_eq_empty_iff, hwhole]

theorem jsonText_ne_empty (x : Float) : jsonText x ≠ "" := by
  unfold jsonText
  dsimp only
  generalize (if negative x then "-" else "") = sign
  generalize shortestOfBinary .toEven (Binary.ofBits x.abs.toBits) = d
  split_ifs <;> simp [String.append_eq_empty_iff, positional_ne_empty]

end Decimal

end CenterOfMass
