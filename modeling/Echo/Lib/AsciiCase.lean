/-!
ASCII case folding of text. `toAsciiLowercase` changes the letters `A`–`Z` and
nothing else; two texts agree up to ASCII case exactly when their foldings are
equal, so every case-insensitive comparison is an equality of folded keys.
-/

namespace Echo.Lib

/-- Fold `A`–`Z` to `a`–`z`, leaving every other character alone. -/
def toAsciiLowercase (s : String) : String :=
  String.ofList (s.toList.map Char.toLower)

/-- Fold `a`–`z` to `A`–`Z`, leaving every other character alone. -/
def toAsciiUppercase (s : String) : String :=
  String.ofList (s.toList.map Char.toUpper)

/-- Equality up to ASCII case. -/
def eqIgnoreAsciiCase (a b : String) : Bool :=
  toAsciiLowercase a == toAsciiLowercase b

theorem toLower_toLower (c : Char) : c.toLower.toLower = c.toLower := by
  unfold Char.toLower
  split
  · rename_i upper
    have bound : c.val + 32 ≥ 97 ∧ c.val + 32 ≤ 122 := by
      simp only [UInt32.le_iff_toNat_le, ge_iff_le, UInt32.toNat_add] at upper ⊢
      have := upper.1
      have := upper.2
      simp at *
      omega
    split
    · rename_i again
      exfalso
      simp only [UInt32.le_iff_toNat_le, ge_iff_le] at bound again
      simp at bound again
      omega
    · rfl
  · rfl

/-- Folding makes letters of letters only. -/
theorem toLower_eq_iff {c d : Char} (caseless : d.isAlpha = false) : c.toLower = d ↔ c = d := by
  have ranges : d.isAlpha = (decide (d.val ≥ 'A'.val ∧ d.val ≤ 'Z'.val) ||
      (decide (d.val ≥ 'a'.val) && decide (d.val ≤ 'z'.val))) := rfl
  rw [ranges] at caseless
  unfold Char.toLower
  split
  · rename_i upper
    constructor
    · rintro rfl
      simp [UInt32.le_iff_toNat_le] at upper caseless
      omega
    · rintro rfl
      simp [UInt32.le_iff_toNat_le] at upper caseless
      omega
  · exact Iff.rfl

@[simp] theorem toAsciiLowercase_idem (s : String) :
    toAsciiLowercase (toAsciiLowercase s) = toAsciiLowercase s := by
  simp only [toAsciiLowercase, String.toList_ofList, List.map_map]
  congr 1
  exact List.map_congr_left fun c _ => toLower_toLower c

theorem eqIgnoreAsciiCase_iff {a b : String} :
    eqIgnoreAsciiCase a b = true ↔ toAsciiLowercase a = toAsciiLowercase b := by
  simp [eqIgnoreAsciiCase]

@[simp] theorem eqIgnoreAsciiCase_self (a : String) : eqIgnoreAsciiCase a a = true := by
  simp [eqIgnoreAsciiCase]

end Echo.Lib
