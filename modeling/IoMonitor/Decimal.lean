import IoMonitor.Names

/-!
Numbers in decimal: how long they are, and that they read back.
-/

namespace IoMonitor

open CString

theorem decimal_natCast (n : Nat) : decimal n = Nat.toDigits 10 n := by
  rw [decimal, Int.toString_eq_repr, Int.repr_eq_if, if_pos (Int.natCast_nonneg n),
    Int.toNat_natCast, Nat.toList_repr]

theorem decimal_negative {n : Int} (negative : n < 0) :
    decimal n = '-' :: Nat.toDigits 10 (-n).toNat := by
  rw [decimal, Int.toString_eq_repr, Int.repr_eq_if, if_neg (by omega), String.toList_append,
    Nat.toList_repr]
  rfl

theorem toDigits_inj {m n : Nat} (same : Nat.toDigits 10 m = Nat.toDigits 10 n) : m = n := by
  have read := congrArg (Nat.ofDigitChars 10 · 0) same
  simpa only [Nat.ofDigitChars_toDigits (show 1 < 10 by decide) (Nat.le_refl 10)] using read

/-- A number reads back from its text. -/
theorem decimal_inj {m n : Int} (same : decimal m = decimal n) : m = n := by
  have sign : ∀ k : Nat, ∀ s : Str, Nat.toDigits 10 k ≠ '-' :: s := by
    intro k s digits
    have digit : '-' ∈ Nat.toDigits 10 k := digits ▸ List.mem_cons_self
    exact absurd (Nat.isDigit_of_mem_toDigits (by decide) (by decide) digit) (by decide)
  rcases Int.lt_or_le m 0 with negM | posM <;> rcases Int.lt_or_le n 0 with negN | posN
  · rw [decimal_negative negM, decimal_negative negN] at same
    have := toDigits_inj (List.cons.inj same).2
    omega
  · obtain ⟨k, rfl⟩ := Int.eq_ofNat_of_zero_le posN
    rw [decimal_negative negM, decimal_natCast] at same
    exact absurd same.symm (sign k _)
  · obtain ⟨k, rfl⟩ := Int.eq_ofNat_of_zero_le posM
    rw [decimal_negative negN, decimal_natCast] at same
    exact absurd same (sign k _)
  · obtain ⟨j, rfl⟩ := Int.eq_ofNat_of_zero_le posM
    obtain ⟨k, rfl⟩ := Int.eq_ofNat_of_zero_le posN
    rw [decimal_natCast, decimal_natCast] at same
    rw [toDigits_inj same]

/-- A sign, and as many digits as it takes. -/
theorem length_decimal_le {n : Int} {k : Nat} (digits : 0 < k) (low : -(10 ^ k : Nat) < n)
    (high : n < (10 ^ k : Nat)) : (decimal n).length ≤ k + 1 := by
  rcases Int.lt_or_le n 0 with negative | positive
  · rw [decimal_negative negative, List.length_cons]
    have := (Nat.length_toDigits_le_iff (n := (-n).toNat) (show 1 < 10 by decide) digits).mpr
      (by omega)
    omega
  · obtain ⟨m, rfl⟩ := Int.eq_ofNat_of_zero_le positive
    rw [decimal_natCast]
    have := (Nat.length_toDigits_le_iff (n := m) (show 1 < 10 by decide) digits).mpr (by omega)
    omega

end IoMonitor
