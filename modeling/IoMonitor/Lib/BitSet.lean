import Mathlib.Data.List.Basic

/-!
Words as sets of bits.

`membersFrom` lists the bits of a word from one position on, as a loop over the
positions meets them: it takes a bit that is set (`membersFrom_of_mem`), passes
over one that is not, and may clear the bits behind it (`membersFrom_erase`).
-/

namespace BitSet

variable {w : Nat} {m : BitVec w} {i j : Nat}

theorem getLsbD_single : (1#w <<< i).getLsbD j = true ↔ i = j ∧ j < w := by
  rw [← BitVec.twoPow_eq, BitVec.getLsbD_twoPow]
  simp only [Bool.and_eq_true, decide_eq_true_eq]
  omega

theorem mem_insert : (m ||| 1#w <<< i).getLsbD j = true ↔ m.getLsbD j = true ∨ (i = j ∧ j < w) := by
  rw [BitVec.getLsbD_or, Bool.or_eq_true, getLsbD_single]

theorem mem_erase : (m &&& ~~~(1#w <<< i)).getLsbD j = true ↔ m.getLsbD j = true ∧ i ≠ j := by
  rw [BitVec.getLsbD_and, BitVec.getLsbD_not, Bool.and_eq_true, Bool.and_eq_true,
    decide_eq_true_eq, Bool.not_eq_true', ← Bool.not_eq_true, getLsbD_single]
  constructor
  · rintro ⟨mem, inside, other⟩
    exact ⟨mem, fun same => other ⟨same, inside⟩⟩
  · rintro ⟨mem, other⟩
    exact ⟨mem, BitVec.lt_of_getLsbD mem, fun same => other same.1⟩

theorem eq_zero_iff : m = 0#w ↔ ∀ i, ¬ m.getLsbD i = true := by
  constructor
  · rintro rfl i
    simp
  · intro none
    refine BitVec.eq_of_getLsbD_eq fun i _ => ?_
    simpa using none i

/-- The test of one bit. -/
theorem single_and_eq_zero : 1#w <<< i &&& m = 0#w ↔ ¬ m.getLsbD i = true := by
  rw [eq_zero_iff]
  constructor
  · intro none mem
    refine none i ?_
    rw [BitVec.getLsbD_and, Bool.and_eq_true, getLsbD_single]
    exact ⟨⟨rfl, BitVec.lt_of_getLsbD mem⟩, mem⟩
  · intro notMem j both
    rw [BitVec.getLsbD_and, Bool.and_eq_true, getLsbD_single] at both
    obtain ⟨⟨rfl, -⟩, mem⟩ := both
    exact notMem mem

theorem ext_mem {m m' : BitVec w} (h : ∀ i, m.getLsbD i = true ↔ m'.getLsbD i = true) : m = m' :=
  BitVec.eq_of_getLsbD_eq fun i _ => Bool.eq_iff_iff.mpr (h i)

/-! ### In order -/

/-- The bits set, from `j` on. -/
def membersFrom (m : BitVec w) (j : Nat) : List Nat := (List.range' j (w - j)).filter m.getLsbD

theorem mem_membersFrom : i ∈ membersFrom m j ↔ j ≤ i ∧ m.getLsbD i = true := by
  rw [membersFrom, List.mem_filter, List.mem_range'_1]
  constructor
  · rintro ⟨⟨from_, -⟩, mem⟩
    exact ⟨from_, mem⟩
  · rintro ⟨from_, mem⟩
    have inside := BitVec.lt_of_getLsbD mem
    exact ⟨⟨from_, by omega⟩, mem⟩

theorem membersFrom_of_mem (mem : m.getLsbD j = true) :
    membersFrom m j = j :: membersFrom m (j + 1) := by
  have inside := BitVec.lt_of_getLsbD mem
  rw [membersFrom, show w - j = w - (j + 1) + 1 by omega, List.range'_succ,
    List.filter_cons_of_pos mem]
  rfl

theorem membersFrom_of_notMem (notMem : ¬ m.getLsbD j = true) :
    membersFrom m j = membersFrom m (j + 1) := by
  rcases Nat.lt_or_ge j w with inside | outside
  · rw [membersFrom, show w - j = w - (j + 1) + 1 by omega, List.range'_succ,
      List.filter_cons_of_neg notMem]
    rfl
  · rw [membersFrom, membersFrom, Nat.sub_eq_zero_of_le outside,
      Nat.sub_eq_zero_of_le (Nat.le_succ_of_le outside)]
    rfl

theorem membersFrom_erase (behind : i < j) :
    membersFrom (m &&& ~~~(1#w <<< i)) j = membersFrom m j := by
  refine List.filter_congr fun k mem => Bool.eq_iff_iff.mpr ?_
  rw [mem_erase]
  have from_ : j ≤ k := (List.mem_range'_1.mp mem).1
  exact and_iff_left (by omega)

/-- Nothing is set before `j`. -/
def StartsAt (m : BitVec w) (j : Nat) : Prop := ∀ i, m.getLsbD i = true → j ≤ i

theorem startsAt_zero (m : BitVec w) : StartsAt m 0 := fun i _ => Nat.zero_le i

theorem StartsAt.succ (h : StartsAt m j) (notMem : ¬ m.getLsbD j = true) : StartsAt m (j + 1) := by
  intro i mem
  refine Nat.lt_of_le_of_ne (h i mem) ?_
  rintro rfl
  exact notMem mem

theorem StartsAt.erase (h : StartsAt m j) : StartsAt (m &&& ~~~(1#w <<< j)) (j + 1) := by
  intro i mem
  obtain ⟨mem, other⟩ := mem_erase.mp mem
  exact Nat.lt_of_le_of_ne (h i mem) other

theorem StartsAt.eq_zero_iff (h : StartsAt m j) : m = 0#w ↔ membersFrom m j = [] := by
  rw [BitSet.eq_zero_iff, List.eq_nil_iff_forall_not_mem]
  exact forall_congr' fun i => by rw [mem_membersFrom, and_iff_right_of_imp (h i)]

end BitSet
