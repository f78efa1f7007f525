import Mathlib.Data.List.Induction
import Mathlib.Data.List.Pairwise
import Mathlib.Order.Lattice

/-!
Maps as lists of entries in key order.

Iteration over such a map goes through the keys from the least on, so the first
entry that meets a test is the one with the least key among those that do
(`find?_eq_some_iff`). The members say it all: two maps with the same ones are
equal (`ext`).
-/

namespace SortedMap

variable {κ β : Type} [LinearOrder κ]

abbrev Sorted (entries : List (κ × β)) : Prop := entries.Pairwise fun a b => a.1 < b.1

/-- Sets the value of a key. -/
def insert (k : κ) (v : β) : List (κ × β) → List (κ × β)
  | [] => [(k, v)]
  | e :: entries =>
      if k < e.1 then (k, v) :: e :: entries
      else if k = e.1 then (k, v) :: entries
      else e :: insert k v entries

theorem Sorted.head_lt {e e' : κ × β} {entries : List (κ × β)} (h : Sorted (e :: entries))
    (mem : e' ∈ entries) : e.1 < e'.1 :=
  List.rel_of_pairwise_cons h mem

theorem mem_insert {k : κ} {v : β} {e : κ × β} {entries : List (κ × β)} (h : Sorted entries) :
    e ∈ insert k v entries ↔ e = (k, v) ∨ (e.1 ≠ k ∧ e ∈ entries) := by
  induction entries with
  | nil => simp [insert]
  | cons e' entries ih =>
      have others : ∀ x ∈ entries, e'.1 < x.1 := fun x hx => h.head_lt hx
      simp only [insert]
      split
      · rename_i before
        have ne : ∀ x ∈ e' :: entries, x.1 ≠ k := by
          intro x hx eq
          rcases List.mem_cons.mp hx with rfl | hx
          · exact before.ne' eq
          · exact (before.trans (others x hx)).ne' eq
        rw [List.mem_cons]
        exact or_congr_right ⟨fun mem => ⟨ne e mem, mem⟩, fun mem => mem.2⟩
      · split
        · rename_i same
          subst same
          rw [List.mem_cons, List.mem_cons]
          refine or_congr_right ⟨fun mem => ⟨(others e mem).ne', .inr mem⟩, ?_⟩
          rintro ⟨ne, rfl | mem⟩
          · exact absurd rfl ne
          · exact mem
        · rename_i other
          rw [List.mem_cons, List.mem_cons, ih h.of_cons]
          constructor
          · rintro (rfl | rfl | ⟨ne, mem⟩)
            · exact .inr ⟨Ne.symm other, .inl rfl⟩
            · exact .inl rfl
            · exact .inr ⟨ne, .inr mem⟩
          · rintro (rfl | ⟨ne, rfl | mem⟩)
            · exact .inr (.inl rfl)
            · exact .inl rfl
            · exact .inr (.inr ⟨ne, mem⟩)

theorem Sorted.insert {k : κ} {v : β} {entries : List (κ × β)} (h : Sorted entries) :
    Sorted (insert k v entries) := by
  induction entries with
  | nil => exact List.pairwise_singleton _ _
  | cons e entries ih =>
      simp only [SortedMap.insert]
      split
      · rename_i before
        refine List.pairwise_cons.mpr ⟨fun x hx => ?_, h⟩
        rcases List.mem_cons.mp hx with rfl | hx
        · exact before
        · exact before.trans (h.head_lt hx)
      · split
        · rename_i same
          subst same
          exact List.pairwise_cons.mpr ⟨fun x hx => h.head_lt hx, h.of_cons⟩
        · rename_i notBefore other
          refine List.pairwise_cons.mpr ⟨fun x hx => ?_, ih h.of_cons⟩
          rcases (mem_insert h.of_cons).mp hx with rfl | ⟨-, hx⟩
          · exact lt_of_le_of_ne (not_lt.mp notBefore) (Ne.symm other)
          · exact h.head_lt hx

/-- A key has one value. -/
theorem Sorted.unique {k : κ} {v v' : β} {entries : List (κ × β)} (h : Sorted entries)
    (hv : (k, v) ∈ entries) (hv' : (k, v') ∈ entries) : v = v' := by
  induction entries with
  | nil => cases hv
  | cons e entries ih =>
      rcases List.mem_cons.mp hv with rfl | hv <;> rcases List.mem_cons.mp hv' with eq | hv'
      · exact (Prod.mk.inj eq).2.symm
      · exact absurd rfl (h.head_lt hv').ne
      · exact absurd (congrArg Prod.fst eq) (h.head_lt hv).ne'
      · exact ih h.of_cons hv hv'

theorem ext {xs ys : List (κ × β)} (hx : Sorted xs) (hy : Sorted ys)
    (same : ∀ e, e ∈ xs ↔ e ∈ ys) : xs = ys := by
  have distinct : ∀ {l : List (κ × β)}, Sorted l → l.Nodup := fun h =>
    h.imp fun lt eq => lt.ne (congrArg Prod.fst eq)
  have perm : xs.Perm ys := (List.perm_ext_iff_of_nodup (distinct hx) (distinct hy)).mpr same
  exact perm.eq_of_pairwise (fun a b _ _ hab hba => absurd hab (lt_asymm hba)) hx hy

/-- The first entry that meets a test has the least key of those that do. -/
theorem find?_eq_some_iff {p : κ × β → Bool} {e : κ × β} {entries : List (κ × β)}
    (h : Sorted entries) :
    entries.find? p = some e ↔
      e ∈ entries ∧ p e = true ∧ ∀ e' ∈ entries, p e' = true → e.1 ≤ e'.1 := by
  induction entries with
  | nil => simp
  | cons x entries ih =>
      cases first : p x with
      | true =>
          rw [List.find?_cons_of_pos first]
          constructor
          · rintro ⟨⟩
            refine ⟨List.mem_cons_self, first, fun e' he' _ => ?_⟩
            rcases List.mem_cons.mp he' with rfl | he'
            · exact le_rfl
            · exact (h.head_lt he').le
          · rintro ⟨mem, -, least⟩
            rcases List.mem_cons.mp mem with rfl | mem
            · rfl
            · exact absurd (least x List.mem_cons_self first) (not_le.mpr (h.head_lt mem))
      | false =>
          rw [List.find?_cons_of_neg (by simp [first]), ih h.of_cons]
          constructor
          · rintro ⟨mem, hit, least⟩
            refine ⟨List.mem_cons_of_mem _ mem, hit, fun e' he' hit' => ?_⟩
            rcases List.mem_cons.mp he' with rfl | he'
            · rw [first] at hit'
              cases hit'
            · exact least e' he' hit'
          · rintro ⟨mem, hit, least⟩
            rcases List.mem_cons.mp mem with rfl | mem
            · rw [first] at hit
              cases hit
            · exact ⟨mem, hit, fun e' he' => least e' (List.mem_cons_of_mem _ he')⟩

/-! ### Maps from lists of pairs -/

/-- Sets the pairs one after the other. -/
def ofPairs (pairs : List (κ × β)) : List (κ × β) :=
  pairs.foldl (fun entries p => insert p.1 p.2 entries) []

theorem ofPairs_concat (pairs : List (κ × β)) (p : κ × β) :
    ofPairs (pairs ++ [p]) = insert p.1 p.2 (ofPairs pairs) := by
  simp [ofPairs]

theorem sorted_ofPairs (pairs : List (κ × β)) : Sorted (ofPairs pairs) := by
  induction pairs using List.reverseRecOn with
  | nil => exact List.Pairwise.nil
  | append_singleton pairs p ih =>
      rw [ofPairs_concat]
      exact ih.insert

/-- Of the pairs with one key the last one stays. -/
theorem mem_ofPairs {pairs : List (κ × β)} {e : κ × β} :
    e ∈ ofPairs pairs ↔
      ∃ before after, pairs = before ++ e :: after ∧ ∀ p ∈ after, p.1 ≠ e.1 := by
  induction pairs using List.reverseRecOn with
  | nil => simp [ofPairs]
  | append_singleton pairs p ih =>
      rw [ofPairs_concat, mem_insert (sorted_ofPairs pairs), ih]
      constructor
      · rintro (rfl | ⟨other, before, after, rfl, last⟩)
        · exact ⟨pairs, [], rfl, by simp⟩
        · refine ⟨before, after ++ [p], by simp, fun q hq => ?_⟩
          rcases List.mem_append.mp hq with hq | hq
          · exact last q hq
          · exact List.mem_singleton.mp hq ▸ other.symm
      · rintro ⟨before, after, split, last⟩
        rcases List.eq_nil_or_concat after with rfl | ⟨after, q, rfl⟩
        · obtain ⟨-, last⟩ := List.append_inj' split rfl
          exact .inl (List.singleton_inj.mp last).symm
        · rw [List.concat_eq_append, ← List.cons_append, ← List.append_assoc] at split
          obtain ⟨rfl, same⟩ := List.append_inj' split rfl
          obtain rfl := List.singleton_inj.mp same
          refine .inr ⟨(last p (by simp)).symm, before, after, rfl, fun r hr => last r ?_⟩
          rw [List.concat_eq_append]
          exact List.mem_append_left _ hr

theorem mem_of_mem_ofPairs {pairs : List (κ × β)} {e : κ × β} (h : e ∈ ofPairs pairs) :
    e ∈ pairs := by
  obtain ⟨before, after, rfl, -⟩ := mem_ofPairs.mp h
  exact List.mem_append_right _ List.mem_cons_self

/-- Every key is kept. -/
theorem ofPairs_key {pairs : List (κ × β)} {k : κ} {v : β} (h : (k, v) ∈ pairs) :
    ∃ v', (k, v') ∈ ofPairs pairs := by
  induction pairs using List.reverseRecOn with
  | nil => cases h
  | append_singleton pairs p ih =>
      simp only [ofPairs_concat, mem_insert (sorted_ofPairs pairs)]
      by_cases last : p.1 = k
      · exact ⟨p.2, .inl (by rw [last])⟩
      · rcases List.mem_append.mp h with h | h
        · obtain ⟨v', kept⟩ := ih h
          exact ⟨v', .inr ⟨Ne.symm last, kept⟩⟩
        · exact absurd (congrArg Prod.fst (List.mem_singleton.mp h)).symm last

/-- A key with one value has it. -/
theorem mem_ofPairs_of_unique {pairs : List (κ × β)} {e : κ × β}
    (unique : ∀ p ∈ pairs, p.1 = e.1 → p = e) : e ∈ ofPairs pairs ↔ e ∈ pairs := by
  constructor
  · exact mem_of_mem_ofPairs
  · intro mem
    obtain ⟨v, kept⟩ := ofPairs_key mem
    rwa [← unique _ (mem_of_mem_ofPairs kept) rfl]

/-- With one value for each key the order of the pairs does not matter. -/
theorem ofPairs_perm {xs ys : List (κ × β)} (unique : ∀ p ∈ xs, ∀ q ∈ xs, p.1 = q.1 → p = q)
    (perm : xs.Perm ys) : ofPairs xs = ofPairs ys := by
  refine ext (sorted_ofPairs xs) (sorted_ofPairs ys) fun e => ?_
  constructor
  · intro h
    have mem := mem_of_mem_ofPairs h
    rw [mem_ofPairs_of_unique fun p hp => unique p (perm.mem_iff.mpr hp) e mem]
    exact perm.mem_iff.mp mem
  · intro h
    have mem := perm.mem_iff.mpr (mem_of_mem_ofPairs h)
    rwa [mem_ofPairs_of_unique fun p hp => unique p hp e mem]

end SortedMap
