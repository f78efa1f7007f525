import Mathlib.Algebra.GroupWithZero.Nat
import Mathlib.Data.List.Basic

/-!
Rows of fields joined by a separator.

A row is read back by splitting it at the separator. That gives the pieces of
all fields one after the other (`splitOn_join`). Which separators are those
between two fields, and not in them, is known from the row exactly if there is
no room for another cut (`tight_iff`).
-/

namespace Columns

variable {α : Type} [DecidableEq α]

/-- The fields with a separator between each two. -/
def join (sep : α) (fields : List (List α)) : List α := [sep].intercalate fields

/-- The pieces of all fields. -/
def columns (sep : α) (fields : List (List α)) : List (List α) :=
  fields.flatMap (List.splitOn sep)

omit [DecidableEq α] in
theorem join_singleton (sep : α) (x : List α) : join sep [x] = x := by simp [join]

omit [DecidableEq α] in
theorem join_cons_cons (sep : α) (x y : List α) (fields : List (List α)) :
    join sep (x :: y :: fields) = x ++ sep :: join sep (y :: fields) := by
  simp [join, List.intercalate_cons_cons]

omit [DecidableEq α] in
/-- With a separator at the end, each field has its own. -/
theorem join_append_sep (sep : α) {fields : List (List α)} (nonempty : fields ≠ []) :
    join sep fields ++ [sep] = fields.flatMap (· ++ [sep]) := by
  induction fields with
  | nil => exact absurd rfl nonempty
  | cons x fields ih =>
      cases fields with
      | nil => rw [join_singleton, List.flatMap_singleton]
      | cons y fields =>
          rw [join_cons_cons, List.append_assoc, List.cons_append, ih (by simp), List.append_cons]
          rfl

theorem columns_cons (sep : α) (x : List α) (fields : List (List α)) :
    columns sep (x :: fields) = x.splitOn sep ++ columns sep fields := List.flatMap_cons

theorem columns_append (sep : α) (xs ys : List (List α)) :
    columns sep (xs ++ ys) = columns sep xs ++ columns sep ys := List.flatMap_append

/-- One column for each field without the separator. -/
theorem columns_of_notMem {sep : α} {fields : List (List α)} (h : ∀ x ∈ fields, sep ∉ x) :
    columns sep fields = fields := by
  induction fields with
  | nil => rfl
  | cons x fields ih =>
      obtain ⟨head, tail⟩ := List.forall_mem_cons.mp h
      rw [columns_cons, List.splitOn_eq_singleton head, ih tail]
      rfl

theorem splitOn_join (sep : α) {fields : List (List α)} (nonempty : fields ≠ []) :
    (join sep fields).splitOn sep = columns sep fields := by
  induction fields with
  | nil => exact absurd rfl nonempty
  | cons x fields ih =>
      cases fields with
      | nil => simp [join, columns]
      | cons y fields =>
          rw [join_cons_cons, List.splitOn_append_cons_self, ih (by simp), columns_cons sep x]

theorem join_splitOn (sep : α) (row : List α) : join sep (row.splitOn sep) = row :=
  List.intercalate_splitOn sep

/-- Equal rows have equal columns. -/
theorem join_eq_iff (sep : α) {xs ys : List (List α)} (hx : xs ≠ []) (hy : ys ≠ []) :
    join sep xs = join sep ys ↔ columns sep xs = columns sep ys := by
  constructor
  · intro same
    rw [← splitOn_join sep hx, ← splitOn_join sep hy, same]
  · intro same
    rw [← join_splitOn sep (join sep xs), splitOn_join sep hx, same, ← splitOn_join sep hy,
      join_splitOn]

omit [DecidableEq α] in
theorem infix_join (sep : α) {x : List α} {fields : List (List α)} (h : x ∈ fields) :
    x <:+: join sep fields := by
  induction fields with
  | nil => cases h
  | cons y fields ih =>
      cases fields with
      | nil =>
          obtain rfl := List.mem_singleton.mp h
          exact (join_singleton sep x).symm ▸ List.infix_refl x
      | cons z fields =>
          rw [join_cons_cons]
          rcases List.mem_cons.mp h with rfl | h
          · exact (List.prefix_append x _).isInfix
          · exact (List.infix_cons (ih h)).trans (List.suffix_append y _).isInfix

omit [DecidableEq α] in
theorem sublist_join (sep : α) {x : List α} {fields : List (List α)} (h : x ∈ fields) :
    x.Sublist (join sep fields) :=
  (infix_join sep h).sublist

theorem length_splitOn (sep : α) (x : List α) : (x.splitOn sep).length = x.count sep + 1 := by
  induction x with
  | nil => simp
  | cons c x ih =>
      rw [List.splitOn_cons_eq_if_modifyHead, List.count_cons]
      split
      · rw [List.length_cons, ih]
      · rw [List.length_modifyHead, ih]

theorem length_columns (sep : α) (fields : List (List α)) :
    (columns sep fields).length = (fields.map fun x => x.count sep + 1).sum := by
  induction fields with
  | nil => rfl
  | cons x fields ih =>
      rw [columns_cons, List.length_append, length_splitOn, ih, List.map_cons, List.sum_cons]

/-- Every piece is free of the separator. -/
theorem notMem_of_mem_splitOn {sep : α} {x piece : List α} (h : piece ∈ x.splitOn sep) :
    sep ∉ piece := by
  induction x generalizing piece with
  | nil =>
      rw [List.splitOn_nil, List.mem_singleton] at h
      rw [h]
      exact List.not_mem_nil
  | cons c x ih =>
      rw [List.splitOn_cons_eq_if_modifyHead] at h
      split at h
      · rcases List.mem_cons.mp h with rfl | h
        · exact List.not_mem_nil
        · exact ih h
      · rename_i other
        cases pieces : x.splitOn sep with
        | nil => exact absurd pieces (List.splitOn_ne_nil sep x)
        | cons first pieces' =>
            rw [pieces, List.modifyHead_cons] at h
            rw [pieces] at ih
            rcases List.mem_cons.mp h with rfl | h
            · intro mem
              rcases List.mem_cons.mp mem with same | mem
              · exact other (by simp [same])
              · exact ih List.mem_cons_self mem
            · exact ih (List.mem_cons_of_mem first h)

theorem notMem_of_mem_columns {sep : α} {x : List α} {fields : List (List α)}
    (h : x ∈ columns sep fields) : sep ∉ x := by
  obtain ⟨field, -, piece⟩ := List.mem_flatMap.mp h
  exact notMem_of_mem_splitOn piece

/-- And is its own column. -/
theorem columns_columns (sep : α) (fields : List (List α)) :
    columns sep (columns sep fields) = columns sep fields :=
  columns_of_notMem fun _ h => notMem_of_mem_columns h

theorem columns_of_subset {sep : α} {fields part : List (List α)}
    (flat : columns sep fields = fields) (within : part ⊆ fields) : columns sep part = part := by
  refine columns_of_notMem fun x mem => ?_
  rw [← flat] at within
  exact notMem_of_mem_columns (within mem)

omit [DecidableEq α] in
theorem join_append (sep : α) {xs ys : List (List α)} (hx : xs ≠ []) (hy : ys ≠ []) :
    join sep (xs ++ ys) = join sep xs ++ sep :: join sep ys := by
  induction xs with
  | nil => exact absurd rfl hx
  | cons x xs ih =>
      cases xs with
      | nil =>
          obtain ⟨y, ys, rfl⟩ := List.exists_cons_of_ne_nil hy
          rw [List.singleton_append, join_cons_cons, join_singleton]
      | cons z xs =>
          rw [List.cons_append, List.cons_append, join_cons_cons, ← List.cons_append, ih (by simp),
            join_cons_cons, List.append_assoc, List.cons_append]

omit [DecidableEq α] in
theorem join_pair (sep : α) (x y : List α) : join sep [x, y] = x ++ sep :: y := by
  rw [join_cons_cons, join_singleton]

/-- Behind `k` separators and one more come these two fields. -/
def Adjacent (sep : α) (k : Nat) (x y row : List α) : Prop :=
  ∃ head : List α, head.count sep = k ∧
    (row = head ++ sep :: (x ++ sep :: y) ∨
      ∃ tail, row = head ++ sep :: (x ++ sep :: (y ++ sep :: tail)))

theorem adjacent_iff {sep : α} {x y : List α} (hx : sep ∉ x) (hy : sep ∉ y) (k : Nat)
    (row : List α) :
    Adjacent sep k x y row ↔
      (row.splitOn sep)[k + 1]? = some x ∧ (row.splitOn sep)[k + 2]? = some y := by
  constructor
  · rintro ⟨head, cuts, rows⟩
    have pieces : ∃ later, row.splitOn sep = head.splitOn sep ++ x :: y :: later := by
      obtain rfl | ⟨tail, rfl⟩ := rows
      · refine ⟨[], ?_⟩
        rw [List.splitOn_append_cons_self, List.splitOn_append_cons_self,
          List.splitOn_eq_singleton hx, List.splitOn_eq_singleton hy]
        rfl
      · refine ⟨tail.splitOn sep, ?_⟩
        rw [List.splitOn_append_cons_self, List.splitOn_append_cons_self,
          List.splitOn_append_cons_self, List.splitOn_eq_singleton hx, List.splitOn_eq_singleton hy]
        rfl
    obtain ⟨later, pieces⟩ := pieces
    have first : (head.splitOn sep).length = k + 1 := by rw [length_splitOn, cuts]
    rw [pieces, List.getElem?_append_right (by omega), List.getElem?_append_right (by omega), first]
    simp
  · rintro ⟨sixth, seventh⟩
    obtain ⟨long, sixth⟩ := List.getElem?_eq_some_iff.mp sixth
    obtain ⟨longer, seventh⟩ := List.getElem?_eq_some_iff.mp seventh
    have pieces : row.splitOn sep = (row.splitOn sep).take (k + 1) ++
        x :: y :: (row.splitOn sep).drop (k + 3) := by
      conv_lhs => rw [← List.take_append_drop (k + 1) (row.splitOn sep)]
      rw [List.drop_eq_getElem_cons long, List.drop_eq_getElem_cons longer, sixth, seventh]
    have front : (row.splitOn sep).take (k + 1) ≠ [] := by
      intro none_
      have := congrArg List.length none_
      rw [List.length_take, List.length_nil] at this
      omega
    have whole := join_splitOn sep row
    rw [pieces, join_append sep front (by simp)] at whole
    refine ⟨join sep ((row.splitOn sep).take (k + 1)), ?_, ?_⟩
    · have count := length_splitOn sep (join sep ((row.splitOn sep).take (k + 1)))
      rw [splitOn_join sep front, columns_of_notMem fun piece mem =>
        notMem_of_mem_splitOn (List.mem_of_mem_take mem), List.length_take] at count
      omega
    · cases rest : (row.splitOn sep).drop (k + 3) with
      | nil =>
          rw [rest, join_pair] at whole
          exact .inl whole.symm
      | cons z later =>
          rw [rest, join_cons_cons, join_cons_cons] at whole
          exact .inr ⟨join sep (z :: later), whole.symm⟩

/-- Two fields have the columns of a text cut at a separator. -/
theorem columns_pair_iff (sep : α) (fields : List (List α)) (x y : List α) :
    columns sep [x, y] = columns sep fields ↔ join sep fields = x ++ sep :: y := by
  cases fields with
  | nil =>
      refine iff_of_false (fun same => ?_) (by simp [join])
      have long := congrArg List.length same
      rw [length_columns, length_columns] at long
      simp at long
  | cons field fields =>
      rw [← join_pair, join_eq_iff sep (by simp) (by simp), eq_comm]

/-! ### Two fields with room for so much -/

/-- Cut at one of its separators the text fits two arrays of these sizes. -/
def FitsCut (sep : α) (m n : Nat) (text : List α) : Prop :=
  ∃ x y, text = x ++ sep :: y ∧ x.length < m ∧ y.length < n

/-- At none of the separators in either field is there room for another cut: what follows
one of the first field is too long with the second, and what comes before one of the second
is too long with the first. -/
structure Tight (sep : α) (m n : Nat) (x y : List α) : Prop where
  earlier : ∀ u v, x = u ++ sep :: v → n ≤ (v ++ sep :: y).length
  later : ∀ u v, y = u ++ sep :: v → m ≤ (x ++ sep :: u).length

omit [DecidableEq α] in
theorem tight_of_notMem {sep : α} {x y : List α} (hx : sep ∉ x) (hy : sep ∉ y) (m n : Nat) :
    Tight sep m n x y where
  earlier u _ same := absurd (same ▸ List.mem_append_right u List.mem_cons_self) hx
  later u _ same := absurd (same ▸ List.mem_append_right u List.mem_cons_self) hy

omit [DecidableEq α] in
/-- Tight fields are the only ones with their text. -/
theorem tight_iff {sep : α} {m n : Nat} {x y : List α} (hx : x.length < m) (hy : y.length < n) :
    Tight sep m n x y ↔
      ∀ x' y', x' ++ sep :: y' = x ++ sep :: y → x'.length < m → y'.length < n → x' = x := by
  constructor
  · intro tight x' y' same roomX roomY
    obtain ⟨t, front, back⟩ | ⟨t, front, back⟩ := List.append_eq_append_iff.mp same
    · cases t with
      | nil => rw [front, List.append_nil]
      | cons c t =>
          rw [List.cons_append, List.cons.injEq] at back
          obtain ⟨rfl, rest⟩ := back
          have long := tight.earlier x' t front
          rw [rest] at roomY
          omega
    · cases t with
      | nil => rw [front, List.append_nil]
      | cons c t =>
          rw [List.cons_append, List.cons.injEq] at back
          obtain ⟨rfl, rest⟩ := back
          have long := tight.later t y' rest
          rw [front] at roomX
          omega
  · intro only
    constructor
    · rintro u v rfl
      by_contra room
      have same := only u (v ++ sep :: y) (by simp)
        (by rw [List.length_append, List.length_cons] at hx; omega) (Nat.lt_of_not_le room)
      simpa using congrArg List.length same
    · rintro u v rfl
      by_contra room
      have same := only (x ++ sep :: u) v (by simp) (Nat.lt_of_not_le room)
        (by rw [List.length_append, List.length_cons] at hy; omega)
      simpa using congrArg List.length same

omit [DecidableEq α] in
/-- Another character is in the row iff it is in a field. -/
theorem mem_join_iff {sep x : α} (ne : x ≠ sep) (fields : List (List α)) :
    x ∈ join sep fields ↔ ∃ field ∈ fields, x ∈ field := by
  induction fields with
  | nil => simp [join]
  | cons y fields ih =>
      cases fields with
      | nil => simp [join]
      | cons z fields =>
          rw [join_cons_cons, List.mem_append, List.mem_cons, ih]
          simp [ne]

omit [DecidableEq α] in
theorem notMem_join_iff {sep x : α} (ne : x ≠ sep) (fields : List (List α)) :
    x ∉ join sep fields ↔ ∀ field ∈ fields, x ∉ field := by
  rw [mem_join_iff ne]
  simp

omit [DecidableEq α] in
/-- Another character that is in no field is on neither side of a cut. -/
theorem notMem_of_join_eq {sep c : α} (ne : c ≠ sep) {fields : List (List α)} {x y : List α}
    (text : join sep fields = x ++ sep :: y) (h : ∀ field ∈ fields, c ∉ field) :
    c ∉ x ∧ c ∉ y := by
  have absent := (notMem_join_iff ne fields).mpr h
  rw [text, List.mem_append, List.mem_cons, not_or, not_or] at absent
  exact ⟨absent.1, absent.2.2⟩

/-- And in no column. -/
theorem notMem_of_columns {sep x : α} (ne : x ≠ sep) {fields : List (List α)}
    (h : ∀ field ∈ fields, x ∉ field) : ∀ piece ∈ columns sep fields, x ∉ piece := by
  cases fields with
  | nil => simp [columns]
  | cons field fields =>
      rw [← notMem_join_iff ne, ← splitOn_join sep (by simp), join_splitOn, notMem_join_iff ne]
      exact h

end Columns
