import Mathlib.Data.List.Basic

/-!
Arrays of pointers with checked accesses.

An access outside the array, or the reading of a cell that was never written, is
a fault. `Starts a xs` says that the first cells hold the objects `xs`, and
`Terminated a xs` that a `NULL` follows them: such a vector can be read, and
released, as far as its `NULL`.
-/

inductive Pointer (α : Type) where
  | undefined
  | null
  | object (a : α)
  deriving DecidableEq

/-- A pointer that was passed; `none` is `NULL`. -/
def Pointer.passed {α : Type} : Option α → Pointer α
  | none => .null
  | some a => .object a

/-- The access that went wrong. -/
inductive Fault where
  | outside (i : Int)
  | unset (i : Int)
  deriving DecidableEq

structure PointerArray (α : Type) (n : Nat) where
  cells : List (Pointer α)
  size : cells.length = n

namespace PointerArray

variable {α β : Type} {n : Nat}

@[simp] theorem ok_bind (a : α) (f : α → Except Fault β) : (Except.ok a >>= f) = f a := rfl

@[simp] theorem error_bind (fault : Fault) (f : α → Except Fault β) :
    (Except.error fault >>= f) = .error fault := rfl

/-- The array as it is declared. -/
def undefined (n : Nat) : PointerArray α n := ⟨List.replicate n .undefined, List.length_replicate⟩

/-- All cells `NULL`, as `calloc` gives them. -/
def nulls (n : Nat) : PointerArray α n := ⟨List.replicate n .null, List.length_replicate⟩

/-- `a[i] = p`. -/
def store (a : PointerArray α n) (i : Int) (p : Pointer α) : Except Fault (PointerArray α n) :=
  if 0 ≤ i ∧ i.toNat < n then .ok ⟨a.cells.set i.toNat p, List.length_set.trans a.size⟩
  else .error (.outside i)

/-- `a[i]`; `none` is `NULL`. -/
def load (a : PointerArray α n) (i : Nat) : Except Fault (Option α) :=
  match a.cells[i]? with
  | none => .error (.outside i)
  | some .undefined => .error (.unset i)
  | some .null => .ok none
  | some (.object x) => .ok (some x)

/-- The objects in cells that start at `i`, as far as the `NULL`. -/
def readCells : Nat → List (Pointer α) → Except Fault (List α)
  | i, [] => .error (.outside i)
  | i, .undefined :: _ => .error (.unset i)
  | _, .null :: _ => .ok []
  | i, .object x :: cells => do .ok (x :: (← readCells (i + 1) cells))

/-- `while (*p) …; p++`, with `p` at `a + i`. -/
def readFrom (a : PointerArray α n) (i : Nat) : Except Fault (List α) :=
  readCells i (a.cells.drop i)

/-- `NULL` for each object, as far as the `NULL` behind them. -/
def clearCells : List (Pointer α) → List (Pointer α)
  | .object _ :: cells => .null :: clearCells cells
  | cells => cells

theorem length_clearCells (cells : List (Pointer α)) :
    (clearCells cells).length = cells.length := by
  induction cells with
  | nil => rfl
  | cons p cells ih =>
      cases p with
      | undefined => rfl
      | null => rfl
      | object x => rw [clearCells, List.length_cons, ih, List.length_cons]

/-- `while (*p) { …; *p = 0; p++; }`, with `p` at `a`. -/
def clear (a : PointerArray α n) : Except Fault (PointerArray α n) := do
  let _ ← a.readFrom 0
  .ok ⟨clearCells a.cells, (length_clearCells a.cells).trans a.size⟩

/-! ### What the first cells hold -/

def Starts (a : PointerArray α n) (xs : List α) : Prop := xs.map .object <+: a.cells

def Terminated (a : PointerArray α n) (xs : List α) : Prop :=
  xs.map .object ++ [.null] <+: a.cells

theorem starts_nil (a : PointerArray α n) : a.Starts [] := List.nil_prefix

theorem Starts.length_le {a : PointerArray α n} {xs : List α} (h : a.Starts xs) :
    xs.length ≤ n := by
  have short := List.IsPrefix.length_le h
  rwa [List.length_map, a.size] at short

theorem store_outside (a : PointerArray α n) {i : Nat} (outside : n ≤ i) (p : Pointer α) :
    a.store i p = .error (.outside i) :=
  if_neg fun inside => Nat.not_lt_of_le outside inside.2

/-- What is in front of the cell stays, and `p` follows it. -/
theorem store_behind {a : PointerArray α n} {front : List (Pointer α)} (h : front <+: a.cells)
    (room : front.length < n) (p : Pointer α) :
    ∃ b, a.store front.length p = .ok b ∧ front ++ [p] <+: b.cells := by
  refine ⟨_, if_pos ⟨Int.natCast_nonneg _, room⟩, ?_⟩
  obtain ⟨behind, eq⟩ := h
  obtain ⟨q, behind, rfl⟩ : ∃ q rest, behind = q :: rest := by
    refine List.exists_cons_of_ne_nil ?_
    rintro rfl
    have full := congrArg List.length eq
    rw [List.append_nil, a.size] at full
    omega
  refine ⟨behind, ?_⟩
  change _ = a.cells.set front.length p
  rw [← eq, List.set_append_right _ _ (Nat.le_refl _), Nat.sub_self, List.set_cons_zero,
    List.append_assoc, List.singleton_append]

/-- The first cell is written over. -/
theorem store_first {a : PointerArray α n} {q : Pointer α} {behind : List (Pointer α)}
    (h : q :: behind <+: a.cells) (p : Pointer α) :
    ∃ b, a.store 0 p = .ok b ∧ p :: behind <+: b.cells := by
  obtain ⟨more, eq⟩ := h
  have size := a.size
  rw [← eq, List.cons_append, List.length_cons] at size
  refine ⟨_, if_pos ⟨Int.le_refl 0, by rw [Int.toNat_zero]; omega⟩, more, ?_⟩
  change _ = a.cells.set 0 p
  rw [← eq, List.cons_append, List.cons_append, List.set_cons_zero]

theorem Starts.store {a : PointerArray α n} {xs : List α} (h : a.Starts xs) (room : xs.length < n)
    (p : Pointer α) :
    ∃ b, a.store xs.length p = .ok b ∧ xs.map .object ++ [p] <+: b.cells := by
  have stored := store_behind h (by rwa [List.length_map]) p
  rwa [List.length_map] at stored

theorem Starts.store_object {a : PointerArray α n} {xs : List α} (h : a.Starts xs)
    (room : xs.length < n) (x : α) :
    ∃ b, a.store xs.length (.object x) = .ok b ∧ b.Starts (xs ++ [x]) := by
  obtain ⟨b, stored, cells⟩ := h.store room (.object x)
  exact ⟨b, stored, by rwa [Starts, List.map_append]⟩

theorem Starts.store_null {a : PointerArray α n} {xs : List α} (h : a.Starts xs)
    (room : xs.length < n) : ∃ b, a.store xs.length .null = .ok b ∧ b.Terminated xs :=
  h.store room .null

theorem readCells_terminated (xs : List α) (i : Nat) (behind : List (Pointer α)) :
    readCells i (xs.map .object ++ [.null] ++ behind) = .ok xs := by
  induction xs generalizing i with
  | nil => rfl
  | cons x xs ih =>
      rw [List.map_cons, List.cons_append, List.cons_append, readCells, ih]
      rfl

/-- A terminated vector is read to its end, from any of its cells on. -/
theorem Terminated.readFrom {a : PointerArray α n} (xs : List α) {ys : List α}
    (h : a.Terminated (xs ++ ys)) : a.readFrom xs.length = .ok ys := by
  obtain ⟨behind, eq⟩ := h
  rw [PointerArray.readFrom, ← eq, List.map_append, List.append_assoc, List.append_assoc,
    List.drop_left' (List.length_map _), ← List.append_assoc, readCells_terminated]

theorem Terminated.load_at {a : PointerArray α n} (xs : List α) {x : α} {ys : List α}
    (h : a.Terminated (xs ++ x :: ys)) : a.load xs.length = .ok (some x) := by
  obtain ⟨behind, eq⟩ := h
  have cell : a.cells[xs.length]? = some (.object x) := by
    rw [← eq]
    simp
  rw [PointerArray.load, cell]

theorem Terminated.load {a : PointerArray α n} {x : α} {xs : List α}
    (h : a.Terminated (x :: xs)) : a.load 0 = .ok (some x) :=
  Terminated.load_at [] h

theorem Terminated.starts {a : PointerArray α n} (xs : List α) {ys : List α}
    (h : a.Terminated (xs ++ ys)) : a.Starts xs := by
  rw [Terminated, List.map_append, List.append_assoc] at h
  exact (List.prefix_append _ _).trans h

theorem Terminated.load_nil {a : PointerArray α n} (h : a.Terminated []) :
    a.load 0 = .ok none := by
  obtain ⟨behind, eq⟩ := h
  rw [PointerArray.load, ← eq]
  rfl

theorem Terminated.clear {a : PointerArray α n} {xs : List α} (h : a.Terminated xs) :
    ∃ b, a.clear = .ok b := by
  have read : a.readFrom 0 = .ok xs := Terminated.readFrom [] h
  rw [PointerArray.clear, read]
  exact ⟨_, rfl⟩

end PointerArray
