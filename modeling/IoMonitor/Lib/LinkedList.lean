import Mathlib.Data.List.Nodup
import Mathlib.Logic.Function.Basic

/-!
Singly linked lists in a heap.

`Linked next p nodes` reads the heap's links: following `next` from `p` passes
through exactly `nodes` and ends in a null pointer. `Holds heap p nodes` reads
the cells as well. Such a list is finite, and has no cycle (`Holds.nodup`).
-/

namespace LinkedList

variable {A : Type} {next : A → Option A}

def Linked (next : A → Option A) : Option A → List A → Prop
  | p, [] => p = none
  | p, n :: rest => p = some n ∧ Linked next (next n) rest

@[simp] theorem linked_nil {p : Option A} : Linked next p [] ↔ p = none := Iff.rfl

@[simp] theorem linked_cons {p : Option A} {n : A} {rest : List A} :
    Linked next p (n :: rest) ↔ p = some n ∧ Linked next (next n) rest := Iff.rfl

/-- A list that starts at a node has that node first. -/
theorem Linked.of_some {n : A} : ∀ {nodes : List A}, Linked next (some n) nodes →
    ∃ rest, nodes = n :: rest ∧ Linked next (next n) rest
  | _ :: rest, ⟨start, tail⟩ => by
      cases start
      exact ⟨rest, rfl, tail⟩

/-- The pointer at which a segment of the list starts. -/
theorem Linked.suffix {p : Option A} {n : A} :
    ∀ {before after : List A}, Linked next p (before ++ n :: after) → Linked next (next n) after
  | [], _, h => h.2
  | _ :: _, _, h => Linked.suffix h.2

theorem Linked.head_mem {n : A} {nodes : List A} (h : Linked next (some n) nodes) :
    n ∈ nodes := by
  obtain ⟨rest, rfl, -⟩ := h.of_some
  exact List.mem_cons_self

/-- The link of a node of the list is null or leads to a node of the list. -/
theorem Linked.next_mem {p : Option A} {nodes : List A} (h : Linked next p nodes) {n m : A}
    (hn : n ∈ nodes) (link : next n = some m) : m ∈ nodes := by
  obtain ⟨before, after, rfl⟩ := List.append_of_mem hn
  have tail := h.suffix
  rw [link] at tail
  exact List.mem_append_right _ (List.mem_cons_of_mem _ tail.head_mem)

variable [DecidableEq A]

/-- A write to a link outside the list is not seen. -/
theorem Linked.frame {j : A} {x : Option A} :
    ∀ {p : Option A} {nodes : List A}, j ∉ nodes → Linked next p nodes →
      Linked (Function.update next j x) p nodes
  | _, [], _, h => h
  | _, n :: rest, outside, ⟨start, tail⟩ => by
      have apart : n ≠ j := fun eq => outside (eq ▸ List.mem_cons_self)
      refine ⟨start, ?_⟩
      rw [Function.update_of_ne apart]
      exact tail.frame fun hj => outside (List.mem_cons_of_mem _ hj)

/-- Redirecting the link of the predecessor takes a node out of the list. -/
theorem Linked.unlink {p : Option A} {j n : A} {after : List A} :
    ∀ {before : List A}, (before ++ j :: n :: after).Nodup →
      Linked next p (before ++ j :: n :: after) →
      Linked (Function.update next j (next n)) p (before ++ j :: after)
  | [], distinct, ⟨start, _, tail⟩ => by
      have outside : j ∉ after := fun hj =>
        (List.nodup_cons.mp distinct).1 (List.mem_cons_of_mem _ hj)
      refine ⟨start, ?_⟩
      rw [Function.update_self]
      exact tail.frame outside
  | m :: before, distinct, ⟨start, tail⟩ => by
      obtain ⟨notIn, distinct'⟩ := List.nodup_cons.mp distinct
      have apart : m ≠ j := fun eq => notIn (by simp [eq])
      refine ⟨start, ?_⟩
      rw [Function.update_of_ne apart]
      exact tail.unlink distinct'

/-! ### Lists with their contents -/

structure Cell (A V : Type) where
  value : V
  next : Option A

/-- Memory; `none` is not allocated. -/
abbrev Heap (A V : Type) := A → Option (Cell A V)

section Holds

variable {A V : Type} {heap : Heap A V}

/-- From `p` on the heap holds the nodes, each at its address and with its value. -/
def Holds (heap : Heap A V) : Option A → List (A × V) → Prop
  | p, [] => p = none
  | p, n :: rest => p = some n.1 ∧ ∃ next, heap n.1 = some ⟨n.2, next⟩ ∧ Holds heap next rest

/-- A pointer leads to one list. -/
theorem Holds.unique {p : Option A} {xs ys : List (A × V)} (hx : Holds heap p xs)
    (hy : Holds heap p ys) : xs = ys := by
  induction xs generalizing p ys with
  | nil =>
      obtain rfl : p = none := hx
      cases ys with
      | nil => rfl
      | cons n rest => cases hy.1
  | cons n rest ih =>
      obtain ⟨a, v⟩ := n
      obtain ⟨rfl, next, cell, tail⟩ := hx
      cases ys with
      | nil => cases hy
      | cons n' rest' =>
          obtain ⟨a', v'⟩ := n'
          obtain ⟨same, next', cell', tail'⟩ := hy
          cases same
          rw [cell] at cell'
          cases cell'
          rw [ih tail tail']

/-- The list from a node on. -/
theorem Holds.suffix {p : Option A} {n : A × V} :
    ∀ {before after : List (A × V)}, Holds heap p (before ++ n :: after) →
      Holds heap (some n.1) (n :: after)
  | [], _, h => ⟨rfl, h.2⟩
  | _ :: _, _, ⟨_, _, _, tail⟩ => tail.suffix

/-- The cell of a node, and the list from its link on. -/
theorem Holds.here {p : Option A} {a : A} {v : V} {before after : List (A × V)}
    (h : Holds heap p (before ++ (a, v) :: after)) :
    ∃ next, heap a = some ⟨v, next⟩ ∧ Holds heap next after :=
  h.suffix.2

theorem Holds.cell {p : Option A} {nodes : List (A × V)} (h : Holds heap p nodes) {n : A × V}
    (mem : n ∈ nodes) : ∃ next, heap n.1 = some ⟨n.2, next⟩ := by
  obtain ⟨before, after, rfl⟩ := List.append_of_mem mem
  obtain ⟨-, next, cell, -⟩ := h.suffix
  exact ⟨next, cell⟩

/-- No node comes twice: the list from its second place would be that from the first. -/
theorem Holds.nodup {p : Option A} {nodes : List (A × V)} (h : Holds heap p nodes) :
    (nodes.map Prod.fst).Nodup := by
  induction nodes generalizing p with
  | nil => exact List.nodup_nil
  | cons n rest ih =>
      have whole : Holds heap (some n.1) (n :: rest) := h.1 ▸ h
      obtain ⟨-, next, -, tail⟩ := h
      refine List.nodup_cons.mpr ⟨fun again => ?_, ih tail⟩
      obtain ⟨n', mem, same⟩ := List.mem_map.mp again
      obtain ⟨before, after, rfl⟩ := List.append_of_mem mem
      have cycle := (same ▸ tail.suffix).unique whole
      have := congrArg List.length cycle
      simp only [List.length_cons, List.length_append] at this
      omega

variable [DecidableEq A]

/-- A write outside the list is not seen. -/
theorem Holds.frame {j : A} {c : Option (Cell A V)} :
    ∀ {p : Option A} {nodes : List (A × V)}, j ∉ nodes.map Prod.fst → Holds heap p nodes →
      Holds (Function.update heap j c) p nodes
  | _, [], _, h => h
  | _, n :: rest, outside, ⟨start, next, cell, tail⟩ => by
      have apart : n.1 ≠ j := fun eq => outside (eq ▸ List.mem_cons_self)
      refine ⟨start, next, ?_, tail.frame fun mem => outside (List.mem_cons_of_mem _ mem)⟩
      rw [Function.update_of_ne apart]
      exact cell

omit [DecidableEq A] in
/-- With the nodes before it left alone, the list from a node on may be replaced. -/
theorem Holds.splice {heap' : Heap A V} {n : A × V} {after tail : List (A × V)} :
    ∀ {p : Option A} {before : List (A × V)}, Holds heap p (before ++ n :: after) →
      (∀ m ∈ before, heap' m.1 = heap m.1) → Holds heap' (some n.1) tail →
      Holds heap' p (before ++ tail)
  | _, [], ⟨start, _⟩, _, new => start ▸ new
  | _, m :: before, ⟨start, next, cell, rest⟩, same, new => by
      obtain ⟨head, others⟩ := List.forall_mem_cons.mp same
      exact ⟨start, next, head.trans cell, rest.splice others new⟩

omit [DecidableEq A] in
/-- The nodes around one node have other addresses. -/
theorem Holds.apart {p : Option A} {before after : List (A × V)} {n : A × V}
    (h : Holds heap p (before ++ n :: after)) :
    (∀ m ∈ before, m.1 ≠ n.1) ∧ n.1 ∉ after.map Prod.fst := by
  have distinct := h.nodup
  rw [List.map_append, List.map_cons, List.nodup_append] at distinct
  obtain ⟨-, tail, across⟩ := distinct
  refine ⟨fun m hm => ?_, (List.nodup_cons.mp tail).1⟩
  exact across m.1 (List.mem_map_of_mem hm) n.1 List.mem_cons_self

/-- A new node behind the last. -/
theorem Holds.append {p : Option A} {j a : A} {v w : V} {before : List (A × V)}
    (h : Holds heap p (before ++ [(j, v)])) (fresh : a ∉ (before ++ [(j, v)]).map Prod.fst)
    (new : heap a = some ⟨w, none⟩) :
    Holds (Function.update heap j (some ⟨v, some a⟩)) p (before ++ [(j, v), (a, w)]) := by
  obtain ⟨others, -⟩ := h.apart
  have apart : a ≠ j := fun eq => fresh (by simp [eq])
  refine h.splice (fun m hm => Function.update_of_ne (others m hm) _ _)
    ⟨rfl, some a, Function.update_self _ _ _, rfl, none, ?_, rfl⟩
  rw [Function.update_of_ne apart]
  exact new

/-- A new node before the first. -/
theorem Holds.push {p : Option A} {nodes : List (A × V)} (h : Holds heap p nodes) {a : A}
    (fresh : a ∉ nodes.map Prod.fst) (v : V) :
    Holds (Function.update heap a (some ⟨v, p⟩)) (some a) ((a, v) :: nodes) :=
  ⟨rfl, p, Function.update_self _ _ _, h.frame fresh⟩

/-- The first node is freed. -/
theorem Holds.pop {p : Option A} {a : A} {v : V} {rest : List (A × V)}
    (h : Holds heap p ((a, v) :: rest)) : p = some a ∧
      ∃ next, heap a = some ⟨v, next⟩ ∧ Holds (Function.update heap a none) next rest := by
  have outside : a ∉ rest.map Prod.fst := (List.nodup_cons.mp h.nodup).1
  obtain ⟨start, next, cell, tail⟩ := h
  exact ⟨start, next, cell, tail.frame outside⟩

/-- Memory that holds the nodes and nothing else. -/
def Exactly (heap : Heap A V) (nodes : List (A × V)) : Prop :=
  ∀ a, heap a ≠ none → a ∈ nodes.map Prod.fst

theorem Exactly.push {nodes : List (A × V)} (h : Exactly heap nodes) (a : A) (v : V)
    (next : Option A) :
    Exactly (Function.update heap a (some ⟨v, next⟩)) ((a, v) :: nodes) := by
  intro b used
  rcases eq_or_ne b a with rfl | other
  · exact List.mem_cons_self
  · rw [Function.update_of_ne other] at used
    exact List.mem_cons_of_mem _ (h b used)

theorem Exactly.pop {a : A} {v : V} {rest : List (A × V)} (h : Exactly heap ((a, v) :: rest)) :
    Exactly (Function.update heap a none) rest := by
  intro b used
  rcases eq_or_ne b a with rfl | other
  · simp at used
  · rw [Function.update_of_ne other] at used
    exact (List.mem_cons.mp (h b used)).resolve_left other

/-- The link of the node before it led past, a node is freed. -/
theorem Holds.unlink {p : Option A} {j a : A} {v w : V} {before after : List (A × V)}
    {next : Option A} (h : Holds heap p (before ++ (j, v) :: (a, w) :: after))
    (cell : heap a = some ⟨w, next⟩) :
    Holds (Function.update (Function.update heap j (some ⟨v, next⟩)) a none) p
      (before ++ (j, v) :: after) := by
  obtain ⟨others, outside⟩ := h.apart
  have regrouped : Holds heap p ((before ++ [(j, v)]) ++ (a, w) :: after) := by
    rwa [List.append_assoc]
  obtain ⟨notFreed, freedOutside⟩ := regrouped.apart
  obtain ⟨next', cell', tail⟩ := regrouped.here
  obtain rfl : next = next' := by
    rw [cell] at cell'
    cases cell'
    rfl
  have kept : j ≠ a := notFreed (j, v) (List.mem_append_right _ List.mem_cons_self)
  refine h.splice (fun m hm => ?_) ⟨rfl, next, ?_, ?_⟩
  · rw [Function.update_of_ne (notFreed m (List.mem_append_left _ hm)),
      Function.update_of_ne (others m hm)]
  · rw [Function.update_of_ne kept, Function.update_self]
  · exact (tail.frame fun mem => outside (List.mem_cons_of_mem _ mem)).frame freedOutside

end Holds

end LinkedList
