import Mathlib.Logic.Function.Basic
import Mathlib.Data.List.Basic

/-!
Stores updated by messages, each message touching at most one key.

A message of type `M` is given its effect by `upd : M → Option (K × Option V)`:
nothing, or one key that is set or erased. After any list of messages a key
holds what its last toucher left (`replay_eq_last`), so two lists with the same
last toucher of a key agree on it (`replay_congr_last`). Reading one
principal's messages only is then harmless exactly as far as that principal
owns the last touch (`replay_filter`).
-/

namespace KeyedStore

variable {K V M : Type} [DecidableEq K]

/-- The store after one message. -/
def apply (upd : M → Option (K × Option V)) (t : K → Option V) (m : M) : K → Option V :=
  match upd m with
  | none => t
  | some (k, v) => Function.update t k v

/-- The store after a list of messages, oldest first. -/
def replay (upd : M → Option (K × Option V)) (t : K → Option V) (ms : List M) : K → Option V :=
  ms.foldl (apply upd) t

/-- `m` sets or erases the key `k`. -/
def touches (upd : M → Option (K × Option V)) (k : K) (m : M) : Bool :=
  match upd m with
  | none => false
  | some (k', _) => decide (k' = k)

/-- The last message that touches `k`. -/
def lastTouch (upd : M → Option (K × Option V)) (k : K) (ms : List M) : Option M :=
  (ms.filter (touches upd k)).getLast?

section Replay

variable {upd : M → Option (K × Option V)}

@[simp] theorem replay_nil (t : K → Option V) : replay upd t [] = t := rfl

@[simp] theorem replay_cons (t : K → Option V) (m : M) (ms : List M) :
    replay upd t (m :: ms) = replay upd (apply upd t m) ms := rfl

theorem replay_append (t : K → Option V) (xs ys : List M) :
    replay upd t (xs ++ ys) = replay upd (replay upd t xs) ys :=
  List.foldl_append

theorem apply_of_not_touches {t : K → Option V} {k : K} {m : M} (h : touches upd k m = false) :
    apply upd t m k = t k := by
  unfold touches at h
  unfold apply
  cases hm : upd m with
  | none => rfl
  | some p =>
      rw [hm] at h
      exact Function.update_of_ne (fun eq => (of_decide_eq_false h) eq.symm) _ _

theorem touches_iff {k : K} {m : M} :
    touches upd k m = true ↔ ∃ v, upd m = some (k, v) := by
  unfold touches
  cases upd m with
  | none => simp
  | some p =>
      obtain ⟨k', v⟩ := p
      simp only [decide_eq_true_eq, Option.some.injEq, Prod.mk.injEq]
      constructor
      · intro eq
        exact ⟨v, eq, rfl⟩
      · rintro ⟨_, eq, _⟩
        exact eq

/-- A toucher leaves its own value, whatever the store was. -/
theorem apply_of_touches (t t' : K → Option V) {k : K} {m : M} (h : touches upd k m = true) :
    apply upd t m k = apply upd t' m k := by
  obtain ⟨v, hv⟩ := touches_iff.mp h
  simp [apply, hv]

/-- A message leaves equal values where it found equal values. -/
theorem apply_congr {t t' : K → Option V} {k : K} (m : M) (h : t k = t' k) :
    apply upd t m k = apply upd t' m k := by
  cases touch : touches upd k m with
  | true => exact apply_of_touches t t' touch
  | false => rw [apply_of_not_touches touch, apply_of_not_touches touch, h]

theorem replay_of_not_touched {t : K → Option V} {k : K} {ms : List M}
    (h : ∀ m ∈ ms, touches upd k m = false) : replay upd t ms k = t k := by
  induction ms generalizing t with
  | nil => rfl
  | cons m ms ih =>
      obtain ⟨head, tail⟩ := List.forall_mem_cons.mp h
      rw [replay_cons, ih tail]
      exact apply_of_not_touches head

theorem lastTouch_eq_none {k : K} {ms : List M} :
    lastTouch upd k ms = none ↔ ∀ m ∈ ms, touches upd k m = false := by
  simp [lastTouch]

/-- The last toucher splits the messages: nothing after it touches the key. -/
theorem lastTouch_eq_some {k : K} {ms : List M} {m : M} (h : lastTouch upd k ms = some m) :
    ∃ before after, ms = before ++ m :: after ∧ touches upd k m = true ∧
      ∀ x ∈ after, touches upd k x = false := by
  induction ms with
  | nil => simp [lastTouch] at h
  | cons x ms ih =>
      cases hrest : lastTouch upd k ms with
      | some y =>
          have same : lastTouch upd k (x :: ms) = some y := by
            unfold lastTouch at hrest ⊢
            rw [List.filter_cons]
            split
            · rw [List.getLast?_cons, hrest]
              rfl
            · exact hrest
          obtain rfl : y = m := Option.some.inj (same.symm.trans h)
          obtain ⟨before, after, eq, touch, later⟩ := ih hrest
          exact ⟨x :: before, after, by rw [eq]; rfl, touch, later⟩
      | none =>
          have quiet := lastTouch_eq_none.mp hrest
          have empty : ms.filter (touches upd k) = [] :=
            List.filter_eq_nil_iff.mpr fun y hy => by simp [quiet y hy]
          unfold lastTouch at h
          rw [List.filter_cons, empty] at h
          split at h
          · rename_i touch
            cases h
            exact ⟨[], ms, rfl, touch, quiet⟩
          · cases h

/-- After a replay a key holds what its last toucher left, or its old value. -/
theorem replay_eq_last (t : K → Option V) (k : K) (ms : List M) :
    replay upd t ms k =
      match lastTouch upd k ms with
      | none => t k
      | some m => apply upd t m k := by
  cases h : lastTouch upd k ms with
  | none => exact replay_of_not_touched (lastTouch_eq_none.mp h)
  | some m =>
      obtain ⟨before, after, rfl, touch, later⟩ := lastTouch_eq_some h
      rw [replay_append, replay_cons, replay_of_not_touched later]
      exact apply_of_touches _ _ touch

/-- Two replays with the same last toucher of a key agree on that key. -/
theorem replay_congr_last {t : K → Option V} {k : K} {xs ys : List M}
    (h : lastTouch upd k xs = lastTouch upd k ys) : replay upd t xs k = replay upd t ys k := by
  rw [replay_eq_last, replay_eq_last, h]

/-- Dropping messages keeps the last toucher when it is among those kept. -/
theorem lastTouch_filter {p : M → Bool} {k : K} {ms : List M}
    (h : ∀ m, lastTouch upd k ms = some m → p m = true) :
    lastTouch upd k (ms.filter p) = lastTouch upd k ms := by
  cases hl : lastTouch upd k ms with
  | none =>
      rw [lastTouch_eq_none] at hl ⊢
      exact fun m hm => hl m (List.mem_of_mem_filter hm)
  | some m =>
      obtain ⟨before, after, rfl, touch, later⟩ := lastTouch_eq_some hl
      have quiet : (after.filter p).filter (touches upd k) = [] :=
        List.filter_eq_nil_iff.mpr fun x hx => by simp [later x (List.mem_of_mem_filter hx)]
      unfold lastTouch
      rw [List.filter_append, List.filter_cons, if_pos (h m hl), List.filter_append,
        List.filter_cons, if_pos touch, quiet]
      simp

/-- Replaying only the messages that satisfy `p` gives the same value for `k`,
provided the last toucher of `k`, if there is one, satisfies `p`. -/
theorem replay_filter {p : M → Bool} {t : K → Option V} {k : K} {ms : List M}
    (h : ∀ m, lastTouch upd k ms = some m → p m = true) :
    replay upd t (ms.filter p) k = replay upd t ms k :=
  replay_congr_last (lastTouch_filter h)

end Replay

end KeyedStore
