import Mathlib.Data.List.Basic
import Mathlib.Data.List.TakeWhile

/-!
Sieves: filters of a stream that keep a state.

A sieve looks at one item after the other, changes its state, and lets the item
pass or not. Sieves in sequence are one sieve on the pair of their states, and
what passes both is what the second lets pass of what passes the first
(`pass_seq`). The sieves below have a closed form for what they let pass: a
filter, a wait, a fuse and windows in time.
-/

namespace Sieve

variable {S T α : Type}

/-- One step: the next state, and whether the item passes. -/
abbrev Step (S α : Type) := S → α → S × Bool

/-- The items that pass. -/
def pass (f : Step S α) : S → List α → List α
  | _, [] => []
  | s, a :: as =>
      if (f s a).2 then a :: pass f (f s a).1 as
      else pass f (f s a).1 as

@[simp] theorem pass_nil (f : Step S α) (s : S) : pass f s [] = [] := rfl

theorem pass_cons (f : Step S α) (s : S) (a : α) (as : List α) :
    pass f s (a :: as) =
      if (f s a).2 then a :: pass f (f s a).1 as else pass f (f s a).1 as := rfl

theorem pass_cons_pos {f : Step S α} {s s' : S} {a : α} (h : f s a = (s', true)) (as : List α) :
    pass f s (a :: as) = a :: pass f s' as := by
  simp [pass_cons, h]

theorem pass_cons_neg {f : Step S α} {s s' : S} {a : α} (h : f s a = (s', false)) (as : List α) :
    pass f s (a :: as) = pass f s' as := by
  simp [pass_cons, h]

/-- What passes is part of what comes. -/
theorem pass_sublist (f : Step S α) (s : S) (as : List α) : (pass f s as).Sublist as := by
  induction as generalizing s with
  | nil => exact .slnil
  | cons a as ih =>
      rw [pass_cons]
      split
      · exact (ih _).cons_cons a
      · exact (ih _).cons a

/-! ### Sequences -/

/-- The second sieve looks at what passes the first. -/
def seq (f : Step S α) (g : Step T α) : Step (S × T) α := fun s a =>
  if (f s.1 a).2 then (((f s.1 a).1, (g s.2 a).1), (g s.2 a).2)
  else (((f s.1 a).1, s.2), false)

theorem pass_seq (f : Step S α) (g : Step T α) (s : S) (t : T) (as : List α) :
    pass (seq f g) (s, t) as = pass g t (pass f s as) := by
  induction as generalizing s t with
  | nil => rfl
  | cons a as ih =>
      by_cases first : (f s a).2 = true
      · simp only [pass_cons, seq, first, if_true, ih]
      · simp only [pass_cons, seq, first, if_false, ih, Bool.false_eq_true]

/-! ### Filters and waits -/

/-- A sieve without a state. -/
def keeping (p : α → Bool) : Step Unit α := fun _ a => ((), p a)

theorem pass_keeping (p : α → Bool) (as : List α) : pass (keeping p) () as = as.filter p := by
  induction as with
  | nil => rfl
  | cons a as ih => rw [pass_cons, List.filter_cons, ← ih]; rfl

/-- Nothing passes before the first item with `p`. The state says whether the
sieve is still waiting. -/
def waiting (p : α → Bool) : Step Bool α := fun waits a => (waits && !p a, !waits || p a)

theorem pass_waiting_false (p : α → Bool) (as : List α) : pass (waiting p) false as = as := by
  induction as with
  | nil => rfl
  | cons a as ih => simp [pass_cons, waiting, ih]

theorem pass_waiting (p : α → Bool) (as : List α) :
    pass (waiting p) true as = as.dropWhile fun a => !p a := by
  induction as with
  | nil => rfl
  | cons a as ih =>
      cases found : p a with
      | false => simp [pass_cons, waiting, found, ih]
      | true => simp [pass_cons, waiting, found, pass_waiting_false]

/-! ### Fuses -/

/-- Up to the first item with `p`, that one included. -/
def takeThrough (p : α → Bool) : List α → List α
  | [] => []
  | a :: as => if p a then [a] else a :: takeThrough p as

/-- An item that passes and has `p` blows the fuse, and nothing passes any more.
The state says whether the fuse is blown. -/
def fused (p : α → Bool) (f : Step S α) : Step (Bool × S) α := fun s a =>
  if s.1 then (s, false)
  else (((f s.2 a).2 && p a, (f s.2 a).1), (f s.2 a).2)

/-- An item blows the fuse if it passes and has `p`. -/
theorem fused_blown (p : α → Bool) (f : Step S α) (s : Bool × S) (a : α) :
    (fused p f s a).1.1 = (s.1 || ((fused p f s a).2 && p a)) := by
  obtain ⟨blown, s⟩ := s
  cases blown <;> rfl

theorem fused_passes {p : α → Bool} {f : Step S α} {s : Bool × S} {a : α}
    (passes : (fused p f s a).2 = true) : s.1 = false := by
  obtain ⟨blown, s⟩ := s
  cases blown with
  | false => rfl
  | true => cases passes

theorem pass_fused_true (p : α → Bool) (f : Step S α) (s : S) (as : List α) :
    pass (fused p f) (true, s) as = [] := by
  induction as with
  | nil => rfl
  | cons a as ih => exact (pass_cons_neg (f := fused p f) rfl as).trans ih

theorem pass_fused (p : α → Bool) (f : Step S α) (s : S) (as : List α) :
    pass (fused p f) (false, s) as = takeThrough p (pass f s as) := by
  induction as generalizing s with
  | nil => rfl
  | cons a as ih =>
      by_cases passes : (f s a).2 = true
      · cases blows : p a with
        | false => simp [pass_cons, fused, passes, blows, takeThrough, ih]
        | true => simp [pass_cons, fused, passes, blows, takeThrough, pass_fused_true]
      · simp [pass_cons, fused, passes, ih]

/-! ### Windows in time -/

/-- There has been no window, or the last one began at `start` and is open or
shut. -/
inductive Window where
  | never
  | opened (start : Nat)
  | shut (start : Nat)
  deriving DecidableEq, Repr

/-- A window is opened by an item that passes, and shut by one that does not: the
first one `d` or more after the start. An item `f` or more after the start of a
shut window opens the next. -/
def windowed (time : α → Nat) (f d : Nat) : Step Window α := fun w a =>
  match w with
  | .never => (.opened (time a), true)
  | .opened s => if s + d ≤ time a then (.shut s, false) else (.opened s, true)
  | .shut s => if s + f ≤ time a then (.opened (time a), true) else (.shut s, false)

/-- The items in windows: of what follows the first item, the items until one
comes `d` or more after it; that one is lost; then those are skipped that come
less than `f` after the first, and the next window begins. -/
def windows (time : α → Nat) (f d : Nat) : List α → List α
  | [] => []
  | a :: as =>
      a :: (as.takeWhile fun b => time b < time a + d) ++
        windows time f d
          (((as.dropWhile fun b => time b < time a + d).tail).dropWhile fun b =>
            time b < time a + f)
  termination_by as => as.length
  decreasing_by
    have shutting := List.length_dropWhile_le (fun b => decide (time b < time a + d)) as
    have waiting := List.length_dropWhile_le (fun b => decide (time b < time a + f))
      (as.dropWhile fun b => decide (time b < time a + d)).tail
    rw [List.length_tail] at waiting
    rw [List.length_cons]
    omega

theorem pass_windowed_shut (time : α → Nat) (f d s : Nat) (as : List α) :
    pass (windowed time f d) (.shut s) as =
      pass (windowed time f d) .never (as.dropWhile fun b => time b < s + f) := by
  induction as with
  | nil => rfl
  | cons a as ih =>
      by_cases due : s + f ≤ time a
      · have stays : ¬ time a < s + f := by omega
        rw [List.dropWhile_cons_of_neg (by simpa using stays), pass_cons, pass_cons]
        simp [windowed, due]
      · have skipped : time a < s + f := by omega
        rw [List.dropWhile_cons_of_pos (by simpa using skipped), ← ih]
        exact pass_cons_neg (by simp [windowed, due]) as

theorem pass_windowed_opened (time : α → Nat) (f d s : Nat) (as : List α) :
    pass (windowed time f d) (.opened s) as =
      (as.takeWhile fun b => time b < s + d) ++
        pass (windowed time f d) (.shut s) (as.dropWhile fun b => time b < s + d).tail := by
  induction as with
  | nil => rfl
  | cons a as ih =>
      by_cases ended : s + d ≤ time a
      · have outside : ¬ time a < s + d := by omega
        rw [List.takeWhile_cons_of_neg (by simpa using outside),
          List.dropWhile_cons_of_neg (by simpa using outside)]
        exact pass_cons_neg (by simp [windowed, ended]) as
      · have inside : time a < s + d := by omega
        rw [List.takeWhile_cons_of_pos (by simpa using inside),
          List.dropWhile_cons_of_pos (by simpa using inside), List.cons_append, ← ih]
        exact pass_cons_pos (by simp [windowed, ended]) as

theorem pass_windowed (time : α → Nat) (f d : Nat) (as : List α) :
    pass (windowed time f d) .never as = windows time f d as := by
  fun_induction windows time f d as with
  | case1 => rfl
  | case2 a as ih =>
      have opens : windowed time f d .never a = (.opened (time a), true) := rfl
      rw [pass_cons_pos opens, pass_windowed_opened, pass_windowed_shut, ih, List.cons_append]

end Sieve
