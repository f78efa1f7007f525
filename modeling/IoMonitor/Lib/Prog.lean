import Mathlib.Logic.Basic

/-!
Programs over a state that return, crash, or run out of fuel.

A run that crashes keeps the state it crashed in; one that runs out of fuel has
no result. `Transitions` is the rule for a relation between the states before
and after: it holds of a program if it holds of its parts.
-/

/-- How a run ends. -/
inductive Exit (σ α : Type) where
  | returned (a : α) (s : σ)
  | crashed (s : σ)
  | exhausted

def Prog (σ α : Type) : Type := σ → Exit σ α

namespace Prog

variable {σ α β : Type}

instance : Monad (Prog σ) where
  pure a s := .returned a s
  bind p f s :=
    match p s with
    | .returned a s' => f a s'
    | .crashed s' => .crashed s'
    | .exhausted => .exhausted

def crash : Prog σ α := fun s => .crashed s

def exhaust : Prog σ α := fun _ => .exhausted

def get : Prog σ σ := fun s => .returned s s

def modify (f : σ → σ) : Prog σ Unit := fun s => .returned () (f s)

@[simp] theorem pure_apply (a : α) (s : σ) : (pure a : Prog σ α) s = .returned a s := rfl

theorem bind_apply (p : Prog σ α) (f : α → Prog σ β) (s : σ) :
    (p >>= f) s = match p s with
      | .returned a s' => f a s'
      | .crashed s' => .crashed s'
      | .exhausted => .exhausted := rfl

@[simp] theorem modify_apply (f : σ → σ) (s : σ) : modify f s = .returned () (f s) := rfl

@[simp] theorem get_bind (f : σ → Prog σ β) (s : σ) : (get >>= f) s = f s s := rfl

@[simp] theorem modify_bind (g : σ → σ) (f : Unit → Prog σ β) (s : σ) :
    (modify g >>= f) s = f () (g s) := rfl

/-- A first part that returns hands over to the second. -/
theorem bind_of_returned {p : Prog σ α} {f : α → Prog σ β} {s s' : σ} {a : α}
    (h : p s = .returned a s') : (p >>= f) s = f a s' := by
  rw [bind_apply, h]

theorem bind_of_crashed {p : Prog σ α} {f : α → Prog σ β} {s s' : σ}
    (h : p s = .crashed s') : (p >>= f) s = .crashed s' := by
  rw [bind_apply, h]

theorem bind_of_exhausted {p : Prog σ α} {f : α → Prog σ β} {s : σ}
    (h : p s = .exhausted) : (p >>= f) s = .exhausted := by
  rw [bind_apply, h]

/-- Sequences that agree part by part, from the state at hand, agree. -/
theorem bind_congr {p p' : Prog σ α} {f f' : α → Prog σ β} {s : σ} (first : p s = p' s)
    (second : ∀ a s', p' s = .returned a s' → f a s' = f' a s') : (p >>= f) s = (p' >>= f') s := by
  rw [bind_apply, bind_apply, first]
  cases h : p' s with
  | returned a s' => exact second a s' h
  | crashed s' => rfl
  | exhausted => rfl

/-- A sequence returns iff its parts do, one after the other. -/
theorem bind_returned_iff {p : Prog σ α} {f : α → Prog σ β} {s t : σ} {b : β} :
    (p >>= f) s = .returned b t ↔
      ∃ a s', p s = .returned a s' ∧ f a s' = .returned b t := by
  cases h : p s with
  | returned a s' =>
      rw [bind_apply, h]
      constructor
      · exact fun second => ⟨a, s', rfl, second⟩
      · rintro ⟨a', t', first, second⟩
        cases first
        exact second
  | crashed s' => simp [bind_apply, h]
  | exhausted => simp [bind_apply, h]

end Prog

/-! ### What holds where a run ends -/

namespace Exit

variable {σ α : Type}

/-- `P` holds where the run ends, if it does. -/
def All (P : σ → Prop) : Exit σ α → Prop
  | returned _ s => P s
  | crashed s => P s
  | exhausted => True

/-- The run ends, and `P` holds there. -/
def Ends (P : σ → Prop) : Exit σ α → Prop
  | returned _ s => P s
  | crashed s => P s
  | exhausted => False

theorem All.mono {P Q : σ → Prop} (imp : ∀ s, P s → Q s) {x : Exit σ α} (h : x.All P) :
    x.All Q := by
  cases x with
  | returned a s => exact imp s h
  | crashed s => exact imp s h
  | exhausted => trivial

theorem Ends.mono {P Q : σ → Prop} (imp : ∀ s, P s → Q s) {x : Exit σ α} (h : x.Ends P) :
    x.Ends Q := by
  cases x with
  | returned a s => exact imp s h
  | crashed s => exact imp s h
  | exhausted => exact h

theorem Ends.and {P Q : σ → Prop} {x : Exit σ α} (h : x.Ends P) (h' : x.All Q) :
    x.Ends fun s => P s ∧ Q s := by
  cases x with
  | returned a s => exact ⟨h, h'⟩
  | crashed s => exact ⟨h, h'⟩
  | exhausted => exact h

theorem Ends.exists {P : σ → Prop} {x : Exit σ α} (h : x.Ends P) : ∃ s, P s := by
  cases x with
  | returned a s => exact ⟨s, h⟩
  | crashed s => exact ⟨s, h⟩
  | exhausted => exact h.elim

end Exit

namespace Prog

variable {σ α β : Type} {P Q : σ → Prop}

theorem all_bind {p : Prog σ α} {f : α → Prog σ β} {s : σ} (first : (p s).All P)
    (stop : ∀ s', P s' → Q s') (second : ∀ a s', P s' → (f a s').All Q) : ((p >>= f) s).All Q := by
  rw [bind_apply]
  cases h : p s with
  | returned a s' =>
      rw [h] at first
      exact second a s' first
  | crashed s' =>
      rw [h] at first
      exact stop s' first
  | exhausted => trivial

theorem ends_bind {p : Prog σ α} {f : α → Prog σ β} {s : σ} (first : (p s).Ends P)
    (second : ∀ a s', P s' → (f a s').Ends P) : ((p >>= f) s).Ends P := by
  rw [bind_apply]
  cases h : p s with
  | returned a s' =>
      rw [h] at first
      exact second a s' first
  | crashed s' =>
      rw [h] at first
      exact first
  | exhausted =>
      rw [h] at first
      exact first.elim

/-- `R` holds between the states before and after. -/
def Transitions (R : σ → σ → Prop) (p : Prog σ α) : Prop := ∀ s, (p s).All (R s)

namespace Transitions

variable {R : σ → σ → Prop}

theorem pure (refl : ∀ s, R s s) (a : α) : Transitions R (Pure.pure a : Prog σ α) :=
  fun s => refl s

theorem crash (refl : ∀ s, R s s) : Transitions R (Prog.crash : Prog σ α) := fun s => refl s

theorem exhaust : Transitions R (Prog.exhaust : Prog σ α) := fun _ => trivial

theorem modify {f : σ → σ} (h : ∀ s, R s (f s)) : Transitions R (Prog.modify f) := h

theorem bind (trans : ∀ s t u, R s t → R t u → R s u) {p : Prog σ α} {f : α → Prog σ β}
    (hp : Transitions R p) (hf : ∀ a, Transitions R (f a)) : Transitions R (p >>= f) :=
  fun s => all_bind (hp s) (fun _ h => h) fun a t first =>
    (hf a t).mono fun u second => trans s t u first second

end Transitions

end Prog

/-! ### With a trace -/

/-- Programs that also leave events, however the run ends. -/
def Traced (ε σ α : Type) : Type := σ → List ε × Exit σ α

namespace Traced

variable {ε σ α β : Type}

instance : Monad (Traced ε σ) where
  pure a s := ([], .returned a s)
  bind p f s :=
    match (p s).2 with
    | .returned a s' => ((p s).1 ++ (f a s').1, (f a s').2)
    | .crashed s' => ((p s).1, .crashed s')
    | .exhausted => ((p s).1, .exhausted)

def event (e : ε) : Traced ε σ Unit := fun s => ([e], .returned () s)

/-- A program without events of its own. -/
def lift (p : Prog σ α) : Traced ε σ α := fun s => ([], p s)

@[simp] theorem pure_apply (a : α) (s : σ) :
    (pure a : Traced ε σ α) s = ([], .returned a s) := rfl

@[simp] theorem event_bind (e : ε) (f : Unit → Traced ε σ β) (s : σ) :
    (event e >>= f) s = (e :: (f () s).1, (f () s).2) := rfl

@[simp] theorem lift_modify_bind (g : σ → σ) (f : Unit → Traced ε σ β) (s : σ) :
    (lift (Prog.modify g) >>= f) s = f () (g s) := rfl

theorem bind_apply (p : Traced ε σ α) (f : α → Traced ε σ β) (s : σ) :
    (p >>= f) s = match (p s).2 with
      | .returned a s' => ((p s).1 ++ (f a s').1, (f a s').2)
      | .crashed s' => ((p s).1, .crashed s')
      | .exhausted => ((p s).1, .exhausted) := rfl

/-- A first part that returns leaves its events before those of the second. -/
theorem bind_of_returned {p : Traced ε σ α} {s s' : σ} {a : α} {trace : List ε}
    (h : p s = (trace, .returned a s')) (f : α → Traced ε σ β) :
    (p >>= f) s = (trace ++ (f a s').1, (f a s').2) := by
  rw [bind_apply, h]

theorem bind_of_crashed {p : Traced ε σ α} {s s' : σ} {trace : List ε}
    (h : p s = (trace, .crashed s')) (f : α → Traced ε σ β) :
    (p >>= f) s = (trace, .crashed s') := by
  rw [bind_apply, h]

theorem mem_bind {p : Traced ε σ α} {s : σ} {e : ε} (mem : e ∈ (p s).1) (f : α → Traced ε σ β) :
    e ∈ ((p >>= f) s).1 := by
  rw [bind_apply]
  cases (p s).2 with
  | returned a s' => exact List.mem_append_left _ mem
  | crashed s' => exact mem
  | exhausted => exact mem

/-- What follows a program leaves no events if it has none. -/
theorem lift_bind_trace {p : Prog σ α} {f : α → Traced ε σ β} {s : σ}
    (none : ∀ a s', (f a s').1 = []) : ((lift p >>= f) s).1 = [] := by
  rw [bind_apply, lift]
  cases p s with
  | returned a s' => exact none a s'
  | crashed s' => rfl
  | exhausted => rfl

end Traced
