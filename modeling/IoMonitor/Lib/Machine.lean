import Mathlib.Data.List.Infix
import Mathlib.Logic.Basic

/-!
Partial machines: a step may refuse its input, and a run is the fold of its steps.

`run_invariant` is the rule for safety over whole runs. `forall_prefix_iff`
turns a per-step account of where a property is kept and where it is lost into
an exact statement about runs: the property holds after every prefix of the run
iff every step of the run meets the condition.
-/

namespace Machine

variable {S I : Type} {step : S → I → Option S}

/-- The state after a list of inputs, if the machine accepts all of them. -/
def run (step : S → I → Option S) (s : S) (inputs : List I) : Option S :=
  inputs.foldlM step s

@[simp] theorem run_nil (s : S) : run step s [] = some s := rfl

theorem run_cons (s : S) (i : I) (inputs : List I) :
    run step s (i :: inputs) = (step s i).bind fun s' => run step s' inputs := rfl

theorem run_append (s : S) (xs ys : List I) :
    run step s (xs ++ ys) = (run step s xs).bind fun s' => run step s' ys := by
  simp only [run, List.foldlM_append]
  rfl

/-- An accepted run starts with an accepted step. -/
theorem run_cons_some {s t : S} {i : I} {inputs : List I}
    (h : run step s (i :: inputs) = some t) :
    ∃ s', step s i = some s' ∧ run step s' inputs = some t := by
  rw [run_cons] at h
  exact Option.bind_eq_some_iff.mp h

/-- Every prefix of an accepted run is accepted. -/
theorem run_prefix {s t : S} {xs ys : List I} (h : run step s (xs ++ ys) = some t) :
    ∃ m, run step s xs = some m ∧ run step m ys = some t := by
  rw [run_append] at h
  exact Option.bind_eq_some_iff.mp h

/-- What holds at the start and is kept by every accepted step on inputs `A` admits
holds at the end of every accepted run of such inputs. -/
theorem run_invariant_of {inv : S → Prop} {A : I → Prop}
    (keep : ∀ s i s', inv s → A i → step s i = some s' → inv s') {inputs : List I} {s t : S}
    (start : inv s) (admits : ∀ i ∈ inputs, A i) (h : run step s inputs = some t) : inv t := by
  induction inputs generalizing s with
  | nil =>
      cases h
      exact start
  | cons i inputs ih =>
      obtain ⟨admitted, later⟩ := List.forall_mem_cons.mp admits
      obtain ⟨s', first, rest⟩ := run_cons_some h
      exact ih (keep s i s' start admitted first) later rest

/-- What holds at the start and is kept by every accepted step holds at the end
of every accepted run. -/
theorem run_invariant {inv : S → Prop}
    (keep : ∀ s i s', inv s → step s i = some s' → inv s') (inputs : List I) {s t : S}
    (start : inv s) (h : run step s inputs = some t) : inv t :=
  run_invariant_of (A := fun _ => True) (fun s i s' hs _ => keep s i s' hs) start
    (fun _ _ => trivial) h

/-- A run is accepted if every step is, from what the steps keep. -/
theorem run_isSome {inv : S → Prop} {A : I → Prop}
    (progress : ∀ s i, inv s → A i → ∃ s', step s i = some s' ∧ inv s') {inputs : List I} {s : S}
    (start : inv s) (admits : ∀ i ∈ inputs, A i) : (run step s inputs).isSome := by
  induction inputs generalizing s with
  | nil => rfl
  | cons i inputs ih =>
      obtain ⟨admitted, later⟩ := List.forall_mem_cons.mp admits
      obtain ⟨s', first, kept⟩ := progress s i start admitted
      rw [run_cons, first]
      exact ih kept later

/-- Every step of the run meets `C` in the state it is taken from. -/
def AllSteps (step : S → I → Option S) (C : S → I → Prop) : S → List I → Prop
  | _, [] => True
  | s, i :: inputs => C s i ∧ ∀ s', step s i = some s' → AllSteps step C s' inputs

instance AllSteps.decidable {C : S → I → Prop} [∀ s i, Decidable (C s i)] :
    ∀ (s : S) (inputs : List I), Decidable (AllSteps step C s inputs)
  | _, [] => .isTrue trivial
  | s, i :: inputs =>
      match h : step s i with
      | none => decidable_of_iff (C s i) (by simp [AllSteps, h])
      | some s' =>
          have := AllSteps.decidable (C := C) s' inputs
          decidable_of_iff (C s i ∧ AllSteps step C s' inputs) (by simp [AllSteps, h])

/-- `P` holds in every state the run passes through, the last one included. -/
def Always (step : S → I → Option S) (P : S → Prop) (s : S) (inputs : List I) : Prop :=
  ∀ pre, pre <+: inputs → ∀ t, run step s pre = some t → P t

theorem Always.start {P : S → Prop} {s : S} {inputs : List I} (h : Always step P s inputs) :
    P s :=
  h [] List.nil_prefix s rfl

theorem always_nil {P : S → Prop} {s : S} : Always step P s [] ↔ P s := by
  constructor
  · exact Always.start
  · intro start pre hpre t ht
    obtain rfl := List.prefix_nil.mp hpre
    cases ht
    exact start

theorem always_cons {P : S → Prop} {s : S} {i : I} {inputs : List I} :
    Always step P s (i :: inputs) ↔
      P s ∧ ∀ s', step s i = some s' → Always step P s' inputs := by
  constructor
  · intro h
    refine ⟨h.start, fun s' first pre hpre t ht => ?_⟩
    refine h (i :: pre) (List.cons_prefix_cons.mpr ⟨rfl, hpre⟩) t ?_
    rw [run_cons, first]
    exact ht
  · rintro ⟨start, rest⟩ pre hpre t ht
    cases pre with
    | nil =>
        cases ht
        exact start
    | cons j pre =>
        obtain ⟨rfl, tail⟩ := List.cons_prefix_cons.mp hpre
        obtain ⟨s', first, ht⟩ := run_cons_some ht
        exact rest s' first pre tail t ht

theorem allSteps_and {C D : S → I → Prop} {s : S} {inputs : List I}
    (h : AllSteps step C s inputs) (h' : AllSteps step D s inputs) :
    AllSteps step (fun s i => C s i ∧ D s i) s inputs := by
  induction inputs generalizing s with
  | nil => trivial
  | cons i inputs ih =>
      obtain ⟨head, rest⟩ := h
      obtain ⟨head', rest'⟩ := h'
      constructor
      · exact ⟨head, head'⟩
      · intro s' first
        exact ih (rest s' first) (rest' s' first)

/-- Two conditions that agree on every step an invariant and the inputs admit
agree on the run. -/
theorem allSteps_congr {inv : S → Prop} {A C D : S → I → Prop}
    (keep : ∀ s i s', inv s → A s i → step s i = some s' → inv s')
    (same : ∀ s i, inv s → A s i → (C s i ↔ D s i)) {inputs : List I} {s : S} (start : inv s)
    (admits : AllSteps step A s inputs) :
    AllSteps step C s inputs ↔ AllSteps step D s inputs := by
  induction inputs generalizing s with
  | nil => exact Iff.rfl
  | cons i inputs ih =>
      obtain ⟨admitted, later⟩ := admits
      simp only [AllSteps, same s i start admitted]
      refine and_congr_right fun _ => forall_congr' fun s' => ?_
      refine imp_congr_right fun first => ?_
      exact ih (keep s i s' start admitted first) (later s' first)

/-- A condition that does not read the state is a condition on the inputs. -/
theorem allSteps_of_forall {C : I → Prop} {inputs : List I} (h : ∀ i ∈ inputs, C i) (s : S) :
    AllSteps step (fun _ i => C i) s inputs := by
  induction inputs generalizing s with
  | nil => trivial
  | cons i inputs ih =>
      obtain ⟨head, tail⟩ := List.forall_mem_cons.mp h
      constructor
      · exact head
      · intro s' _
        exact ih tail s'

theorem forall_of_allSteps {C : I → Prop} {inputs : List I} {s t : S}
    (accepted : run step s inputs = some t)
    (h : AllSteps step (fun _ i => C i) s inputs) : ∀ i ∈ inputs, C i := by
  induction inputs generalizing s with
  | nil => simp
  | cons i inputs ih =>
      obtain ⟨s', first, rest⟩ := run_cons_some accepted
      intro j hj
      rcases List.mem_cons.mp hj with rfl | hj
      · exact h.1
      · exact ih rest (h.2 s' first) j hj

/-- A run whose steps all meet `C` stays in what such steps keep. -/
theorem always_of_allSteps {inv : S → Prop} {C : S → I → Prop}
    (keep : ∀ s i s', inv s → C s i → step s i = some s' → inv s') (inputs : List I) {s : S}
    (start : inv s) (h : AllSteps step C s inputs) : Always step inv s inputs := by
  induction inputs generalizing s with
  | nil => exact always_nil.mpr start
  | cons i inputs ih =>
      obtain ⟨met, later⟩ := h
      rw [always_cons]
      constructor
      · exact start
      · intro s' first
        exact ih (keep s i s' start met first) (later s' first)

/-- **Exact steps.** If a step meets `C` iff it meets `R` and keeps `inv`, then a run meets
`C` throughout iff it meets `R` and stays in `inv`. -/
theorem allSteps_and_always_iff {inv : S → Prop} {R C : S → I → Prop}
    (exact : ∀ s i, inv s → ((R s i ∧ ∀ s', step s i = some s' → inv s') ↔ C s i))
    (inputs : List I) {s : S} (start : inv s) :
    AllSteps step R s inputs ∧ Always step inv s inputs ↔ AllSteps step C s inputs := by
  induction inputs generalizing s with
  | nil => simp [AllSteps, always_nil, start]
  | cons i inputs ih =>
      rw [AllSteps, AllSteps, always_cons, ← exact s i start]
      constructor
      · rintro ⟨⟨met, rest⟩, -, kept⟩
        refine ⟨⟨met, fun s' first => (kept s' first).start⟩, fun s' first => ?_⟩
        exact (ih (kept s' first).start).mp ⟨rest s' first, kept s' first⟩
      · rintro ⟨⟨met, kept⟩, rest⟩
        have both := fun s' first => (ih (kept s' first)).mpr (rest s' first)
        exact ⟨⟨met, fun s' first => (both s' first).1⟩, start, fun s' first => (both s' first).2⟩

/-- **Exact safety.** Suppose `inv` gives `P`, and among the steps that `A`
admits one that meets `C` keeps `inv` and one that does not loses `P`. Then an
accepted run of admitted steps keeps `P` throughout iff each of them meets `C`. -/
theorem always_iff_allSteps {inv P : S → Prop} {A C : S → I → Prop}
    (sound : ∀ s, inv s → P s)
    (keep : ∀ s i s', inv s → A s i → C s i → step s i = some s' → inv s')
    (lose : ∀ s i s', inv s → A s i → ¬ C s i → step s i = some s' → ¬ P s')
    (inputs : List I) {s t : S} (start : inv s) (admits : AllSteps step A s inputs)
    (h : run step s inputs = some t) : Always step P s inputs ↔ AllSteps step C s inputs := by
  induction inputs generalizing s with
  | nil => simp [always_nil, AllSteps, sound s start]
  | cons i inputs ih =>
      obtain ⟨admitted, admits⟩ := admits
      obtain ⟨s', first, rest⟩ := run_cons_some h
      simp only [always_cons, AllSteps, first, Option.some.injEq, forall_eq']
      constructor
      · rintro ⟨-, later⟩
        have met : C s i := by
          by_contra missed
          exact lose s i s' start admitted missed first later.start
        have kept := keep s i s' start admitted met first
        exact ⟨met, (ih kept (admits s' first) rest).mp later⟩
      · rintro ⟨met, later⟩
        have kept := keep s i s' start admitted met first
        exact ⟨sound s start, (ih kept (admits s' first) rest).mpr later⟩

end Machine
