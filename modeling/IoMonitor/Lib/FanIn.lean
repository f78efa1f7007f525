import IoMonitor.Lib.Machine
import Mathlib.Logic.Function.Basic

/-!
Many producers, one queue, one consumer.

Each producer is a machine with a log that only grows; what a step adds to the
log goes to the end of a queue that all of them share. The consumer takes the
messages from its front. In whatever order the producers and the consumer take
their steps, a producer runs as it would alone (`run_producer`), of its log
nothing is lost, repeated or reordered on the way (`run_log`), and the consumer
has seen what it has taken and nothing else (`run_consumer`).
-/

namespace FanIn

variable {ι S I M C : Type} [DecidableEq ι]

/-- A machine and what it has sent so far. -/
structure Producer (S I M : Type) where
  step : S → I → Option S
  log : S → List M
  grows : ∀ s i s', step s i = some s' → log s <+: log s'

/-- The producers, the queue, the consumer, and the messages it has taken. A
message is tagged with its producer. -/
structure State (ι S M C : Type) where
  producers : ι → S
  queue : List (ι × M)
  consumer : C
  taken : List (ι × M)

/-- A producer takes a step, or the consumer takes a message. -/
inductive Move (ι I : Type) where
  | act (who : ι) (input : I)
  | take

/-- What the step from `s` to `s'` adds to the log. -/
def Producer.added (p : Producer S I M) (s s' : S) : List M := (p.log s').drop (p.log s).length

def step (p : Producer S I M) (consume : C → M → C) (s : State ι S M C) :
    Move ι I → Option (State ι S M C)
  | .act who input =>
      (p.step (s.producers who) input).map fun s' =>
        { s with
          producers := Function.update s.producers who s'
          queue := s.queue ++ (p.added (s.producers who) s').map (who, ·) }
  | .take =>
      match s.queue with
      | [] => none
      | (who, m) :: later =>
          some { s with
            queue := later, consumer := consume s.consumer m, taken := s.taken ++ [(who, m)] }

def start (producers : ι → S) (consumer : C) : State ι S M C := ⟨producers, [], consumer, []⟩

/-- The messages of one producer. -/
def messagesOf (who : ι) (tagged : List (ι × M)) : List M :=
  (tagged.filter fun e => e.1 = who).map Prod.snd

/-- The inputs of one producer. -/
def inputsOf (who : ι) (moves : List (Move ι I)) : List I :=
  moves.filterMap fun
    | .act who' input => if who' = who then some input else none
    | .take => none

theorem messagesOf_append (who : ι) (xs ys : List (ι × M)) :
    messagesOf who (xs ++ ys) = messagesOf who xs ++ messagesOf who ys := by
  simp [messagesOf]

theorem messagesOf_tagged (who who' : ι) (ms : List M) :
    messagesOf who (ms.map (who', ·)) = if who' = who then ms else [] := by
  unfold messagesOf
  rw [List.filter_map]
  split
  · rename_i same
    rw [List.filter_eq_self.mpr (by simp [same]), List.map_map]
    exact List.map_id ms
  · rename_i other
    rw [List.filter_eq_nil_iff.mpr (by simp [other])]
    rfl

variable {p : Producer S I M} {consume : C → M → C}

/-- What the consumer's move does. -/
theorem step_take {s t : State ι S M C} (taken : step p consume s .take = some t) :
    ∃ who m later, s.queue = (who, m) :: later ∧ t = { s with
      queue := later, consumer := consume s.consumer m, taken := s.taken ++ [(who, m)] } := by
  cases queued : s.queue with
  | nil => simp [step, queued] at taken
  | cons e later =>
      simp only [step, queued, Option.some.injEq] at taken
      exact ⟨e.1, e.2, later, rfl, taken.symm⟩

/-! ### Each producer for itself -/

theorem run_producer (who : ι) (moves : List (Move ι I)) {s t : State ι S M C}
    (ran : Machine.run (step p consume) s moves = some t) :
    Machine.run p.step (s.producers who) (inputsOf who moves) = some (t.producers who) := by
  induction moves generalizing s with
  | nil =>
      cases ran
      rfl
  | cons move moves ih =>
      obtain ⟨u, first, rest⟩ := Machine.run_cons_some ran
      have ih := ih rest
      cases move with
      | act who' input =>
          obtain ⟨s', stepped, rfl⟩ := Option.map_eq_some_iff.mp first
          dsimp only at ih
          by_cases own : who' = who
          · subst own
            have head : inputsOf who' (.act who' input :: moves) =
                input :: inputsOf who' moves := by
              simp [inputsOf]
            rw [Function.update_self] at ih
            rw [head, Machine.run_cons, stepped]
            exact ih
          · have skip : inputsOf who (.act who' input :: moves) = inputsOf who moves := by
              simp [inputsOf, own]
            rw [Function.update_of_ne (Ne.symm own)] at ih
            rw [skip]
            exact ih
      | take =>
          obtain ⟨_, _, _, -, rfl⟩ := step_take first
          have skip : inputsOf who (.take :: moves) = inputsOf who moves := by simp [inputsOf]
          rw [skip]
          exact ih

/-! ### The queue -/

/-- Of each producer, what has been taken and what is queued make up its log. -/
def Conserved (p : Producer S I M) (s : State ι S M C) : Prop :=
  ∀ who, messagesOf who (s.taken ++ s.queue) = p.log (s.producers who)

theorem step_conserved (s : State ι S M C) (move : Move ι I) (t : State ι S M C)
    (h : Conserved p s) (stepped : step p consume s move = some t) : Conserved p t := by
  intro who
  cases move with
  | act who' input =>
      obtain ⟨s', next, rfl⟩ := Option.map_eq_some_iff.mp stepped
      obtain ⟨added, grown⟩ := p.grows _ _ _ next
      have more : p.added (s.producers who') s' = added := by
        rw [Producer.added, ← grown, List.drop_left]
      have before := h who
      dsimp only
      rw [← List.append_assoc, messagesOf_append, before, messagesOf_tagged, more]
      by_cases own : who' = who
      · subst own
        rw [if_pos rfl, Function.update_self, grown]
      · rw [if_neg own, List.append_nil, Function.update_of_ne (Ne.symm own)]
  | take =>
      obtain ⟨who', m, later, queued, rfl⟩ := step_take stepped
      have before := h who
      rw [queued] at before
      simpa using before

/-- From the start on, with nothing sent before. -/
theorem run_log {producers : ι → S} (fresh : ∀ who, p.log (producers who) = [])
    (consumer : C) (moves : List (Move ι I)) {t : State ι S M C}
    (ran : Machine.run (step p consume) (start producers consumer) moves = some t) (who : ι) :
    messagesOf who t.taken ++ messagesOf who t.queue = p.log (t.producers who) := by
  have begun : Conserved p (start producers consumer : State ι S M C) :=
    fun who => (fresh who).symm
  rw [← messagesOf_append]
  exact Machine.run_invariant step_conserved moves begun ran who

/-! ### The consumer -/

theorem run_consumer (producers : ι → S) (consumer : C) (moves : List (Move ι I))
    {t : State ι S M C}
    (ran : Machine.run (step p consume) (start producers consumer) moves = some t) :
    t.consumer = (t.taken.map Prod.snd).foldl consume consumer := by
  have keep : ∀ (s : State ι S M C) (move : Move ι I) (s' : State ι S M C),
      s.consumer = (s.taken.map Prod.snd).foldl consume consumer →
        step p consume s move = some s' →
          s'.consumer = (s'.taken.map Prod.snd).foldl consume consumer := by
    intro s move s' h stepped
    cases move with
    | act who input =>
        obtain ⟨_, -, rfl⟩ := Option.map_eq_some_iff.mp stepped
        exact h
    | take =>
        obtain ⟨_, _, _, -, rfl⟩ := step_take stepped
        simp [h]
  exact Machine.run_invariant keep moves rfl ran

end FanIn
