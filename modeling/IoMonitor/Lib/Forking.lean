import IoMonitor.Lib.FanIn
import Mathlib.Data.Option.Defs

/-!
Producers that are born of one another.

A producer of a fan-in may be launched in a state of its own, or forked off
another one, whose state it then begins with. It works on tasks, each a list of
inputs that it takes one at a time; a fork is a task, and returns to both. What a
producer has behind it (`past`) are the tasks of its ancestors, each up to the
fork, and its own. In whatever order all of them take their turns, a producer is
where it would be alone after all these inputs, but for those of its last task
that it still owes, and sends what its own ones add to its ancestors' log
(`run_past`, `run_sent`).
-/

namespace Forking

open FanIn

variable {ι S I M C : Type} [DecidableEq ι]

/-- A producer from its birth on: its state, the inputs it still owes, and the
length of the log it began with, which others have sent. -/
structure Life (S I : Type) where
  state : S
  owed : List I
  mark : Nat

/-- What a producer is given. -/
inductive Input (S I : Type) where
  | born (s : S) (owed : List I)
  | task (inputs : List I)
  | next

def lifeStep (p : Producer S I M) : Option (Life S I) → Input S I → Option (Option (Life S I))
  | none, .born s owed => some (some ⟨s, owed, (p.log s).length⟩)
  | some ⟨s, [], k⟩, .task inputs => some (some ⟨s, inputs, k⟩)
  | some ⟨s, input :: owed, k⟩, .next => (p.step s input).map fun s' => some ⟨s', owed, k⟩
  | _, _ => none

/-- Of its log a producer has sent what it has added since its birth. -/
def ownLog (p : Producer S I M) : Option (Life S I) → List M
  | none => []
  | some x => (p.log x.state).drop x.mark

theorem lifeStep_born {p : Producer S I M} {x x' : Option (Life S I)} {s : S} {owed : List I}
    (stepped : lifeStep p x (.born s owed) = some x') :
    x = none ∧ x' = some ⟨s, owed, (p.log s).length⟩ := by
  cases x with
  | some x => simp [lifeStep] at stepped
  | none =>
      cases stepped
      exact ⟨rfl, rfl⟩

theorem lifeStep_task {p : Producer S I M} {x x' : Option (Life S I)} {inputs : List I}
    (stepped : lifeStep p x (.task inputs) = some x') :
    ∃ s k, x = some ⟨s, [], k⟩ ∧ x' = some ⟨s, inputs, k⟩ := by
  match x with
  | none => simp [lifeStep] at stepped
  | some ⟨s, _ :: _, k⟩ => simp [lifeStep] at stepped
  | some ⟨s, [], k⟩ =>
      cases stepped
      exact ⟨s, k, rfl, rfl⟩

theorem lifeStep_next {p : Producer S I M} {x x' : Option (Life S I)}
    (stepped : lifeStep p x .next = some x') :
    ∃ s input owed k s', x = some ⟨s, input :: owed, k⟩ ∧ p.step s input = some s' ∧
      x' = some ⟨s', owed, k⟩ := by
  match x with
  | none => simp [lifeStep] at stepped
  | some ⟨s, [], k⟩ => simp [lifeStep] at stepped
  | some ⟨s, input :: owed, k⟩ =>
      obtain ⟨s', moved, rfl⟩ := Option.map_eq_some_iff.mp stepped
      exact ⟨s, input, owed, k, s', rfl, moved, rfl⟩

def offspring (p : Producer S I M) : Producer (Option (Life S I)) (Input S I) M where
  step := lifeStep p
  log := ownLog p
  grows := by
    intro x input x' stepped
    cases input with
    | born s owed =>
        obtain ⟨rfl, rfl⟩ := lifeStep_born stepped
        exact List.nil_prefix
    | task inputs =>
        obtain ⟨s, k, rfl, rfl⟩ := lifeStep_task stepped
        exact List.prefix_rfl
    | next =>
        obtain ⟨s, input, owed, k, s', rfl, moved, rfl⟩ := lifeStep_next stepped
        exact (p.grows s input s' moved).drop k

/-- The producers, by name, the queue and the consumer. -/
abbrev Family (ι S I M C : Type) := FanIn.State ι (Option (Life S I)) M C

/-- The moves. A fork returns to the parent and to the child, to each with a task
of its own. -/
inductive Move (ι S I : Type) where
  | launch (who : ι) (s : S) (owed : List I)
  | fork (parent child : ι) (inParent inChild : List I)
  | task (who : ι) (inputs : List I)
  | next (who : ι)
  | take

def step (p : Producer S I M) (consume : C → M → C) (f : Family ι S I M C) :
    Move ι S I → Option (Family ι S I M C)
  | .launch who s owed => FanIn.step (offspring p) consume f (.act who (.born s owed))
  | .fork parent child inParent inChild =>
      match f.producers parent with
      | none => none
      | some x =>
          Machine.run (FanIn.step (offspring p) consume) f
            [.act parent (.task inParent), .act child (.born x.state inChild)]
  | .task who inputs => FanIn.step (offspring p) consume f (.act who (.task inputs))
  | .next who => FanIn.step (offspring p) consume f (.act who .next)
  | .take => FanIn.step (offspring p) consume f .take

/-- Nobody is born yet. -/
def nobody (consumer : C) : Family ι S I M C := FanIn.start (fun _ => none) consumer

/-! ### What a producer has behind it -/

/-- The state it began in, or its first ancestor did; the inputs of the ancestors;
its own, the owed ones included. -/
structure Past (S I : Type) where
  origin : S
  before : List I
  own : List I

def Past.then (h : Past S I) (inputs : List I) : Past S I := { h with own := h.own ++ inputs }

/-- The past of a child. -/
def Past.child (h : Past S I) (inputs : List I) : Past S I := ⟨h.origin, h.before ++ h.own, inputs⟩

def remember (pasts : ι → Option (Past S I)) : Move ι S I → ι → Option (Past S I)
  | .launch who s owed => Function.update pasts who (some ⟨s, [], owed⟩)
  | .fork parent child inParent inChild =>
      Function.update (Function.update pasts parent ((pasts parent).map (·.then inParent)))
        child ((pasts parent).map (·.child inChild))
  | .task who inputs => Function.update pasts who ((pasts who).map (·.then inputs))
  | .next _ | .take => pasts

def past (moves : List (Move ι S I)) : ι → Option (Past S I) := moves.foldl remember fun _ => none

/-- What is asked of the states launched and of the inputs of tasks. -/
def Move.Admits (P : S → Prop) (Q : I → Prop) : Move ι S I → Prop
  | .launch _ s owed => P s ∧ ∀ i ∈ owed, Q i
  | .fork _ _ inParent inChild => ∀ i ∈ inParent ++ inChild, Q i
  | .task _ inputs => ∀ i ∈ inputs, Q i
  | .next _ | .take => True

def Past.Admits (P : S → Prop) (Q : I → Prop) (h : Past S I) : Prop :=
  P h.origin ∧ ∀ i ∈ h.before ++ h.own, Q i

theorem Past.Admits.then {P : S → Prop} {Q : I → Prop} {h : Past S I} (admits : h.Admits P Q)
    {inputs : List I} (more : ∀ i ∈ inputs, Q i) : (h.then inputs).Admits P Q := by
  refine ⟨admits.1, ?_⟩
  rw [Past.then, ← List.append_assoc]
  exact List.forall_mem_append.mpr ⟨admits.2, more⟩

theorem Past.Admits.child {P : S → Prop} {Q : I → Prop} {h : Past S I} (admits : h.Admits P Q)
    {inputs : List I} (more : ∀ i ∈ inputs, Q i) : (h.child inputs).Admits P Q :=
  ⟨admits.1, List.forall_mem_append.mpr ⟨admits.2, more⟩⟩

theorem update_admits {α : Type} {P : α → Prop} {xs : ι → Option α}
    (h : ∀ who, ∀ x ∈ xs who, P x) (who : ι) {x : Option α} (new : ∀ y ∈ x, P y) (who' : ι) :
    ∀ y ∈ Function.update xs who x who', P y := by
  rcases eq_or_ne who' who with rfl | other
  · simpa using new
  · simpa [other] using h who'

theorem remember_admits {P : S → Prop} {Q : I → Prop} {pasts : ι → Option (Past S I)}
    (r : ∀ who, ∀ h ∈ pasts who, h.Admits P Q) {move : Move ι S I} (admits : move.Admits P Q) :
    ∀ who, ∀ h ∈ remember pasts move who, h.Admits P Q := by
  cases move with
  | launch who s owed =>
      refine update_admits r who ?_
      intro h known
      cases known
      exact admits
  | fork parent child inParent inChild =>
      obtain ⟨left, right⟩ := List.forall_mem_append.mp admits
      refine update_admits (update_admits r parent ?_) child ?_
      · intro h known
        obtain ⟨before, found, rfl⟩ := Option.map_eq_some_iff.mp known
        exact (r parent before found).then left
      · intro h known
        obtain ⟨before, found, rfl⟩ := Option.map_eq_some_iff.mp known
        exact (r parent before found).child right
  | task who inputs =>
      refine update_admits r who ?_
      intro h known
      obtain ⟨before, found, rfl⟩ := Option.map_eq_some_iff.mp known
      exact (r who before found).then admits
  | next who => exact r
  | take => exact r

/-- A past is made of what the moves bring. -/
theorem past_admits {P : S → Prop} {Q : I → Prop} {moves : List (Move ι S I)}
    (admits : ∀ move ∈ moves, move.Admits P Q) {who : ι} {h : Past S I}
    (known : past moves who = some h) : h.Admits P Q := by
  have all : ∀ {pasts : ι → Option (Past S I)}, (∀ who, ∀ h ∈ pasts who, h.Admits P Q) →
      ∀ who, ∀ h ∈ moves.foldl remember pasts who, h.Admits P Q := by
    clear known
    induction moves with
    | nil =>
        intro pasts r
        exact r
    | cons move moves ih =>
        intro pasts r
        obtain ⟨head, tail⟩ := List.forall_mem_cons.mp admits
        exact ih tail (remember_admits r head)
  refine all ?_ who h known
  intro who h none_
  cases none_

/-! ### Where a producer is -/

variable {p : Producer S I M} {consume : C → M → C}

/-- The producer is where the inputs behind it lead, and began where those of its
ancestors did. -/
structure At (p : Producer S I M) (h : Past S I) (x : Life S I) : Prop where
  reached : ∃ made, h.own = made ++ x.owed ∧
    Machine.run p.step h.origin (h.before ++ made) = some x.state
  began : ∃ b, Machine.run p.step h.origin h.before = some b ∧ x.mark = (p.log b).length

/-- Every producer is where its past says, and who has no past is not born. -/
def Remembered (p : Producer S I M) (f : Family ι S I M C) (pasts : ι → Option (Past S I)) :
    Prop :=
  ∀ who, Option.Rel (At p) (pasts who) (f.producers who)

omit [DecidableEq ι] in
theorem Remembered.of_past {f : Family ι S I M C} {pasts : ι → Option (Past S I)}
    (r : Remembered p f pasts) {who : ι} {h : Past S I} (known : pasts who = some h) :
    ∃ x, f.producers who = some x ∧ At p h x := by
  have own := r who
  rw [known] at own
  cases alive : f.producers who with
  | none =>
      rw [alive] at own
      cases own
  | some x =>
      rw [alive] at own
      cases own with
      | some located => exact ⟨x, rfl, located⟩

omit [DecidableEq ι] in
theorem Remembered.of_life {f : Family ι S I M C} {pasts : ι → Option (Past S I)}
    (r : Remembered p f pasts) {who : ι} {x : Life S I} (alive : f.producers who = some x) :
    ∃ h, pasts who = some h ∧ At p h x := by
  have own := r who
  rw [alive] at own
  cases known : pasts who with
  | none =>
      rw [known] at own
      cases own
  | some h =>
      rw [known] at own
      cases own with
      | some located => exact ⟨h, rfl, located⟩

theorem update_rel {α β : Type} {r : α → β → Prop} {xs : ι → Option α} {ys : ι → Option β}
    (h : ∀ who, Option.Rel r (xs who) (ys who)) (who : ι) {x : Option α} {y : Option β}
    (new : Option.Rel r x y) (who' : ι) :
    Option.Rel r (Function.update xs who x who') (Function.update ys who y who') := by
  rcases eq_or_ne who' who with rfl | other
  · simpa using new
  · simpa [other] using h who'

/-- A birth, from the state that the inputs `before` lead to. -/
theorem born_remembered {f f' : Family ι S I M C} {pasts : ι → Option (Past S I)}
    (r : Remembered p f pasts) {who : ι} {s origin : S} {before owed : List I}
    (ran : Machine.run p.step origin before = some s)
    (stepped : FanIn.step (offspring p) consume f (.act who (.born s owed)) = some f') :
    Remembered p f' (Function.update pasts who (some ⟨origin, before, owed⟩)) := by
  obtain ⟨x, next, rfl⟩ := Option.map_eq_some_iff.mp stepped
  obtain ⟨-, rfl⟩ := lifeStep_born next
  refine update_rel r who (.some ⟨⟨[], rfl, ?_⟩, s, ran, rfl⟩)
  rw [List.append_nil]
  exact ran

/-- A task begins where the last one is done. -/
theorem task_remembered {f f' : Family ι S I M C} {pasts : ι → Option (Past S I)}
    (r : Remembered p f pasts) {who : ι} {inputs : List I}
    (stepped : FanIn.step (offspring p) consume f (.act who (.task inputs)) = some f') :
    (∃ h x, pasts who = some h ∧ f.producers who = some x ∧
      Machine.run p.step h.origin (h.before ++ h.own) = some x.state) ∧
    Remembered p f' (Function.update pasts who ((pasts who).map (·.then inputs))) := by
  obtain ⟨x', next, rfl⟩ := Option.map_eq_some_iff.mp stepped
  obtain ⟨s, k, alive, rfl⟩ := lifeStep_task next
  obtain ⟨h, known, ⟨made, own, reached⟩, began⟩ := r.of_life alive
  rw [List.append_nil] at own
  rw [← own] at reached
  refine ⟨⟨h, _, known, alive, reached⟩, ?_⟩
  rw [known]
  exact update_rel r who (.some ⟨⟨h.own, rfl, reached⟩, began⟩)

theorem next_remembered {f f' : Family ι S I M C} {pasts : ι → Option (Past S I)}
    (r : Remembered p f pasts) {who : ι}
    (stepped : FanIn.step (offspring p) consume f (.act who .next) = some f') :
    Remembered p f' pasts := by
  obtain ⟨x', next, rfl⟩ := Option.map_eq_some_iff.mp stepped
  obtain ⟨s, input, owed, k, s', alive, moved, rfl⟩ := lifeStep_next next
  obtain ⟨h, known, ⟨made, own, reached⟩, began⟩ := r.of_life alive
  have after : At p h ⟨s', owed, k⟩ := by
    refine ⟨⟨made ++ [input], by rw [own, List.append_assoc]; rfl, ?_⟩, began⟩
    rw [← List.append_assoc, Machine.run_append, reached, Option.bind_some, Machine.run_cons, moved]
    rfl
  have same : pasts = Function.update pasts who (some h) := by
    rw [← known, Function.update_eq_self]
  rw [same]
  exact update_rel r who (.some after)

theorem step_remembered {f f' : Family ι S I M C} {pasts : ι → Option (Past S I)}
    (r : Remembered p f pasts) {move : Move ι S I}
    (stepped : step p consume f move = some f') : Remembered p f' (remember pasts move) := by
  cases move with
  | launch who s owed =>
      rw [step] at stepped
      exact born_remembered r (Machine.run_nil s) stepped
  | fork parent child inParent inChild =>
      cases alive : f.producers parent with
      | none =>
          rw [step, alive] at stepped
          cases stepped
      | some x =>
          rw [step, alive] at stepped
          obtain ⟨f₁, first, stepped⟩ := Machine.run_cons_some stepped
          obtain ⟨f₂, second, stepped⟩ := Machine.run_cons_some stepped
          cases stepped
          -- the task of the parent can only begin if it owes nothing
          obtain ⟨⟨h, x', known, alive', reached⟩, r₁⟩ := task_remembered r first
          cases alive.symm.trans alive'
          have born := born_remembered r₁ reached second
          rw [known] at born
          rw [remember, known]
          exact born
  | task who inputs =>
      rw [step] at stepped
      exact (task_remembered r stepped).2
  | next who =>
      rw [step] at stepped
      exact next_remembered r stepped
  | take =>
      rw [step] at stepped
      obtain ⟨_, _, _, -, rfl⟩ := step_take stepped
      exact r

theorem run_remembered (moves : List (Move ι S I)) {f f' : Family ι S I M C}
    {pasts : ι → Option (Past S I)} (r : Remembered p f pasts)
    (ran : Machine.run (step p consume) f moves = some f') :
    Remembered p f' (moves.foldl remember pasts) := by
  induction moves generalizing f pasts with
  | nil =>
      cases ran
      exact r
  | cons move moves ih =>
      obtain ⟨f₁, first, rest⟩ := Machine.run_cons_some ran
      exact ih (step_remembered r first) rest

/-- Who has a past is where it leads. -/
theorem run_past {consumer : C} {moves : List (Move ι S I)} {f : Family ι S I M C}
    (ran : Machine.run (step p consume) (nobody consumer) moves = some f) {who : ι} {h : Past S I}
    (known : past moves who = some h) : ∃ x, f.producers who = some x ∧ At p h x := by
  have begun : Remembered p (nobody consumer : Family ι S I M C) fun _ => none := fun _ => .none
  exact (run_remembered moves begun ran).of_past known

/-! ### What a producer sends -/

/-- A move is one of the fan-in, or two. -/
theorem step_fanIn {f f' : Family ι S I M C} {move : Move ι S I}
    (stepped : step p consume f move = some f') :
    ∃ moves, Machine.run (FanIn.step (offspring p) consume) f moves = some f' := by
  have single : ∀ m, FanIn.step (offspring p) consume f m = some f' →
      ∃ moves, Machine.run (FanIn.step (offspring p) consume) f moves = some f' := by
    intro m next
    refine ⟨[m], ?_⟩
    rw [Machine.run_cons, next]
    rfl
  cases move with
  | launch who s owed =>
      rw [step] at stepped
      exact single _ stepped
  | fork parent child inParent inChild =>
      cases alive : f.producers parent with
      | none =>
          rw [step, alive] at stepped
          cases stepped
      | some x =>
          rw [step, alive] at stepped
          exact ⟨_, stepped⟩
  | task who inputs =>
      rw [step] at stepped
      exact single _ stepped
  | next who =>
      rw [step] at stepped
      exact single _ stepped
  | take =>
      rw [step] at stepped
      exact single _ stepped

theorem run_fanIn (moves : List (Move ι S I)) {f f' : Family ι S I M C}
    (ran : Machine.run (step p consume) f moves = some f') :
    ∃ moves', Machine.run (FanIn.step (offspring p) consume) f moves' = some f' := by
  induction moves generalizing f with
  | nil => exact ⟨[], ran⟩
  | cons move moves ih =>
      obtain ⟨f₁, first, rest⟩ := Machine.run_cons_some ran
      obtain ⟨before, head⟩ := step_fanIn first
      obtain ⟨after, tail⟩ := ih rest
      refine ⟨before ++ after, ?_⟩
      rw [Machine.run_append, head]
      exact tail

theorem run_log_prefix {s t : S} (inputs : List I) (ran : Machine.run p.step s inputs = some t) :
    p.log s <+: p.log t := by
  have keep : ∀ (x : S) (i : I) (x' : S), p.log s <+: p.log x → p.step x i = some x' →
      p.log s <+: p.log x' := fun x i x' before stepped => before.trans (p.grows x i x' stepped)
  exact Machine.run_invariant keep inputs List.prefix_rfl ran

/-- What has been taken of a producer and what is queued are what its own inputs
have added to the log. -/
theorem run_sent {consumer : C} {moves : List (Move ι S I)} {f : Family ι S I M C}
    (ran : Machine.run (step p consume) (nobody consumer) moves = some f) {who : ι} {h : Past S I}
    (known : past moves who = some h) :
    ∃ x b made, f.producers who = some x ∧ h.own = made ++ x.owed ∧
      Machine.run p.step h.origin (h.before ++ made) = some x.state ∧
      Machine.run p.step h.origin h.before = some b ∧
      p.log b ++ (messagesOf who f.taken ++ messagesOf who f.queue) = p.log x.state := by
  obtain ⟨x, alive, ⟨made, own, reached⟩, b, began, count⟩ := run_past ran known
  obtain ⟨moves', ran'⟩ := run_fanIn moves ran
  have sent := run_log (p := offspring p) (fun _ => rfl) consumer moves' ran' who
  have alone : Machine.run p.step b made = some x.state := by
    have whole := reached
    rw [Machine.run_append, began] at whole
    exact whole
  obtain ⟨added, grown⟩ := run_log_prefix made alone
  refine ⟨x, b, made, alive, own, reached, began, ?_⟩
  rw [sent, alive]
  simp only [offspring, ownLog]
  rw [count, ← grown, List.drop_left]

/-- The consumer has seen what it has taken. -/
theorem run_taken {consumer : C} {moves : List (Move ι S I)} {f : Family ι S I M C}
    (ran : Machine.run (step p consume) (nobody consumer) moves = some f) :
    f.consumer = (f.taken.map Prod.snd).foldl consume consumer := by
  obtain ⟨moves', ran'⟩ := run_fanIn moves ran
  exact run_consumer _ _ moves' ran'

end Forking
