import IoMonitor.EndToEnd.Fleet
import IoMonitor.Lib.Forking
import IoMonitor.Monitor.Session

/-!
Programs that fork.

`fork` is interposed like any other function: it returns twice, in the child its
hook runs `init()` once more, and both sides record the call. But a child has the
variables of its parent, and `init()` finds the library functions loaded and reads
no setting again. The pause, the samples, the hold on the queue and the counters
go on from where they were. So a process sends what its ancestors would have sent
next, had they made its calls themselves, and its counters include theirs
(`family_law`).
-/

namespace IoMonitor

open CString Listener Sieve FanIn Forking

/-! ### `fork` -/

def forkRow : Row := ⟨"int fork()", .processes, .fork, "NULL", "NULL", [.initInChild]⟩

example : forkRow ∈ processRows := by decide

/-- The calls of `record()` among the actions, up to a crash. -/
def emitted (actions : List Action) : List RecordCall :=
  (actions.takeWhile fun a => !a.isCrash).filterMap Action.recordCall

/-- One return of `fork`: what the wrapper meets on this side, and what answers its
calls of `record()`. -/
structure Return where
  inv : Invocation
  answers : Nat → Outcomes

/-- The calls of `record()` of the wrapper where `fork` returns `result`. -/
def Return.records (r : Return) (result : Int) : List Recorded :=
  (emitted (forkRow.actions { r.inv with result })).zipIdx.map fun e => (e.1, r.answers e.2)

/-- The wrapper of `fork` besides the call: in the child `init()`, and the record. -/
theorem forkRow_actions (inv : Invocation) :
    forkRow.actions inv = (if inv.result = 0 then initActions inv.init else []) ++
      [.emit 1 (forkRow.recordCall inv inv.locals)] := by
  simp [Row.actions, forkRow, runHook, HookStmt.run]

theorem forkCall_defined (inv : Invocation) : (forkRow.recordCall inv inv.locals).Defined :=
  ⟨by simp [CharPtr.Readable, Row.recordCall, Row.argument, forkRow],
    by simp [CharPtr.Readable, Row.recordCall, Row.argument, forkRow], fun opens => by cases opens⟩

theorem records_parent (r : Return) (pid : Nat) :
    ∃ fork, r.records (pid + 1) = [(fork, r.answers 0)] ∧ fork.Defined ∧ fork.opType = .fork := by
  have parent : (pid + 1 : Int) ≠ 0 := by omega
  let inv : Invocation := { r.inv with result := pid + 1 }
  refine ⟨forkRow.recordCall inv inv.locals, ?_, forkCall_defined inv, rfl⟩
  rw [Return.records, forkRow_actions, if_neg parent]
  rfl

/-- What `init()` does, if it survives, is to record the start and the working
directory. -/
theorem emitted_init {i : InitCalls} (read : 0 ≤ i.read.ret ∧ i.read.ret ≠ 1)
    (readable : i.cmdline.Readable) (later : List Action) :
    ∃ start chdir, emitted (initActions i ++ later) = start :: chdir :: emitted later ∧
      (start.Defined ∧ start.opType = .start) ∧ chdir.Defined ∧ chdir.opType = .chdir := by
  have going : ¬ (i.read.ret < 0 ∨ i.read.ret = 1) := by omega
  have command : (if i.read.ret = 0 then CharPtr.str "could not determine path".toList
      else i.cmdline).Readable := by
    split
    · simp [CharPtr.Readable]
    · exact readable
  unfold initActions
  dsimp only
  rw [if_neg going]
  cases i.currentDir with
  | ok path =>
      refine ⟨_, _, rfl, ⟨⟨command, ?_, fun opens => by cases opens⟩, rfl⟩,
        ⟨?_, ?_, fun opens => by cases opens⟩, rfl⟩
      all_goals
        intro bad
        cases bad
  | error e =>
      refine ⟨_, _, rfl, ⟨⟨command, ?_, fun opens => by cases opens⟩, rfl⟩,
        ⟨?_, ?_, fun opens => by cases opens⟩, rfl⟩
      all_goals
        intro bad
        cases bad

/-- In the child: what `init()` records, and then the fork. -/
theorem records_child (r : Return) (read : 0 ≤ r.inv.init.read.ret ∧ r.inv.init.read.ret ≠ 1)
    (readable : r.inv.init.cmdline.Readable) :
    ∃ start chdir fork,
      r.records 0 = [(start, r.answers 0), (chdir, r.answers 1), (fork, r.answers 2)] ∧
        (start.Defined ∧ start.opType = .start) ∧ (chdir.Defined ∧ chdir.opType = .chdir) ∧
        fork.Defined ∧ fork.opType = .fork := by
  let inv : Invocation := { r.inv with result := 0 }
  obtain ⟨start, chdir, made, first, second⟩ := emitted_init read readable
    [.emit 1 (forkRow.recordCall inv inv.locals)]
  refine ⟨start, chdir, _, ?_, first, second, forkCall_defined inv, rfl⟩
  rw [Return.records, forkRow_actions, if_pos rfl, made]
  rfl

/-! ### What happens -/

/-- A process is launched by an exec, or by one that is not monitored; the name is
that of the image, so an exec makes a new one. A call is that of a wrapper, or
`fini`, with the records that it is to make. -/
inductive Event (ι : Type) where
  | launch (who : ι) (env : Environment) (p : Startup)
  | call (who : ι) (records : List Recorded)
  | fork (parent child : ι) (pid : Nat) (inParent inChild : Return)
  | record (who : ι)
  | take

/-- What `init` records, unless it crashes before. -/
def Startup.records (p : Startup) : List Recorded := if p.crashes then [] else p.init

def Event.move {ι : Type} : Event ι → Forking.Move ι World Recorded
  | .launch who env p => .launch who (startWorld (initializeMonitor env)) p.records
  | .call who records => .task who records
  | .fork parent child pid inParent inChild =>
      .fork parent child (inParent.records (pid + 1)) (inChild.records 0)
  | .record who => .next who
  | .take => .take

/-- A process whose settings are those of an environment with a queue. -/
def Begun (w : World) : Prop :=
  ∃ env : Environment, env.messageQueuePath.isSome ∧
    SmallWindows (initializeMonitor env).windowing ∧ w = startWorld (initializeMonitor env)

/-- A call of `record()` with readable strings, at a time that the clock can show,
and with a decided send. -/
structure Recordable (c : Recorded) : Prop where
  defined_ : c.1.Defined
  positive : 0 < c.2.time
  small : Small c.2.time
  decided : c.2.Decided

def Event.Sound {ι : Type} (e : Event ι) : Prop := e.move.Admits Begun Recordable

variable {ι σ : Type} [DecidableEq ι]

/-- The processes, the queue and the listener. -/
abbrev ProcessTree (ι σ : Type) := Forking.Family ι World Recorded MonitorRecord (Desk σ)

def treeStep (mounts : MountTable) (hostname : Str) (tree : ProcessTree ι σ) (e : Event ι) :
    Option (ProcessTree ι σ) :=
  Forking.step process (Desk.receive mounts hostname) tree e.move

/-- A listener with its plugins, and no process yet. -/
def treeStart (chain : List (Plugin σ)) : ProcessTree ι σ := nobody ⟨noFiles, chain, []⟩

/-- The calls of `record()` that a process has behind it, its ancestors' first. -/
def ancestry (events : List (Event ι)) : ι → Option (Past World Recorded) :=
  past (events.map Event.move)

theorem run_tree {mounts : MountTable} {hostname : Str} (events : List (Event ι))
    (tree : ProcessTree ι σ) :
    Machine.run (treeStep mounts hostname) tree events =
      Machine.run (Forking.step process (Desk.receive mounts hostname)) tree
        (events.map Event.move) := by
  induction events generalizing tree with
  | nil => rfl
  | cons e events ih =>
      rw [List.map_cons, Machine.run_cons, Machine.run_cons]
      exact Option.bind_congr fun next _ => ih next

/-! ### The law of the family -/

theorem length_arrivals (base : Monitor) (who : Caller) (tried : List Recorded) :
    (arrivals base who tried).length = arrived tried := List.length_map _

/-- A process alone, after calls that are recordable. -/
theorem process_counts {env : Environment} (queue : env.messageQueuePath.isSome)
    (small : SmallWindows (initializeMonitor env).windowing) {calls : List Recorded}
    (recordable : ∀ c ∈ calls, Recordable c) {w : World}
    (ran : Machine.run process.step (startWorld (initializeMonitor env)) calls = some w) :
    w.delivered = arrivals (initializeMonitor env) .application
        (atQueue ((initializeMonitor env).pipeline calls)) ∧
      w.monitor.tally = tallyOf ((initializeMonitor env).pipeline calls) := by
  have defined_ := fun c hc => (recordable c hc).defined_
  have clock := fun c hc => And.intro (recordable c hc).positive (recordable c hc).small
  constructor
  · exact process_law queue small defined_ clock ran
  · obtain ⟨w', ran', tally⟩ := tally_run env queue small .application calls defined_ clock
      fun c hc => (recordable c hc).decided
    cases ran.symm.trans ran'
    exact tally

/-- **The family.** In whatever order processes are launched, fork, make their
records, and the listener takes messages: what has been taken of a process and what
is still queued is what the pipeline of its first ancestor lets through next, after
the calls of the ancestors; its counters count for all of these calls, and so exceed
what the process itself has sent by what its ancestors had at the fork; and every
plugin of a chain that accepts has been shown what has been taken, in order. -/
theorem family_law (mounts : MountTable) (hostname : Str) (chain : List (Plugin σ))
    (accepting : ∀ p ∈ chain, p.Accepting) (distinct : (chain.map Plugin.serial).Nodup)
    (events : List (Event ι)) (sound : ∀ e ∈ events, e.Sound) (tree : ProcessTree ι σ)
    (ran : Machine.run (treeStep mounts hostname) (treeStart chain) events = some tree) :
    (∀ who h, ancestry events who = some h → ∃ env x made,
      h.origin = startWorld (initializeMonitor env) ∧ tree.producers who = some x ∧
      h.own = made ++ x.owed ∧
      arrivals (initializeMonitor env) .application
          (atQueue ((initializeMonitor env).pipeline h.before)) ++
        (messagesOf who tree.taken ++ messagesOf who tree.queue) =
      arrivals (initializeMonitor env) .application
        (atQueue ((initializeMonitor env).pipeline (h.before ++ made))) ∧
      x.state.monitor.tally = tallyOf ((initializeMonitor env).pipeline (h.before ++ made)) ∧
      x.state.monitor.ipcRecords =
        (arrived (atQueue ((initializeMonitor env).pipeline h.before)) +
          (messagesOf who tree.taken ++ messagesOf who tree.queue).length : Nat)) ∧
    ∀ p ∈ chain, (seenBy p.serial tree.consumer.trace).map eraseDevice =
      tree.taken.map fun e => shown hostname e.2 := by
  rw [run_tree] at ran
  constructor
  · intro who h known
    have admits : ∀ move ∈ events.map Event.move, move.Admits Begun Recordable := by
      intro move hmove
      obtain ⟨e, he, rfl⟩ := List.mem_map.mp hmove
      exact sound e he
    obtain ⟨⟨env, queue, small, origin⟩, recordable⟩ := past_admits admits known
    obtain ⟨x, b, made, alive, own, reached, began, sent⟩ := run_sent ran known
    obtain ⟨before, inherited⟩ := List.forall_mem_append.mp recordable
    have done : ∀ c ∈ h.before ++ made, Recordable c := by
      refine List.forall_mem_append.mpr ⟨before, ?_⟩
      rw [own] at inherited
      exact (List.forall_mem_append.mp inherited).1
    rw [origin] at reached began
    obtain ⟨delivered, tally⟩ := process_counts queue small done reached
    obtain ⟨delivered', -⟩ := process_counts queue small before began
    have log : b.delivered ++ (messagesOf who tree.taken ++ messagesOf who tree.queue) =
        x.state.delivered := sent
    rw [delivered, delivered'] at log
    refine ⟨env, x, made, origin, alive, own, log, tally, ?_⟩
    have counted : x.state.monitor.ipcRecords =
        arrived (atQueue ((initializeMonitor env).pipeline (h.before ++ made))) :=
      congrArg Tally.records tally
    rw [counted, ← length_arrivals (initializeMonitor env) .application, ← log, List.length_append,
      length_arrivals]
  · intro p hp
    rw [run_taken ran, foldl_receive, List.nil_append,
      executeAll_allAccepting _ accepting distinct (List.mem_map_of_mem hp), inputLoop_erased,
      List.map_map]
    rfl

/-! A process that reads, forks, and has its child's fork recorded. -/

def forkingEnvironment : Environment :=
  queueEnvironment.monitoring "FILE_READ,PROCESSES".toList

def helloReturn : Return := ⟨{ Invocation.zero with init := helloInit }, fun _ => .success⟩

def forkingEvents : List (Event Bool) :=
  [.launch false forkingEnvironment helloStartup, .record false, .record false,
    .call false [(readHello, .success)], .record false,
    .fork false true 4242 helloReturn helloReturn,
    .record true, .record true, .record true, .take, .record false]

theorem success_recordable {c : RecordCall} (defined_ : c.Defined) :
    Recordable (c, .success) := by
  have first : Outcomes.success.msgsnd 0 ≠ .failed EAGAIN := by decide
  refine ⟨defined_, ?_, ?_, .inl ⟨0, by decide, first⟩⟩
  · simp [Outcomes.success]
  · simp [Outcomes.success, Small]

theorem forkingEvents_sound : ∀ e ∈ forkingEvents, e.Sound := by
  have settings : (initializeMonitor forkingEnvironment).windowing = none := by decide
  have begun : Begun (startWorld (initializeMonitor forkingEnvironment)) := by
    refine ⟨forkingEnvironment, rfl, ?_, rfl⟩
    rw [settings]
    intro p hp
    cases hp
  have read : 0 ≤ helloInit.read.ret ∧ helloInit.read.ret ≠ 1 := by decide
  have readable : helloInit.cmdline.Readable := by simp [CharPtr.Readable, helloInit]
  have started : ∀ c ∈ helloStartup.records, Recordable c := by
    obtain ⟨start, chdir, init, first, second⟩ := init_eq (p := helloStartup) read
    rw [Startup.records, not_crashes read, if_neg Bool.false_ne_true, init]
    exact List.forall_mem_cons.mpr ⟨success_recordable (first readable),
      List.forall_mem_singleton.mpr (success_recordable second)⟩
  have returned : ∀ c ∈ helloReturn.records (4242 + 1) ++ helloReturn.records 0,
      Recordable c := by
    obtain ⟨fork, inParent, defined_, -⟩ := records_parent helloReturn 4242
    obtain ⟨start, chdir, fork', inChild, ⟨first, -⟩, ⟨second, -⟩, third, -⟩ :=
      records_child helloReturn read readable
    refine List.forall_mem_append.mpr ⟨?_, ?_⟩
    · rw [show ((4242 : Int) + 1) = (4242 : Nat) + 1 from rfl, inParent]
      exact List.forall_mem_singleton.mpr (success_recordable defined_)
    · rw [inChild]
      exact List.forall_mem_cons.mpr ⟨success_recordable first, List.forall_mem_cons.mpr
        ⟨success_recordable second, List.forall_mem_singleton.mpr (success_recordable third)⟩⟩
  intro e he
  simp only [forkingEvents, List.mem_cons, List.not_mem_nil, or_false] at he
  rcases he with rfl | rfl | rfl | rfl | rfl | rfl | rfl | rfl | rfl | rfl | rfl
  · exact ⟨begun, started⟩
  · trivial
  · trivial
  · intro c hc
    cases List.mem_singleton.mp hc
    exact success_recordable readHello_defined
  · trivial
  · exact returned
  all_goals trivial

theorem family_law_fork : ∃ tree x, Machine.run (treeStep noMounts [])
      (treeStart [acceptingRequest.node 0]) forkingEvents = some tree ∧
    tree.producers true = some x ∧ x.state.monitor.ipcRecords = 2 ∧
    (messagesOf true tree.taken ++ messagesOf true tree.queue).length = 1 := by
  have accepting : ∀ p ∈ [acceptingRequest.node 0], p.Accepting := by
    intro p hp
    rw [List.mem_singleton.mp hp]
    exact ⟨rfl, fun _ _ => rfl⟩
  obtain ⟨tree, ran, idle⟩ : ∃ tree : ProcessTree Bool (BitVec 32 × Unit),
      Machine.run (treeStep noMounts []) (treeStart [acceptingRequest.node 0]) forkingEvents =
        some tree ∧ (tree.producers true).map Life.owed = some [] := ⟨_, rfl, rfl⟩
  obtain ⟨law, -⟩ := family_law noMounts [] [acceptingRequest.node 0] accepting (by simp)
    forkingEvents forkingEvents_sound tree ran
  obtain ⟨env, x, made, origin, alive, own, sent, -, counted⟩ := law true _ rfl
  have settings : initializeMonitor forkingEnvironment = initializeMonitor env :=
    congrArg World.monitor origin
  rw [alive, Option.map_some, Option.some.injEq] at idle
  rw [idle, List.append_nil] at own
  subst own
  rw [← settings] at sent counted
  have inherited : arrived (atQueue ((initializeMonitor forkingEnvironment).pipeline
      (helloStartup.records ++ [(readHello, .success)]))) = 1 := by decide
  have all : arrived (atQueue ((initializeMonitor forkingEnvironment).pipeline
      (helloStartup.records ++ [(readHello, .success)] ++ helloReturn.records 0))) = 2 := by decide
  have lengths := congrArg List.length sent
  rw [List.length_append, length_arrivals, length_arrivals] at lengths
  have one : 1 + (messagesOf true tree.taken ++ messagesOf true tree.queue).length = 2 :=
    (congrArg (· + _) inherited).symm.trans (lengths.trans all)
  have sentAlone : (messagesOf true tree.taken ++ messagesOf true tree.queue).length = 1 := by
    omega
  refine ⟨tree, x, ran, alive, ?_, sentAlone⟩
  rw [counted, sentAlone]
  exact congrArg (fun n : Nat => ((n + 1 : Nat) : BitVec 32)) inherited

end IoMonitor
