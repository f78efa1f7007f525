import IoMonitor.EndToEnd.DomainFilter
import IoMonitor.Lib.FanIn
import IoMonitor.Monitor.Delivery

/-!
Many monitored processes, one queue, one listener.

The processes share nothing but the message queue. Each one sends by the law of
its own environment, the queue keeps the order, and `input_loop` passes on every
message that it takes. So however the processes and the listener take turns, an
output plugin is shown from each process the front part of what that process
delivers, and of all processes together what has been taken from the queue
(`fleet_law`).
-/

namespace IoMonitor

open CString Listener Sieve FanIn

/-! ### A process as a producer -/

theorem recordStep_grows (who : Caller) (w : World) (c : Recorded) (w' : World)
    (step : recordStep who w c = some w') : w.delivered <+: w'.delivered := by
  obtain ⟨m, -, rfl⟩ | ⟨m, r, rc, w₁, -, -, sent, rfl⟩ := recordStep_cases step
  · exact List.prefix_rfl
  · obtain ⟨rc', w₂, sent', spec⟩ := sendRecord_sent c.2 r
      { w with monitor := m, attempts := w.attempts ++ [⟨who, r⟩] }
    cases sent.symm.trans sent'
    by_cases handed : HandedOver m c.2
    · exact ⟨[r], (spec.took handed).symm⟩
    · exact ⟨[], (List.append_nil _).trans (spec.lost handed).symm⟩

/-- A monitored process: its calls of `record()`, and what the queue has taken
from it. -/
def process : Producer World Recorded MonitorRecord where
  step := recordStep .application
  log := World.delivered
  grows := recordStep_grows .application

/-! ### The listener as the consumer -/

/-- What `input_loop` works on: the table of the resolver, the chain, and the
calls made to the plugins. -/
structure Desk (σ : Type) where
  table : FdTable
  chain : List (Plugin σ)
  trace : Trace

variable {σ : Type}

/-- The body of `input_loop` for a message received. -/
def Desk.receive (mounts : MountTable) (hostname : Str) (d : Desk σ) (r : MonitorRecord) :
    Desk σ :=
  let (table, r) := dispatch mounts d.table { r with hostname := strncpy HOSTNAME_LEN hostname }
  let (chain, calls) := executePluginChain r d.chain
  ⟨table, chain, d.trace ++ calls⟩

/-- Message by message, the loop is the dispatch of all, and the chain on all. -/
theorem foldl_receive (mounts : MountTable) (hostname : Str) (rs : List MonitorRecord)
    (d : Desk σ) :
    (rs.foldl (Desk.receive mounts hostname) d).trace =
      d.trace ++ (executeAll (inputLoop mounts hostname d.table rs).2 d.chain).2 := by
  induction rs generalizing d with
  | nil => simp [inputLoop, executeAll]
  | cons r rs ih =>
      rw [List.foldl_cons, ih]
      simp only [Desk.receive, inputLoop, executeAll, List.append_assoc]

theorem accepting_call (record : MonitorRecord) {chain : List (Plugin σ)}
    (accepting : ∀ p ∈ chain, p.Accepting) :
    (∀ p ∈ (executePluginChain record chain).1, p.Accepting) ∧
      (executePluginChain record chain).2 =
        chain.map fun p => (p.serial, .processData record PLUGIN_ACCEPT_DATA) := by
  induction chain with
  | nil => exact ⟨by simp [executePluginChain], rfl⟩
  | cons p rest ih =>
      obtain ⟨head, tail⟩ := List.forall_mem_cons.mp accepting
      obtain ⟨stays, calls⟩ := head.visit record
      obtain ⟨later, more⟩ := ih tail
      simp only [executePluginChain, calls, Bool.false_eq_true, if_false]
      exact ⟨List.forall_mem_cons.mpr ⟨stays, later⟩, by rw [more]; rfl⟩

/-- Where every plugin accepts, each of them sees every record. -/
theorem executeAll_allAccepting (records : List MonitorRecord) {chain : List (Plugin σ)}
    (accepting : ∀ p ∈ chain, p.Accepting) (distinct : (chain.map Plugin.serial).Nodup) {n : Nat}
    (mem : n ∈ chain.map Plugin.serial) : seenBy n (executeAll records chain).2 = records := by
  induction records generalizing chain with
  | nil => rfl
  | cons record records ih =>
      obtain ⟨stays, calls⟩ := accepting_call record accepting
      have serials : (executePluginChain record chain).1.map Plugin.serial =
          chain.map Plugin.serial := by
        have identity := congrArg (List.map Prod.fst) (executePluginChain_identity record chain)
        simpa [Plugin.identity, Function.comp_def] using identity
      have once : seenBy n (executePluginChain record chain).2 = [record] := by
        rw [calls]
        clear calls stays ih serials accepting
        induction chain with
        | nil => cases mem
        | cons p rest ih =>
            obtain ⟨notIn, distinct⟩ := List.nodup_cons.mp distinct
            rcases List.mem_cons.mp mem with rfl | later
            · have others : seenBy p.serial (rest.map fun p =>
                  (p.serial, Call.processData record PLUGIN_ACCEPT_DATA)) = [] := by
                refine List.filterMap_eq_nil_iff.mpr fun e he => ?_
                obtain ⟨q, hq, rfl⟩ := List.mem_map.mp he
                have other : q.serial ≠ p.serial := fun same =>
                  notIn (same ▸ List.mem_map_of_mem hq)
                simp [other]
              unfold seenBy at others ⊢
              simp [others]
            · have other : p.serial ≠ n := fun same => notIn (same ▸ later)
              have ih := ih distinct later
              unfold seenBy at ih ⊢
              simp [other, ih]
      have rest := ih stays (serials ▸ distinct) (serials ▸ mem)
      rw [executeAll]
      dsimp only
      rw [seenBy_append, once, rest]
      rfl

/-! ### The fleet -/

/-- What the plugins are shown of a record, but for the device. -/
def shown (hostname : Str) (r : MonitorRecord) : MonitorRecord :=
  eraseDevice { r with hostname := strncpy HOSTNAME_LEN hostname }

/-- The processes, the queue between, and the listener. -/
abbrev Fleet (ι σ : Type) := FanIn.State ι World MonitorRecord (Desk σ)

/-- Each process in its own environment, and the listener with its plugins. -/
def launch {ι : Type} (env : ι → Environment) (chain : List (Plugin σ)) : Fleet ι σ :=
  FanIn.start (fun i => startWorld (initializeMonitor (env i))) ⟨noFiles, chain, []⟩

/-- A process alone delivers by its law. -/
theorem process_law {env : Environment} (queue : env.messageQueuePath.isSome)
    (small : SmallWindows (initializeMonitor env).windowing) {calls : List Recorded}
    (defined_ : ∀ c ∈ calls, c.1.Defined)
    (clock : ∀ c ∈ calls, 0 < c.2.time ∧ Small c.2.time) {w : World}
    (ran : Machine.run process.step (startWorld (initializeMonitor env)) calls = some w) :
    w.delivered = arrivals (initializeMonitor env) .application
      (atQueue ((initializeMonitor env).pipeline calls)) := by
  obtain ⟨path, hold, keyFirst, -⟩ := initializeMonitor_transport env
  obtain ⟨w', ran', -, delivered, -⟩ := run_delivery small (path ▸ queue) .application calls
    defined_ clock (w := startWorld (initializeMonitor env)) (initializeMonitor_shows env) keyFirst
  have held : (startWorld (initializeMonitor env)).monitor.hold = .seeking := hold
  rw [held, pass_queueing, pass_unused] at delivered
  cases ran.symm.trans ran'
  exact delivered

/-- **The fleet.** In whatever order the processes make their calls and the
listener takes messages: of each process, what has been taken and what is still
queued make up what it delivers by its law, in order; and every plugin of a chain
that accepts has been shown what has been taken, in order. -/
theorem fleet_law {ι : Type} [DecidableEq ι] (env : ι → Environment)
    (queue : ∀ i, (env i).messageQueuePath.isSome)
    (small : ∀ i, SmallWindows (initializeMonitor (env i)).windowing) (mounts : MountTable)
    (hostname : Str) (chain : List (Plugin σ)) (accepting : ∀ p ∈ chain, p.Accepting)
    (distinct : (chain.map Plugin.serial).Nodup) (moves : List (Move ι Recorded))
    (defined_ : ∀ i, ∀ c ∈ inputsOf i moves, c.1.Defined)
    (clock : ∀ i, ∀ c ∈ inputsOf i moves, 0 < c.2.time ∧ Small c.2.time) (fleet : Fleet ι σ)
    (ran : Machine.run (FanIn.step process (Desk.receive mounts hostname)) (launch env chain) moves =
      some fleet) :
    (∀ i, messagesOf i fleet.taken ++ messagesOf i fleet.queue =
      arrivals (initializeMonitor (env i)) .application
        (atQueue ((initializeMonitor (env i)).pipeline (inputsOf i moves)))) ∧
    ∀ p ∈ chain, (seenBy p.serial fleet.consumer.trace).map eraseDevice =
      fleet.taken.map fun e => shown hostname e.2 := by
  constructor
  · intro i
    have alone := run_producer i moves ran
    rw [run_log (fun _ => rfl) _ moves ran i]
    exact process_law (queue i) (small i) (defined_ i) (clock i) alone
  · intro p hp
    rw [run_consumer _ _ moves ran, foldl_receive, List.nil_append,
      executeAll_allAccepting _ accepting distinct (List.mem_map_of_mem hp), inputLoop_erased,
      List.map_map]
    rfl

/-! Two processes that read: the first monitors reads, the second nothing. -/

def twoProcesses (second : Bool) : Environment :=
  if second then queueEnvironment else queueEnvironment.monitoring "FILE_READ".toList

def twoProcesses_moves : List (Move Bool Recorded) :=
  [.act false (readHello, .success), .act true (readHello, .success), .take,
    .act false (readHello, .success)]

theorem fleet_law_two : ∃ fleet : Fleet Bool (BitVec 32 × Unit),
    Machine.run (FanIn.step process (Desk.receive noMounts []))
        (launch twoProcesses [acceptingRequest.node 0]) twoProcesses_moves = some fleet ∧
      messagesOf true fleet.taken ++ messagesOf true fleet.queue = [] ∧
      (messagesOf false fleet.taken ++ messagesOf false fleet.queue).length = 2 ∧
      (seenBy 0 fleet.consumer.trace).map eraseDevice =
        fleet.taken.map fun e => shown [] e.2 := by
  have calls : ∀ i, ∀ c ∈ inputsOf i twoProcesses_moves, c = (readHello, .success) := by
    intro i c hc
    cases i <;> simpa [inputsOf, twoProcesses_moves] using hc
  have small : ∀ i, SmallWindows (initializeMonitor (twoProcesses i)).windowing := by
    intro i
    have settings : (initializeMonitor (twoProcesses i)).windowing = none := by
      cases i <;> decide
    rw [settings]
    intro p hp
    cases hp
  have accepting : ∀ p ∈ [acceptingRequest.node 0], p.Accepting := by
    intro p hp
    rw [List.mem_singleton.mp hp]
    exact ⟨rfl, fun _ _ => rfl⟩
  obtain ⟨fleet, ran⟩ : ∃ fleet : Fleet Bool (BitVec 32 × Unit),
      Machine.run (FanIn.step process (Desk.receive noMounts []))
        (launch twoProcesses [acceptingRequest.node 0]) twoProcesses_moves = some fleet :=
    ⟨_, rfl⟩
  obtain ⟨law, sees⟩ := fleet_law twoProcesses (fun i => by cases i <;> rfl) small noMounts []
    [acceptingRequest.node 0] accepting (by simp) twoProcesses_moves
    (fun i c hc => calls i c hc ▸ readHello_defined)
    (fun i c hc => by rw [calls i c hc]; simp [Outcomes.success, Small]) fleet ran
  refine ⟨fleet, ran, ?_, ?_, sees _ List.mem_cons_self⟩
  · rw [law true]
    rfl
  · rw [law false]
    rfl

end IoMonitor
