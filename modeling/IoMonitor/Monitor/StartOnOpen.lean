import IoMonitor.Monitor.Eligible
import Mathlib.Data.List.DropRight

/-!
`START_ON_OPEN`.

The monitor starts paused and is to resume at the first open whose path contains
the given value. The pause is ended inside `record()` behind the domain filter,
so an open resumes the monitor only where opens are monitored
(`startOnOpen_iff`).
-/

namespace IoMonitor

open CString

/-! ### What the feature promises -/

/-- An open, not of a standard stream or of `.` or `..`, whose path contains the
value. -/
def Trigger (value : Str) (c : RecordCall) : Bool :=
  match c.s1 with
  | .str path =>
      c.opType = .opens ∧ ¬ (-1 < c.fd ∧ c.fd < 3) ∧ path ≠ ['.'] ∧ path ≠ ['.', '.'] ∧
        strstr value path
  | _ => false

/-- The calls to be sent: from the first trigger on, the eligible ones. -/
def promised (value : Str) (m : Monitor) (calls : List Recorded) : List Recorded :=
  (calls.dropWhile fun c => !Trigger value c.1).filter fun c => Eligible m c.1

/-- The calls of `record()`, one after the other. -/
def recordAll (lib : LibraryCalls) (who : Caller) : List Recorded → Prog World Unit
  | [] => pure ()
  | (c, o) :: calls => do
      record lib o who c
      recordAll lib who calls

/-- The attempt a sent call makes. -/
def attemptOf (m : Monitor) (who : Caller) (c : Recorded) : Attempt where
  caller := who
  record := (buildRecord m c.1 c.2.time c.2.getpid).getD .zero

theorem attemptOf_built {who : Caller} {c : Recorded} {m : Monitor} {r : MonitorRecord}
    (built : buildRecord m c.1 c.2.time c.2.getpid = some r) : attemptOf m who c = ⟨who, r⟩ := by
  simp only [attemptOf, built, Option.getD_some]

/-- At every point of the run, the records handed to the transport are those of
the calls promised. -/
def KeepsPromise (value : Str) (lib : LibraryCalls) (who : Caller) (w : World)
    (calls : List Recorded) : Prop :=
  ∀ pre, pre <+: calls → ∃ w', recordAll lib who pre w = .returned () w' ∧
    w'.attempts = w.attempts ++ (promised value w.monitor pre).map (attemptOf w.monitor who)

/-- The message queue transport, no sampling, and no elapsed threshold, as
`initialize_monitor` leaves the variables without the other settings. -/
structure QueueUnsampled (m : Monitor) : Prop where
  queue : m.messageQueuePath.isSome
  noElapsed : m.haveElapsedThreshold = false
  noCount : m.countBasedSampling = false
  noTime : m.timeBasedSampling = false
  noSocket : m.socketFd = FD_NONE
  connected : m.failedSocketConnections = 0

theorem QueueUnsampled.congr {m m' : Monitor} (h : QueueUnsampled m)
    (same : m'.unsampled.uncounted = m.unsampled.uncounted) : QueueUnsampled m' where
  queue := (congrArg (·.messageQueuePath.isSome) same).trans h.queue
  noElapsed := (congrArg Monitor.haveElapsedThreshold same).trans h.noElapsed
  noCount := (congrArg Monitor.countBasedSampling same).trans h.noCount
  noTime := (congrArg Monitor.timeBasedSampling same).trans h.noTime
  noSocket := (congrArg Monitor.socketFd same).trans h.noSocket
  connected := (congrArg Monitor.failedSocketConnections same).trans h.connected

/-! ### One call -/

theorem gate_queueUnsampled {m : Monitor} (h : QueueUnsampled m) (c : RecordCall) :
    gate c m =
      if !c.isStdio && m.monitors c.domType then .admitted m else .ignored m := by
  simp only [gate, h.connected, h.noSocket]
  cases c.isStdio <;> cases m.monitors c.domType <;> simp

/-- Past `openStage`, only the pause can stop a call. -/
theorem late_queueUnsampled {m : Monitor} (h : QueueUnsampled m) (c : RecordCall)
    (timestamp : Nat) :
    ((elapsedStage c m).andThen fun m => (pausedStage m).andThen fun m =>
        (countStage m).andThen (timeStage timestamp)) =
      if m.paused then .ignored m else .admitted m := by
  have running : (countStage m).andThen (timeStage timestamp) = .admitted m := by
    simp [countStage, timeStage, h.noCount, h.noTime]
  have elapsed : elapsedStage c m = .admitted m := by simp [elapsedStage, h.noElapsed]
  rw [elapsed, admitted_andThen, pausedStage]
  split
  · rfl
  · exact running

/-- An open is dropped for its path, or looked at for the value. -/
theorem openStage_opens {m : Monitor} {value path : Str} (set : m.startOnOpen = some value)
    {c : RecordCall} (opens : c.opType = .opens) (s1 : c.s1 = .str path) :
    openStage c m =
      if c.opensDot then .ignored m
      else if m.paused ∧ strstr value path then .admitted m.resume
      else .admitted m := by
  simp [openStage, RecordCall.opensDot, opens, s1, set]

theorem resume_eq {m : Monitor} (h : m.paused = false) : m.resume = m := by
  cases m
  cases h
  rfl

/-- The filters under these settings: a call is sent if it is eligible and the
monitor runs or resumes with it. -/
theorem recordFilters_queueUnsampled {m : Monitor} (h : QueueUnsampled m) {value : Str}
    (set : m.startOnOpen = some value) {c : RecordCall} (valid : c.Valid) (timestamp : Nat) :
    recordFilters c timestamp m =
      if Eligible m c ∧ (m.paused = false ∨ Trigger value c) then .admitted m.resume
      else .ignored m := by
  rw [recordFilters, gate_queueUnsampled h]
  by_cases passes : (!c.isStdio && m.monitors c.domType) = true
  · rw [if_pos passes, admitted_andThen]
    by_cases opens : c.opType = .opens
    · obtain ⟨domain, path, s1⟩ := valid.opens opens
      rw [openStage_opens set opens s1]
      by_cases dot : c.opensDot = true
      · simp [dot, Eligible]
      · have eligible : Eligible m c = true := by simp [Eligible, passes, dot]
        have stdio : c.isStdio = false := by
          simp only [Bool.and_eq_true, Bool.not_eq_true'] at passes
          exact passes.1
        have trigger : Trigger value c = strstr value path := by
          simp only [RecordCall.isStdio, domain] at stdio
          simp only [RecordCall.opensDot, opens, s1] at dot
          simp only [Trigger, s1, opens]
          grind
        rw [if_neg dot, trigger]
        by_cases resumes : m.paused = true ∧ strstr value path = true
        · have resumed : QueueUnsampled m.resume := h.congr rfl
          rw [if_pos resumes, admitted_andThen, late_queueUnsampled resumed,
            if_neg (by simp [Monitor.resume]), if_pos ⟨eligible, .inr resumes.2⟩]
        · rw [if_neg resumes, admitted_andThen, late_queueUnsampled h]
          cases paused : m.paused with
          | false => simp [eligible, resume_eq paused]
          | true =>
              have notFound : strstr value path = false := by
                simpa [paused] using resumes
              simp [notFound]
    · have noDot : c.opensDot = false := by simp [RecordCall.opensDot, opens]
      have noTrigger : Trigger value c = false := by
        unfold Trigger
        split <;> simp [opens]
      have stage : openStage c m = .admitted m := by simp [openStage, opens]
      rw [stage, admitted_andThen, late_queueUnsampled h]
      cases paused : m.paused with
      | false => simp [Eligible, passes, noDot, resume_eq paused]
      | true => simp [noTrigger]
  · rw [if_neg passes, ignored_andThen]
    simp only [Bool.not_eq_true] at passes
    simp [Eligible, passes]

/-! ### The whole run -/

/-- What the monitor keeps through a run under these settings. -/
def Monitor.settings (m : Monitor) : Monitor := m.unsampled.uncounted

/-- The calls sent by a monitor that is paused or not. -/
def sentCalls (value : Str) (m : Monitor) (paused : Bool) (calls : List Recorded) :
    List Recorded :=
  if paused then
    (calls.dropWhile fun c => !(Eligible m c.1 && Trigger value c.1)).filter
      fun c => Eligible m c.1
  else calls.filter fun c => Eligible m c.1

/-- Eligibility and the record depend on settings alone. -/
theorem eligible_congr {m m' : Monitor} (same : m'.settings = m.settings) (c : RecordCall) :
    Eligible m' c = Eligible m c :=
  eligible_of_mask (congrArg Monitor.domainBitFlags same :) c

theorem attemptOf_congr {m m' : Monitor} (same : m'.settings = m.settings) (who : Caller) :
    attemptOf m' who = attemptOf m who := by
  have facility : m'.facility = m.facility := (congrArg Monitor.facility same :)
  funext c
  simp only [attemptOf, buildRecord_congr facility]

theorem sentCalls_congr {m m' : Monitor} (same : m'.settings = m.settings) (value : Str)
    (paused : Bool) (calls : List Recorded) :
    sentCalls value m' paused calls = sentCalls value m paused calls := by
  simp only [sentCalls, eligible_congr same]

theorem sentCalls_cons_sent {value : Str} {m : Monitor} {paused : Bool} {c : Recorded}
    (eligible : Eligible m c.1 = true) (sends : paused = false ∨ Trigger value c.1 = true)
    (calls : List Recorded) :
    sentCalls value m paused (c :: calls) = c :: sentCalls value m false calls := by
  unfold sentCalls
  rcases sends with running | trigger
  · simp [running, eligible]
  · cases paused <;> simp [eligible, trigger]

theorem sentCalls_cons_ignored {value : Str} {m : Monitor} {paused : Bool} {c : Recorded}
    (ignored : ¬ (Eligible m c.1 = true ∧ (paused = false ∨ Trigger value c.1 = true)))
    (calls : List Recorded) :
    sentCalls value m paused (c :: calls) = sentCalls value m paused calls := by
  unfold sentCalls
  cases paused with
  | false =>
      have notEligible : Eligible m c.1 = false := by simpa using ignored
      simp [notEligible]
  | true =>
      have waits : (Eligible m c.1 && Trigger value c.1) = false := by
        rw [Bool.and_eq_false_imp]
        simpa using ignored
      simp only [if_true, List.dropWhile_cons, waits, Bool.not_false]

/-- A run makes an attempt for each call sent, in order, and none else. -/
theorem recordAll_attempts {value : Str} (lib : LibraryCalls) (who : Caller) :
    ∀ (calls : List Recorded) {w : World}, QueueUnsampled w.monitor →
      w.monitor.startOnOpen = some value → (∀ c ∈ calls, c.1.Valid) →
      ∃ w', recordAll lib who calls w = .returned () w' ∧
        w'.attempts = w.attempts ++ (sentCalls value w.monitor w.monitor.paused calls).map
          (attemptOf w.monitor who)
  | [], w, _, _, _ => ⟨w, rfl, by unfold sentCalls; split <;> simp⟩
  | (c, o) :: calls, w, settings, set, valid => by
      obtain ⟨validHead, validTail⟩ := List.forall_mem_cons.mp valid
      have verdict := recordFilters_queueUnsampled settings set validHead o.time
      by_cases sends : Eligible w.monitor c = true ∧
          (w.monitor.paused = false ∨ Trigger value c = true)
      · rw [if_pos sends] at verdict
        obtain ⟨r, built⟩ := buildRecord_isSome w.monitor.resume validHead.defined o.time o.getpid
        obtain ⟨w₁, sent, attempts, kept, -⟩ := dispatchRecord_queue lib o who r
          (w := { w with monitor := w.monitor.resume }) settings.queue
        have first : record lib o who c w = .returned () w₁ :=
          (record_admitted verdict built).trans sent
        have same : w₁.monitor.settings = w.monitor.settings := by
          have := congrArg Monitor.unsampled kept
          exact this
        have running : w₁.monitor.paused = false := congrArg Monitor.paused kept
        obtain ⟨w', rest, more⟩ := recordAll_attempts lib who calls (w := w₁)
          (settings.congr same) ((congrArg Monitor.startOnOpen same).trans set) validTail
        refine ⟨w', (Prog.bind_of_returned first).trans rest, ?_⟩
        have own : attemptOf w.monitor who (c, o) = ⟨who, r⟩ := attemptOf_built built
        rw [more, attempts, running, sentCalls_congr same, attemptOf_congr same,
          sentCalls_cons_sent (c := (c, o)) sends.1 sends.2, List.map_cons, own]
        simp
      · rw [if_neg sends] at verdict
        have first : record lib o who c w = .returned () w := record_ignored verdict
        obtain ⟨w', rest, more⟩ := recordAll_attempts lib who calls (w := w) settings set validTail
        refine ⟨w', (Prog.bind_of_returned first).trans rest, ?_⟩
        rw [more, sentCalls_cons_ignored (c := (c, o)) sends]

/-- A trigger is eligible where opens are monitored, and nowhere else. -/
theorem trigger_eligible {value : Str} {m : Monitor} {c : RecordCall} (valid : c.Valid)
    (trigger : Trigger value c = true) : Eligible m c = m.monitors .fileOpenClose := by
  unfold Trigger at trigger
  split at trigger
  · rename_i path s1
    simp only [decide_eq_true_eq] at trigger
    obtain ⟨opens, notStdio, notDot, notDots, -⟩ := trigger
    have domain := (valid.opens opens).1
    have stdio : c.isStdio = false := by
      simp only [RecordCall.isStdio, decide_eq_false_iff_not]
      exact fun std => notStdio ⟨std.1, std.2.1⟩
    have dot : c.opensDot = false := by
      simp [RecordCall.opensDot, s1, notDot, notDots]
    simp [Eligible, stdio, dot, domain]
  · cases trigger

/-- A paused monitor sends what is promised where opens are monitored, and
otherwise nothing. -/
theorem sentCalls_paused {value : Str} {m : Monitor} {calls : List Recorded}
    (valid : ∀ c ∈ calls, c.1.Valid) :
    sentCalls value m true calls =
      if m.monitors .fileOpenClose then promised value m calls else [] := by
  have opens : ∀ c ∈ calls, (Eligible m c.1 && Trigger value c.1) =
      (m.monitors .fileOpenClose && Trigger value c.1) := by
    intro c hc
    cases trigger : Trigger value c.1 with
    | false => simp
    | true => rw [trigger_eligible (valid c hc) trigger]
  unfold sentCalls promised
  rw [if_pos rfl]
  induction calls with
  | nil => simp
  | cons c calls ih =>
      obtain ⟨head, tail⟩ := List.forall_mem_cons.mp opens
      have ih := ih (fun d hd => valid d (List.mem_cons_of_mem _ hd)) tail
      cases monitored : m.monitors .fileOpenClose with
      | false =>
          rw [monitored, Bool.false_and] at head
          rw [monitored] at ih
          simp only [List.dropWhile_cons, head, Bool.not_false, if_true]
          exact ih
      | true =>
          rw [monitored, Bool.true_and] at head
          rw [monitored] at ih
          simp only [List.dropWhile_cons, head]
          cases Trigger value c.1 with
          | false => simpa using ih
          | true => simp

/-- What is promised of a part of the run is part of what is promised of it. -/
theorem promised_prefix {value : Str} {m : Monitor} {pre calls : List Recorded}
    (h : pre <+: calls) (nothing : promised value m calls = []) : promised value m pre = [] := by
  obtain ⟨rest, rfl⟩ := h
  unfold promised at nothing ⊢
  by_cases waits : ∀ c ∈ pre, Trigger value c.1 = false
  · have none_left : pre.dropWhile (fun c => !Trigger value c.1) = [] := by
      rw [List.dropWhile_eq_nil_iff]
      exact fun c hc => by simp [waits c hc]
    rw [none_left]
    rfl
  · have some_left : (pre.dropWhile fun c => !Trigger value c.1).isEmpty = false := by
      rw [Bool.eq_false_iff]
      intro empty
      rw [List.isEmpty_iff, List.dropWhile_eq_nil_iff] at empty
      exact waits fun c hc => by simpa using empty c hc
    rw [List.dropWhile_append, if_neg (by simp [some_left]), List.filter_append] at nothing
    exact (List.append_eq_nil_iff.mp nothing).1

/-- **`START_ON_OPEN`.** From the state `load_library_functions` leaves, every
point of every run has sent what is promised iff opens are monitored or nothing
is promised. -/
theorem startOnOpen_iff (value : Str) (elapsed : Option Float) (base : Monitor)
    (settings : QueueUnsampled base) (lib : LibraryCalls) (who : Caller) (w : World)
    (start : w.monitor = loadLibraryFunctions (some value) elapsed base) (calls : List Recorded)
    (valid : ∀ c ∈ calls, c.1.Valid) :
    KeepsPromise value lib who w calls ↔
      base.monitors .fileOpenClose ∨ promised value base calls = [] := by
  have same : w.monitor.domainBitFlags = base.domainBitFlags := by
    rw [start]
    rfl
  have monitors : w.monitor.monitors .fileOpenClose = base.monitors .fileOpenClose := by
    simp only [Monitor.monitors, same]
  have promises : promised value w.monitor = promised value base := by
    funext calls
    simp only [promised, Eligible, Monitor.monitors, same]
  have runs : QueueUnsampled w.monitor := by
    rw [start]
    exact ⟨settings.queue, settings.noElapsed, settings.noCount, settings.noTime,
      settings.noSocket, settings.connected⟩
  have set : w.monitor.startOnOpen = some value := by
    rw [start]
    rfl
  have paused : w.monitor.paused = true := by
    rw [start]
    rfl
  have sends := fun pre (h : pre <+: calls) =>
    recordAll_attempts lib who pre runs set fun c hc => valid c (h.subset hc)
  constructor
  · intro keeps
    by_contra neither
    obtain ⟨unmonitored, promises_some⟩ := not_or.mp neither
    obtain ⟨w₁, ran, attempts⟩ := keeps calls List.prefix_rfl
    obtain ⟨w₂, ran', attempts'⟩ := sends calls List.prefix_rfl
    rw [ran] at ran'
    cases ran'
    rw [attempts', paused, sentCalls_paused valid, monitors, if_neg unmonitored,
      promises] at attempts
    have := List.append_cancel_left attempts
    simp only [List.map_nil, List.nil_eq, List.map_eq_nil_iff] at this
    exact promises_some this
  · intro condition pre h
    obtain ⟨w', ran, attempts⟩ := sends pre h
    refine ⟨w', ran, ?_⟩
    rw [attempts, paused, sentCalls_paused fun c hc => valid c (h.subset hc), monitors]
    split
    · rfl
    · rename_i unmonitored
      have nothing := promised_prefix h (condition.resolve_left unmonitored)
      rw [promises, nothing]

/-! `START_ON_OPEN=hello`, and a program that opens the file and reads from it. -/

def openHello : RecordCall where
  domType := .fileOpenClose
  opType := .opens
  fd := FD_NONE
  s1 := .str "/tmp/hello_world.txt".toList
  s2 := .null
  startTime := ⟨0, 0⟩
  endTime := ⟨0, 20⟩
  errorCode := 0
  bytesTransferred := 0

def readHello : RecordCall :=
  { openHello with domType := .fileRead, opType := .read, fd := 3, s1 := .null }

def helloCalls : List Recorded := [(openHello, .success), (readHello, .success)]

theorem helloCalls_valid : ∀ c ∈ helloCalls, c.1.Valid := by
  intro c hc
  simp only [helloCalls, List.mem_cons, List.not_mem_nil, or_false] at hc
  obtain rfl | rfl := hc
  · exact ⟨by simp [CharPtr.Readable, openHello], by simp [CharPtr.Readable, openHello],
      fun _ => ⟨rfl, _, rfl⟩⟩
  · exact ⟨by simp [CharPtr.Readable, readHello], by simp [CharPtr.Readable, readHello, openHello],
      fun opens => by cases opens⟩

theorem queueMonitor_settings (domains : List DomainType) : QueueUnsampled (queueMonitor domains) :=
  ⟨rfl, rfl, rfl, rfl, rfl, rfl⟩

theorem startOnOpen_iff_hello :
    KeepsPromise "hello".toList .direct .application
      (startWorld (loadLibraryFunctions (some "hello".toList) none
        (queueMonitor [.fileOpenClose, .fileRead]))) helloCalls :=
  (startOnOpen_iff "hello".toList none _ (queueMonitor_settings _) .direct .application _ rfl
    helloCalls helloCalls_valid).mpr (.inl (by decide))

/-- With reads alone monitored the monitor never resumes, and the read is lost. -/
theorem hello_not_kept :
    ¬ KeepsPromise "hello".toList .direct .application
      (startWorld (loadLibraryFunctions (some "hello".toList) none (queueMonitor [.fileRead])))
      helloCalls := by
  intro keeps
  obtain ⟨w₁, ran, attempts⟩ := keeps helloCalls List.prefix_rfl
  have set : (startWorld (loadLibraryFunctions (some "hello".toList) none
      (queueMonitor [.fileRead]))).monitor.startOnOpen = some "hello".toList := rfl
  obtain ⟨w₂, ran', attempts'⟩ := recordAll_attempts .direct .application helloCalls
    ⟨rfl, rfl, rfl, rfl, rfl, rfl⟩ set helloCalls_valid
  rw [ran] at ran'
  cases ran'
  rw [attempts'] at attempts
  have lengths := congrArg List.length (List.append_cancel_left attempts)
  rw [List.length_map, List.length_map] at lengths
  exact absurd lengths (by decide)

end IoMonitor
