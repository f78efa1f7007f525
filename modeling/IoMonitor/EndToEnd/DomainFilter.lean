import IoMonitor.EndToEnd
import IoMonitor.Listener.FilterDomains
import IoMonitor.Monitor.Initialize

/-!
Filtering domains at the producer, or at the listener.

`MONITOR_DOMAINS` keeps a record from being built, the `filter_domains` plugin
keeps it from being passed on. The two go by the same mask, and what lies
between, the queue and the dispatch of `input_loop`, changes no field of a
record that the mask is tested on (`dispatch_erased`). What `input_loop` does
change besides the host name is the device, which depends on the other records
it has seen; up to that field an output plugin sees the same records either way
(`producer_filter_eq_listener_filter`).
-/

namespace IoMonitor

open CString Listener

/-! ### From calls to the queue -/

/-- The queue transport, no pause and no sampling, whatever the domains. -/
structure QueuePlain (m : Monitor) : Prop extends QueueRunning m where
  noCount : m.countBasedSampling = false
  noTime : m.timeBasedSampling = false

theorem QueuePlain.congr {m m' : Monitor} (h : QueuePlain m) (same : m'.uncounted = m.uncounted) :
    QueuePlain m' where
  queue := (congrArg (·.messageQueuePath.isSome) same).trans h.queue
  running := (congrArg Monitor.paused same).trans h.running
  noSocket := (congrArg Monitor.socketFd same).trans h.noSocket
  connected := (congrArg Monitor.failedSocketConnections same).trans h.connected
  noCount := (congrArg Monitor.countBasedSampling same).trans h.noCount
  noTime := (congrArg Monitor.timeBasedSampling same).trans h.noTime

/-- Then exactly the eligible calls are let through. -/
theorem recordFilters_queuePlain {m : Monitor} (h : QueuePlain m) {c : RecordCall}
    (defined_ : c.Defined) (timestamp : Nat) :
    recordFilters c timestamp m = if Eligible m c then .admitted m else .ignored m := by
  have late : (countStage m).andThen (timeStage timestamp) = .admitted m := by
    simp [countStage, timeStage, h.noCount, h.noTime]
  rw [recordFilters_running h.running defined_, late]
  simp only [reaches_queue h.toQueueRunning]

/-- If the call makes a send attempt, the queue takes the record. -/
def Lossless (w : World) (c : Recorded) : Prop :=
  ∀ m, recordFilters c.1 c.2.time w.monitor = .admitted m → HandedOver m c.2

instance (w : World) (c : Recorded) : Decidable (Lossless w c) :=
  match h : recordFilters c.1 c.2.time w.monitor with
  | .admitted m => decidable_of_iff (HandedOver m c.2) (by simp [Lossless, h])
  | .ignored _ => .isTrue (by simp [Lossless, h])
  | .crashed => .isTrue (by simp [Lossless, h])

/-- A run leaves the records of its eligible calls in the queue, in order. -/
theorem run_delivered (who : Caller) {w : World} (settings : QueuePlain w.monitor)
    {calls : List Recorded} (defined_ : ∀ c ∈ calls, c.1.Defined)
    (lossless : Machine.AllSteps (recordStep who) Lossless w calls) :
    ∃ t, Machine.run (recordStep who) w calls = some t ∧
      t.delivered = w.delivered ++ (calls.filter fun c => Eligible w.monitor c.1).map
        fun c => (attemptOf w.monitor who c).record := by
  induction calls generalizing w with
  | nil => exact ⟨w, rfl, by simp⟩
  | cons c calls ih =>
      obtain ⟨definedHead, definedTail⟩ := List.forall_mem_cons.mp defined_
      obtain ⟨takes, later⟩ := lossless
      have verdict := recordFilters_queuePlain settings definedHead c.2.time
      by_cases eligible : Eligible w.monitor c.1 = true
      · rw [if_pos eligible] at verdict
        obtain ⟨w', step, -, monitor, took⟩ :=
          recordStep_queue who verdict definedHead settings.queue
        have arrived := took (takes w.monitor verdict)
        have facility : w'.monitor.facility = w.monitor.facility :=
          (congrArg Monitor.facility monitor :)
        have mask : w'.monitor.domainBitFlags = w.monitor.domainBitFlags :=
          (congrArg Monitor.domainBitFlags monitor :)
        obtain ⟨t, ran, rest⟩ := ih (settings.congr monitor) definedTail (later w' step)
        refine ⟨t, by rw [Machine.run_cons, step]; exact ran, ?_⟩
        rw [rest, arrived, List.filter_cons_of_pos (by simpa using eligible), List.map_cons,
          List.append_assoc]
        simp only [eligible_of_mask mask, attemptOf, buildRecord_congr facility,
          List.singleton_append]
      · rw [if_neg eligible] at verdict
        have step := recordStep_ignored who verdict
        obtain ⟨t, ran, rest⟩ := ih settings definedTail (later w step)
        refine ⟨t, by rw [Machine.run_cons, step]; exact ran, ?_⟩
        rw [rest, List.filter_cons_of_neg (by simpa using eligible)]

/-! ### From the queue to the plugins -/

/-- The record but for its device. -/
def eraseDevice (r : MonitorRecord) : MonitorRecord := { r with device := .zero _ }

theorem resolveFile_erased (t : FdTable) (r : MonitorRecord) :
    eraseDevice (resolveFile t r) = eraseDevice r := by
  unfold resolveFile
  repeat' split
  all_goals rfl

/-- Whatever the table, the dispatch changes the device alone. -/
theorem dispatch_erased (mounts : MountTable) (t : FdTable) (r : MonitorRecord) :
    eraseDevice (dispatch mounts t r).2 = eraseDevice r := by
  unfold dispatch
  repeat' split
  all_goals first
    | exact resolveFile_erased _ r
    | rfl

theorem inputLoop_erased (mounts : MountTable) (hostname : Str) (t : FdTable)
    (rs : List MonitorRecord) :
    (inputLoop mounts hostname t rs).2.map eraseDevice =
      rs.map fun r => eraseDevice { r with hostname := strncpy HOSTNAME_LEN hostname } := by
  induction rs generalizing t with
  | nil => rfl
  | cons r rs ih =>
      simp only [inputLoop, List.map_cons, dispatch_erased, ih]

/-- The test of the plugin is the test of `record()`. -/
theorem filterDomains_monitors {m : Monitor} {d : DomainType} {r : MonitorRecord}
    (domain : r.domType = d.code) :
    filterDomains m.domainBitFlags r ≠ PLUGIN_DROP_DATA ↔ m.monitors d = true := by
  have accepts : PLUGIN_ACCEPT_DATA ≠ PLUGIN_DROP_DATA := by decide
  have shift : r.domType.toNat = d.ctorIdx := by
    rw [domain, DomainType.code, Int.toNat_natCast]
  rw [filterDomains, Monitor.monitors, shift, decide_eq_true_iff]
  by_cases off : m.domainBitFlags &&& 1#32 <<< d.ctorIdx = 0
  · rw [if_pos off]
    exact iff_of_false (fun h => h rfl) fun h => h off
  · rw [if_neg off]
    exact iff_of_true accepts off

theorem monitors_all (m : Monitor) (d : DomainType) :
    (m.masked (-1)).monitors d = true := by
  have bit : (-1 : BitVec 32) &&& 1#32 <<< d.ctorIdx ≠ 0 := by cases d <;> decide
  exact decide_eq_true bit

theorem attemptOf_domType {m : Monitor} (who : Caller) {c : Recorded} (defined_ : c.1.Defined) :
    (attemptOf m who c).record.domType = c.1.domType.code := by
  obtain ⟨r, built⟩ := buildRecord_isSome m defined_ c.2.time c.2.getpid
  rw [attemptOf_built built]
  exact (buildRecord_fields built).2.1

/-- With all domains on, the filter keeps the records of the domains listed. -/
theorem filter_records {m : Monitor} (who : Caller) {calls : List Recorded}
    (defined_ : ∀ c ∈ calls, c.1.Defined) (flags : BitVec 32) :
    (((calls.filter fun c => Eligible (m.masked (-1)) c.1).map
        fun c => (attemptOf m who c).record).filter
      fun r => filterDomains flags r ≠ PLUGIN_DROP_DATA) =
    (calls.filter fun c => Eligible (m.masked flags) c.1).map
      fun c => (attemptOf m who c).record := by
  rw [List.filter_map, List.filter_filter]
  congr 1
  refine List.filter_congr fun c hc => ?_
  have test := filterDomains_monitors (m := m.masked flags)
    (attemptOf_domType (m := m) who (defined_ c hc))
  have decided : decide (filterDomains flags (attemptOf m who c).record ≠ PLUGIN_DROP_DATA) =
      (m.masked flags).monitors c.1.domType := by
    rw [Bool.eq_iff_iff, decide_eq_true_iff]
    exact test
  simp only [Function.comp, decided, Eligible, monitors_all]
  cases c.1.isStdio <;> cases c.1.opensDot <;> simp

/-- **Filtering domains.** The records an accepting output plugin sees with
`MONITOR_DOMAINS` set to a list are, but for the device, those it sees behind
`filter_domains` configured with the list when all domains are monitored. The
chains are those `load_plugin` links. -/
theorem producer_filter_eq_listener_filter {σ : Type} (env : Environment) (list : Str)
    (settings : QueuePlain (initializeMonitor env)) (who : Caller) (calls : List Recorded)
    (defined_ : ∀ c ∈ calls, c.1.Defined)
    (lossless : Machine.AllSteps (recordStep who) Lossless
      (startWorld (initializeMonitor (env.monitoring list))) calls)
    (losslessAll : Machine.AllSteps (recordStep who) Lossless
      (startWorld (initializeMonitor (env.monitoring "ALL".toList))) calls)
    (mounts : MountTable) (hostname : Str) {output : LoadRequest (BitVec 32 × σ)}
    (accepts : output.Accepts) (library : Str) (pluginAlias : Option Str) (state entry : Nat)
    (rest : σ) :
    ∃ producer listener,
      Machine.run (recordStep who) (startWorld (initializeMonitor (env.monitoring list))) calls =
        some producer ∧
      Machine.run (recordStep who) (startWorld (initializeMonitor (env.monitoring "ALL".toList)))
        calls = some listener ∧
      (seenBy 0 (executeAll (inputLoop mounts hostname noFiles producer.delivered).2
        [output.node 0]).2).map eraseDevice =
      (seenBy 1 (executeAll (inputLoop mounts hostname noFiles listener.delivered).2
        [(filterDomainsRequest library pluginAlias list state entry rest).node 0,
          output.node 1]).2).map eraseDevice := by
  have plain : ∀ l, QueuePlain (initializeMonitor (env.monitoring l)) := by
    intro l
    rw [initializeMonitor_monitoring]
    exact ⟨⟨settings.queue, settings.running, settings.noSocket, settings.connected⟩,
      settings.noCount, settings.noTime⟩
  have all : domainListToBitMask "ALL".toList = -1 := by decide
  have delivers : ∀ l, Machine.AllSteps (recordStep who) Lossless
      (startWorld (initializeMonitor (env.monitoring l))) calls →
      ∃ t, Machine.run (recordStep who) (startWorld (initializeMonitor (env.monitoring l))) calls =
        some t ∧ t.delivered =
          (calls.filter fun c => Eligible ((initializeMonitor env).masked
            (domainListToBitMask l)) c.1).map fun c =>
              (attemptOf (initializeMonitor env) who c).record := by
    intro l lossless
    obtain ⟨t, ran, queued⟩ :=
      run_delivered who (w := startWorld (initializeMonitor (env.monitoring l))) (plain l)
        defined_ lossless
    refine ⟨t, ran, ?_⟩
    rw [queued, startWorld, initializeMonitor_monitoring]
    rfl
  obtain ⟨producer, ran, queued⟩ := delivers list lossless
  obtain ⟨listener, ranAll, queuedAll⟩ := delivers "ALL".toList losslessAll
  refine ⟨producer, listener, ran, ranAll, ?_⟩
  have accepting : ∀ n, (output.node n).Accepting := fun n => ⟨rfl, accepts⟩
  have filtering_ : Plugin.Filtering (domainListToBitMask list)
      ((filterDomainsRequest library pluginAlias list state entry rest).node 0) := ⟨rfl, rfl, rfl⟩
  -- both plugins see what `input_loop` passes on, one of them filtered
  have sees := executeAll_accepting (inputLoop mounts hostname noFiles producer.delivered).2
    (accepting 0)
  have seesBehind := executeAll_filtered (inputLoop mounts hostname noFiles listener.delivered).2
    filtering_ (accepting 1) Nat.zero_ne_one
  let keeps : MonitorRecord → Bool := fun r =>
    filterDomains (domainListToBitMask list) r ≠ PLUGIN_DROP_DATA
  let named : MonitorRecord → MonitorRecord := fun r =>
    eraseDevice { r with hostname := strncpy HOSTNAME_LEN hostname }
  have sent : producer.delivered = listener.delivered.filter keeps := by
    have records := filter_records (m := initializeMonitor env) who defined_
      (domainListToBitMask list)
    rw [queued, queuedAll, all]
    exact records.symm
  calc (seenBy 0 (executeAll (inputLoop mounts hostname noFiles producer.delivered).2
        [output.node 0]).2).map eraseDevice
      = (inputLoop mounts hostname noFiles producer.delivered).2.map eraseDevice := by
        exact congrArg (List.map eraseDevice) sees
    _ = (listener.delivered.filter keeps).map named := by
        rw [inputLoop_erased, sent]
    _ = (listener.delivered.map named).filter keeps := by
        rw [List.filter_map]
        rfl
    _ = ((inputLoop mounts hostname noFiles listener.delivered).2.map eraseDevice).filter
          keeps := by
        rw [inputLoop_erased]
    _ = ((inputLoop mounts hostname noFiles listener.delivered).2.filter keeps).map
        eraseDevice := by
        rw [List.filter_map]
        rfl
    _ = _ := by
        exact congrArg (List.map eraseDevice) seesBehind.symm

/-! Reads alone, of a program that opens a file and reads from it. -/

def queueEnvironment : Environment where
  facilityId := none
  messageQueuePath := some "mq1".toList
  monitorDomains := none
  countSampleFrequency := none
  timeSampleFrequency := none
  timeSampleDuration := none
  startOnOpen := none
  startOnElapsed := none

/-- A plugin that accepts every record and keeps nothing. -/
def acceptingRequest : LoadRequest (BitVec 32 × Unit) where
  library := "output.so".toList
  pluginAlias := none
  dlopens := true
  entryPoints := true
  openPlugin := PLUGIN_OPEN_SUCCESS
  state := 0
  memory := (0, ())
  okToAcceptData memory := (PLUGIN_ACCEPT_DATA, memory)
  processData _ memory := (PLUGIN_ACCEPT_DATA, memory)
  pluginCommand := none
  overrun := .blank

theorem producer_filter_eq_listener_filter_reads :
    ∃ producer listener,
      Machine.run (recordStep .application)
        (startWorld (initializeMonitor (queueEnvironment.monitoring "FILE_READ".toList)))
        helloCalls = some producer ∧
      Machine.run (recordStep .application)
        (startWorld (initializeMonitor (queueEnvironment.monitoring "ALL".toList)))
        helloCalls = some listener ∧
      (seenBy 0 (executeAll (inputLoop noMounts [] noFiles producer.delivered).2
        [acceptingRequest.node 0]).2).map eraseDevice =
      (seenBy 1 (executeAll (inputLoop noMounts [] noFiles listener.delivered).2
        [(filterDomainsRequest "filter_domains.so".toList none "FILE_READ".toList 1 2 ()).node 0,
          acceptingRequest.node 1]).2).map eraseDevice := by
  have settings : QueuePlain (initializeMonitor queueEnvironment) :=
    ⟨⟨rfl, rfl, rfl, rfl⟩, rfl, rfl⟩
  exact producer_filter_eq_listener_filter queueEnvironment "FILE_READ".toList settings
    .application helloCalls (fun c hc => (helloCalls_valid c hc).defined) (by decide) (by decide)
    noMounts [] (fun _ _ => rfl) _ _ _ _ _

end IoMonitor
