import IoMonitor.Interposer.Nesting
import IoMonitor.Lib.Sieve
import IoMonitor.Monitor.Initialize
import IoMonitor.Monitor.Sampling

/-!
What a run of `record()` sends, from the environment.

The early returns of `record()` share five static variables, and one call can
change several of them. Seen from outside they are a sequence of sieves over the
calls: the eligible calls; from them those behind the start condition; from them
every `k`-th; from them those in a window; and a connection that is refused
silences the rest (`attempts_pipeline`).
-/

namespace IoMonitor

open CString Sieve

/-! ### The pause -/

/-- What ends the pause: an open whose path contains `start_on_open`, or a call
that takes longer than the threshold. -/
def wakes (m : Monitor) (c : RecordCall) : Bool :=
  (match m.startOnOpen, c.s1 with
    | some pattern, .str path => c.opType = .opens ∧ strstr pattern path
    | _, _ => false) ||
  (m.haveElapsedThreshold && m.elapsedThreshold < c.elapsedTime)

theorem resume_running {m : Monitor} : m.resume.paused = false := rfl

/-- Past the domain filter a call is dropped for its path, or ends the pause, or
is dropped for the pause. -/
theorem pauseStages {m : Monitor} {c : RecordCall} (defined_ : c.Defined)
    (next : Monitor → Verdict) :
    ((openStage c m).andThen fun m => (elapsedStage c m).andThen fun m =>
        (pausedStage m).andThen next) =
      if c.opensDot = false ∧ (m.paused = false ∨ wakes m c = true) then next m.resume
      else .ignored m := by
  have going : ∀ m' : Monitor, m'.paused = false →
      ((elapsedStage c m').andThen fun m => (pausedStage m).andThen next) = next m' := by
    intro m' running
    simp [elapsedStage, pausedStage, running]
  by_cases dot : c.opensDot = true
  · -- an open of `.` or `..` is dropped before the pause is looked at
    have opens : c.opType = .opens := by
      simp only [RecordCall.opensDot, decide_eq_true_eq] at dot
      exact dot.1
    obtain ⟨path, s1⟩ := defined_.opens opens
    have dots : path = ['.'] ∨ path = ['.', '.'] := by
      simpa [RecordCall.opensDot, opens, s1] using dot
    have dropped : openStage c m = .ignored m := by simp [openStage, opens, s1, dots]
    rw [dropped, ignored_andThen, if_neg (by simp [dot])]
  · simp only [Bool.not_eq_true] at dot
    have waiting : ∀ m' : Monitor, m'.paused = true →
        ((elapsedStage c m').andThen fun m => (pausedStage m).andThen next) =
          if m'.haveElapsedThreshold = true ∧ m'.elapsedThreshold < c.elapsedTime then
            next m'.resume
          else .ignored m' := by
      intro m' paused
      by_cases late : m'.haveElapsedThreshold = true ∧ m'.elapsedThreshold < c.elapsedTime
      · simp [elapsedStage, pausedStage, paused, late, Monitor.resume]
      · simp only [elapsedStage, paused, true_and, late, if_false, admitted_andThen, pausedStage,
          if_true, ignored_andThen]
    cases paused : m.paused with
    | false =>
        rw [openStage_running paused defined_, if_neg (by simp [dot]), admitted_andThen,
          going m paused, if_pos ⟨dot, .inl rfl⟩, resume_eq paused]
    | true =>
        by_cases woken : ∃ pattern path, m.startOnOpen = some pattern ∧ c.s1 = .str path ∧
            c.opType = .opens ∧ strstr pattern path = true
        · obtain ⟨pattern, path, set, s1, opens, found⟩ := woken
          rw [openStage_opens set opens s1, if_neg (by simp [dot]), if_pos ⟨paused, found⟩,
            admitted_andThen, going _ resume_running,
            if_pos ⟨dot, .inr (by simp [wakes, set, s1, opens, found])⟩]
        · have passed : openStage c m = .admitted m := by
            unfold openStage
            by_cases opens : c.opType = .opens
            · obtain ⟨path, s1⟩ := defined_.opens opens
              have noDots : ¬ (path = ['.'] ∨ path = ['.', '.']) := by
                simpa [RecordCall.opensDot, opens, s1] using dot
              cases set : m.startOnOpen with
              | none => simp [opens, s1, noDots]
              | some pattern =>
                  have missed : strstr pattern path = false := by
                    simpa [set, s1, opens] using woken
                  simp [opens, s1, noDots, missed]
            · simp [opens]
          have byTime : wakes m c =
              (m.haveElapsedThreshold && m.elapsedThreshold < c.elapsedTime) := by
            unfold wakes
            split
            · rename_i pattern path set s1
              have missed : c.opType = .opens → strstr pattern path = false := by
                simpa [set, s1] using woken
              by_cases opens : c.opType = .opens
              · simp [missed opens]
              · simp [opens]
            · rfl
          rw [passed, admitted_andThen, waiting m paused]
          simp [byTime, dot]

/-- The filters of `record()`, whatever the state: a call gets to the samplers if
it is eligible and the monitor runs or resumes with it. -/
theorem recordFilters_defined {m : Monitor} {c : RecordCall} (defined_ : c.Defined)
    (timestamp : Nat) :
    recordFilters c timestamp m =
      if Reaches m c ∧ (m.paused = false ∨ wakes m c = true) then
        (countStage m.resume).andThen (timeStage timestamp)
      else .ignored m := by
  rw [recordFilters]
  by_cases dead : m.failedSocketConnections.toInt > 0
  · rw [gate, if_pos dead, ignored_andThen, if_neg fun h => absurd h.1.1 (by omega)]
  by_cases own : m.socketFd ≠ FD_NONE ∧ c.fd = m.socketFd
  · rw [gate, if_neg dead, if_pos own, ignored_andThen, if_neg fun h => h.1.2.1 own]
  have reaches : Reaches m c ↔ Eligible m c = true :=
    ⟨fun h => h.2.2, fun h => ⟨by omega, own, h⟩⟩
  rw [gate, if_neg dead, if_neg own]
  simp only [reaches]
  cases stdio : c.isStdio with
  | true => simp [Eligible, stdio]
  | false =>
      cases monitored : m.monitors c.domType with
      | false => simp [Eligible, monitored]
      | true =>
          have eligible : Eligible m c = true ↔ c.opensDot = false := by
            simp [Eligible, stdio, monitored]
          simp only [eligible]
          exact pauseStages defined_ _

/-! ### The samplers -/

/-- Every how many calls one is reported. A frequency that an `int` holds as 0 or
less reports them all. -/
def Monitor.every (m : Monitor) : Nat :=
  if m.countBasedSampling then max 1 m.countBasedSampleFrequency.toNat else 1

theorem every_pos (m : Monitor) : 1 ≤ m.every := by
  unfold Monitor.every
  split <;> omega

/-- The counter as a sieve: the state is the number of calls it has seen. -/
def counting (k : Nat) : Step Nat Recorded := fun n _ => (n + 1, (n + 1) % k = 0)

theorem pass_counting (k n : Nat) (calls : List Recorded) :
    pass (counting k) n calls = everyKth k n calls := by
  induction calls generalizing n with
  | nil => rfl
  | cons c calls ih =>
      rw [everyKth_cons, ← ih]
      by_cases last : (n + 1) % k = 0 <;> simp [pass_cons, counting, last]

theorem countStage_every {m : Monitor} {n : Nat}
    (counter : m.countInterceptsSinceLastReport = (n % m.every : Nat)) :
    countStage m =
      if (n + 1) % m.every = 0 then .admitted (m.counted ((n + 1) % m.every))
      else .ignored (m.counted ((n + 1) % m.every)) := by
  have positive := every_pos m
  have below : n % m.every < m.every := Nat.mod_lt n positive
  have next : (n + 1) % m.every = if n % m.every + 1 < m.every then n % m.every + 1 else 0 := by
    split
    · rename_i early
      rw [Nat.add_mod, Nat.mod_eq_of_lt (show 1 < m.every by omega), Nat.mod_eq_of_lt early]
    · rename_i full
      have wraps : n % m.every + 1 = m.every := by omega
      rw [← Nat.mod_add_mod, wraps, Nat.mod_self]
  cases counts : m.countBasedSampling with
  | false =>
      have single : m.every = 1 := by simp [Monitor.every, counts]
      rw [single, Nat.mod_one] at counter ⊢
      have same : m.counted 0 = m := by
        cases m
        cases counter
        rfl
      simp [countStage, counts, same]
  | true =>
      have test : m.countInterceptsSinceLastReport + 1 < m.countBasedSampleFrequency ↔
          n % m.every + 1 < m.every := by
        have frequency : m.every = max 1 m.countBasedSampleFrequency.toNat := by
          simp [Monitor.every, counts]
        rw [counter]
        omega
      rw [countStage, if_pos counts]
      dsimp only
      by_cases early : n % m.every + 1 < m.every
      · rw [if_pos early] at next
        rw [if_pos (test.mpr early), if_neg (by omega), next, counter]
        rfl
      · rw [if_neg early] at next
        rw [if_neg fun h => early (test.mp h), if_pos next, next]
        rfl

/-- The frequency and the duration of the windows. -/
def Monitor.windowing (m : Monitor) : Option (Nat × Nat) :=
  if m.timeBasedSampling then some (m.timeBasedSampleFrequency, m.timeBasedSampleDuration)
  else none

/-- The clock as a sieve. -/
def timed : Option (Nat × Nat) → Step Window Recorded
  | none => fun w _ => (w, true)
  | some (f, d) => windowed (fun c => c.2.time) f d

/-- The calls in windows, if there are any. -/
def inWindows : Option (Nat × Nat) → List Recorded → List Recorded
  | none, calls => calls
  | some (f, d), calls => windows (fun c => c.2.time) f d calls

theorem pass_timed (o : Option (Nat × Nat)) (calls : List Recorded) :
    pass (timed o) .never calls = inWindows o calls := by
  cases o with
  | none =>
      induction calls with
      | nil => rfl
      | cons c calls ih => exact (pass_cons_pos (f := timed none) rfl calls).trans (congrArg _ ih)
  | some p => exact pass_windowed _ p.1 p.2 calls

/-- The window the variables stand for. A start of 0 is no window. -/
def Monitor.sample (m : Monitor) : Window :=
  if m.startTimeBasedSample = 0 then .never
  else if m.withinTimeBasedSample then .opened m.startTimeBasedSample
  else .shut m.startTimeBasedSample

/-- Settings whose sums with a small timestamp do not wrap. -/
def SmallWindows (o : Option (Nat × Nat)) : Prop := ∀ p ∈ o, Small p.1 ∧ Small p.2

/-- The time stage does to the window what its sieve does, and nothing else. -/
theorem timeStage_timed {m : Monitor} (small : SmallWindows m.windowing)
    (smallStart : Small m.startTimeBasedSample) {c : Recorded} (positive : 0 < c.2.time)
    (smallTime : Small c.2.time) :
    ∃ m', timeStage c.2.time m =
        (if (timed m.windowing m.sample c).2 then .admitted m' else .ignored m') ∧
      m'.sample = (timed m.windowing m.sample c).1 ∧ Small m'.startTimeBasedSample ∧
      m'.window 0 false = m.window 0 false := by
  cases times : m.timeBasedSampling with
  | false =>
      have none_ : m.windowing = none := by simp [Monitor.windowing, times]
      refine ⟨m, ?_, ?_, smallStart, rfl⟩
      · simp [none_, timed, timeStage, times]
      · simp [none_, timed]
  | true =>
      have some_ : m.windowing = some (m.timeBasedSampleFrequency, m.timeBasedSampleDuration) := by
        simp [Monitor.windowing, times]
      obtain ⟨smallF, smallD⟩ := small _ some_
      have off : (m.startTimeBasedSample + m.timeBasedSampleDuration) % 2 ^ 64 =
          m.startTimeBasedSample + m.timeBasedSampleDuration :=
        Nat.mod_eq_of_lt (by unfold Small at *; omega)
      have on : (m.startTimeBasedSample + m.timeBasedSampleFrequency) % 2 ^ 64 =
          m.startTimeBasedSample + m.timeBasedSampleFrequency :=
        Nat.mod_eq_of_lt (by unfold Small at *; omega)
      simp only [some_, timed]
      rw [timeStage, if_pos times, off, on]
      dsimp only
      by_cases first : m.startTimeBasedSample = 0
      · refine ⟨m.window c.2.time true, ?_, ?_, smallTime, rfl⟩
        · simp [first, Monitor.sample, windowed, Monitor.window]
        · simp [first, Monitor.sample, windowed, Monitor.window, Nat.ne_of_gt positive]
      · cases within : m.withinTimeBasedSample with
        | true =>
            by_cases ended : m.startTimeBasedSample + m.timeBasedSampleDuration ≤ c.2.time
            · refine ⟨m.window m.startTimeBasedSample false, ?_, ?_, smallStart, rfl⟩
              · simp [first, within, ended, Monitor.sample, windowed, Monitor.window]
              · simp [first, within, ended, Monitor.sample, windowed, Monitor.window]
            · refine ⟨m, ?_, ?_, smallStart, rfl⟩
              · simp [first, within, ended, Monitor.sample, windowed]
              · simp [first, within, ended, Monitor.sample, windowed]
        | false =>
            by_cases due : m.startTimeBasedSample + m.timeBasedSampleFrequency ≤ c.2.time
            · refine ⟨m.window c.2.time true, ?_, ?_, smallTime, rfl⟩
              · simp [first, within, due, Monitor.sample, windowed, Monitor.window]
              · simp [first, within, due, Monitor.sample, windowed, Monitor.window,
                  Nat.ne_of_gt positive]
            · refine ⟨m, ?_, ?_, smallStart, rfl⟩
              · simp [first, within, due, Monitor.sample, windowed]
              · simp [first, within, due, Monitor.sample, windowed]

/-! ### The connection -/

/-- A socket is had, and the peer refuses it. -/
def Monitor.refused (m : Monitor) (o : Outcomes) : Bool :=
  m.messageQueuePath.isNone && 0 < o.socket.ret && o.connect ≠ .ok

theorem sendOver_socket (o : Outcomes) (sockfd : Int) (r : MonitorRecord) (w : World) :
    ∃ rc w', sendOver .direct o sockfd r w = .returned rc w' ∧ w'.monitor.socketFd = FD_NONE ∧
      w'.monitor.failedSocketConnections =
        w.monitor.failedSocketConnections + (if o.connect = .ok then 0 else 1) := by
  cases connected : o.connect with
  | ok =>
      obtain ⟨w', frame, -, monitor, -⟩ := writeFrame_direct o sockfd r
        ((w.withMonitor fun m => { m with socketFd := sockfd }).after Status.ok.answer)
      simp only [sendOver, Prog.bind_apply, Prog.modify_apply, LibraryCalls.direct, connected,
        ok_ret, if_true, frame, Prog.pure_apply]
      exact ⟨_, _, rfl, rfl, by simp [World.withMonitor, monitor]⟩
  | failed e =>
      have refused : ¬ (-1 : Int) = 0 := by decide
      simp only [sendOver, Prog.bind_apply, Prog.modify_apply, LibraryCalls.direct, connected,
        failed_ret, refused, reduceCtorEq, if_false, Prog.pure_apply]
      exact ⟨_, _, rfl, rfl, by simp [World.withMonitor]⟩

/-- Between two records there is no socket; a refused connection is counted. -/
theorem sendRecord_socket {o : Outcomes} {r : MonitorRecord} {w w' : World} {rc : Int}
    (noSocket : w.monitor.socketFd = FD_NONE) (sent : sendRecord .direct o r w = .returned rc w') :
    w'.monitor.socketFd = FD_NONE ∧
      w'.monitor.failedSocketConnections =
        w.monitor.failedSocketConnections + (if w.monitor.refused o then 1 else 0) := by
  cases path : w.monitor.messageQueuePath with
  | some file =>
      have queue : w.monitor.messageQueuePath.isSome := by simp [path]
      rw [sendRecord_queue _ _ _ queue] at sent
      cases sent
      have kept := (sendMsgQueue_frame o r w).1
      have fd := congrArg Monitor.socketFd kept
      have failed := congrArg Monitor.failedSocketConnections kept
      refine ⟨fd.trans noSocket, failed.trans ?_⟩
      simp [Monitor.refused, path, Monitor.uncounted]
  | none =>
      rw [sendRecord_tcp _ _ _ (by simp [path])] at sent
      by_cases opened : 0 < o.socket.ret
      · obtain ⟨rc', w₁, ended, fd, failed⟩ := sendOver_socket o o.socket.ret r (w.after o.socket)
        have whole : sendTcpSocket .direct o r w = .returned rc' w₁ := by
          simp only [sendTcpSocket, Prog.bind_apply, LibraryCalls.direct]
          rw [if_pos opened, ended]
        rw [whole] at sent
        cases sent
        refine ⟨fd, failed.trans ?_⟩
        cases connected : o.connect <;> simp [Monitor.refused, path, opened, connected]
      · have whole : sendTcpSocket .direct o r w = .returned o.garbage (w.after o.socket) := by
          simp only [sendTcpSocket, Prog.bind_apply, LibraryCalls.direct]
          rw [if_neg opened]
          rfl
        rw [whole] at sent
        cases sent
        simp [Monitor.refused, opened, noSocket]

/-! ### One call -/

/-- The states of the five sieves: the fuse, the filter, the pause, the counter
and the window. -/
abbrev SieveState := Bool × Unit × Bool × Nat × Window

/-- `record()` as sieves in sequence. -/
def Monitor.sieve (m : Monitor) : Step SieveState Recorded :=
  fused (fun c => m.refused c.2) <|
    seq (keeping fun c => Eligible m c.1) <|
      seq (waiting fun c => wakes m c.1) <|
        seq (counting m.every) (timed m.windowing)

/-- The variables that no call changes. -/
def Monitor.fixed (m : Monitor) : Monitor := m.unsampled.unsent

/-- The monitor `m`, started as `base`, is in the state `t` of the sieves. -/
structure Shows (base : Monitor) (t : SieveState) (m : Monitor) : Prop where
  fixed : m.fixed = base.fixed
  noSocket : m.socketFd = FD_NONE
  failures : 0 ≤ m.failedSocketConnections.toInt
  fuse : t.1 = (0 < m.failedSocketConnections.toInt : Bool)
  pause : t.2.2.1 = m.paused
  counter : m.countInterceptsSinceLastReport = (t.2.2.2.1 % base.every : Nat)
  window : m.sample = t.2.2.2.2
  small : Small m.startTimeBasedSample

section Fixed

variable {base m : Monitor} (same : m.fixed = base.fixed)
include same

theorem fixed_eligible (c : RecordCall) : Eligible m c = Eligible base c :=
  eligible_of_mask (congrArg Monitor.domainBitFlags same :) c

theorem fixed_wakes (c : RecordCall) : wakes m c = wakes base c := by
  have pattern : m.startOnOpen = base.startOnOpen := (congrArg Monitor.startOnOpen same :)
  have has : m.haveElapsedThreshold = base.haveElapsedThreshold :=
    (congrArg Monitor.haveElapsedThreshold same :)
  have threshold : m.elapsedThreshold = base.elapsedThreshold :=
    (congrArg Monitor.elapsedThreshold same :)
  simp only [wakes, pattern, has, threshold]

theorem fixed_every : m.every = base.every := by
  have counts : m.countBasedSampling = base.countBasedSampling :=
    (congrArg Monitor.countBasedSampling same :)
  have frequency : m.countBasedSampleFrequency = base.countBasedSampleFrequency :=
    (congrArg Monitor.countBasedSampleFrequency same :)
  simp only [Monitor.every, counts, frequency]

theorem fixed_windowing : m.windowing = base.windowing := by
  have times : m.timeBasedSampling = base.timeBasedSampling :=
    (congrArg Monitor.timeBasedSampling same :)
  have frequency : m.timeBasedSampleFrequency = base.timeBasedSampleFrequency :=
    (congrArg Monitor.timeBasedSampleFrequency same :)
  have duration : m.timeBasedSampleDuration = base.timeBasedSampleDuration :=
    (congrArg Monitor.timeBasedSampleDuration same :)
  simp only [Monitor.windowing, times, frequency, duration]

theorem fixed_refused (o : Outcomes) : m.refused o = base.refused o := by
  have path : m.messageQueuePath = base.messageQueuePath :=
    (congrArg Monitor.messageQueuePath same :)
  simp only [Monitor.refused, path]

theorem fixed_attemptOf (who : Caller) (c : Recorded) :
    attemptOf m who c = attemptOf base who c := by
  have facility : m.facility = base.facility := (congrArg Monitor.facility same :)
  simp only [attemptOf, buildRecord_congr facility]

end Fixed

/-- The samplers do to a running monitor what their sieves do. -/
theorem samplers_sieve {base m : Monitor} (small : SmallWindows base.windowing) {fuse : Bool}
    {n : Nat} {window : Window} (h : Shows base (fuse, (), false, n, window) m) {c : Recorded}
    (positive : 0 < c.2.time) (smallTime : Small c.2.time) :
    ∃ m', (countStage m).andThen (timeStage c.2.time) =
        (if (seq (counting base.every) (timed base.windowing) (n, window) c).2 then .admitted m'
          else .ignored m') ∧
      Shows base
        (fuse, (), false, (seq (counting base.every) (timed base.windowing) (n, window) c).1)
        m' := by
  have counter : m.countInterceptsSinceLastReport = (n % m.every : Nat) := by
    rw [fixed_every h.fixed]
    exact h.counter
  rw [countStage_every counter, fixed_every h.fixed]
  by_cases last : (n + 1) % base.every = 0
  · have fixed : (m.counted ((n + 1) % base.every)).fixed = base.fixed := h.fixed
    have settings := fixed_windowing fixed
    obtain ⟨m', stage, sample, smallStart, kept⟩ := timeStage_timed
      (m := m.counted ((n + 1) % base.every)) (settings ▸ small) h.small positive smallTime
    have shown : (m.counted ((n + 1) % base.every)).sample = window := h.window
    rw [settings, shown] at stage sample
    rw [if_pos last, admitted_andThen, stage]
    refine ⟨m', by simp [seq, counting, last], ?_⟩
    refine ⟨?_, ?_, ?_, ?_, ?_, ?_, ?_, smallStart⟩
    · exact (congrArg Monitor.fixed kept).trans fixed
    · exact (congrArg Monitor.socketFd kept :).trans h.noSocket
    · exact h.failures.trans_eq
        (congrArg (fun m : Monitor => m.failedSocketConnections.toInt) kept :).symm
    · exact h.fuse.trans
        (congrArg (fun m : Monitor => decide (0 < m.failedSocketConnections.toInt)) kept).symm
    · exact h.pause.trans (congrArg Monitor.paused kept :).symm
    · refine (congrArg Monitor.countInterceptsSinceLastReport kept :).trans ?_
      simp [seq, counting, last, Monitor.counted, Monitor.window]
    · simp [seq, counting, last, sample]
  · rw [if_neg last, ignored_andThen]
    refine ⟨m.counted ((n + 1) % base.every), by simp [seq, counting, last], ?_⟩
    refine ⟨h.fixed, h.noSocket, h.failures, h.fuse, h.pause, ?_, ?_, h.small⟩
    · simp [seq, counting, last, Monitor.counted]
    · have shown : (m.counted ((n + 1) % base.every)).sample = window := h.window
      simpa [seq, counting, last] using shown

/-- The verdict of the filters, in terms of the sieves: the monitor left behind
shows their next state, but for the fuse, which is up to the transport. -/
theorem recordFilters_sieve {base m : Monitor} (small : SmallWindows base.windowing)
    {t : SieveState} (h : Shows base t m) {c : Recorded} (defined_ : c.1.Defined)
    (positive : 0 < c.2.time) (smallTime : Small c.2.time) :
    ∃ m', recordFilters c.1 c.2.time m =
        (if (base.sieve t c).2 then .admitted m' else .ignored m') ∧
      Shows base (t.1, (base.sieve t c).1.2) m' := by
  obtain ⟨fuse, u, waits, n, window⟩ := t
  have verdict := recordFilters_defined (m := m) defined_ c.2.time
  simp only [Reaches, fixed_eligible h.fixed, fixed_wakes h.fixed, h.noSocket, ne_eq,
    not_true_eq_false, false_and, not_false_eq_true, true_and] at verdict
  have blown := h.fuse
  have waiting_ := h.pause
  dsimp only at blown waiting_
  cases fuse with
  | true =>
      have dead : 0 < m.failedSocketConnections.toInt := by simpa using blown.symm
      refine ⟨m, ?_, h⟩
      rw [verdict, if_neg fun reaches => absurd reaches.1.1 (by omega)]
      simp [Monitor.sieve, fused]
  | false =>
      have alive : m.failedSocketConnections.toInt ≤ 0 := by simpa using blown
      simp only [alive, true_and] at verdict
      by_cases eligible : Eligible base c.1 = true
      · by_cases goes : m.paused = false ∨ wakes base c.1 = true
        · have resumed : Shows base (false, (), false, n, window) m.resume :=
            ⟨h.fixed, h.noSocket, h.failures, h.fuse, rfl, h.counter, h.window, h.small⟩
          obtain ⟨m', stages, shows⟩ := samplers_sieve small resumed positive smallTime
          have through : (!waits || wakes base c.1) = true := by
            rw [waiting_]
            simpa using goes
          have awake : (waits && !wakes base c.1) = false := by
            cases waits with
            | false => rfl
            | true => simpa using through
          rw [if_pos ⟨eligible, goes⟩] at verdict
          refine ⟨m', ?_, ?_⟩
          · rw [verdict, stages]
            simp [Monitor.sieve, fused, seq, keeping, waiting, eligible, through]
          · simpa [Monitor.sieve, fused, seq, keeping, waiting, eligible, through, awake]
              using shows
        · rw [if_neg fun h => goes h.2] at verdict
          obtain ⟨paused, asleep⟩ := not_or.mp goes
          simp only [Bool.not_eq_false, Bool.not_eq_true] at paused asleep
          refine ⟨m, ?_, ?_⟩
          · rw [verdict]
            simp [Monitor.sieve, fused, seq, keeping, waiting, eligible, asleep, waiting_, paused]
          · simpa [Monitor.sieve, fused, seq, keeping, waiting, eligible, asleep, waiting_, paused]
              using h
      · rw [if_neg fun h => eligible h.1] at verdict
        refine ⟨m, ?_, ?_⟩
        · rw [verdict]
          simp [Monitor.sieve, fused, seq, keeping, eligible]
        · simpa [Monitor.sieve, fused, seq, keeping, eligible] using h

/-- What a call that is let through does to the connection. -/
theorem recordStep_socket {who : Caller} {w w' : World} {c : Recorded} {m : Monitor}
    (step : recordStep who w c = some w')
    (verdict : recordFilters c.1 c.2.time w.monitor = .admitted m)
    (noSocket : m.socketFd = FD_NONE) :
    w'.monitor.socketFd = FD_NONE ∧
      w'.monitor.failedSocketConnections =
        m.failedSocketConnections + (if m.refused c.2 then 1 else 0) := by
  obtain ⟨m', ignored, -⟩ | ⟨m', r, rc, w₁, admitted, -, sent, rfl⟩ := recordStep_cases step
  · rw [verdict] at ignored
    cases ignored
  · rw [verdict] at admitted
    cases admitted
    obtain ⟨fd, failed⟩ := sendRecord_socket noSocket sent
    have counted : ∀ m : Monitor, (account rc m).socketFd = m.socketFd ∧
        (account rc m).failedSocketConnections = m.failedSocketConnections := by
      intro m
      unfold account
      split <;> exact ⟨rfl, rfl⟩
    exact ⟨(counted _).1.trans fd, (counted _).2.trans failed⟩

/-- A call returns, makes an attempt if it passes the sieves, and leaves the
monitor in their next state. -/
theorem recordStep_sieve {base : Monitor} (small : SmallWindows base.windowing) (who : Caller)
    {t : SieveState} {w : World} (h : Shows base t w.monitor) {c : Recorded}
    (defined_ : c.1.Defined) (positive : 0 < c.2.time) (smallTime : Small c.2.time) :
    ∃ w', recordStep who w c = some w' ∧ Shows base (base.sieve t c).1 w'.monitor ∧
      w'.attempts =
        w.attempts ++ (if (base.sieve t c).2 then [attemptOf base who c] else []) := by
  obtain ⟨m', verdict, shows⟩ := recordFilters_sieve small h defined_ positive smallTime
  have fuse : (base.sieve t c).1.1 = (t.1 || ((base.sieve t c).2 && base.refused c.2)) :=
    fused_blown _ _ t c
  cases passes : (base.sieve t c).2 with
  | false =>
      rw [passes, if_neg Bool.false_ne_true] at verdict
      rw [passes, Bool.false_and, Bool.or_false] at fuse
      refine ⟨_, recordStep_ignored who verdict, ?_, by simp⟩
      rw [← fuse] at shows
      exact shows
  | true =>
      have alive : t.1 = false := fused_passes passes
      rw [passes, if_pos rfl] at verdict
      rw [passes, Bool.true_and, alive, Bool.false_or] at fuse
      obtain ⟨w', step, attempts, unsent⟩ := recordStep_admitted who verdict defined_
      obtain ⟨fd, failed⟩ := recordStep_socket step verdict shows.noSocket
      have quiet : m'.failedSocketConnections.toInt ≤ 0 := by
        have := shows.fuse
        rw [alive] at this
        simpa using this.symm
      have none_ : m'.failedSocketConnections = 0 :=
        BitVec.eq_of_toInt_eq (Int.le_antisymm quiet shows.failures)
      rw [none_, fixed_refused shows.fixed] at failed
      refine ⟨w', step, ⟨?_, fd, ?_, ?_, ?_, ?_, ?_, ?_⟩, ?_⟩
      · exact (congrArg Monitor.unsampled unsent :).trans shows.fixed
      · rw [failed]
        split <;> decide
      · rw [fuse, failed]
        cases base.refused c.2 <;> rfl
      · exact shows.pause.trans (congrArg Monitor.paused unsent :).symm
      · exact (congrArg Monitor.countInterceptsSinceLastReport unsent :).trans shows.counter
      · exact (congrArg Monitor.sample unsent :).trans shows.window
      · exact (congrArg Monitor.startTimeBasedSample unsent :).symm ▸ shows.small
      · rw [attempts, fixed_attemptOf shows.fixed, if_pos rfl]

/-! ### The whole run -/

/-- A run makes the attempts of the calls that pass the sieves. -/
theorem run_sieve {base : Monitor} (small : SmallWindows base.windowing) (who : Caller)
    (calls : List Recorded) (defined_ : ∀ c ∈ calls, c.1.Defined)
    (clock : ∀ c ∈ calls, 0 < c.2.time ∧ Small c.2.time) :
    ∀ {t : SieveState} {w : World}, Shows base t w.monitor →
      ∃ w', Machine.run (recordStep who) w calls = some w' ∧
        w'.attempts = w.attempts ++ (pass base.sieve t calls).map (attemptOf base who) := by
  induction calls with
  | nil =>
      intro t w _
      exact ⟨w, rfl, by simp⟩
  | cons c calls ih =>
      intro t w h
      obtain ⟨definedHead, definedTail⟩ := List.forall_mem_cons.mp defined_
      obtain ⟨clockHead, clockTail⟩ := List.forall_mem_cons.mp clock
      obtain ⟨w₁, step, shows, attempts⟩ :=
        recordStep_sieve small who h definedHead clockHead.1 clockHead.2
      obtain ⟨w', ran, more⟩ := ih definedTail clockTail shows
      refine ⟨w', by rw [Machine.run_cons, step]; exact ran, ?_⟩
      rw [more, attempts, pass_cons]
      split <;> simp

/-- The calls of a run that are sent: of the eligible ones, from the one that
ends the pause on, every `k`-th, if it is in a window; up to the first that finds
the peer dead. -/
def Monitor.pipeline (m : Monitor) (calls : List Recorded) : List Recorded :=
  takeThrough (fun c => m.refused c.2) <|
    inWindows m.windowing <|
      everyKth m.every 0 <|
        (calls.filter fun c => Eligible m c.1).dropWhile fun c => m.paused && !wakes m c.1

/-- The sieves of a monitor that has seen no call. -/
def Monitor.unused (m : Monitor) : SieveState := (false, (), m.paused, 0, .never)

theorem pass_unused (m : Monitor) (calls : List Recorded) :
    pass m.sieve m.unused calls = m.pipeline calls := by
  have wait : ∀ eligible : List Recorded,
      pass (waiting fun c => wakes m c.1) m.paused eligible =
        eligible.dropWhile fun c => m.paused && !wakes m c.1 := by
    intro eligible
    cases m.paused with
    | true => simpa using pass_waiting _ eligible
    | false =>
        rw [pass_waiting_false]
        cases eligible <;> simp
  rw [Monitor.sieve, Monitor.unused, pass_fused, pass_seq, pass_keeping, pass_seq, wait, pass_seq,
    pass_counting, pass_timed, Monitor.pipeline]

/-- `initialize_monitor` leaves the counter, the window and the connection
unused. -/
theorem initializeMonitor_shows (env : Environment) :
    Shows (initializeMonitor env) (initializeMonitor env).unused (initializeMonitor env) := by
  have unused : (initializeMonitor env).socketFd = FD_NONE ∧
      (initializeMonitor env).failedSocketConnections = 0 ∧
      (initializeMonitor env).countInterceptsSinceLastReport = 0 ∧
      (initializeMonitor env).startTimeBasedSample = 0 := by
    unfold initializeMonitor Environment.sampleByTime Environment.sampleByCount loadLibraryFunctions
    repeat' split
    all_goals exact ⟨rfl, rfl, rfl, rfl⟩
  obtain ⟨noSocket, connected, counter, start⟩ := unused
  refine ⟨rfl, noSocket, by rw [connected]; decide, ?_, rfl, ?_, ?_, ?_⟩
  · simp [Monitor.unused, connected]
  · simp [Monitor.unused, counter]
  · simp [Monitor.unused, Monitor.sample, start]
  · rw [start]
    decide

/-- **What is sent.** Whatever the environment, the attempts of a run are those
of the calls that the eligibility, the start condition, the counter, the windows
and the connection let through, in this order. The records go to a queue, or the
domain of the sockets is not monitored. -/
theorem attempts_pipeline (env : Environment)
    (small : SmallWindows (initializeMonitor env).windowing)
    (unnested : (initializeMonitor env).Unnested) (n : Nat) (who : Caller)
    (calls : List (RecordCall × Env)) (defined_ : ∀ c ∈ calls, c.1.Defined)
    (clock : ∀ c ∈ calls, 0 < (c.2.outcomes []).time ∧ Small (c.2.outcomes []).time) :
    ∃ w', Machine.run (recordIn (n + 1) who) (startWorld (initializeMonitor env)) calls = some w' ∧
      w'.attempts = ((initializeMonitor env).pipeline (calls.map answered)).map
        (attemptOf (initializeMonitor env) who) := by
  obtain ⟨w', ran, attempts⟩ := run_sieve small who (calls.map answered)
    (List.forall_mem_map.mpr defined_) (List.forall_mem_map.mpr clock)
    (w := startWorld (initializeMonitor env)) (initializeMonitor_shows env)
  refine ⟨w', (run_recordIn n who unnested).trans ran, ?_⟩
  rw [attempts, pass_unused]
  rfl

/-! Reads in windows of 2 every 10. -/

def readsInWindows : Environment where
  facilityId := none
  messageQueuePath := some "mq1".toList
  monitorDomains := some "FILE_READ".toList
  countSampleFrequency := none
  timeSampleFrequency := some 10
  timeSampleDuration := some 2
  startOnOpen := none
  startOnElapsed := none

/-- The calls inside a read are answered as the read is. -/
def readIn (time : Nat) : RecordCall × Env := ((readAt time).1, .always (readAt time).2)

theorem attempts_pipeline_reads :
    ∃ w', Machine.run (recordIn 1 .application) (startWorld (initializeMonitor readsInWindows))
        ([100, 101, 103, 110, 112].map readIn) = some w' ∧
      w'.attempts =
        ([100, 101, 110].map readAt).map
          (attemptOf (initializeMonitor readsInWindows) .application) := by
  have settings : (initializeMonitor readsInWindows).windowing = some (10, 2) := by decide
  have small : SmallWindows (initializeMonitor readsInWindows).windowing := by
    rw [settings]
    intro p hp
    cases hp
    exact ⟨by decide, by decide⟩
  obtain ⟨w', ran, attempts⟩ := attempts_pipeline readsInWindows small (.inl rfl) 0 .application
    ([100, 101, 103, 110, 112].map readIn) (by simp [readIn, readAt, readHello_defined])
    (by simp [readIn, Env.always, readAt, Small])
  have calls : ([100, 101, 103, 110, 112].map readIn).map answered =
      [100, 101, 103, 110, 112].map readAt := rfl
  have all : everyKth (initializeMonitor readsInWindows).every 0
      ((([100, 101, 103, 110, 112].map readAt).filter fun c =>
          Eligible (initializeMonitor readsInWindows) c.1).dropWhile fun c =>
        (initializeMonitor readsInWindows).paused && !wakes (initializeMonitor readsInWindows) c.1) =
      [100, 101, 103, 110, 112].map readAt := rfl
  have some_ : inWindows (some (10, 2)) ([100, 101, 103, 110, 112].map readAt) =
      [100, 101, 110].map readAt := by
    simp [inWindows, windows, readAt]
  refine ⟨w', ran, ?_⟩
  rw [attempts, calls, Monitor.pipeline, all, settings, some_]
  rfl

end IoMonitor
