import IoMonitor.Monitor.State

/-!
The filters of `record()`.

`recordFilters` is the part of `record()` before the record is built: a chain of early
returns that may change the pause and sampling state on the way. Its stages are
written one by one, in source order.
-/

namespace IoMonitor

open CString

/-- Where the filters leave a call: dereferencing a pointer that is not
readable, dropped, or passed on. -/
inductive Verdict where
  | crashed
  | ignored (m : Monitor)
  | admitted (m : Monitor)
  deriving DecidableEq

def Verdict.andThen : Verdict → (Monitor → Verdict) → Verdict
  | .admitted m, next => next m
  | v, _ => v

@[simp] theorem admitted_andThen (m : Monitor) (next : Monitor → Verdict) :
    (Verdict.admitted m).andThen next = next m := rfl

@[simp] theorem ignored_andThen (m : Monitor) (next : Monitor → Verdict) :
    (Verdict.ignored m).andThen next = .ignored m := rfl

/-- `0 != (domain_bit_flags & (1 << dom_type))`. -/
def Monitor.monitors (m : Monitor) (d : DomainType) : Bool :=
  m.domainBitFlags &&& (1#32 <<< d.ctorIdx) ≠ 0

/-- A standard stream, outside `START_STOP`. -/
def RecordCall.isStdio (c : RecordCall) : Bool :=
  -1 < c.fd ∧ c.fd < 3 ∧ c.domType ≠ .startStop

/-- The first four tests: a dead peer, our own socket, the standard streams, and
a domain not monitored. -/
def gate (c : RecordCall) (m : Monitor) : Verdict :=
  if m.failedSocketConnections.toInt > 0 then .ignored m
  else if m.socketFd ≠ FD_NONE ∧ c.fd = m.socketFd then .ignored m
  else if c.isStdio then .ignored m
  else if !m.monitors c.domType then .ignored m
  else .admitted m

/-- `paused = 0`. -/
def Monitor.resume (m : Monitor) : Monitor := { m with paused := false }

/-- `(op_type == OPEN)`: opens of `.` and `..` are dropped, and an open whose path
contains `start_on_open` ends the pause. -/
def openStage (c : RecordCall) (m : Monitor) : Verdict :=
  if c.opType = .opens then
    match c.s1 with
    | .str path =>
        if path = ['.'] ∨ path = ['.', '.'] then .ignored m
        else
          match m.startOnOpen with
          | some pattern =>
              if m.paused ∧ strstr pattern path then .admitted m.resume
              else .admitted m
          | none => .admitted m
    | _ => .crashed
  else .admitted m

/-- `elapsed_time`, in milliseconds. The differences are `long`s. -/
def RecordCall.elapsedTime (c : RecordCall) : Float :=
  .ofInt (c.endTime.tvSec - c.startTime.tvSec) * 1000.0 +
    .ofInt (c.endTime.tvUsec - c.startTime.tvUsec) / 1000.0

/-- Of two calls of 200 microseconds the one in which the second turns takes longer than
0.2 milliseconds. -/
example (c : RecordCall) (start : c.startTime = ⟨7, 999900⟩) (stop : c.endTime = ⟨8, 100⟩) :
    0.2 < c.elapsedTime := by
  rw [RecordCall.elapsedTime, start, stop]
  decide +kernel

example (c : RecordCall) (start : c.startTime = ⟨7, 100⟩) (stop : c.endTime = ⟨7, 300⟩) :
    ¬ 0.2 < c.elapsedTime := by
  rw [RecordCall.elapsedTime, start, stop]
  decide +kernel

def elapsedStage (c : RecordCall) (m : Monitor) : Verdict :=
  if m.paused ∧ m.haveElapsedThreshold ∧ m.elapsedThreshold < c.elapsedTime then
    .admitted m.resume
  else .admitted m

def pausedStage (m : Monitor) : Verdict :=
  if m.paused then .ignored m else .admitted m

def countStage (m : Monitor) : Verdict :=
  if m.countBasedSampling then
    let m := { m with countInterceptsSinceLastReport := m.countInterceptsSinceLastReport + 1 }
    if m.countInterceptsSinceLastReport < m.countBasedSampleFrequency then .ignored m
    else .admitted { m with countInterceptsSinceLastReport := 0 }
  else .admitted m

/-- Sums of `unsigned long`s wrap around. -/
def timeStage (timestamp : Nat) (m : Monitor) : Verdict :=
  if m.timeBasedSampling then
    let m :=
      if m.startTimeBasedSample = 0 then
        { m with startTimeBasedSample := timestamp, withinTimeBasedSample := true }
      else if m.withinTimeBasedSample then
        if (m.startTimeBasedSample + m.timeBasedSampleDuration) % 2 ^ 64 ≤ timestamp then
          { m with withinTimeBasedSample := false }
        else m
      else if (m.startTimeBasedSample + m.timeBasedSampleFrequency) % 2 ^ 64 ≤ timestamp then
        { m with withinTimeBasedSample := true, startTimeBasedSample := timestamp }
      else m
    if m.withinTimeBasedSample then .admitted m else .ignored m
  else .admitted m

/-- `record()` up to the point where it builds the record. -/
def recordFilters (c : RecordCall) (timestamp : Nat) (m : Monitor) : Verdict :=
  (gate c m).andThen fun m => (openStage c m).andThen fun m =>
    (elapsedStage c m).andThen fun m => (pausedStage m).andThen fun m =>
      (countStage m).andThen (timeStage timestamp)

/-! ### What the filters leave alone -/

/-- The monitor without the pause and sampling state, which is all the filters
change. -/
def Monitor.unsampled (m : Monitor) : Monitor :=
  { m with
    paused := false, countInterceptsSinceLastReport := 0, withinTimeBasedSample := false,
    startTimeBasedSample := 0 }

/-- The monitor a verdict carries. -/
def Verdict.monitor? : Verdict → Option Monitor
  | .crashed => none
  | .ignored m => some m
  | .admitted m => some m

def Verdict.Keeps (m : Monitor) (v : Verdict) : Prop :=
  ∀ m' ∈ v.monitor?, m'.unsampled = m.unsampled

theorem Verdict.Keeps.andThen {m : Monitor} {v : Verdict} {next : Monitor → Verdict}
    (h : v.Keeps m) (hn : ∀ m', (next m').Keeps m') : (v.andThen next).Keeps m := by
  cases v with
  | crashed => exact h
  | ignored m' => exact h
  | admitted m' => exact fun m'' h'' => (hn m' m'' h'').trans (h m' rfl)

theorem gate_keeps (c : RecordCall) (m : Monitor) : (gate c m).Keeps m := by
  unfold gate
  repeat' split
  all_goals exact fun m' h => Option.some.inj h ▸ rfl

theorem openStage_keeps (c : RecordCall) (m : Monitor) : (openStage c m).Keeps m := by
  unfold openStage
  repeat' split
  all_goals first
    | exact fun m' h => Option.some.inj h ▸ rfl
    | exact fun m' h => nomatch h

theorem elapsedStage_keeps (c : RecordCall) (m : Monitor) : (elapsedStage c m).Keeps m := by
  unfold elapsedStage
  split <;> exact fun m' h => Option.some.inj h ▸ rfl

theorem pausedStage_keeps (m : Monitor) : (pausedStage m).Keeps m := by
  unfold pausedStage
  split <;> exact fun m' h => Option.some.inj h ▸ rfl

theorem countStage_keeps (m : Monitor) : (countStage m).Keeps m := by
  unfold countStage
  dsimp only
  repeat' split
  all_goals exact fun m' h => Option.some.inj h ▸ rfl

theorem timeStage_keeps (timestamp : Nat) (m : Monitor) : (timeStage timestamp m).Keeps m := by
  unfold timeStage
  dsimp only
  repeat' split
  all_goals exact fun m' h => Option.some.inj h ▸ rfl

theorem recordFilters_keeps (c : RecordCall) (timestamp : Nat) (m : Monitor) :
    (recordFilters c timestamp m).Keeps m :=
  (gate_keeps c m).andThen fun m => (openStage_keeps c m).andThen fun m =>
    (elapsedStage_keeps c m).andThen fun m => (pausedStage_keeps m).andThen fun m =>
      (countStage_keeps m).andThen (timeStage_keeps timestamp)

theorem admitted_unsampled {c : RecordCall} {timestamp : Nat} {m m' : Monitor}
    (h : recordFilters c timestamp m = .admitted m') : m'.unsampled = m.unsampled :=
  recordFilters_keeps c timestamp m m' (by rw [h]; rfl)

theorem ignored_unsampled {c : RecordCall} {timestamp : Nat} {m m' : Monitor}
    (h : recordFilters c timestamp m = .ignored m') : m'.unsampled = m.unsampled :=
  recordFilters_keeps c timestamp m m' (by rw [h]; rfl)

/-- Our own socket is dropped before anything is looked at. -/
theorem recordFilters_ownSocket {c : RecordCall} {m : Monitor} (timestamp : Nat)
    (set : m.socketFd ≠ FD_NONE) (own : c.fd = m.socketFd) :
    recordFilters c timestamp m = .ignored m := by
  have closed : gate c m = .ignored m := by
    unfold gate
    split
    · rfl
    · rw [if_pos ⟨set, own⟩]
  rw [recordFilters, closed]
  rfl

end IoMonitor
