import IoMonitor.Monitor.Record

/-!
The calls that are eligible for a record.

While the monitor is not paused, the filters of `record()` before the samplers
keep no state: a call reaches the samplers or not by its own arguments and the
settings (`recordFilters_running`).
-/

namespace IoMonitor

open CString

/-- A call of `record()` and the answers of the calls it makes. -/
abbrev Recorded := RecordCall × Outcomes

/-- An open of `.` or `..`. -/
def RecordCall.opensDot (c : RecordCall) : Bool :=
  c.opType = .opens ∧ (c.s1 = .str ['.'] ∨ c.s1 = .str ['.', '.'])

/-- A call of a monitored domain that no other filter drops. -/
def Eligible (m : Monitor) (c : RecordCall) : Bool :=
  !c.isStdio && m.monitors c.domType && !c.opensDot

theorem eligible_of_mask {m m' : Monitor} (mask : m'.domainBitFlags = m.domainBitFlags)
    (c : RecordCall) : Eligible m' c = Eligible m c := by
  simp only [Eligible, Monitor.monitors, mask]

/-- What the tests before the samplers let through: the peer is not known to be
dead, the descriptor is not our own socket, and the call is eligible. -/
def Reaches (m : Monitor) (c : RecordCall) : Prop :=
  m.failedSocketConnections.toInt ≤ 0 ∧ ¬ (m.socketFd ≠ FD_NONE ∧ c.fd = m.socketFd) ∧
    Eligible m c = true

instance (m : Monitor) (c : RecordCall) : Decidable (Reaches m c) := by
  unfold Reaches; infer_instance

theorem openStage_running {m : Monitor} (running : m.paused = false) {c : RecordCall}
    (defined_ : c.Defined) :
    openStage c m = if c.opensDot then .ignored m else .admitted m := by
  unfold openStage
  by_cases opens : c.opType = .opens
  · obtain ⟨path, s1⟩ := defined_.opens opens
    simp only [opens, s1, running, RecordCall.opensDot]
    by_cases dot : path = ['.'] ∨ path = ['.', '.']
    · simp [dot]
    · cases m.startOnOpen <;> simp [dot]
  · simp [opens, RecordCall.opensDot]

/-- While the monitor runs, the calls that reach the samplers find them as they
were. -/
theorem recordFilters_running {m : Monitor} (running : m.paused = false) {c : RecordCall}
    (defined_ : c.Defined) (timestamp : Nat) :
    recordFilters c timestamp m =
      if Reaches m c then (countStage m).andThen (timeStage timestamp) else .ignored m := by
  have elapsed : elapsedStage c m = .admitted m := by simp [elapsedStage, running]
  have going : pausedStage m = .admitted m := by simp [pausedStage, running]
  by_cases dead : m.failedSocketConnections.toInt > 0
  · have stopped : gate c m = .ignored m := by rw [gate, if_pos dead]
    rw [recordFilters, stopped, ignored_andThen, if_neg fun h => absurd h.1 (by omega)]
  by_cases own : m.socketFd ≠ FD_NONE ∧ c.fd = m.socketFd
  · have stopped : gate c m = .ignored m := by rw [gate, if_neg dead, if_pos own]
    rw [recordFilters, stopped, ignored_andThen, if_neg fun h => h.2.1 own]
  have passes : gate c m =
      if !c.isStdio && m.monitors c.domType then .admitted m else .ignored m := by
    rw [gate, if_neg dead, if_neg own]
    cases c.isStdio <;> cases m.monitors c.domType <;> rfl
  have reaches : Reaches m c ↔ Eligible m c = true :=
    ⟨fun h => h.2.2, fun h => ⟨by omega, own, h⟩⟩
  simp only [reaches]
  rw [recordFilters, passes]
  by_cases domain : (!c.isStdio && m.monitors c.domType) = true
  · rw [if_pos domain, admitted_andThen, openStage_running running defined_]
    by_cases dot : c.opensDot = true
    · simp [dot, Eligible]
    · rw [if_neg dot, admitted_andThen, elapsed, admitted_andThen, going, admitted_andThen,
        if_pos (by simp [Eligible, domain, dot])]
  · rw [if_neg domain, ignored_andThen]
    simp only [Bool.not_eq_true] at domain
    simp [Eligible, domain]

/-- The queue transport, and no pause. -/
structure QueueRunning (m : Monitor) : Prop where
  queue : m.messageQueuePath.isSome
  running : m.paused = false
  noSocket : m.socketFd = FD_NONE
  connected : m.failedSocketConnections = 0

theorem reaches_queue {m : Monitor} (h : QueueRunning m) (c : RecordCall) :
    Reaches m c ↔ Eligible m c = true := by
  simp [Reaches, h.noSocket, h.connected]

end IoMonitor
