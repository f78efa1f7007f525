import IoMonitor.Monitor.Filters
import IoMonitor.Monitor.Transport

/-!
`record()`: the filters, the record, and its delivery.
-/

namespace IoMonitor

open CString Floats

/-! ### Building the record -/

/-- `RECORD_FIELD_S`: skipped for a null pointer, undefined for a bad one. -/
def recordField (n : Nat) : CharPtr → Option (CharArray n)
  | .null => some (.zero n)
  | .str s => some (strncpy n s).closeLast
  | .bad => none

/-- The record `record()` builds from its arguments. `hostname` and `device` stay
zero. -/
def buildRecord (m : Monitor) (c : RecordCall) (timestamp : Nat) (pid : Int) :
    Option MonitorRecord := do
  let s1 ← recordField PATH_MAX c.s1
  let s2 ← recordField STR_LEN c.s2
  some { MonitorRecord.zero with
    facility := (strncpy STR_LEN m.facility.chars).closeLast
    timestamp := toInt timestamp
    elapsedTime := narrow c.elapsedTime
    pid
    domType := c.domType.code
    opType := c.opType.code
    errorCode := c.errorCode
    fd := c.fd
    bytesTransferred := toSize c.bytesTransferred
    s1, s2 }

/-! ### Sending it -/

/-- The send routine the transport selects. -/
def sendRecord (lib : LibraryCalls) (o : Outcomes) (r : MonitorRecord) : Prog World Int := fun w =>
  if w.monitor.messageQueuePath.isSome then
    let (rc, w) := sendMsgQueue o r w
    .returned rc w
  else sendTcpSocket lib o r w

theorem sendRecord_queue (lib : LibraryCalls) (o : Outcomes) (r : MonitorRecord) {w : World}
    (path : w.monitor.messageQueuePath.isSome) :
    sendRecord lib o r w = .returned (sendMsgQueue o r w).1 (sendMsgQueue o r w).2 := by
  rw [sendRecord, if_pos path]

theorem sendRecord_tcp (lib : LibraryCalls) (o : Outcomes) (r : MonitorRecord) {w : World}
    (noPath : ¬ w.monitor.messageQueuePath.isSome) :
    sendRecord lib o r w = sendTcpSocket lib o r w := by
  rw [sendRecord, if_neg noPath]

theorem sendRecord_sameSettings (o : Outcomes) (r : MonitorRecord) {w w' : World} {rc : Int}
    (sent : sendRecord .direct o r w = .returned rc w') : w.SameSettings w' := by
  by_cases path : w.monitor.messageQueuePath.isSome
  · rw [sendRecord_queue _ _ _ path] at sent
    cases sent
    have kept := (sendMsgQueue_frame o r w).1
    exact congrArg (fun m : Monitor =>
      { m with failedSocketConnections := 0, socketFd := FD_NONE }) kept
  · rw [sendRecord_tcp _ _ _ path] at sent
    have kept := sendTcpSocket_sameSettings o r w
    rw [sent] at kept
    exact kept

/-- The counters after a send attempt. -/
def account (rc : Int) (m : Monitor) : Monitor :=
  if rc ≠ 0 then { m with failedIpcSends := m.failedIpcSends + 1 }
  else { m with ipcRecords := m.ipcRecords + 1 }

/-- From the record built to the end of `record()`. -/
def dispatchRecord (lib : LibraryCalls) (o : Outcomes) (who : Caller) (r : MonitorRecord) :
    Prog World Unit := do
  Prog.modify fun w => { w with attempts := w.attempts ++ [⟨who, r⟩] }
  let rc ← sendRecord lib o r
  Prog.modify (·.withMonitor (account rc))

/-- `record()`, called on behalf of `who`. -/
def record (lib : LibraryCalls) (o : Outcomes) (who : Caller) (c : RecordCall) :
    Prog World Unit := fun w =>
  match recordFilters c o.time w.monitor with
  | .crashed => .crashed w
  | .ignored m => .returned () { w with monitor := m }
  | .admitted m =>
      match buildRecord m c o.time o.getpid with
      | none => .crashed { w with monitor := m }
      | some r => dispatchRecord lib o who r { w with monitor := m }

/-! ### Over the message queue -/

theorem account_uncounted (rc : Int) (m : Monitor) : (account rc m).uncounted = m.uncounted := by
  unfold account
  split <;> rfl

/-- Over the queue the library's own calls are never made, and a record built is
one attempt. -/
theorem dispatchRecord_queue (lib : LibraryCalls) (o : Outcomes) (who : Caller) (r : MonitorRecord)
    {w : World} (path : w.monitor.messageQueuePath.isSome) :
    ∃ w', dispatchRecord lib o who r w = .returned () w' ∧
      w'.attempts = w.attempts ++ [⟨who, r⟩] ∧ w'.monitor.uncounted = w.monitor.uncounted ∧
      w'.delivered =
        (sendMsgQueue o r { w with attempts := w.attempts ++ [⟨who, r⟩] }).2.delivered := by
  let handed : World := { w with attempts := w.attempts ++ [⟨who, r⟩] }
  obtain ⟨monitor, attempts⟩ := sendMsgQueue_frame o r handed
  refine ⟨(sendMsgQueue o r handed).2.withMonitor (account (sendMsgQueue o r handed).1), ?_,
    attempts, (account_uncounted _ _).trans monitor, rfl⟩
  simp only [dispatchRecord, Prog.bind_apply, Prog.modify_apply, sendRecord]
  rw [if_pos path]

/-- A pointer argument a caller may pass. -/
def CharPtr.Readable (p : CharPtr) : Prop := p ≠ .bad

/-- What `record()` needs of its arguments: readable strings, and a path for an
`OPEN`. -/
structure RecordCall.Defined (c : RecordCall) : Prop where
  s1 : c.s1.Readable
  s2 : c.s2.Readable
  opens : c.opType = .opens → ∃ path, c.s1 = .str path

/-- The arguments the wrappers pass: readable strings, and for an `OPEN` the
domain of opens and closes and a path. -/
structure RecordCall.Valid (c : RecordCall) : Prop where
  s1 : c.s1.Readable
  s2 : c.s2.Readable
  opens : c.opType = .opens → c.domType = .fileOpenClose ∧ ∃ path, c.s1 = .str path

theorem RecordCall.Valid.defined {c : RecordCall} (valid : c.Valid) : c.Defined :=
  ⟨valid.s1, valid.s2, fun opens => (valid.opens opens).2⟩

theorem Verdict.andThen_ne_crashed {v : Verdict} {next : Monitor → Verdict} (h : v ≠ .crashed)
    (later : ∀ m, next m ≠ .crashed) : v.andThen next ≠ .crashed := by
  cases v with
  | crashed => exact absurd rfl h
  | ignored m => exact h
  | admitted m => exact later m

/-- Only the path of an open is looked at. -/
theorem recordFilters_ne_crashed {c : RecordCall} (defined_ : c.Defined) (timestamp : Nat)
    (m : Monitor) : recordFilters c timestamp m ≠ .crashed := by
  have opening : ∀ m, openStage c m ≠ .crashed := by
    intro m
    unfold openStage
    by_cases opens : c.opType = .opens
    · obtain ⟨path, s1⟩ := defined_.opens opens
      rw [if_pos opens, s1]
      dsimp only
      repeat' split
      all_goals simp
    · simp [opens]
  refine Verdict.andThen_ne_crashed ?_ fun m => Verdict.andThen_ne_crashed (opening m) fun m =>
    Verdict.andThen_ne_crashed ?_ fun m => Verdict.andThen_ne_crashed ?_ fun m =>
      Verdict.andThen_ne_crashed ?_ fun m => ?_
  · unfold gate
    repeat' split
    all_goals simp
  · unfold elapsedStage
    split <;> simp
  · unfold pausedStage
    split <;> simp
  · unfold countStage
    dsimp only
    repeat' split
    all_goals simp
  · unfold timeStage
    dsimp only
    repeat' split
    all_goals simp

theorem recordField_isSome {n : Nat} {p : CharPtr} (h : p.Readable) :
    ∃ a, recordField n p = some a := by
  cases p with
  | null => exact ⟨_, rfl⟩
  | str s => exact ⟨_, rfl⟩
  | bad => exact absurd rfl h

theorem buildRecord_isSome (m : Monitor) {c : RecordCall} (defined_ : c.Defined)
    (timestamp : Nat) (pid : Int) : ∃ r, buildRecord m c timestamp pid = some r := by
  obtain ⟨a, ha⟩ := recordField_isSome (n := PATH_MAX) defined_.s1
  obtain ⟨b, hb⟩ := recordField_isSome (n := STR_LEN) defined_.s2
  simp [buildRecord, ha, hb]

/-- The record depends on the monitor through the facility alone. -/
theorem buildRecord_congr {m m' : Monitor} (h : m.facility = m'.facility) (c : RecordCall)
    (timestamp : Nat) (pid : Int) :
    buildRecord m c timestamp pid = buildRecord m' c timestamp pid := by
  simp only [buildRecord, h]

theorem record_ignored {lib : LibraryCalls} {o : Outcomes} {who : Caller} {c : RecordCall}
    {w : World} {m : Monitor} (h : recordFilters c o.time w.monitor = .ignored m) :
    record lib o who c w = .returned () { w with monitor := m } := by
  rw [record, h]

theorem record_admitted {lib : LibraryCalls} {o : Outcomes} {who : Caller} {c : RecordCall}
    {w : World} {m : Monitor} {r : MonitorRecord}
    (h : recordFilters c o.time w.monitor = .admitted m)
    (built : buildRecord m c o.time o.getpid = some r) :
    record lib o who c w = dispatchRecord lib o who r { w with monitor := m } := by
  simp only [record, h, built]

end IoMonitor
