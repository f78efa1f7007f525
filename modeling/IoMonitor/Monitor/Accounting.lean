import IoMonitor.Lib.Machine
import IoMonitor.Monitor.StartOnOpen

/-!
The delivery counters.

`record()` counts a send routine's 0 as a record sent and anything else as a
failure. Both routines have a way out on which they return no value of their
own: five tries turned away with `EAGAIN`, and no socket. There the counter is
chosen by whatever the indeterminate value is (`Sent`). In `recordStep` the calls
of the socket routine are answered by the C library alone.
-/

namespace IoMonitor

open CString

/-! ### What the transport does -/

/-- The queue to send to, once there is a key if there can be one. -/
def queueId (m : Monitor) (o : Outcomes) : Int :=
  if m.messageQueueKey = MQ_KEY_NONE ∧ m.messageQueuePath.isSome ∧ o.ftok.ret ≠ -1 then
    o.msgget.ret
  else m.messageQueueId

/-- The transport takes the whole record: one of at most five `msgsnd`s
succeeds, or header and record are written over a connected socket. -/
def HandedOver (m : Monitor) (o : Outcomes) : Prop :=
  if m.messageQueuePath.isSome then
    queueId m o ≠ MQ_KEY_NONE ∧
      ∃ i < 5, o.msgsnd i = .ok ∧ ∀ j < i, o.msgsnd j = .failed EAGAIN
  else
    0 < o.socket.ret ∧ o.connect = .ok ∧ o.writeHeader.ret = 10 ∧
      o.writeRecord.ret = recordLength

instance (m : Monitor) (o : Outcomes) : Decidable (HandedOver m o) := by
  unfold HandedOver; infer_instance

/-- The send routine gets to a `return` with a value it has set. -/
def Returns (m : Monitor) (o : Outcomes) : Prop :=
  if m.messageQueuePath.isSome then
    queueId m o = MQ_KEY_NONE ∨ ∃ i < 5, o.msgsnd i ≠ .failed EAGAIN
  else 0 < o.socket.ret

/-- The first try not turned away with `EAGAIN`. -/
def decisiveTry (o : Outcomes) : Nat → Nat → Option Status
  | 0, _ => none
  | tries + 1, retries =>
      if o.msgsnd retries = .failed EAGAIN then decisiveTry o tries (retries + 1)
      else some (o.msgsnd retries)

theorem decisiveTry_none_iff {o : Outcomes} : ∀ {tries retries : Nat},
    decisiveTry o tries retries = none ↔ ∀ i < tries, o.msgsnd (retries + i) = .failed EAGAIN
  | 0, _ => by simp [decisiveTry]
  | tries + 1, retries => by
      rw [decisiveTry, Nat.forall_lt_succ_left]
      by_cases again : o.msgsnd retries = .failed EAGAIN
      · rw [if_pos again, decisiveTry_none_iff]
        simp [again, Nat.add_assoc, Nat.add_comm 1]
      · simp [again]

theorem decisiveTry_ok_iff {o : Outcomes} : ∀ {tries retries : Nat},
    decisiveTry o tries retries = some .ok ↔
      ∃ i < tries, o.msgsnd (retries + i) = .ok ∧
        ∀ j < i, o.msgsnd (retries + j) = .failed EAGAIN
  | 0, _ => by simp [decisiveTry]
  | tries + 1, retries => by
      rw [decisiveTry, Nat.exists_lt_succ_left]
      by_cases again : o.msgsnd retries = .failed EAGAIN
      · rw [if_pos again, decisiveTry_ok_iff]
        simp only [Nat.add_zero, again, Nat.forall_lt_succ_left, Nat.add_assoc, Nat.add_comm 1,
          reduceCtorEq, false_and, false_or, true_and]
      · simp only [Nat.add_zero, again, ite_false, Nat.forall_lt_succ_left, Option.some.injEq,
          Nat.not_lt_zero, false_and, and_false, exists_false, or_false, IsEmpty.forall_iff,
          implies_true, and_true]

theorem acquireQueue_id (o : Outcomes) (w : World) :
    (acquireQueue o w).monitor.messageQueueId = queueId w.monitor o ∧
      (acquireQueue o w).monitor.sends = w.monitor.sends := by
  unfold acquireQueue queueId
  by_cases key : w.monitor.messageQueueKey = MQ_KEY_NONE ∧ w.monitor.messageQueuePath.isSome
  · by_cases found : o.ftok.ret = -1 <;> simp [key, found, World.withMonitor, Monitor.sends]
  · have noKey : ¬ (w.monitor.messageQueueKey = MQ_KEY_NONE ∧
        w.monitor.messageQueuePath.isSome ∧ o.ftok.ret ≠ -1) := fun h => key ⟨h.1, h.2.1⟩
    simp [key, noKey]

/-- The loop returns the decisive answer, or falls off its end. -/
theorem msgsndLoop_spec (o : Outcomes) (r : MonitorRecord) : ∀ (tries retries : Nat) (w : World),
    (msgsndLoop o r tries retries w).1 =
        ((decisiveTry o tries retries).map fun s => s.answer.ret).getD o.garbage ∧
      (msgsndLoop o r tries retries w).2.delivered =
        w.delivered ++ (if decisiveTry o tries retries = some .ok then [r] else []) ∧
      (msgsndLoop o r tries retries w).2.monitor.sends = w.monitor.sends
  | 0, _, w => by simp [msgsndLoop, decisiveTry]
  | tries + 1, retries, w => by
      cases sent : o.msgsnd retries with
      | ok => simp [msgsndLoop, decisiveTry, sent, World.deliver]
      | failed e =>
          by_cases again : e = EAGAIN
          · have ih := msgsndLoop_spec o r tries (retries + 1)
            simp only [msgsndLoop, decisiveTry, sent, again, if_true]
            obtain ⟨rc, delivered, sends⟩ := ih _
            refine ⟨rc, delivered.trans ?_, sends.trans ?_⟩ <;>
              simp [World.withMonitor, Monitor.sends]
          · simp [msgsndLoop, decisiveTry, sent, again]

/-- What a send routine did to the record, its return value and the counters. -/
structure Sent (m : Monitor) (o : Outcomes) (r : MonitorRecord) (w : World) (rc : Int)
    (w' : World) : Prop where
  returned : Returns m o → (rc = 0 ↔ HandedOver m o)
  fellOff : ¬ Returns m o → rc = o.garbage ∧ ¬ HandedOver m o
  took : HandedOver m o → w'.delivered = w.delivered ++ [r]
  lost : ¬ HandedOver m o → w'.delivered = w.delivered
  sends : w'.monitor.sends = w.monitor.sends
  attempts : w'.attempts = w.attempts

/-- The answer is right if a `return` is reached, or the indeterminate value is not 0. -/
theorem Sent.right {m : Monitor} {o : Outcomes} {r : MonitorRecord} {w w' : World} {rc : Int}
    (h : Sent m o r w rc w') (decided : Returns m o ∨ o.garbage ≠ 0) : rc = 0 ↔ HandedOver m o := by
  by_cases returns : Returns m o
  · exact h.returned returns
  · obtain ⟨value, notHanded⟩ := h.fellOff returns
    exact iff_of_false (value ▸ decided.resolve_left returns) notHanded

/-- And only then. -/
theorem Sent.decided {m : Monitor} {o : Outcomes} {r : MonitorRecord} {w w' : World} {rc : Int}
    (h : Sent m o r w rc w') (right : rc = 0 ↔ HandedOver m o) :
    Returns m o ∨ o.garbage ≠ 0 := by
  by_contra neither
  obtain ⟨stuck, zero⟩ := not_or.mp neither
  obtain ⟨value, notHanded⟩ := h.fellOff stuck
  exact notHanded (right.mp (value.trans (not_not.mp zero)))

theorem sendMsgQueue_sent (o : Outcomes) (r : MonitorRecord) {w : World}
    (path : w.monitor.messageQueuePath.isSome) :
    Sent w.monitor o r w (sendMsgQueue o r w).1 (sendMsgQueue o r w).2 := by
  obtain ⟨id, sends⟩ := acquireQueue_id o w
  have delivered := (acquireQueue_frame o w).2.2
  have attempts := (sendMsgQueue_frame o r w).2
  have handed : HandedOver w.monitor o ↔
      queueId w.monitor o ≠ MQ_KEY_NONE ∧ decisiveTry o 5 0 = some .ok := by
    rw [HandedOver, if_pos path, decisiveTry_ok_iff]
    simp
  have returns : Returns w.monitor o ↔
      queueId w.monitor o = MQ_KEY_NONE ∨ decisiveTry o 5 0 ≠ none := by
    rw [Returns, if_pos path, Ne, decisiveTry_none_iff]
    simp
  unfold sendMsgQueue at attempts ⊢
  dsimp only at attempts ⊢
  rw [id] at attempts ⊢
  by_cases none : queueId w.monitor o = MQ_KEY_NONE
  · have notHanded : ¬ HandedOver w.monitor o := fun h => (handed.mp h).1 none
    rw [if_pos none] at attempts ⊢
    refine ⟨fun _ => ?_, fun stuck => absurd (returns.mpr (.inl none)) stuck,
      fun h => absurd h notHanded, fun _ => delivered, sends, attempts⟩
    simp [notHanded]
  · rw [if_neg none] at attempts ⊢
    obtain ⟨rc, took, sends'⟩ := msgsndLoop_spec o r 5 0 (acquireQueue o w)
    have handed' : HandedOver w.monitor o ↔ decisiveTry o 5 0 = some .ok := by
      rw [handed]
      exact and_iff_right none
    refine ⟨fun returned => ?_, fun stuck => ?_, fun h => ?_, fun h => ?_, sends'.trans sends,
      attempts⟩
    · rw [rc, handed']
      have := (returns.mp returned).resolve_left none
      cases decisive : decisiveTry o 5 0 with
      | none => exact absurd decisive this
      | some s => cases s <;> simp
    · have decisive : decisiveTry o 5 0 = .none := by
        by_contra some
        exact stuck (returns.mpr (.inr some))
      rw [rc, handed', decisive]
      simp
    · rw [took, if_pos (handed'.mp h), delivered]
    · rw [took, if_neg (fun ok => h (handed'.mpr ok)), List.append_nil, delivered]

/-- `send_tcp_socket` from the answer to `socket()` on. -/
def overSocket (o : Outcomes) (r : MonitorRecord) : Prog World Int :=
  if o.socket.ret > 0 then sendOver .direct o o.socket.ret r else pure o.garbage

theorem overSocket_sent (o : Outcomes) (r : MonitorRecord) {m : Monitor}
    (noPath : m.messageQueuePath.isSome = false) (w : World) :
    ∃ rc w', overSocket o r w = .returned rc w' ∧ Sent m o r w rc w' := by
  have handed : HandedOver m o ↔ 0 < o.socket.ret ∧ o.connect = .ok ∧ FrameWritten o := by
    rw [HandedOver, if_neg (by simp [noPath])]
    rfl
  have returns : Returns m o ↔ 0 < o.socket.ret := by
    rw [Returns, if_neg (by simp [noPath])]
  unfold overSocket
  by_cases opened : 0 < o.socket.ret
  · obtain ⟨w', sent, delivered, sends, attempts⟩ := sendOver_direct o o.socket.ret r w
    have handed' : HandedOver m o ↔ o.connect = .ok ∧ FrameWritten o := by
      rw [handed]
      exact and_iff_right opened
    rw [if_pos opened]
    refine ⟨_, w', sent, fun _ => ?_, fun stuck => absurd (returns.mpr opened) stuck,
      fun h => ?_, fun h => ?_, sends, attempts⟩
    · rw [handed']
      split <;> rename_i written <;> simp [written]
    · rw [delivered, if_pos (handed'.mp h)]
    · rw [delivered, if_neg (fun written => h (handed'.mpr written)), List.append_nil]
  · have notHanded : ¬ HandedOver m o := fun h => opened (handed.mp h).1
    rw [if_neg opened]
    exact ⟨o.garbage, w, rfl, fun returned => absurd (returns.mp returned) opened,
      fun _ => ⟨rfl, notHanded⟩, fun h => absurd h notHanded, fun _ => rfl, rfl, rfl⟩

theorem sendTcpSocket_direct (o : Outcomes) (r : MonitorRecord) (w : World) :
    sendTcpSocket .direct o r w = overSocket o r (w.after o.socket) := by
  simp only [sendTcpSocket, Prog.bind_apply, LibraryCalls.direct]
  rfl

theorem sendTcpSocket_sent (o : Outcomes) (r : MonitorRecord) {w : World}
    (noPath : w.monitor.messageQueuePath.isSome = false) :
    ∃ rc w', sendTcpSocket .direct o r w = .returned rc w' ∧ Sent w.monitor o r w rc w' := by
  obtain ⟨rc, w', sent, spec⟩ := overSocket_sent o r noPath (w.after o.socket)
  refine ⟨rc, w', (sendTcpSocket_direct o r w).trans sent, spec.returned, spec.fellOff, ?_, ?_, ?_,
    ?_⟩
  · simpa using spec.took
  · simpa using spec.lost
  · simpa using spec.sends
  · simpa using spec.attempts

/-- Either transport: the routine answers, and says what it did where it gets to
a `return`. -/
theorem sendRecord_sent (o : Outcomes) (r : MonitorRecord) (w : World) :
    ∃ rc w', sendRecord .direct o r w = .returned rc w' ∧ Sent w.monitor o r w rc w' := by
  cases path : w.monitor.messageQueuePath.isSome with
  | true =>
      exact ⟨_, _, sendRecord_queue .direct o r path, sendMsgQueue_sent o r path⟩
  | false =>
      obtain ⟨rc, w', sent, spec⟩ := sendTcpSocket_sent o r path
      exact ⟨rc, w', (sendRecord_tcp .direct o r (by simp [path])).trans sent, spec⟩

/-! ### Runs of `record()` -/

/-- A call of `record()` that returns. The C library alone answers it, as it does over the
queue: the wrapper of our own `socket()` is that of the nested calls. -/
def recordStep (who : Caller) (w : World) (c : Recorded) : Option World :=
  match record .direct c.2 who c.1 w with
  | .returned _ w' => some w'
  | _ => none

theorem recordStep_ignored (who : Caller) {w : World} {c : Recorded} {m : Monitor}
    (h : recordFilters c.1 c.2.time w.monitor = .ignored m) :
    recordStep who w c = some { w with monitor := m } := by
  rw [recordStep, record_ignored h]

/-- What a call that returns has done: the filters hold it back, or its record is built and
handed to the transport, and the answer is counted. -/
theorem recordStep_cases {who : Caller} {w w' : World} {c : Recorded}
    (step : recordStep who w c = some w') :
    (∃ m, recordFilters c.1 c.2.time w.monitor = .ignored m ∧ w' = { w with monitor := m }) ∨
      ∃ m r rc w₁, recordFilters c.1 c.2.time w.monitor = .admitted m ∧
        buildRecord m c.1 c.2.time c.2.getpid = some r ∧
          sendRecord .direct c.2 r { w with monitor := m, attempts := w.attempts ++ [⟨who, r⟩] } =
            .returned rc w₁ ∧
          w' = w₁.withMonitor (account rc) := by
  cases verdict : recordFilters c.1 c.2.time w.monitor with
  | crashed => simp [recordStep, record, verdict] at step
  | ignored m =>
      rw [recordStep_ignored who verdict] at step
      exact .inl ⟨m, rfl, (Option.some.inj step).symm⟩
  | admitted m =>
      cases built : buildRecord m c.1 c.2.time c.2.getpid with
      | none => simp [recordStep, record, verdict, built] at step
      | some r =>
          obtain ⟨rc, w₁, sent, -⟩ := sendRecord_sent c.2 r
            { w with monitor := m, attempts := w.attempts ++ [⟨who, r⟩] }
          rw [recordStep, record_admitted verdict built] at step
          simp only [dispatchRecord, Prog.bind_apply, Prog.modify_apply, sent] at step
          exact .inr ⟨m, r, rc, w₁, rfl, built, sent, (Option.some.inj step).symm⟩

/-- The settings stay as they are. -/
theorem recordStep_settings {who : Caller} {w w' : World} {c : Recorded}
    (step : recordStep who w c = some w') :
    w'.monitor.unsampled.unsent = w.monitor.unsampled.unsent := by
  obtain ⟨m, ignored, rfl⟩ | ⟨m, r, rc, w₁, admitted, -, sent, rfl⟩ := recordStep_cases step
  · exact congrArg Monitor.unsent (ignored_unsampled ignored)
  · have counted : (account rc w₁.monitor).unsampled.unsent = w₁.monitor.unsampled.unsent := by
      unfold account
      split <;> rfl
    have kept := congrArg Monitor.unsampled (sendRecord_sameSettings c.2 r sent)
    exact (counted.trans kept).trans (congrArg Monitor.unsent (admitted_unsampled admitted))

theorem recordStep_path {who : Caller} {w w' : World} {c : Recorded}
    (step : recordStep who w c = some w') :
    w'.monitor.messageQueuePath = w.monitor.messageQueuePath :=
  (congrArg Monitor.messageQueuePath (recordStep_settings step) :)

/-- A call that is let through makes one attempt, whatever the transport. -/
theorem recordStep_admitted (who : Caller) {w : World} {c : Recorded} {m : Monitor}
    (h : recordFilters c.1 c.2.time w.monitor = .admitted m) (defined_ : c.1.Defined) :
    ∃ w', recordStep who w c = some w' ∧ w'.attempts = w.attempts ++ [attemptOf m who c] ∧
      w'.monitor.unsent = m.unsent := by
  obtain ⟨r, built⟩ := buildRecord_isSome m defined_ c.2.time c.2.getpid
  let handed : World := { w with monitor := m, attempts := w.attempts ++ [⟨who, r⟩] }
  obtain ⟨rc, w', sent, spec⟩ := sendRecord_sent c.2 r handed
  rw [attemptOf_built built]
  refine ⟨w'.withMonitor (account rc), ?_, spec.attempts, ?_⟩
  · rw [recordStep, record_admitted h built]
    simp only [dispatchRecord, Prog.bind_apply, Prog.modify_apply]
    rw [sent]
  · have counted : (account rc w'.monitor).unsent = w'.monitor.unsent := by
      unfold account
      split <;> rfl
    exact counted.trans (sendRecord_sameSettings c.2 r sent)

/-- Over the queue the socket's state stays too, and the message arrives if the
queue takes it. -/
theorem recordStep_queue (who : Caller) {w : World} {c : Recorded} {m : Monitor}
    (h : recordFilters c.1 c.2.time w.monitor = .admitted m) (defined_ : c.1.Defined)
    (queue : m.messageQueuePath.isSome) :
    ∃ w', recordStep who w c = some w' ∧ w'.attempts = w.attempts ++ [attemptOf m who c] ∧
      w'.monitor.uncounted = m.uncounted ∧
      (HandedOver m c.2 → w'.delivered = w.delivered ++ [(attemptOf m who c).record]) := by
  obtain ⟨r, built⟩ := buildRecord_isSome m defined_ c.2.time c.2.getpid
  obtain ⟨w', sent, attempts, monitor, delivered⟩ := dispatchRecord_queue .direct c.2 who r
    (w := { w with monitor := m }) queue
  have spec := sendMsgQueue_sent c.2 r
    (w := { w with monitor := m, attempts := w.attempts ++ [⟨who, r⟩] }) queue
  rw [attemptOf_built built]
  refine ⟨w', ?_, attempts, monitor, fun takes => delivered.trans (spec.took takes)⟩
  rw [recordStep, record_admitted h built, sent]

/-! ### The counters -/

/-- The filters leave the counters alone. -/
theorem counters_of_unsampled {m m' : Monitor} (same : m'.unsampled = m.unsampled) :
    m'.sends = m.sends :=
  (congrArg Monitor.sends same :)

/-- From `w` to `w'` so many records have been delivered and so many lost, and the counters
have counted them. -/
structure Counted (w w' : World) (sent lost : Nat) : Prop where
  delivered : w'.delivered.length = w.delivered.length + sent
  attempts : w'.attempts.length = w.attempts.length + (sent + lost)
  records : w'.monitor.ipcRecords = w.monitor.ipcRecords + sent
  failed : w'.monitor.failedIpcSends = w.monitor.failedIpcSends + lost

theorem Counted.refl (w : World) : Counted w w 0 0 := ⟨rfl, rfl, by simp, by simp⟩

theorem Counted.trans {u v w : World} {sent lost sent' lost' : Nat} (first : Counted u v sent lost)
    (second : Counted v w sent' lost') : Counted u w (sent + sent') (lost + lost') where
  delivered := by rw [second.delivered, first.delivered]; omega
  attempts := by rw [second.attempts, first.attempts]; omega
  records := by rw [second.records, first.records, Nat.cast_add, add_assoc]
  failed := by rw [second.failed, first.failed, Nat.cast_add, add_assoc]

/-- A record with its attempt logged. -/
def World.handing (w : World) (m : Monitor) (who : Caller) (r : MonitorRecord) : World :=
  { w with monitor := m, attempts := w.attempts ++ [⟨who, r⟩] }

/-- A record that is held back is no attempt. -/
theorem Counted.ignored {w : World} {c : RecordCall} {timestamp : Nat} {m : Monitor}
    (verdict : recordFilters c timestamp w.monitor = .ignored m) :
    Counted w { w with monitor := m } 0 0 := by
  have same := Prod.ext_iff.mp (counters_of_unsampled (ignored_unsampled verdict))
  exact ⟨rfl, rfl, same.1.trans (by simp [Monitor.sends]), same.2.trans (by simp [Monitor.sends])⟩

/-- How many records the attempt delivers, and how many it loses. -/
def oneSent (m : Monitor) (o : Outcomes) : Nat × Nat := if HandedOver m o then (1, 0) else (0, 1)

/-- An attempt whose answer is right is counted, behind what its own calls have counted. -/
theorem Sent.counted {w v w' : World} {c : RecordCall} {timestamp : Nat} {m : Monitor}
    {o : Outcomes} {who : Caller} {r : MonitorRecord} {rc : Int} {sent lost : Nat}
    (h : Sent m o r v rc w') (verdict : recordFilters c timestamp w.monitor = .admitted m)
    (nested : Counted (w.handing m who r) v sent lost) (right : rc = 0 ↔ HandedOver m o) :
    Counted w (w'.withMonitor (account rc)) (sent + (oneSent m o).1) (lost + (oneSent m o).2) := by
  have before := Prod.ext_iff.mp (counters_of_unsampled (admitted_unsampled verdict))
  have sends := Prod.ext_iff.mp h.sends
  have attempts := nested.attempts
  rw [World.handing, List.length_append, List.length_singleton] at attempts
  have records := sends.1.trans nested.records
  have failed := sends.2.trans nested.failed
  by_cases arrives : HandedOver m o
  · rw [oneSent, if_pos arrives]
    have counted : account rc w'.monitor = { w'.monitor with
        ipcRecords := w'.monitor.ipcRecords + 1 } := if_neg (not_not.mpr (right.mpr arrives))
    constructor
    · rw [World.withMonitor, h.took arrives, List.length_append, nested.delivered]
      rfl
    · rw [World.withMonitor, h.attempts, attempts]
      omega
    · simp only [World.withMonitor, counted, Nat.cast_add, Nat.cast_one, ← add_assoc]
      exact congrArg (· + 1) (records.trans (congrArg (· + _) before.1))
    · simp only [World.withMonitor, counted, Nat.add_zero]
      exact failed.trans (congrArg (· + _) before.2)
  · rw [oneSent, if_neg arrives]
    have counted : account rc w'.monitor = { w'.monitor with
        failedIpcSends := w'.monitor.failedIpcSends + 1 } := if_pos (mt right.mp arrives)
    constructor
    · rw [World.withMonitor, h.lost arrives, nested.delivered]
      rfl
    · rw [World.withMonitor, h.attempts, attempts]
      omega
    · simp only [World.withMonitor, counted, Nat.add_zero]
      exact records.trans (congrArg (· + _) before.1)
    · simp only [World.withMonitor, counted, Nat.cast_add, Nat.cast_one, ← add_assoc]
      exact congrArg (· + 1) (failed.trans (congrArg (· + _) before.2))

/-- A call whose send routine, if it gets to one, reaches a `return` is counted. -/
theorem recordStep_counted {who : Caller} {w w' : World} {c : Recorded}
    (step : recordStep who w c = some w')
    (decided : ∀ m, recordFilters c.1 c.2.time w.monitor = .admitted m →
      Returns m c.2 ∨ c.2.garbage ≠ 0) : ∃ sent lost, Counted w w' sent lost := by
  obtain ⟨m, verdict, rfl⟩ | ⟨m, r, rc, w₁, verdict, built, sent, rfl⟩ := recordStep_cases step
  · exact ⟨0, 0, .ignored verdict⟩
  · obtain ⟨rc', w₂, sent', spec⟩ := sendRecord_sent c.2 r (w.handing m who r)
    cases sent.symm.trans sent'
    exact ⟨_, _, spec.counted verdict (.refl _) (spec.right (decided m verdict))⟩

end IoMonitor
