import IoMonitor.Monitor.State

/-!
Handing a record to the transport.

`sendMsgQueue` and `sendTcpSocket` follow the source through every answer of the
calls they make. The socket routine makes its calls by public name, so what they
do besides is a parameter, `LibraryCalls`; `LibraryCalls.direct` is the C library
itself.
-/

namespace IoMonitor

open CString

/-! ### The message queue -/

/-- `ftok` and `msgget`, while there is no key. -/
def acquireQueue (o : Outcomes) (w : World) : World :=
  if w.monitor.messageQueueKey = MQ_KEY_NONE ∧ w.monitor.messageQueuePath.isSome then
    let w := (w.after o.ftok).withMonitor fun m => { m with messageQueueKey := o.ftok.ret }
    if o.ftok.ret ≠ -1 then
      (w.after o.msgget).withMonitor fun m => { m with messageQueueId := o.msgget.ret }
    else w
  else w

/-- The message arrives at the queue, or the transport has the whole record. -/
def World.deliver (record : MonitorRecord) (w : World) : World :=
  { w with delivered := w.delivered ++ [record] }

/-- The `while (retries < 5)` loop with `tries` rounds left. Falling out of it
is the end of a function that should return a value. -/
def msgsndLoop (o : Outcomes) (record : MonitorRecord) : Nat → Nat → World → Int × World
  | 0, _, w => (o.garbage, w)
  | tries + 1, retries, w =>
      match o.msgsnd retries with
      | .ok => (0, w.deliver record)
      | .failed e =>
          let w := w.after (.failed e)
          if e = EAGAIN then
            let retries' := retries + 1
            let w := (w.after (o.usleep retries).answer).withMonitor fun m =>
              { m with
                ipcRetries := m.ipcRetries + 1
                ipcRetryWaitLostTime := m.ipcRetryWaitLostTime + 512#32 <<< retries' }
            msgsndLoop o record tries retries' w
          else (-1, w)

def sendMsgQueue (o : Outcomes) (record : MonitorRecord) (w : World) : Int × World :=
  let w := acquireQueue o w
  if w.monitor.messageQueueId = MQ_KEY_NONE then (-1, w)
  else msgsndLoop o record 5 0 w

/-- The monitor without its counters and its hold on the queue, which is all the
queue routine changes. -/
def Monitor.uncounted (m : Monitor) : Monitor :=
  { m with
    failedIpcSends := 0, ipcRetries := 0, ipcRetryWaitLostTime := 0, ipcRecords := 0,
    messageQueueKey := MQ_KEY_NONE, messageQueueId := MQ_KEY_NONE }

theorem acquireQueue_frame (o : Outcomes) (w : World) :
    (acquireQueue o w).monitor.uncounted = w.monitor.uncounted ∧
      (acquireQueue o w).attempts = w.attempts ∧ (acquireQueue o w).delivered = w.delivered := by
  unfold acquireQueue
  split
  · dsimp only
    split <;> simp [World.withMonitor, Monitor.uncounted]
  · exact ⟨rfl, rfl, rfl⟩

theorem msgsndLoop_frame (o : Outcomes) (record : MonitorRecord) :
    ∀ (tries retries : Nat) (w : World),
      (msgsndLoop o record tries retries w).2.monitor.uncounted = w.monitor.uncounted ∧
        (msgsndLoop o record tries retries w).2.attempts = w.attempts
  | 0, _, _ => ⟨rfl, rfl⟩
  | tries + 1, retries, w => by
      cases sent : o.msgsnd retries with
      | ok => simp [msgsndLoop, sent, World.deliver]
      | failed e =>
          by_cases again : e = EAGAIN
          · have ih := msgsndLoop_frame o record tries (retries + 1)
            simp only [msgsndLoop, sent, again, if_true]
            refine ⟨(ih _).1.trans ?_, (ih _).2.trans ?_⟩ <;>
              simp [World.withMonitor, Monitor.uncounted]
          · simp [msgsndLoop, sent, again]

theorem sendMsgQueue_frame (o : Outcomes) (record : MonitorRecord) (w : World) :
    (sendMsgQueue o record w).2.monitor.uncounted = w.monitor.uncounted ∧
      (sendMsgQueue o record w).2.attempts = w.attempts := by
  obtain ⟨monitor, attempts, -⟩ := acquireQueue_frame o w
  unfold sendMsgQueue
  dsimp only
  split
  · exact ⟨monitor, attempts⟩
  · obtain ⟨monitor', attempts'⟩ := msgsndLoop_frame o record 5 0 (acquireQueue o w)
    exact ⟨monitor'.trans monitor, attempts'.trans attempts⟩

/-! ### The TCP socket -/

/-- The calls `send_tcp_socket` makes by public name, with the descriptor each
one is made on. -/
inductive SocketCall where
  | socket
  | connect (sockfd : Int)
  | writeHeader (sockfd : Int)
  | writeRecord (sockfd : Int)
  | close (sockfd : Int)
  deriving DecidableEq, Repr

/-- What such a call does, given the answer of the C library's function. -/
abbrev LibraryCalls := SocketCall → Answer → Prog World Int

/-- The C library's function and nothing else. -/
def LibraryCalls.direct : LibraryCalls := fun _ a w => .returned a.ret (w.after a)

def World.answered (a : Answer) : Prog World Unit := Prog.modify (·.after a)

/-- The body of `if (rc == 0)` after `connect`: the two writes. -/
def writeFrame (lib : LibraryCalls) (o : Outcomes) (sockfd : Int) (record : MonitorRecord) :
    Prog World Int := do
  World.answered o.setNoDelay.answer
  World.answered o.setSendBuffer.answer
  let rc ← lib (.writeHeader sockfd) o.writeHeader
  if rc = 10 then
    let rc ← lib (.writeRecord sockfd) o.writeRecord
    if rc = recordLength then
      Prog.modify (World.deliver record)
      pure 0
    else pure (-1)
  else pure (-1)

/-- The body of `if (sockfd > 0)`. -/
def sendOver (lib : LibraryCalls) (o : Outcomes) (sockfd : Int) (record : MonitorRecord) :
    Prog World Int := do
  Prog.modify (·.withMonitor fun m => { m with socketFd := sockfd })
  let rc ← lib (.connect sockfd) o.connect.answer
  let rc ←
    if rc = 0 then writeFrame lib o sockfd record
    else do
      Prog.modify (·.withMonitor fun m =>
        { m with failedSocketConnections := m.failedSocketConnections + 1 })
      pure (-1)
  let _ ← lib (.close sockfd) o.close.answer
  Prog.modify (·.withMonitor fun m => { m with socketFd := FD_NONE })
  pure rc

/-- Where no socket is had, `rc` is returned as it was: never set. -/
def sendTcpSocket (lib : LibraryCalls) (o : Outcomes) (record : MonitorRecord) :
    Prog World Int := do
  let sockfd ← lib .socket o.socket
  if sockfd > 0 then sendOver lib o sockfd record
  else pure o.garbage

/-! ### Over sockets of the C library -/

/-- The counters `record()` keeps of its sends. -/
def Monitor.sends (m : Monitor) : BitVec 32 × BitVec 32 := (m.ipcRecords, m.failedIpcSends)

/-- Header and record are written whole. -/
def FrameWritten (o : Outcomes) : Prop :=
  o.writeHeader.ret = 10 ∧ o.writeRecord.ret = recordLength

instance (o : Outcomes) : Decidable (FrameWritten o) := by unfold FrameWritten; infer_instance

theorem writeFrame_direct (o : Outcomes) (sockfd : Int) (r : MonitorRecord) (w : World) :
    ∃ w', writeFrame .direct o sockfd r w =
        .returned (if FrameWritten o then 0 else -1) w' ∧
      w'.delivered = w.delivered ++ (if FrameWritten o then [r] else []) ∧
      w'.monitor = w.monitor ∧ w'.attempts = w.attempts := by
  unfold FrameWritten
  by_cases header : o.writeHeader.ret = 10
  · by_cases whole : o.writeRecord.ret = recordLength
    · simp only [writeFrame, World.answered, Prog.bind_apply, Prog.modify_apply,
        LibraryCalls.direct, header, whole, if_true, and_self, Prog.pure_apply]
      exact ⟨_, rfl, by simp [World.deliver], by simp [World.deliver], by simp [World.deliver]⟩
    · simp only [writeFrame, World.answered, Prog.bind_apply, Prog.modify_apply,
        LibraryCalls.direct, header, whole, if_true, if_false, and_false, Prog.pure_apply]
      exact ⟨_, rfl, by simp, by simp, by simp⟩
  · simp only [writeFrame, World.answered, Prog.bind_apply, Prog.modify_apply,
      LibraryCalls.direct, header, if_false, false_and, Prog.pure_apply]
    exact ⟨_, rfl, by simp, by simp, by simp⟩

theorem sendOver_direct (o : Outcomes) (sockfd : Int) (r : MonitorRecord) (w : World) :
    ∃ w', sendOver .direct o sockfd r w =
        .returned (if o.connect = .ok ∧ FrameWritten o then 0 else -1) w' ∧
      w'.delivered = w.delivered ++ (if o.connect = .ok ∧ FrameWritten o then [r] else []) ∧
      w'.monitor.sends = w.monitor.sends ∧ w'.attempts = w.attempts := by
  cases connected : o.connect with
  | ok =>
      obtain ⟨w', frame, delivered, monitor, attempts⟩ := writeFrame_direct o sockfd r
        ((w.withMonitor fun m => { m with socketFd := sockfd }).after Status.ok.answer)
      simp only [sendOver, Prog.bind_apply, Prog.modify_apply, LibraryCalls.direct, connected,
        ok_ret, if_true, true_and, frame, Prog.pure_apply]
      refine ⟨_, rfl, ?_, ?_, ?_⟩
      · simpa [World.withMonitor] using delivered
      · simp [World.withMonitor, Monitor.sends, monitor]
      · simpa [World.withMonitor] using attempts
  | failed e =>
      have refused : ¬ (-1 : Int) = 0 := by decide
      simp only [sendOver, Prog.bind_apply, Prog.modify_apply, LibraryCalls.direct, connected,
        failed_ret, refused, reduceCtorEq, false_and, if_false, Prog.pure_apply]
      exact ⟨_, rfl, by simp [World.withMonitor], by simp [World.withMonitor, Monitor.sends],
        by simp [World.withMonitor]⟩

/-! ### What either routine leaves alone -/

/-- The monitor without what either send routine changes. -/
def Monitor.unsent (m : Monitor) : Monitor :=
  { m.uncounted with failedSocketConnections := 0, socketFd := FD_NONE }

/-- The same settings, pause and samples. -/
def World.SameSettings (w w' : World) : Prop := w'.monitor.unsent = w.monitor.unsent

theorem sameSettings_after (w : World) (a : Answer) : w.SameSettings (w.after a) := by
  simp [World.SameSettings]

theorem transitions_direct (c : SocketCall) (a : Answer) :
    Prog.Transitions World.SameSettings (LibraryCalls.direct c a) :=
  fun w => sameSettings_after w a

theorem transitions_sameSettings_bind {α β : Type} {p : Prog World α} {f : α → Prog World β}
    (hp : Prog.Transitions World.SameSettings p)
    (hf : ∀ a, Prog.Transitions World.SameSettings (f a)) :
    Prog.Transitions World.SameSettings (p >>= f) :=
  Prog.Transitions.bind (fun _ _ _ first second => second.trans first) hp hf

theorem transitions_pure {α : Type} (a : α) :
    Prog.Transitions World.SameSettings (pure a : Prog World α) :=
  fun _ => rfl

theorem writeFrame_sameSettings (o : Outcomes) (sockfd : Int) (r : MonitorRecord) :
    Prog.Transitions World.SameSettings (writeFrame .direct o sockfd r) := by
  have answered : ∀ a, Prog.Transitions World.SameSettings (World.answered a) :=
    fun a => Prog.Transitions.modify fun w => sameSettings_after w a
  have delivered : Prog.Transitions World.SameSettings (Prog.modify (World.deliver r)) :=
    Prog.Transitions.modify fun _ => rfl
  unfold writeFrame
  refine transitions_sameSettings_bind (answered _) fun _ => ?_
  refine transitions_sameSettings_bind (answered _) fun _ => ?_
  refine transitions_sameSettings_bind (transitions_direct _ _) fun header => ?_
  split
  · refine transitions_sameSettings_bind (transitions_direct _ _) fun whole => ?_
    split
    · exact transitions_sameSettings_bind delivered fun _ => transitions_pure _
    · exact transitions_pure _
  · exact transitions_pure _

theorem sendTcpSocket_sameSettings (o : Outcomes) (r : MonitorRecord) :
    Prog.Transitions World.SameSettings (sendTcpSocket .direct o r) := by
  have closed : ∀ (sockfd rc : Int), Prog.Transitions World.SameSettings (do
      let _ ← LibraryCalls.direct (.close sockfd) o.close.answer
      Prog.modify (·.withMonitor fun m => { m with socketFd := FD_NONE })
      pure rc) := fun sockfd rc =>
    transitions_sameSettings_bind (transitions_direct _ _) fun _ =>
      transitions_sameSettings_bind (Prog.Transitions.modify fun _ => rfl) fun _ =>
        transitions_pure _
  unfold sendTcpSocket
  refine transitions_sameSettings_bind (transitions_direct _ _) fun sockfd => ?_
  split
  · unfold sendOver
    refine transitions_sameSettings_bind (Prog.Transitions.modify fun _ => rfl) fun _ => ?_
    refine transitions_sameSettings_bind (transitions_direct _ _) fun connected => ?_
    dsimp only
    split
    · exact transitions_sameSettings_bind (writeFrame_sameSettings o sockfd r) (closed sockfd)
    · exact transitions_sameSettings_bind (Prog.Transitions.modify fun _ => rfl) fun _ =>
        transitions_sameSettings_bind (transitions_pure _) (closed sockfd)
  · exact transitions_pure _

end IoMonitor
