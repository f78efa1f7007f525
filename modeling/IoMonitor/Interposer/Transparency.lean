import IoMonitor.Interposer.Wrapper
import IoMonitor.Monitor.Accounting

/-!
Is a wrapper transparent?

A wrapper returns what the original returned, but no code saves `errno` around
the hook and `record()`. `wrapperCalls` lists the calls those make, and a wrapper
is transparent iff the last of them that fails, if any does, leaves `errno` at
the original's value (`transparent_iff`).
-/

namespace IoMonitor

open CString

/-! ### `errno` over a list of calls -/

def errnoAfter (e : Int) : List Answer → Int
  | [] => e
  | .value _ :: rest => errnoAfter e rest
  | .failed e' :: rest => errnoAfter e' rest

/-- The error number of the last call that fails. -/
def lastFailure : List Answer → Option Int
  | [] => none
  | .value _ :: rest => lastFailure rest
  | .failed e :: rest => some ((lastFailure rest).getD e)

theorem errnoAfter_eq : ∀ (e : Int) (calls : List Answer),
    errnoAfter e calls = (lastFailure calls).getD e
  | _, [] => rfl
  | e, .value _ :: rest => errnoAfter_eq e rest
  | _, .failed e' :: rest => errnoAfter_eq e' rest

theorem errnoAfter_append : ∀ (e : Int) (xs ys : List Answer),
    errnoAfter e (xs ++ ys) = errnoAfter (errnoAfter e xs) ys
  | _, [], _ => rfl
  | e, .value _ :: rest, ys => errnoAfter_append e rest ys
  | _, .failed e' :: rest, ys => errnoAfter_append e' rest ys

@[simp] theorem after_errno (w : World) (a : Answer) :
    (w.after a).errno = errnoAfter w.errno [a] := by
  cases a <;> rfl

/-- The program returns after these calls; `none` if it does not return. -/
def Makes {α : Type} (p : Prog World α) (w : World) : Option (List Answer) → Prop
  | some calls => ∃ a w', p w = .returned a w' ∧ w'.errno = errnoAfter w.errno calls
  | none => ∀ a w', p w ≠ .returned a w'

theorem Makes.seq {α β : Type} {p : Prog World α} {f : α → Prog World β} {w w' : World} {a : α}
    {calls : List Answer} {later : Option (List Answer)} (first : p w = .returned a w')
    (errno : w'.errno = errnoAfter w.errno calls) (rest : Makes (f a) w' later) :
    Makes (p >>= f) w (later.map (calls ++ ·)) := by
  have joined := Prog.bind_of_returned (f := f) first
  cases later with
  | none =>
      intro b v h
      exact rest b v (joined.symm.trans h)
  | some later =>
      obtain ⟨b, v, second, errno'⟩ := rest
      exact ⟨b, v, joined.trans second, by rw [errno', errno, errnoAfter_append]⟩

theorem Makes.stuck {α β : Type} {p : Prog World α} {f : α → Prog World β} {w : World}
    (h : Makes p w none) : Makes (p >>= f) w none := by
  intro b v returned
  obtain ⟨a, w', first, -⟩ := Prog.bind_returned_iff.mp returned
  exact h a w' first

theorem Makes.of_eq {α : Type} {p p' : Prog World α} {w w' : World} {calls : Option (List Answer)}
    (same : p w = p' w') (errno : w.errno = w'.errno) (h : Makes p' w' calls) :
    Makes p w calls := by
  cases calls with
  | none => exact fun a v returned => h a v (same.symm.trans returned)
  | some calls =>
      obtain ⟨a, v, returned, errno'⟩ := h
      exact ⟨a, v, same.trans returned, by rw [errno', errno]⟩

/-- A part that makes no call. -/
theorem Makes.silent {α β : Type} {p : Prog World α} {f : α → Prog World β} {w w' : World} {a : α}
    {calls : Option (List Answer)} (first : p w = .returned a w') (errno : w.errno = w'.errno)
    (rest : Makes (f a) w' calls) : Makes (p >>= f) w calls :=
  Makes.of_eq (Prog.bind_of_returned first) errno rest

theorem Makes.andThen {α β : Type} {p : Prog World α} {f : α → Prog World β} {w w' : World} {a : α}
    {calls later : List Answer} (first : p w = .returned a w')
    (errno : w'.errno = errnoAfter w.errno calls) (rest : Makes (f a) w' (some later)) :
    Makes (p >>= f) w (some (calls ++ later)) :=
  Makes.seq first errno rest

/-- A part that is one call. -/
theorem Makes.call {α β : Type} {p : Prog World α} {f : α → Prog World β} {w : World} {x : α}
    {a : Answer} {calls : List Answer} (first : p w = .returned x (w.after a))
    (rest : Makes (f x) (w.after a) (some calls)) : Makes (p >>= f) w (some (a :: calls)) :=
  Makes.andThen first (after_errno w a) rest

/-! ### The calls of the send routines -/

/-- Of the `msgsnd` loop. -/
def tryCalls (o : Outcomes) : Nat → Nat → List Answer
  | 0, _ => []
  | tries + 1, retries =>
      match o.msgsnd retries with
      | .ok => [.value 0]
      | .failed e =>
          .failed e ::
            if e = EAGAIN then (o.usleep retries).answer :: tryCalls o tries (retries + 1) else []

def queueCalls (m : Monitor) (o : Outcomes) : List Answer :=
  (if m.messageQueueKey = MQ_KEY_NONE ∧ m.messageQueuePath.isSome then
      o.ftok :: if o.ftok.ret ≠ -1 then [o.msgget] else []
    else []) ++
    if queueId m o = MQ_KEY_NONE then [] else tryCalls o 5 0

/-- After `connect`, up to `close`. -/
def frameCalls (o : Outcomes) : List Answer :=
  [o.setNoDelay.answer, o.setSendBuffer.answer, o.writeHeader] ++
    if o.writeHeader.ret = 10 then [o.writeRecord] else []

/-- After `socket`. -/
def overCalls (o : Outcomes) : List Answer :=
  o.connect.answer ::
    ((if o.connect.answer.ret = 0 then frameCalls o else []) ++ [o.close.answer])

theorem msgsndLoop_errno (o : Outcomes) (r : MonitorRecord) : ∀ (tries retries : Nat) (w : World),
    (msgsndLoop o r tries retries w).2.errno = errnoAfter w.errno (tryCalls o tries retries)
  | 0, _, _ => rfl
  | tries + 1, retries, w => by
      cases sent : o.msgsnd retries with
      | ok => simp [msgsndLoop, tryCalls, sent, World.deliver, errnoAfter]
      | failed e =>
          by_cases again : e = EAGAIN
          · simp only [msgsndLoop, tryCalls, sent, again, if_true]
            rw [msgsndLoop_errno o r tries (retries + 1), World.withMonitor]
            cases (o.usleep retries).answer <;> rfl
          · simp [msgsndLoop, tryCalls, sent, again]

theorem sendMsgQueue_errno (o : Outcomes) (r : MonitorRecord) (w : World) :
    (sendMsgQueue o r w).2.errno = errnoAfter w.errno (queueCalls w.monitor o) := by
  have acquired : (acquireQueue o w).errno = errnoAfter w.errno
      (if w.monitor.messageQueueKey = MQ_KEY_NONE ∧ w.monitor.messageQueuePath.isSome then
        o.ftok :: if o.ftok.ret ≠ -1 then [o.msgget] else []
      else []) := by
    unfold acquireQueue
    split
    · by_cases found : o.ftok.ret = -1
      · simp [found, World.withMonitor]
      · simp only [found, World.withMonitor, ne_eq, not_false_eq_true, if_true, after_errno]
        exact (errnoAfter_append w.errno [o.ftok] [o.msgget]).symm
    · rfl
  unfold sendMsgQueue queueCalls
  dsimp only
  rw [(acquireQueue_id o w).1, errnoAfter_append, ← acquired]
  split
  · rfl
  · exact msgsndLoop_errno o r 5 0 _

theorem writeFrame_makes (o : Outcomes) (sockfd : Int) (r : MonitorRecord) (w : World) :
    Makes (writeFrame .direct o sockfd r) w (some (frameCalls o)) := by
  unfold writeFrame frameCalls
  refine Makes.call rfl (Makes.call rfl (Makes.call rfl ?_))
  split
  · refine Makes.call rfl ?_
    split
    · exact ⟨_, _, rfl, rfl⟩
    · exact ⟨_, _, rfl, rfl⟩
  · exact ⟨_, _, rfl, rfl⟩

theorem sendOver_makes (o : Outcomes) (sockfd : Int) (r : MonitorRecord) (w : World) :
    Makes (sendOver .direct o sockfd r) w (some (overCalls o)) := by
  have closing : ∀ (rc : Int) (v : World), Makes (do
      let _ ← LibraryCalls.direct (.close sockfd) o.close.answer
      Prog.modify (·.withMonitor fun m => { m with socketFd := FD_NONE })
      pure rc) v (some [o.close.answer]) := fun rc v => Makes.call rfl ⟨_, _, rfl, rfl⟩
  unfold sendOver overCalls
  refine Makes.silent rfl rfl (Makes.call rfl ?_)
  split
  · obtain ⟨rc, v, frame, errno⟩ := writeFrame_makes o sockfd r
      ((w.withMonitor fun m => { m with socketFd := sockfd }).after o.connect.answer)
    exact Makes.andThen frame errno (closing rc v)
  · exact Makes.silent rfl rfl (Makes.silent rfl rfl (closing (-1) _))

/-! ### The calls of a `record()` -/

/-- The calls of `record()` at place `q`, from monitor state `m`. Over TCP the
wrapper of `socket` records that call first. -/
def recordCalls (env : Env) (n : Nat) (q : List Nat) (m : Monitor) (c : RecordCall) :
    Option (List Answer) :=
  let o := env.outcomes q
  match recordFilters c o.time m with
  | .crashed => none
  | .ignored _ => some []
  | .admitted m =>
      if (buildRecord m c o.time o.getpid).isNone then none
      else if m.messageQueuePath.isSome then some (queueCalls m o)
      else
        match n with
        | 0 => none
        | n + 1 =>
            let nested := SocketCall.record env (q ++ [0]) o.socket .socket
            (recordCalls env n (q ++ [0] ++ [1]) m nested).map fun calls =>
              o.socket :: (calls ++ if 0 < o.socket.ret then overCalls o else [])

theorem dispatchRecord_makes {lib : LibraryCalls} {o : Outcomes} {who : Caller} {r : MonitorRecord}
    {w : World} {calls : Option (List Answer)}
    (h : Makes (sendRecord lib o r) { w with attempts := w.attempts ++ [⟨who, r⟩] } calls) :
    Makes (dispatchRecord lib o who r) w calls := by
  unfold dispatchRecord
  cases calls with
  | none => exact Makes.silent rfl rfl h.stuck
  | some calls =>
      obtain ⟨rc, v, sent, errno⟩ := h
      have counts : Makes (Prog.modify (·.withMonitor (account rc))) v (some []) :=
        ⟨(), _, rfl, rfl⟩
      have counted := Makes.andThen (f := fun rc => Prog.modify (·.withMonitor (account rc)))
        sent errno counts
      rw [List.append_nil] at counted
      exact Makes.silent rfl rfl counted

/-- The socket routine, given what the record of its own `socket` call makes. -/
theorem sendTcpSocket_makes {env : Env} {n : Nat} {q : List Nat} {o : Outcomes} {r : MonitorRecord}
    {w : World} {nested : Option (List Answer)}
    (h : Makes (recordAt env n (q ++ [0] ++ [1]) .library
      (SocketCall.record env (q ++ [0]) o.socket .socket)) (w.after o.socket) nested) :
    Makes (sendTcpSocket (libraryCalls env (n + 1) q) o r) w (nested.map fun calls =>
      o.socket :: (calls ++ if 0 < o.socket.ret then overCalls o else [])) := by
  have socket := libraryCalls_succ env n q .socket o.socket w
  unfold sendTcpSocket
  cases nested with
  | none =>
      refine Makes.stuck fun a v returned => ?_
      exact h.stuck a v (socket.symm.trans returned)
  | some calls =>
      obtain ⟨u, v, recorded, errno⟩ := h
      have returned : libraryCalls env (n + 1) q .socket o.socket w = .returned o.socket.ret v := by
        rw [socket]
        exact Prog.bind_of_returned recorded
      have errno' : v.errno = errnoAfter w.errno (o.socket :: calls) := by
        rw [errno, after_errno, ← errnoAfter_append]
        rfl
      have rest : Makes (if o.socket.ret > 0 then
          sendOver (libraryCalls env (n + 1) q) o o.socket.ret r else pure o.garbage) v
          (some (if 0 < o.socket.ret then overCalls o else [])) := by
        by_cases opened : 0 < o.socket.ret
        · rw [if_pos opened, if_pos opened]
          have set : o.socket.ret ≠ FD_NONE := by unfold FD_NONE; omega
          exact Makes.of_eq (sendOver_own env n q o r v set) rfl (sendOver_makes o _ r v)
        · rw [if_neg opened, if_neg opened]
          exact ⟨_, _, rfl, rfl⟩
      exact Makes.andThen returned errno' rest

theorem record_makes (env : Env) : ∀ (n : Nat) (q : List Nat) (who : Caller) (c : RecordCall)
    (w : World), Makes (recordAt env n q who c) w (recordCalls env n q w.monitor c)
  | n, q, who, c, w => by
      unfold recordCalls
      dsimp only
      cases verdict : recordFilters c (env.outcomes q).time w.monitor with
      | crashed =>
          intro a v h
          rw [recordAt, record, verdict] at h
          cases h
      | ignored m => exact ⟨(), _, record_ignored verdict, rfl⟩
      | admitted m =>
          dsimp only
          cases built : buildRecord m c (env.outcomes q).time (env.outcomes q).getpid with
          | none =>
              intro a v h
              simp only [recordAt, record, verdict, built] at h
              cases h
          | some r =>
              simp only [Option.isNone_some, Bool.false_eq_true, if_false]
              refine Makes.of_eq (record_admitted verdict built) rfl (dispatchRecord_makes ?_)
              by_cases path : m.messageQueuePath.isSome
              · rw [if_pos path]
                exact ⟨_, _, sendRecord_queue _ _ r path, sendMsgQueue_errno _ _ _⟩
              · rw [if_neg path]
                refine Makes.of_eq (sendRecord_tcp _ _ r path) rfl ?_
                cases n with
                | zero => exact fun a v returned => by cases returned
                | succ n =>
                    refine sendTcpSocket_makes ?_
                    have nested := record_makes env n (q ++ [0] ++ [1]) .library
                      (SocketCall.record env (q ++ [0]) (env.outcomes q).socket .socket)
                      (({ w with monitor := m, attempts := w.attempts ++ [⟨who, r⟩] } : World).after
                        (env.outcomes q).socket)
                    rwa [after_monitor] at nested

/-! ### The calls of a wrapper -/

/-- The calls of a list of actions. Each record starts from where the one before
it left the monitor. -/
def actionCalls (env : Env) (n : Nat) : List Action → World → Option (List Answer)
  | [], _ => some []
  | .answered a :: rest, w => (actionCalls env n rest (w.after a)).map ([a] ++ ·)
  | .crash :: _, _ => none
  | .emit k c :: rest, w =>
      (recordCalls env n [k] w.monitor c).bind fun calls =>
        match recordAt env n [k] .application c w with
        | .returned _ w' => (actionCalls env n rest w').map (calls ++ ·)
        | _ => none

/-- The calls a wrapper makes besides the original. -/
def wrapperCalls (env : Env) (n : Nat) (row : Row) (inv : Invocation) (w : World) :
    Option (List Answer) :=
  actionCalls env n (row.actions inv) { w with errno := inv.errno }

theorem runActions_makes (env : Env) (n : Nat) : ∀ (actions : List Action) (w : World),
    Makes (runActions (fun k => recordAt env n [k] .application) actions) w
      (actionCalls env n actions w)
  | [], w => ⟨(), w, rfl, rfl⟩
  | .answered a :: rest, w =>
      Makes.seq rfl (after_errno w a) (runActions_makes env n rest (w.after a))
  | .crash :: _, w => fun a v h => by cases h
  | .emit k c :: rest, w => by
      have recorded := record_makes env n [k] .application c w
      rw [actionCalls]
      cases made : recordCalls env n [k] w.monitor c with
      | none =>
          rw [made] at recorded
          exact recorded.stuck
      | some calls =>
          rw [made] at recorded
          obtain ⟨u, v, returned, errno⟩ := recorded
          rw [Option.bind_some, returned]
          exact Makes.seq returned errno (runActions_makes env n rest v)

/-! ### Transparency -/

/-- The wrapper returns, with the result and the `errno` of the original. -/
def Transparent (env : Env) (row : Row) (inv : Invocation) (w : World) : Prop :=
  ∃ n w', handleCall env n row inv w = .returned inv.result w' ∧ w'.errno = inv.errno

theorem transparent_iff (env : Env) (row : Row) (plain : row.isExec = false) (inv : Invocation)
    (w : World) :
    Transparent env row inv w ↔
      ∃ n calls, wrapperCalls env n row inv w = some calls ∧
        (lastFailure calls = none ∨ lastFailure calls = some inv.errno) := by
  refine exists_congr fun n => ?_
  have made := runActions_makes env n (row.actions inv) { w with errno := inv.errno }
  rw [handleCall_plain env n inv w plain, wrapperCalls]
  cases listed : actionCalls env n (row.actions inv) { w with errno := inv.errno } with
  | none =>
      rw [listed] at made
      simp only [reduceCtorEq, false_and, exists_false, iff_false]
      rintro ⟨w', returned, -⟩
      exact made.stuck _ _ returned
  | some calls =>
      rw [listed] at made
      obtain ⟨u, v, returned, errno⟩ := made
      rw [Prog.bind_of_returned returned, Prog.pure_apply]
      simp only [Exit.returned.injEq, true_and, exists_eq_left', Option.some.injEq]
      rw [errno, errnoAfter_eq]
      cases lastFailure calls <;> simp

/-! A successful `write` of five bytes, monitored over the queue. -/

def fiveBytes : Invocation := { Invocation.zero with result := 5, fd := 3, count := 5 }

theorem transparent_iff_fiveBytes :
    Transparent (Env.always .success) writeRow fiveBytes (startWorld (queueMonitor [.fileWrite])) :=
  (transparent_iff _ writeRow (by decide) _ _).mpr
    ⟨0, [.value 7, .value 3, .value 0], by rfl, .inl rfl⟩

/-- The queue is full at the first try. -/
def fullOnce : Outcomes :=
  { Outcomes.success with msgsnd := fun i => if i = 0 then .failed EAGAIN else .ok }

theorem full_queue_leaves_errno :
    ¬ Transparent (Env.always fullOnce) writeRow fiveBytes
      (startWorld (queueMonitor [.fileWrite])) := by
  rintro ⟨n, w', returned, errno⟩
  rw [handleCall_plain _ n _ _ (by decide)] at returned
  have made := runActions_makes (Env.always fullOnce) n (writeRow.actions fiveBytes)
    { startWorld (queueMonitor [.fileWrite]) with errno := fiveBytes.errno }
  have listed : actionCalls (Env.always fullOnce) n (writeRow.actions fiveBytes)
      { startWorld (queueMonitor [.fileWrite]) with errno := fiveBytes.errno } =
      some [.value 7, .value 3, .failed EAGAIN, .value 0, .value 0] := by
    cases n <;> rfl
  rw [listed] at made
  obtain ⟨u, v, ran, after⟩ := made
  rw [Prog.bind_of_returned ran] at returned
  cases returned
  rw [after] at errno
  exact absurd errno (by decide)

end IoMonitor
