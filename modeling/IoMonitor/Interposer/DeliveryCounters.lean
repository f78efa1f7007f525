import IoMonitor.Interposer.Nesting

/-!
The delivery counters, with the library's own calls recorded.

Over TCP the `socket()` that is called to send a record has a wrapper, and its record may be
sent first, and so on. Each record sent is counted once on the way back, however deep it
lies: the counters say what was delivered and what was lost iff the nesting ends, every send
routine gets to a `return` or is lucky in its indeterminate value, and the numbers fit an
`int` (`accounting_iff`).
-/

namespace IoMonitor

open CString

/-! ### What is asked, and when it holds -/

section

variable (env : Env)

/-- If the call sends a record, the send routine returns, with 0 iff the transport took the
record; and so do those inside it. -/
def SendsRight (n : Nat) (q : List Nat) (who : Caller) (c : RecordCall) (w : World)
    (inside : World → Prop) : Prop :=
  ∀ m r, handed env q w.monitor c = some (m, r) →
    (∃ rc w', sendRecord (libraryCalls env n q) (env.outcomes q) r (w.handing m who r) =
        .returned rc w' ∧ (rc = 0 ↔ HandedOver m (env.outcomes q))) ∧
      (¬ m.messageQueuePath.isSome → inside ((w.handing m who r).after (env.outcomes q).socket))

/-- For the call at place `q`, with room for `n` more calls inside. -/
def RightAt : Nat → List Nat → Caller → RecordCall → World → Prop
  | 0, q, who, c, w => SendsRight env 0 q who c w fun _ => True
  | n + 1, q, who, c, w =>
      SendsRight env (n + 1) q who c w (RightAt n (q ++ [0] ++ [1]) .library (socketCall env q))

/-- If the call sends a record, the routine gets to a `return`, or its indeterminate value is
not 0; and so do those inside it. -/
def SendsDecided (q : List Nat) (c : RecordCall) (m : Monitor) (inside : Monitor → Prop) : Prop :=
  ∀ m' r, handed env q m c = some (m', r) →
    (Returns m' (env.outcomes q) ∨ (env.outcomes q).garbage ≠ 0) ∧
      (¬ m'.messageQueuePath.isSome → inside m')

/-- For the call at place `q`; the nesting comes to an end within `n` more calls. -/
def DecidedAt : Nat → List Nat → RecordCall → Monitor → Prop
  | 0, q, c, m => SendsDecided env q c m fun _ => False
  | n + 1, q, c, m => SendsDecided env q c m (DecidedAt n (q ++ [0] ++ [1]) (socketCall env q))

/-- How many records the call delivers and loses, with those inside. -/
def sendCounts (q : List Nat) (c : RecordCall) (m : Monitor) (inside : Monitor → Nat × Nat) :
    Nat × Nat :=
  match handed env q m c with
  | none => (0, 0)
  | some (m', _) =>
      (if m'.messageQueuePath.isSome then (0, 0) else inside m') + oneSent m' (env.outcomes q)

def countsAt : Nat → List Nat → RecordCall → Monitor → Nat × Nat
  | 0, q, c, m => sendCounts env q c m fun _ => (0, 0)
  | n + 1, q, c, m => sendCounts env q c m (countsAt n (q ++ [0] ++ [1]) (socketCall env q))

end

section

variable {env : Env}

/-- A call that counts what it sent, or that cannot be read. -/
def Settles (env : Env) (n : Nat) (q : List Nat) (who : Caller) (c : RecordCall) (w : World) :
    Prop :=
  (∃ w', recordAt env n q who c w = .returned () w' ∧
      Counted w w' (countsAt env n q c w.monitor).1 (countsAt env n q c w.monitor).2) ∨
    (¬ c.Defined ∧ handed env q w.monitor c = none ∧ ∃ v, recordAt env n q who c w = .crashed v)

theorem countsAt_held {q : List Nat} {c : RecordCall} {m : Monitor}
    (h : handed env q m c = none) (n : Nat) : countsAt env n q c m = (0, 0) := by
  cases n <;> rw [countsAt, sendCounts, h]

theorem rightAt_held {q : List Nat} {who : Caller} {c : RecordCall} {w : World}
    (h : handed env q w.monitor c = none) (n : Nat) : RightAt env n q who c w := by
  have nothing : ∀ inside, SendsRight env n q who c w inside := fun inside m r outer =>
    nomatch h.symm.trans outer
  cases n with
  | zero => exact nothing _
  | succ n => exact nothing _

theorem settles_held {q : List Nat} {c : RecordCall} {w : World}
    (h : handed env q w.monitor c = none) (n : Nat) (who : Caller) : Settles env n q who c w := by
  rcases recordAt_held h n who with ended | ⟨undefined_, crashed⟩
  · left
    rwa [countsAt_held h]
  · exact .inr ⟨undefined_, h, crashed⟩

/-- A record sent is counted behind those inside it. -/
theorem recordAt_sent {n : Nat} {q : List Nat} {who : Caller} {c : RecordCall} {w v w' : World}
    {m : Monitor} {r : MonitorRecord} {rc : Int} {sent lost : Nat}
    (outer : handed env q w.monitor c = some (m, r))
    (returned : sendRecord (libraryCalls env n q) (env.outcomes q) r (w.handing m who r) =
      .returned rc w')
    (spec : Sent m (env.outcomes q) r v rc w') (nested : Counted (w.handing m who r) v sent lost)
    (decided : Returns m (env.outcomes q) ∨ (env.outcomes q).garbage ≠ 0) :
    ∃ t, recordAt env n q who c w = .returned () t ∧
      Counted w t (sent + (oneSent m (env.outcomes q)).1)
        (lost + (oneSent m (env.outcomes q)).2) := by
  refine ⟨w'.withMonitor (account rc), ?_,
    spec.counted (handed_some outer) nested (spec.right decided)⟩
  rw [recordAt_handed outer, dispatchRecord_eq, Prog.bind_of_returned returned]
  rfl

/-- Over the queue nothing is inside. -/
theorem queue_settles {q : List Nat} {c : RecordCall} {w : World} {m : Monitor}
    {r : MonitorRecord} (outer : handed env q w.monitor c = some (m, r))
    (path : m.messageQueuePath.isSome)
    (decided : Returns m (env.outcomes q) ∨ (env.outcomes q).garbage ≠ 0) (n : Nat) (who : Caller) :
    RightAt env n q who c w ∧ Settles env n q who c w := by
  have spec := sendMsgQueue_sent (env.outcomes q) r (w := w.handing m who r) path
  have returned := sendRecord_queue (libraryCalls env n q) (env.outcomes q) r
    (w := w.handing m who r) path
  have right : ∀ inside, SendsRight env n q who c w inside := by
    intro inside m' r' h
    cases outer.symm.trans h
    exact ⟨⟨_, _, returned, spec.right decided⟩, fun noPath => absurd path noPath⟩
  have counted := recordAt_sent outer returned spec (.refl _) decided
  have counts : ∀ inside, sendCounts env q c w.monitor inside =
      (0, 0) + oneSent m (env.outcomes q) := by
    intro inside
    rw [sendCounts, outer]
    dsimp only
    rw [if_pos path]
  constructor
  · cases n with
    | zero => exact right _
    | succ n => exact right _
  · left
    cases n with
    | zero => rwa [countsAt, counts]
    | succ n => rwa [countsAt, counts]

/-- Over TCP the record of the `socket()` comes first. -/
theorem socket_settles {n : Nat} {q : List Nat} {c : RecordCall} {w : World} {m : Monitor}
    {r : MonitorRecord} {who : Caller} (outer : handed env q w.monitor c = some (m, r))
    (noPath : ¬ m.messageQueuePath.isSome)
    (decided : Returns m (env.outcomes q) ∨ (env.outcomes q).garbage ≠ 0)
    (inside : RightAt env n (q ++ [0] ++ [1]) .library (socketCall env q)
        ((w.handing m who r).after (env.outcomes q).socket) ∧
      Settles env n (q ++ [0] ++ [1]) .library (socketCall env q)
        ((w.handing m who r).after (env.outcomes q).socket)) :
    RightAt env (n + 1) q who c w ∧ Settles env (n + 1) q who c w := by
  obtain ⟨right, settled⟩ := inside
  obtain ⟨v, first, counted⟩ := settled.resolve_right fun h => h.1 (socketCall_defined env q)
  obtain ⟨rc, w', second, spec⟩ :=
    overSocket_sent (env.outcomes q) r (m := m) (by simpa using noPath) v
  have returned : sendRecord (libraryCalls env (n + 1) q) (env.outcomes q) r
      (w.handing m who r) = .returned rc w' := by
    rw [sendRecord_tcp _ _ _ noPath, sendTcpSocket_nested, Prog.bind_of_returned first]
    exact second
  constructor
  · intro m' r' h
    cases outer.symm.trans h
    exact ⟨⟨_, _, returned, spec.right decided⟩, fun _ => right⟩
  · left
    rw [countsAt, sendCounts, outer]
    dsimp only
    rw [if_neg noPath]
    rw [after_monitor] at counted
    have nested : Counted (w.handing m who r) v _ _ :=
      ⟨counted.delivered.trans (by rw [after_delivered]),
        counted.attempts.trans (by rw [after_attempts]),
        counted.records.trans (by rw [after_monitor]),
        counted.failed.trans (by rw [after_monitor])⟩
    exact recordAt_sent outer returned spec nested decided

/-- **One call.** Where every send is decided and the nesting ends, every send is right and
counted. -/
theorem decidedAt_settles : ∀ {n : Nat} {q : List Nat} {c : RecordCall} {w : World} (who : Caller),
    DecidedAt env n q c w.monitor → RightAt env n q who c w ∧ Settles env n q who c w := by
  intro n
  induction n with
  | zero =>
      intro q c w who decided
      cases outer : handed env q w.monitor c with
      | none => exact ⟨rightAt_held outer 0, settles_held outer 0 who⟩
      | some handing =>
          obtain ⟨m, r⟩ := handing
          obtain ⟨returns, ends⟩ := decided m r outer
          have path : m.messageQueuePath.isSome := by_contra fun noPath => ends noPath
          exact queue_settles outer path returns 0 who
  | succ n ih =>
      intro q c w who decided
      cases outer : handed env q w.monitor c with
      | none => exact ⟨rightAt_held outer (n + 1), settles_held outer (n + 1) who⟩
      | some handing =>
          obtain ⟨m, r⟩ := handing
          obtain ⟨returns, inside⟩ := decided m r outer
          by_cases path : m.messageQueuePath.isSome
          · exact queue_settles outer path returns (n + 1) who
          · refine socket_settles outer path returns (ih .library ?_)
            rw [after_monitor]
            exact inside path

/-- And only there. -/
theorem decidedAt_of_right : ∀ {n : Nat} {q : List Nat} {c : RecordCall} {w : World} {who : Caller},
    RightAt env n q who c w → DecidedAt env n q c w.monitor := by
  intro n
  induction n with
  | zero =>
      intro q c w who right m r outer
      obtain ⟨⟨rc, w', returned, zero⟩, -⟩ := right m r outer
      by_cases path : m.messageQueuePath.isSome
      · rw [sendRecord_queue _ _ _ (w := w.handing m who r) path] at returned
        cases returned
        have spec := sendMsgQueue_sent (env.outcomes q) r (w := w.handing m who r) path
        exact ⟨spec.decided zero, fun noPath => noPath path⟩
      · rw [sendRecord_tcp _ _ _ (w := w.handing m who r) path] at returned
        cases returned
  | succ n ih =>
      intro q c w who right m r outer
      obtain ⟨⟨rc, w', returned, zero⟩, inside⟩ := right m r outer
      by_cases path : m.messageQueuePath.isSome
      · rw [sendRecord_queue _ _ _ (w := w.handing m who r) path] at returned
        cases returned
        have spec := sendMsgQueue_sent (env.outcomes q) r (w := w.handing m who r) path
        exact ⟨spec.decided zero, fun noPath => absurd path noPath⟩
      · rw [sendRecord_tcp _ _ _ (w := w.handing m who r) path, sendTcpSocket_nested] at returned
        obtain ⟨_, v, -, second⟩ := Prog.bind_returned_iff.mp returned
        obtain ⟨rc', v', tail, spec⟩ :=
          overSocket_sent (env.outcomes q) r (m := m) (by simpa using path) v
        cases second.symm.trans tail
        refine ⟨spec.decided zero, fun noPath => ?_⟩
        have later := ih (inside noPath)
        rwa [after_monitor] at later

end

/-! ### Runs -/

/-- Since `base`, each record delivered is counted as sent, and each other attempt as failed. -/
def Accounted (base w : World) : Prop :=
  w.monitor.ipcRecords.toInt - base.monitor.ipcRecords.toInt =
      w.delivered.length - base.delivered.length ∧
    w.monitor.failedIpcSends.toInt - base.monitor.failedIpcSends.toInt =
      (w.attempts.length - base.attempts.length) - (w.delivered.length - base.delivered.length)

/-- Both counters have room for as many more. -/
def Monitor.HasRoom (m : Monitor) (counts : Nat × Nat) : Prop :=
  m.ipcRecords.toInt + counts.1 < 2 ^ 31 ∧ m.failedIpcSends.toInt + counts.2 < 2 ^ 31

/-- An `int` counts on as long as it has room. -/
theorem toInt_add_natCast (x : BitVec 32) (n : Nat) :
    (x + n).toInt = x.toInt + n ↔ x.toInt + n < 2 ^ 31 := by
  have low := BitVec.le_toInt x
  have sum : (x + n).toInt = (x.toInt + n).bmod (2 ^ 32) := by
    rw [BitVec.toInt_add, BitVec.natCast_eq_ofNat, BitVec.toInt_ofNat', Int.add_bmod_bmod]
  constructor
  · intro same
    have high := BitVec.toInt_lt (x := x + (n : BitVec 32))
    omega
  · intro room
    rw [sum]
    exact Int.bmod_eq_of_le_mul_two (by omega) (by omega)

theorem Counted.accounted_iff {base w w' : World} {sent lost : Nat} (h : Counted w w' sent lost)
    (before : Accounted base w) :
    Accounted base w' ↔ w.monitor.HasRoom (sent, lost) := by
  obtain ⟨records, failed⟩ := before
  have delivered := h.delivered
  have attempts := h.attempts
  rw [Accounted, h.records, h.failed, Monitor.HasRoom, ← toInt_add_natCast, ← toInt_add_natCast]
  dsimp only
  omega

/-- Every send of the call is decided, the nesting ends, and the counters have room. -/
def Settled (n : Nat) (w : World) (c : RecordCall × Env) : Prop :=
  DecidedAt c.2 n [] c.1 w.monitor ∧ w.monitor.HasRoom (countsAt c.2 n [] c.1 w.monitor)

theorem settled_iff (n : Nat) (who : Caller) (base w : World) (c : RecordCall × Env)
    (before : Accounted base w) :
    (RightAt c.2 n [] who c.1 w ∧ ∀ w', recordIn n who w c = some w' → Accounted base w') ↔
      Settled n w c := by
  constructor
  · rintro ⟨right, accounted⟩
    have decided := decidedAt_of_right right
    refine ⟨decided, ?_⟩
    obtain ⟨w', returned, counted⟩ | ⟨-, held, -⟩ := (decidedAt_settles who decided).2
    · exact (counted.accounted_iff before).mp (accounted w' (by rw [recordIn, returned]))
    · have records := BitVec.toInt_lt (x := w.monitor.ipcRecords)
      have failed := BitVec.toInt_lt (x := w.monitor.failedIpcSends)
      rw [countsAt_held held, Monitor.HasRoom]
      dsimp only
      omega
  · rintro ⟨decided, room⟩
    obtain ⟨right, settles⟩ := decidedAt_settles who decided
    refine ⟨right, fun w' step => ?_⟩
    obtain ⟨t, returned, counted⟩ | ⟨-, -, v, crashed⟩ := settles
    · rw [recordIn, returned] at step
      cases step
      exact (counted.accounted_iff before).mpr room
    · rw [recordIn, crashed] at step
      cases step

/-- **Delivery accounting.** In a run of `record()` calls every send routine returns, with 0
exactly for the records the transport took, and the counters say so throughout, iff every
send attempt reaches a `return` or is lucky in its indeterminate value, the nesting of the
library's own records comes to an end, and the numbers fit an `int`. -/
theorem accounting_iff (n : Nat) (who : Caller) (w : World) (calls : List (RecordCall × Env)) :
    Machine.AllSteps (recordIn n who) (fun w c => RightAt c.2 n [] who c.1 w) w calls ∧
        Machine.Always (recordIn n who) (Accounted w) w calls ↔
      Machine.AllSteps (recordIn n who) (Settled n) w calls :=
  Machine.allSteps_and_always_iff (settled_iff n who w) calls ⟨by simp, by simp⟩

/-! A full queue: five tries turned away, and whatever was in the register. -/

def fullQueue : Outcomes := { Outcomes.success with msgsnd := fun _ => .failed EAGAIN }

/-- The record is lost and counted as sent. -/
theorem full_queue_counted_sent :
    ¬ (Machine.AllSteps (recordIn 1 .application)
          (fun w c => RightAt c.2 1 [] .application c.1 w)
          (startWorld (queueMonitor [.fileRead])) [(readHello, .always fullQueue)] ∧
        Machine.Always (recordIn 1 .application)
          (Accounted (startWorld (queueMonitor [.fileRead])))
          (startWorld (queueMonitor [.fileRead])) [(readHello, .always fullQueue)]) := by
  rintro ⟨-, always⟩
  have counted : ∀ w ∈ recordIn 1 .application (startWorld (queueMonitor [.fileRead]))
      (readHello, .always fullQueue), w.monitor.ipcRecords = 1 ∧ w.delivered = [] := by decide
  have ran : (recordIn 1 .application (startWorld (queueMonitor [.fileRead]))
      (readHello, .always fullQueue)).isSome := by decide
  obtain ⟨w, step⟩ := Option.isSome_iff_exists.mp ran
  obtain ⟨one, none_delivered⟩ := counted w step
  have account := (always [(readHello, .always fullQueue)] List.prefix_rfl w
    (by rw [Machine.run_cons, step]; rfl)).1
  rw [one, none_delivered] at account
  exact absurd account (by decide)

end IoMonitor
