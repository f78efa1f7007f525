import IoMonitor.Monitor.Pipeline
import Mathlib.Algebra.Group.Prod

/-!
What a run of `record()` delivers over the queue, and what it counts.

`send_msg_queue` has no queue until `ftok` gives a key; the one `msgget` that
follows decides for the rest of the process. A record that gets to the queue is
tried up to five times, with a wait after each try that finds the queue full.
`delivery_law` says which of the records sent arrive, and that the four counters
of the process are those of the run.
-/

namespace IoMonitor

open CString Sieve

/-! ### The hold on the queue -/

/-- There is no key yet; or there is a queue; or there is a key and no queue. -/
inductive QueueHold where
  | seeking
  | opened
  | barred
  deriving DecidableEq, Repr

def Monitor.hold (m : Monitor) : QueueHold :=
  if m.messageQueueKey = MQ_KEY_NONE then .seeking
  else if m.messageQueueId = MQ_KEY_NONE then .barred
  else .opened

/-- The records that get to `msgsnd`. -/
def queueing : Step QueueHold Recorded := fun hold c =>
  match hold with
  | .seeking =>
      if c.2.ftok.ret = -1 then (.seeking, false)
      else if c.2.msgget.ret = -1 then (.barred, false)
      else (.opened, true)
  | .opened => (.opened, true)
  | .barred => (.barred, false)

/-- From the first record with a key on, all of them, if that one gets a queue. -/
def atQueue (sent : List Recorded) : List Recorded :=
  match sent.dropWhile fun c => c.2.ftok.ret = -1 with
  | [] => []
  | c :: later => if c.2.msgget.ret = -1 then [] else c :: later

theorem pass_queueing_opened (sent : List Recorded) : pass queueing .opened sent = sent := by
  induction sent with
  | nil => rfl
  | cons c sent ih => exact (pass_cons_pos (f := queueing) rfl sent).trans (congrArg _ ih)

theorem pass_queueing_barred (sent : List Recorded) : pass queueing .barred sent = [] := by
  induction sent with
  | nil => rfl
  | cons c sent ih => exact (pass_cons_neg (f := queueing) rfl sent).trans ih

theorem pass_queueing (sent : List Recorded) : pass queueing .seeking sent = atQueue sent := by
  induction sent with
  | nil => rfl
  | cons c sent ih =>
      unfold atQueue
      by_cases noKey : c.2.ftok.ret = -1
      · rw [List.dropWhile_cons_of_pos (by simpa using noKey)]
        have step : queueing .seeking c = (.seeking, false) := if_pos noKey
        exact (pass_cons_neg step sent).trans ih
      · rw [List.dropWhile_cons_of_neg (by simpa using noKey)]
        by_cases noQueue : c.2.msgget.ret = -1
        · have step : queueing .seeking c = (.barred, false) := by
            simp [queueing, noKey, noQueue]
          rw [pass_cons_neg step, pass_queueing_barred]
          simp [noQueue]
        · have step : queueing .seeking c = (.opened, true) := by
            simp [queueing, noKey, noQueue]
          rw [pass_cons_pos step, pass_queueing_opened]
          simp [noQueue]

/-- Without a key there is no queue. -/
def Monitor.KeyFirst (m : Monitor) : Prop :=
  m.messageQueueKey = MQ_KEY_NONE → m.messageQueueId = MQ_KEY_NONE

theorem acquireQueue_hold {w : World} (path : w.monitor.messageQueuePath.isSome)
    (keyFirst : w.monitor.KeyFirst) (c : Recorded) :
    (acquireQueue c.2 w).monitor.hold = (queueing w.monitor.hold c).1 ∧
      (acquireQueue c.2 w).monitor.KeyFirst ∧
      (queueId w.monitor c.2 ≠ MQ_KEY_NONE ↔ (queueing w.monitor.hold c).2 = true) := by
  unfold acquireQueue queueId Monitor.hold Monitor.KeyFirst
  by_cases key : w.monitor.messageQueueKey = MQ_KEY_NONE
  · have none_ := keyFirst key
    by_cases noKey : c.2.ftok.ret = -1
    · simp [key, path, noKey, none_, queueing, World.withMonitor, MQ_KEY_NONE]
    · by_cases noQueue : c.2.msgget.ret = -1 <;>
        simp [key, path, noKey, noQueue, queueing, World.withMonitor, MQ_KEY_NONE]
  · by_cases noQueue : w.monitor.messageQueueId = MQ_KEY_NONE <;>
      simp [key, noQueue, queueing]

/-! ### Tries and waits -/

/-- How many of the tries left find the queue full, before one that does not. -/
def turnedAway (o : Outcomes) : Nat → Nat → Nat
  | 0, _ => 0
  | tries + 1, retries =>
      if o.msgsnd retries = .failed EAGAIN then turnedAway o tries (retries + 1) + 1 else 0

/-- The retries of a record. -/
def Outcomes.retries (o : Outcomes) : Nat := turnedAway o 5 0

/-- The microseconds waited in `n` retries: 1024 for the first, and for each
other twice as many as for the one before. -/
def waited (n : Nat) : Nat := 1024 * (2 ^ n - 1)

/-- The counters of the retries. -/
def Monitor.waits (m : Monitor) : BitVec 32 × BitVec 32 := (m.ipcRetries, m.ipcRetryWaitLostTime)

theorem shiftLeft_natCast (retries : Nat) :
    512#32 <<< (retries + 1) = ((2 ^ retries * 1024 : Nat) : BitVec 32) := by
  apply BitVec.eq_of_toNat_eq
  have first : 512 <<< (retries + 1) = 2 ^ retries * 1024 := by
    rw [Nat.shiftLeft_eq, Nat.pow_succ]
    omega
  rw [BitVec.toNat_shiftLeft, BitVec.natCast_eq_ofNat, BitVec.toNat_ofNat, BitVec.toNat_ofNat,
    ← first]

/-- The `i`-th wait of a record is `2 ^ i` times 1024, so those from the
`retries`-th on are `2 ^ retries` times those from the first on. -/
theorem msgsndLoop_waits (o : Outcomes) (r : MonitorRecord) : ∀ (tries retries : Nat) (w : World),
    (msgsndLoop o r tries retries w).2.monitor.waits =
      (w.monitor.ipcRetries + (turnedAway o tries retries : Nat),
        w.monitor.ipcRetryWaitLostTime +
          (2 ^ retries * waited (turnedAway o tries retries) : Nat))
  | 0, _, w => by simp [msgsndLoop, turnedAway, waited, Monitor.waits]
  | tries + 1, retries, w => by
      cases sent : o.msgsnd retries with
      | ok => simp [msgsndLoop, turnedAway, sent, waited, World.deliver, Monitor.waits]
      | failed e =>
          by_cases again : e = EAGAIN
          · have ih := msgsndLoop_waits o r tries (retries + 1)
            have sum : 2 ^ retries * 1024 +
                2 ^ (retries + 1) * waited (turnedAway o tries (retries + 1)) =
                  2 ^ retries * waited (turnedAway o tries (retries + 1) + 1) := by
              have pos : 1 ≤ 2 ^ turnedAway o tries (retries + 1) := Nat.one_le_two_pow
              rw [Nat.pow_succ 2 retries, Nat.mul_assoc, ← Nat.mul_add]
              congr 1
              unfold waited
              rw [Nat.pow_succ]
              omega
            simp only [msgsndLoop, turnedAway, sent, again, if_true, ih, World.withMonitor,
              after_monitor, shiftLeft_natCast, ← sum, Nat.cast_add, Nat.cast_one]
            rw [add_assoc, add_assoc, add_comm 1]
          · simp [msgsndLoop, turnedAway, sent, again, waited, Monitor.waits]

/-- The loop leaves the hold on the queue alone. -/
theorem msgsndLoop_hold (o : Outcomes) (r : MonitorRecord) : ∀ (tries retries : Nat) (w : World),
    (msgsndLoop o r tries retries w).2.monitor.messageQueueKey = w.monitor.messageQueueKey ∧
      (msgsndLoop o r tries retries w).2.monitor.messageQueueId = w.monitor.messageQueueId
  | 0, _, _ => ⟨rfl, rfl⟩
  | tries + 1, retries, w => by
      cases sent : o.msgsnd retries with
      | ok => simp [msgsndLoop, sent, World.deliver]
      | failed e =>
          by_cases again : e = EAGAIN
          · obtain ⟨key, id⟩ := msgsndLoop_hold o r tries (retries + 1)
              (((w.after (.failed EAGAIN)).after (o.usleep retries).answer).withMonitor fun m =>
                { m with
                  ipcRetries := m.ipcRetries + 1
                  ipcRetryWaitLostTime := m.ipcRetryWaitLostTime + 512#32 <<< (retries + 1) })
            simp only [msgsndLoop, sent, again, if_true]
            exact ⟨key.trans (by simp [World.withMonitor]), id.trans (by simp [World.withMonitor])⟩
          · simp [msgsndLoop, sent, again]

/-! ### One record -/

/-- The queue takes the record within five tries. -/
def Outcomes.taken (o : Outcomes) : Bool := decisiveTry o 5 0 = some .ok

theorem handedOver_queue {m : Monitor} (path : m.messageQueuePath.isSome) (o : Outcomes) :
    HandedOver m o ↔ queueId m o ≠ MQ_KEY_NONE ∧ o.taken = true := by
  rw [HandedOver, if_pos path, Outcomes.taken, decide_eq_true_eq, decisiveTry_ok_iff]
  simp

/-- The retries and waits of a record that gets to the queue. -/
def queueWaits (o : Outcomes) : BitVec 32 × BitVec 32 := (o.retries, waited o.retries)

/-- What `send_msg_queue` does to the counters of the retries and to its hold on
the queue. -/
theorem sendMsgQueue_waits {w : World} (path : w.monitor.messageQueuePath.isSome)
    (keyFirst : w.monitor.KeyFirst) (c : Recorded) (r : MonitorRecord) :
    (sendMsgQueue c.2 r w).2.monitor.hold = (queueing w.monitor.hold c).1 ∧
      (sendMsgQueue c.2 r w).2.monitor.KeyFirst ∧
      (sendMsgQueue c.2 r w).2.monitor.waits =
        w.monitor.waits + (if (queueing w.monitor.hold c).2 then queueWaits c.2 else 0) := by
  obtain ⟨hold, kept, reaches⟩ := acquireQueue_hold path keyFirst c
  have id := (acquireQueue_id c.2 w).1
  have waits : (acquireQueue c.2 w).monitor.waits = w.monitor.waits := by
    unfold acquireQueue
    split
    · dsimp only
      split <;> simp [World.withMonitor, Monitor.waits]
    · rfl
  unfold sendMsgQueue
  dsimp only
  rw [id]
  by_cases none_ : queueId w.monitor c.2 = MQ_KEY_NONE
  · have stops : ¬ (queueing w.monitor.hold c).2 = true := fun h => reaches.mpr h none_
    rw [if_pos none_, if_neg stops, waits, add_zero]
    exact ⟨hold, kept, rfl⟩
  · obtain ⟨key', id'⟩ := msgsndLoop_hold c.2 r 5 0 (acquireQueue c.2 w)
    rw [if_neg none_, if_pos (reaches.mp none_)]
    refine ⟨?_, ?_, ?_⟩
    · rw [← hold, Monitor.hold, Monitor.hold, key', id']
    · rw [Monitor.KeyFirst, key', id']
      exact kept
    · rw [msgsndLoop_waits, ← waits, Nat.pow_zero, Nat.one_mul]
      rfl

/-- The filters do not touch what the transport keeps. -/
theorem unsampled_transport {m m' : Monitor} (same : m'.unsampled = m.unsampled) :
    m'.hold = m.hold ∧ (m'.KeyFirst ↔ m.KeyFirst) ∧ m'.waits = m.waits ∧
      m'.messageQueuePath = m.messageQueuePath :=
  ⟨(congrArg Monitor.hold same :), (congrArg Monitor.KeyFirst same :).to_iff,
    (congrArg Monitor.waits same :), (congrArg Monitor.messageQueuePath same :)⟩

/-- What a call leaves behind that the filters hold back. -/
theorem recordStep_silent {who : Caller} {w w' : World} {c : Recorded} {m : Monitor}
    (step : recordStep who w c = some w')
    (verdict : recordFilters c.1 c.2.time w.monitor = .ignored m) :
    w' = { w with monitor := m } := by
  rw [recordStep_ignored who verdict] at step
  exact (Option.some.inj step).symm

/-- What a call does over the queue that the filters let through. -/
theorem recordStep_sent {who : Caller} {w w' : World} {c : Recorded} {m : Monitor}
    (step : recordStep who w c = some w')
    (verdict : recordFilters c.1 c.2.time w.monitor = .admitted m)
    (path : m.messageQueuePath.isSome) (keyFirst : m.KeyFirst) :
    w'.monitor.hold = (queueing m.hold c).1 ∧ w'.monitor.KeyFirst ∧
      w'.monitor.waits = m.waits + (if (queueing m.hold c).2 then queueWaits c.2 else 0) ∧
      w'.delivered = w.delivered ++
        (if (queueing m.hold c).2 && c.2.taken then [(attemptOf m who c).record] else []) := by
  obtain ⟨m', ignored, -⟩ | ⟨m', r, rc, w₁, admitted, built, sent, rfl⟩ := recordStep_cases step
  · rw [verdict] at ignored
    cases ignored
  · rw [verdict] at admitted
    cases admitted
    let handed : World := { w with monitor := m, attempts := w.attempts ++ [⟨who, r⟩] }
    have own : (attemptOf m who c).record = r := by rw [attemptOf_built built]
    have reaches := (acquireQueue_hold (w := handed) path keyFirst c).2.2
    have spec := sendMsgQueue_sent c.2 r (w := handed) path
    obtain ⟨hold, kept, waits⟩ := sendMsgQueue_waits (w := handed) path keyFirst c r
    rw [sendRecord_queue _ _ _ path] at sent
    cases sent
    have counted : ∀ m : Monitor, ∀ rc, (account rc m).hold = m.hold ∧
        ((account rc m).KeyFirst ↔ m.KeyFirst) ∧ (account rc m).waits = m.waits := by
      intro m rc
      unfold account
      split <;> exact ⟨rfl, Iff.rfl, rfl⟩
    obtain ⟨hold', kept', waits'⟩ := counted (sendMsgQueue c.2 r handed).2.monitor
      (sendMsgQueue c.2 r handed).1
    refine ⟨hold'.trans hold, kept'.mpr kept, waits'.trans waits, ?_⟩
    have handedOver : HandedOver m c.2 ↔ ((queueing m.hold c).2 && c.2.taken) = true := by
      rw [handedOver_queue path, Bool.and_eq_true]
      exact and_congr_left' reaches
    by_cases arrives : HandedOver m c.2
    · rw [if_pos (handedOver.mp arrives), own]
      exact spec.took arrives
    · rw [if_neg fun h => arrives (handedOver.mpr h), List.append_nil]
      exact spec.lost arrives

/-! ### The whole run -/

/-- The records that arrive. -/
def arrivals (base : Monitor) (who : Caller) (tried : List Recorded) : List MonitorRecord :=
  (tried.filter fun c => c.2.taken).map fun c => (attemptOf base who c).record

theorem arrivals_cons (base : Monitor) (who : Caller) (c : Recorded) (tried : List Recorded) :
    arrivals base who (c :: tried) =
      (if c.2.taken then [(attemptOf base who c).record] else []) ++ arrivals base who tried := by
  unfold arrivals
  rw [List.filter_cons]
  split <;> rfl

/-- A run, in terms of the sieves: what it sends, what arrives, and the waits. -/
theorem run_delivery {base : Monitor} (small : SmallWindows base.windowing)
    (path : base.messageQueuePath.isSome) (who : Caller) (calls : List Recorded)
    (defined_ : ∀ c ∈ calls, c.1.Defined)
    (clock : ∀ c ∈ calls, 0 < c.2.time ∧ Small c.2.time) :
    ∀ {t : SieveState} {w : World}, Shows base t w.monitor → w.monitor.KeyFirst →
      ∃ w', Machine.run (recordStep who) w calls = some w' ∧
        w'.attempts = w.attempts ++ (pass base.sieve t calls).map (attemptOf base who) ∧
        w'.delivered = w.delivered ++
          arrivals base who (pass queueing w.monitor.hold (pass base.sieve t calls)) ∧
        w'.monitor.waits = w.monitor.waits +
          ((pass queueing w.monitor.hold (pass base.sieve t calls)).map
            fun c => queueWaits c.2).sum := by
  induction calls with
  | nil =>
      intro t w _ _
      exact ⟨w, rfl, by simp, by simp [arrivals], by simp⟩
  | cons c calls ih =>
      intro t w h keyFirst
      obtain ⟨definedHead, definedTail⟩ := List.forall_mem_cons.mp defined_
      obtain ⟨⟨positive, smallTime⟩, clockTail⟩ := List.forall_mem_cons.mp clock
      obtain ⟨m, verdict, -⟩ := recordFilters_sieve small h definedHead positive smallTime
      obtain ⟨w₁, step, shows, attempts⟩ :=
        recordStep_sieve small who h definedHead positive smallTime
      rw [Machine.run_cons, step, pass_cons]
      cases passes : (base.sieve t c).2 with
      | false =>
          rw [passes, if_neg Bool.false_ne_true] at verdict attempts
          have same := recordStep_silent step verdict
          have unchanged := ignored_unsampled verdict
          obtain ⟨hold, kept, waits, -⟩ := unsampled_transport unchanged
          have delivered : w₁.delivered = w.delivered := by rw [same]
          obtain ⟨w', ran, sent, arrived, more⟩ := ih definedTail clockTail shows
            (by rw [same]; exact kept.mpr keyFirst)
          have hold₁ : w₁.monitor.hold = w.monitor.hold := by rw [same]; exact hold
          have waits₁ : w₁.monitor.waits = w.monitor.waits := by rw [same]; exact waits
          rw [hold₁] at arrived more
          rw [if_neg Bool.false_ne_true]
          refine ⟨w', ran, ?_, ?_, ?_⟩
          · rw [sent, attempts, List.append_nil]
          · rw [arrived, delivered]
          · rw [more, waits₁]
      | true =>
          rw [passes, if_pos rfl] at verdict attempts
          obtain ⟨hold, kept, waits, samePath⟩ := unsampled_transport (admitted_unsampled verdict)
          have queue : m.messageQueuePath.isSome := by
            have fixedPath := congrArg Monitor.messageQueuePath h.fixed
            rw [samePath]
            exact fixedPath ▸ path
          obtain ⟨hold₁, kept₁, waits₁, delivered⟩ :=
            recordStep_sent step verdict queue (kept.mpr keyFirst)
          have own : attemptOf m who c = attemptOf base who c :=
            fixed_attemptOf
              ((congrArg Monitor.unsent (admitted_unsampled verdict)).trans h.fixed) who c
          obtain ⟨w', ran, sent, arrived, more⟩ := ih definedTail clockTail shows kept₁
          rw [hold] at hold₁ waits₁ delivered
          rw [own] at delivered
          rw [hold₁] at arrived more
          rw [if_pos rfl, pass_cons]
          refine ⟨w', ran, ?_, ?_, ?_⟩
          · rw [sent, attempts, List.map_cons]
            simp
          · rw [arrived, delivered]
            cases reaches : (queueing w.monitor.hold c).2 with
            | false => simp
            | true => simp [arrivals_cons]
          · rw [more, waits₁, waits]
            cases reaches : (queueing w.monitor.hold c).2 with
            | false => simp
            | true => simp [add_assoc]

/-- Of the calls that make an attempt, the records arrive that get to `msgsnd` and are taken. -/
theorem delivered_callsSent {base : Monitor} (who : Caller) {calls : List Recorded} :
    ∀ {w w' : World}, w.monitor.facility = base.facility → w.monitor.messageQueuePath.isSome →
      w.monitor.KeyFirst → Machine.run (recordStep who) w calls = some w' →
        w'.delivered = w.delivered ++
          arrivals base who (pass queueing w.monitor.hold (callsSent who w calls)) := by
  induction calls with
  | nil =>
      intro w w' _ _ _ ran
      cases ran
      exact (List.append_nil _).symm
  | cons c calls ih =>
      intro w w' facility path keyFirst ran
      obtain ⟨w₁, step, later⟩ := Machine.run_cons_some ran
      have samePath := recordStep_path step
      have settings : w₁.monitor.facility = w.monitor.facility :=
        (congrArg Monitor.facility (recordStep_settings step) :)
      obtain ⟨m, ignored, same⟩ | ⟨m, r, rc, w₂, admitted, built, sent, same⟩ :=
        recordStep_cases step
      · -- held back: neither an attempt nor a message
        obtain ⟨hold, kept, -, -⟩ := unsampled_transport (ignored_unsampled ignored)
        have silent : w₁.attempts = w.attempts := by rw [same]
        have untouched : w₁.delivered = w.delivered := by rw [same]
        have held : w₁.monitor.hold = w.monitor.hold := by rw [same]; exact hold
        rw [callsSent_silent step silent, ← untouched, ← held]
        refine ih (settings.trans facility) (samePath ▸ path) ?_ later
        rw [same]
        exact kept.mpr keyFirst
      · obtain ⟨hold, kept, -, ownPath⟩ := unsampled_transport (admitted_unsampled admitted)
        have attempts : w₁.attempts.length = w.attempts.length + 1 := by
          obtain ⟨rc', w₃, sent', spec⟩ := sendRecord_sent c.2 r
            { w with monitor := m, attempts := w.attempts ++ [⟨who, r⟩] }
          cases sent.symm.trans sent'
          rw [same]
          exact (congrArg List.length spec.attempts).trans List.length_append
        obtain ⟨hold₁, kept₁, -, delivered⟩ :=
          recordStep_sent step admitted (ownPath ▸ path) (kept.mpr keyFirst)
        have own : attemptOf m who c = attemptOf base who c := by
          have same : m.facility = w.monitor.facility :=
            (congrArg Monitor.facility (admitted_unsampled admitted) :)
          simp only [attemptOf, buildRecord_congr (same.trans facility)]
        rw [own, hold] at delivered
        rw [callsSent_sends step (by omega), pass_cons,
          ih (settings.trans facility) (samePath ▸ path) kept₁ later, delivered, hold₁, hold]
        cases reaches : (queueing w.monitor.hold c).2 with
        | false => simp
        | true => simp [arrivals_cons]

/-- The counters that the process keeps of its sends. -/
structure Tally where
  failed : BitVec 32
  retries : BitVec 32
  lostTime : BitVec 32
  records : BitVec 32
  deriving DecidableEq, Repr

def Monitor.tally (m : Monitor) : Tally where
  failed := m.failedIpcSends
  retries := m.ipcRetries
  lostTime := m.ipcRetryWaitLostTime
  records := m.ipcRecords

/-- How many of the records arrive. -/
def arrived (tried : List Recorded) : Nat := (tried.filter fun c => c.2.taken).length

/-- What there is to count about the records sent, in `int`s. -/
def tallyOf (sent : List Recorded) : Tally where
  failed := (sent.length - arrived (atQueue sent) : Nat)
  retries := (((atQueue sent).map fun c => c.2.retries).sum : Nat)
  lostTime := (((atQueue sent).map fun c => waited c.2.retries).sum : Nat)
  records := (arrived (atQueue sent) : Nat)

/-- Some try finds the queue not full, or the indeterminate value is not 0. -/
def Outcomes.Decided (o : Outcomes) : Prop :=
  (∃ i < 5, o.msgsnd i ≠ .failed EAGAIN) ∨ o.garbage ≠ 0

/-- Over the queue the counters account for every run of decided sends. -/
theorem counted_run (who : Caller) {calls : List Recorded}
    (decided : ∀ c ∈ calls, c.2.Decided) {w w' : World}
    (path : w.monitor.messageQueuePath.isSome)
    (ran : Machine.run (recordStep who) w calls = some w') :
    ∃ sent lost, Counted w w' sent lost := by
  have step : ∀ (v : World) (c : Recorded) (v' : World),
      (v.monitor.messageQueuePath.isSome ∧ ∃ sent lost, Counted w v sent lost) → c.2.Decided →
        recordStep who v c = some v' →
          v'.monitor.messageQueuePath.isSome ∧ ∃ sent lost, Counted w v' sent lost := by
    rintro v c v' ⟨queue, sent, lost, before⟩ decided next
    obtain ⟨sent', lost', counted⟩ := recordStep_counted next fun m verdict => by
      have samePath := (unsampled_transport (admitted_unsampled verdict)).2.2.2
      rw [Returns, samePath, if_pos queue]
      exact decided.imp_left .inr
    have kept := recordStep_path next
    exact ⟨kept ▸ queue, _, _, before.trans counted⟩
  exact (Machine.run_invariant_of step ⟨path, 0, 0, .refl w⟩ decided ran).2

theorem initializeMonitor_transport (env : Environment) :
    (initializeMonitor env).messageQueuePath = env.messageQueuePath ∧
      (initializeMonitor env).hold = .seeking ∧ (initializeMonitor env).KeyFirst ∧
      (initializeMonitor env).tally = ⟨0, 0, 0, 0⟩ := by
  unfold initializeMonitor Environment.sampleByTime Environment.sampleByCount loadLibraryFunctions
  repeat' split
  all_goals exact ⟨rfl, rfl, fun _ => rfl, rfl⟩

theorem sum_queueWaits (tried : List Recorded) :
    (tried.map fun c => queueWaits c.2).sum =
      ((((tried.map fun c => c.2.retries).sum : Nat) : BitVec 32),
        (((tried.map fun c => waited c.2.retries).sum : Nat) : BitVec 32)) := by
  induction tried with
  | nil => rfl
  | cons c tried ih =>
      simp only [List.map_cons, List.sum_cons, ih, Nat.cast_add]
      rfl

/-- From its start on, a process counts what there is to count. -/
theorem tally_run (env : Environment) (queue : env.messageQueuePath.isSome)
    (small : SmallWindows (initializeMonitor env).windowing) (who : Caller)
    (calls : List Recorded) (defined_ : ∀ c ∈ calls, c.1.Defined)
    (clock : ∀ c ∈ calls, 0 < c.2.time ∧ Small c.2.time)
    (decided : ∀ c ∈ calls, c.2.Decided) :
    ∃ w', Machine.run (recordStep who) (startWorld (initializeMonitor env)) calls = some w' ∧
      w'.monitor.tally = tallyOf ((initializeMonitor env).pipeline calls) := by
  obtain ⟨path, hold, keyFirst, fresh⟩ := initializeMonitor_transport env
  have queue : (initializeMonitor env).messageQueuePath.isSome := path ▸ queue
  obtain ⟨w', ran, sent, delivered, waits⟩ := run_delivery small queue who calls defined_ clock
    (w := startWorld (initializeMonitor env)) (initializeMonitor_shows env) keyFirst
  have held : (startWorld (initializeMonitor env)).monitor.hold = .seeking := hold
  rw [held, pass_queueing, pass_unused] at delivered waits
  rw [pass_unused] at sent
  obtain ⟨taken, lost, counted⟩ := counted_run who decided
    (w := startWorld (initializeMonitor env)) queue ran
  rw [sum_queueWaits] at waits
  simp only [Monitor.tally, Tally.mk.injEq] at fresh
  obtain ⟨noFailed, noRetries, noTime, noRecords⟩ := fresh
  have none_ : (startWorld (initializeMonitor env)).monitor.waits = 0 :=
    Prod.ext noRetries noTime
  rw [none_, zero_add] at waits
  have count : w'.delivered.length =
      arrived (atQueue ((initializeMonitor env).pipeline calls)) := by
    rw [delivered]
    simp [startWorld, arrivals, arrived]
  have attempts : w'.attempts.length = ((initializeMonitor env).pipeline calls).length := by
    rw [sent]
    simp [startWorld]
  have arrives : taken = arrived (atQueue ((initializeMonitor env).pipeline calls)) := by
    rw [← count, counted.delivered]
    simp [startWorld]
  have misses : lost = ((initializeMonitor env).pipeline calls).length - taken := by
    rw [← attempts, counted.attempts]
    simp [startWorld]
  refine ⟨w', ran, ?_⟩
  have records := counted.records
  have failed := counted.failed
  simp only [startWorld, noRecords, noFailed, zero_add] at records failed
  unfold Monitor.tally tallyOf
  congr 1
  · rw [failed, misses, arrives]
  · exact congrArg Prod.fst waits
  · exact congrArg Prod.snd waits
  · rw [records, arrives]

/-- **What is delivered.** Over the queue, of the records sent those arrive that
come once there is a queue and find room in five tries; and the counters say how
many did not, how often and for how long they were retried, and how many did. -/
theorem delivery_law (env : Environment) (queue : env.messageQueuePath.isSome)
    (small : SmallWindows (initializeMonitor env).windowing) (who : Caller)
    (calls : List Recorded) (defined_ : ∀ c ∈ calls, c.1.Defined)
    (clock : ∀ c ∈ calls, 0 < c.2.time ∧ Small c.2.time)
    (decided : ∀ c ∈ calls, c.2.Decided) :
    ∃ w', Machine.run (recordStep who) (startWorld (initializeMonitor env)) calls = some w' ∧
      w'.delivered =
        arrivals (initializeMonitor env) who (atQueue ((initializeMonitor env).pipeline calls)) ∧
      w'.monitor.tally = tallyOf ((initializeMonitor env).pipeline calls) := by
  obtain ⟨path, hold, keyFirst, -⟩ := initializeMonitor_transport env
  obtain ⟨w', ran, -, delivered, -⟩ := run_delivery small (path ▸ queue) who calls defined_ clock
    (w := startWorld (initializeMonitor env)) (initializeMonitor_shows env) keyFirst
  have held : (startWorld (initializeMonitor env)).monitor.hold = .seeking := hold
  rw [held, pass_queueing, pass_unused] at delivered
  obtain ⟨w'', ran', tally⟩ := tally_run env queue small who calls defined_ clock decided
  rw [ran] at ran'
  cases ran'
  exact ⟨w', ran, delivered, tally⟩

/-! The queue has a key from the second read on, and is full for the third. -/

def readsAtQueue : List Recorded :=
  [(readHello, { Outcomes.success with ftok := .failed 2 }), (readHello, .success),
    (readHello, { Outcomes.success with
      msgsnd := fun i => if i < 2 then .failed EAGAIN else .ok })]

theorem delivery_law_reads :
    ∃ w', Machine.run (recordStep .application)
        (startWorld (initializeMonitor { readsInWindows with timeSampleDuration := none }))
        readsAtQueue = some w' ∧
      w'.delivered =
        arrivals (initializeMonitor { readsInWindows with timeSampleDuration := none })
          .application (readsAtQueue.drop 1) ∧
      w'.monitor.tally = ⟨1, 2, 3072, 2⟩ := by
  have settings : (initializeMonitor
      { readsInWindows with timeSampleDuration := none }).windowing = none := by decide
  have small : SmallWindows (initializeMonitor
      { readsInWindows with timeSampleDuration := none }).windowing := by
    rw [settings]
    exact fun p hp => nomatch hp
  have first : ∃ i < 5, Outcomes.success.msgsnd i ≠ .failed EAGAIN := ⟨0, by decide, by decide⟩
  have decided : ∀ c ∈ readsAtQueue, c.2.Decided := by
    intro c hc
    simp only [readsAtQueue, List.mem_cons, List.not_mem_nil, or_false] at hc
    rcases hc with rfl | rfl | rfl
    · exact .inl first
    · exact .inl first
    · exact .inl ⟨2, by decide, by decide⟩
  obtain ⟨w', ran, delivered, tally⟩ := delivery_law _ rfl small .application readsAtQueue
    (by simp [readsAtQueue, readHello_defined])
    (by simp [readsAtQueue, Small, Outcomes.success]) decided
  exact ⟨w', ran, delivered, tally.trans (by decide)⟩

end IoMonitor
