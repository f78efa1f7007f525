import IoMonitor.Decimal
import IoMonitor.Interposer.Wrapper
import IoMonitor.Lib.Columns
import IoMonitor.Monitor.Delivery

/-!
A process from `init` to `fini`.

`init` records the start with the command line and the working directory; `fini`
records the stop with the counters in words. Between them come the calls of the
program. The stop record is the last that the filters look at, and its text is
the true account of all before it (`session_law`).
-/

namespace IoMonitor

open CString Sieve

/-! ### `init` and `fini` -/

/-- What `init` meets, and what answers its two calls of `record()`. -/
structure Startup where
  calls : InitCalls
  started : Outcomes
  located : Outcomes

def Action.recordCall : Action → Option RecordCall
  | .emit _ c => some c
  | _ => none

def Action.isCrash : Action → Bool
  | .crash => true
  | _ => false

/-- The calls of `record()` that `init` makes. -/
def Startup.init (p : Startup) : List Recorded :=
  ((initActions p.calls).filterMap Action.recordCall).zip [p.started, p.located]

def Startup.crashes (p : Startup) : Bool := (initActions p.calls).any Action.isCrash

/-- `sprintf(…, #var " = %d; ", var)`. -/
def smprintf (var : String) (value : BitVec 32) : Str :=
  var.toList ++ " = ".toList ++ decimal value.toInt ++ "; ".toList

/-- `summary`, with the counters in the order `fini` prints them. -/
def Tally.summary (t : Tally) : Str :=
  smprintf "failed_ipc_sends" t.failed ++ smprintf "ipc_retries" t.retries ++
    smprintf "ipc_retry_wait_lost_time" t.lostTime ++ smprintf "ipc_records" t.records

/-- The times that `fini` takes, and what answers its call of `record()`. -/
structure Finish where
  startTime : Timeval
  endTime : Timeval
  outcomes : Outcomes

/-- The call of `fini`, from the counters at that time. -/
def Finish.stopCall (f : Finish) (t : Tally) : RecordCall where
  domType := .startStop
  opType := .stop
  fd := 0
  s1 := .str t.summary
  s2 := .null
  startTime := f.startTime
  endTime := f.endTime
  errorCode := 0
  bytesTransferred := 0

/-- The process: `initialize_monitor`, `init`, the calls of the program, `fini`. -/
def session (env : Environment) (p : Startup) (calls : List Recorded) (f : Finish) :
    Option World :=
  if p.crashes then none
  else do
    let w ← Machine.run (recordStep .application) (startWorld (initializeMonitor env))
      (p.init ++ calls)
    recordStep .application w (f.stopCall w.monitor.tally, f.outcomes)

/-! ### The text of the counters -/

theorem smprintf_split (var : String) (noBlank : ' ' ∉ var.toList) (value : BitVec 32)
    (rest : Str) :
    (smprintf var value ++ rest).splitOn ' ' =
      [var.toList, ['='], decimal value.toInt ++ [';']] ++ rest.splitOn ' ' := by
  have number : ' ' ∉ decimal value.toInt ++ [';'] := by
    simp [notMem_decimal value.toInt (c := ' ') (by decide)]
  have text : smprintf var value ++ rest =
      Columns.join ' ' [var.toList, ['='], decimal value.toInt ++ [';'], rest] := by
    simp [smprintf, Columns.join_cons_cons, Columns.join_singleton]
  rw [text, Columns.splitOn_join ' ' (by simp)]
  simp only [Columns.columns, List.flatMap_cons, List.flatMap_nil, List.append_nil,
    List.splitOn_eq_singleton noBlank, List.splitOn_eq_singleton number]
  rw [List.splitOn_eq_singleton (show ' ' ∉ ['='] by decide)]
  rfl

/-- The words of the summary. -/
theorem summary_split (t : Tally) :
    t.summary.splitOn ' ' =
      ["failed_ipc_sends".toList, ['='], decimal t.failed.toInt ++ [';'],
        "ipc_retries".toList, ['='], decimal t.retries.toInt ++ [';'],
        "ipc_retry_wait_lost_time".toList, ['='], decimal t.lostTime.toInt ++ [';'],
        "ipc_records".toList, ['='], decimal t.records.toInt ++ [';'], []] := by
  have last := smprintf_split "ipc_records" (by decide) t.records []
  rw [List.append_nil] at last
  rw [Tally.summary, List.append_assoc, List.append_assoc, smprintf_split _ (by decide),
    smprintf_split _ (by decide), smprintf_split _ (by decide), last]
  rfl

/-- The counters read back from their text. -/
theorem summary_inj {t t' : Tally} (same : t.summary = t'.summary) : t = t' := by
  have words := congrArg (List.splitOn ' ') same
  rw [summary_split, summary_split] at words
  simp only [List.cons.injEq, true_and, and_true] at words
  obtain ⟨failed, retries, lostTime, records⟩ := words
  have number : ∀ {m n : BitVec 32},
      decimal m.toInt ++ [';'] = decimal n.toInt ++ [';'] → m = n :=
    fun h => BitVec.eq_of_toInt_eq (decimal_inj (List.append_cancel_right h))
  cases t
  cases t'
  cases number failed
  cases number retries
  cases number lostTime
  cases number records
  rfl

theorem summary_noNul (t : Tally) : nul ∉ t.summary := by
  have number : ∀ n : Int, nul ∉ decimal n := fun n => notMem_decimal n (by decide)
  have part : ∀ (var : String) (n : BitVec 32), nul ∉ var.toList → nul ∉ smprintf var n := by
    intro var n name
    simp only [smprintf, List.mem_append, not_or]
    exact ⟨⟨⟨name, by decide⟩, number n.toInt⟩, by decide⟩
  simp only [Tally.summary, List.mem_append, not_or]
  exact ⟨⟨⟨part _ _ (by decide), part _ _ (by decide)⟩, part _ _ (by decide)⟩,
    part _ _ (by decide)⟩

/-- The summary is far shorter than its buffer, whatever the counters. -/
theorem summary_length (t : Tally) : t.summary.length < PATH_MAX := by
  have number : ∀ n : BitVec 32, (decimal n.toInt).length ≤ 11 := by
    intro n
    have low := n.le_toInt
    have high := n.toInt_lt
    exact length_decimal_le (k := 10) (by decide) (by omega) (by omega)
  have failed := number t.failed
  have retries := number t.retries
  have lostTime := number t.lostTime
  have records := number t.records
  simp only [Tally.summary, smprintf, List.length_append]
  have names : ("failed_ipc_sends".toList.length = 16 ∧ "ipc_retries".toList.length = 11) ∧
      "ipc_retry_wait_lost_time".toList.length = 24 ∧ "ipc_records".toList.length = 11 ∧
      " = ".toList.length = 3 ∧ "; ".toList.length = 2 := by decide
  have limit : PATH_MAX = 4096 := rfl
  omega

/-! ### The session -/

/-- `init` survives unless the command line cannot be read, or is a single
byte. -/
theorem not_crashes {p : Startup} (read : 0 ≤ p.calls.read.ret ∧ p.calls.read.ret ≠ 1) :
    p.crashes = false := by
  have going : ¬ (p.calls.read.ret < 0 ∨ p.calls.read.ret = 1) := by omega
  unfold Startup.crashes initActions
  simp only [going, if_false, List.append_nil]
  cases p.calls.currentDir <;> rfl

theorem init_eq {p : Startup} (read : 0 ≤ p.calls.read.ret ∧ p.calls.read.ret ≠ 1) :
    ∃ start chdir : RecordCall, p.init = [(start, p.started), (chdir, p.located)] ∧
      (p.calls.cmdline.Readable → start.Defined) ∧ chdir.Defined := by
  have going : ¬ (p.calls.read.ret < 0 ∨ p.calls.read.ret = 1) := by omega
  unfold Startup.init initActions
  simp only [going, if_false, List.append_nil]
  cases p.calls.currentDir with
  | error e =>
      refine ⟨_, _, rfl, fun readable => ⟨?_, by simp [CharPtr.Readable], fun h => by cases h⟩,
        ⟨by simp [CharPtr.Readable], by simp [CharPtr.Readable], fun h => by cases h⟩⟩
      dsimp only
      split
      · simp [CharPtr.Readable]
      · exact readable
  | ok path =>
      refine ⟨_, _, rfl, fun readable => ⟨?_, by simp [CharPtr.Readable], fun h => by cases h⟩,
        ⟨by simp [CharPtr.Readable], by simp [CharPtr.Readable], fun h => by cases h⟩⟩
      dsimp only
      split
      · simp [CharPtr.Readable]
      · exact readable

theorem init_defined {p : Startup} (read : 0 ≤ p.calls.read.ret ∧ p.calls.read.ret ≠ 1)
    (readable : p.calls.cmdline.Readable) : ∀ c ∈ p.init, c.1.Defined := by
  obtain ⟨start, chdir, same, first, second⟩ := init_eq read
  rw [same]
  simp [first readable, second]

theorem stopCall_defined (f : Finish) (t : Tally) : (f.stopCall t).Defined :=
  ⟨by simp [CharPtr.Readable, Finish.stopCall], by simp [CharPtr.Readable, Finish.stopCall],
    fun opens => by cases opens⟩

/-- The summary is whole in the record. -/
theorem stopCall_text (t : Tally) (m : Monitor) (who : Caller) (f : Finish) :
    (attemptOf m who (f.stopCall t, f.outcomes)).record.s1.chars = t.summary := by
  obtain ⟨r, built⟩ :=
    buildRecord_isSome m (stopCall_defined f t) f.outcomes.time f.outcomes.getpid
  have field : (strncpy PATH_MAX t.summary).closeLast = r.s1 := by
    simp only [buildRecord, Finish.stopCall, recordField, Option.bind_eq_bind,
      Option.bind_some, Option.some.injEq] at built
    rw [← built]
  rw [attemptOf_built built, ← field]
  exact strncpy_closeLast_chars (summary_noNul t) (summary_length t)

/-- **A session.** What the process sends is what the pipeline lets through of
its start, its working directory, its calls and its stop; and the text of the
stop is that of the true counters, from which they can be read back. -/
theorem session_law (env : Environment) (queue : env.messageQueuePath.isSome)
    (small : SmallWindows (initializeMonitor env).windowing) (p : Startup)
    (read : 0 ≤ p.calls.read.ret ∧ p.calls.read.ret ≠ 1) (readable : p.calls.cmdline.Readable)
    (calls : List Recorded) (defined_ : ∀ c ∈ calls, c.1.Defined) (f : Finish)
    (clock : ∀ o ∈ f.outcomes :: (p.init ++ calls).map Prod.snd, 0 < o.time ∧ Small o.time)
    (decided : ∀ c ∈ p.init ++ calls, c.2.Decided) :
    ∃ w' t, session env p calls f = some w' ∧
      t = tallyOf ((initializeMonitor env).pipeline (p.init ++ calls)) ∧
      w'.attempts =
        ((initializeMonitor env).pipeline
          (p.init ++ calls ++ [(f.stopCall t, f.outcomes)])).map
            (attemptOf (initializeMonitor env) .application) ∧
      (attemptOf (initializeMonitor env) .application (f.stopCall t, f.outcomes)).record.s1.chars =
        t.summary ∧
      ∀ t', t'.summary = t.summary → t' = t := by
  obtain ⟨last, before⟩ := List.forall_mem_cons.mp clock
  have clockCalls : ∀ c ∈ p.init ++ calls, 0 < c.2.time ∧ Small c.2.time := fun c hc =>
    before c.2 (List.mem_map_of_mem hc)
  have definedCalls : ∀ c ∈ p.init ++ calls, c.1.Defined := by
    intro c hc
    rcases List.mem_append.mp hc with start | later
    · exact init_defined read readable c start
    · exact defined_ c later
  obtain ⟨w, ran, tally⟩ :=
    tally_run env queue small .application _ definedCalls clockCalls decided
  have whole : session env p calls f =
      Machine.run (recordStep .application) (startWorld (initializeMonitor env))
        (p.init ++ calls ++ [(f.stopCall
          (tallyOf ((initializeMonitor env).pipeline (p.init ++ calls))), f.outcomes)]) := by
    rw [Machine.run_append, session, not_crashes read, if_neg Bool.false_ne_true, ran]
    simp only [Option.bind_eq_bind, Option.bind_some, tally, Machine.run_cons, Machine.run_nil,
      Option.bind_fun_some]
  obtain ⟨w', ranAll, attempts⟩ := run_sieve small .application
    (p.init ++ calls ++ [(f.stopCall
      (tallyOf ((initializeMonitor env).pipeline (p.init ++ calls))), f.outcomes)])
    (List.forall_mem_append.mpr ⟨definedCalls, by simp [stopCall_defined]⟩)
    (List.forall_mem_append.mpr ⟨clockCalls, by simpa using last⟩)
    (w := startWorld (initializeMonitor env)) (initializeMonitor_shows env)
  rw [pass_unused] at attempts
  exact ⟨w', _, whole.trans ranAll, rfl, attempts, stopCall_text _ _ _ f,
    fun t' same => summary_inj same⟩

/-! A program that reads once, with starts, stops and reads monitored. -/

def startsAndReads : Environment :=
  { readsInWindows with
    monitorDomains := some "START_STOP,FILE_READ".toList, timeSampleDuration := none }

def helloInit : InitCalls where
  open_ := .value 3
  read := .value 6
  close := .ok
  cmdline := .str "hello".toList
  ppid := 4241
  currentDir := .ok "/tmp".toList
  startTime := ⟨0, 0⟩
  endTime := ⟨0, 10⟩

def helloStartup : Startup := ⟨helloInit, .success, .success⟩

def helloFinish : Finish := ⟨⟨1, 0⟩, ⟨1, 10⟩, .success⟩

theorem session_law_hello :
    ∃ w', session startsAndReads helloStartup [(readHello, .success)] helloFinish = some w' ∧
      w'.attempts.length = 3 ∧
      ∃ stop ∈ w'.attempts.getLast?, stop.record.s1.chars =
        ("failed_ipc_sends = 0; ipc_retries = 0; ipc_retry_wait_lost_time = 0; " ++
          "ipc_records = 2; ").toList := by
  have settings : (initializeMonitor startsAndReads).windowing = none := by decide
  have small : SmallWindows (initializeMonitor startsAndReads).windowing := by
    rw [settings]
    exact fun p hp => nomatch hp
  have first : Outcomes.success.Decided := .inl ⟨0, by decide, by decide⟩
  obtain ⟨start, chdir, init, -⟩ := init_eq (p := helloStartup) ⟨by decide, by decide⟩
  obtain ⟨w', t, ran, tally, attempts, text, -⟩ := session_law startsAndReads rfl small
    helloStartup ⟨by decide, by decide⟩ (by simp [CharPtr.Readable, helloStartup, helloInit])
    [(readHello, .success)] (by simp [readHello_defined]) helloFinish
    (by rw [init]; simp [helloFinish, helloStartup, Outcomes.success, Small])
    (by rw [init]; simp [helloStartup, first])
  have counters : t = ⟨0, 0, 0, 2⟩ := tally.trans (by decide)
  subst counters
  obtain ⟨c, sent⟩ : ∃ c, (initializeMonitor startsAndReads).pipeline
      (helloStartup.init ++ [(readHello, .success)] ++
        [(helloFinish.stopCall ⟨0, 0, 0, 2⟩, helloFinish.outcomes)]) =
      [c, (readHello, .success), (helloFinish.stopCall ⟨0, 0, 0, 2⟩, .success)] := by
    simp only [Monitor.pipeline, settings]
    exact ⟨_, rfl⟩
  rw [sent] at attempts
  refine ⟨w', ran, by rw [attempts]; rfl, _, by rw [attempts]; rfl, text.trans (by decide)⟩

end IoMonitor
