import IoMonitor.Lib.Machine
import IoMonitor.Listener.Resolver
import IoMonitor.Interposer.Wrapper
import IoMonitor.Monitor.Accounting

/-!
From a process's descriptors to the listener's table.

One process opens and closes files through its wrappers, their records go over
the queue, and the listener keeps `fd_to_dev` from them. The table tracks the
process iff the wrappers called put the descriptor into their records, which
only those of `fopen`, `fopen64` and `close` do (`tracks_iff`).
-/

namespace IoMonitor

open CString Listener

/-! ### The process -/

/-- The path each open descriptor was last opened with. -/
abbrev Files := Int → Option Str

def openFamily : List Row := [openRow, open64Row, creatRow, creat64Row, fopenRow, fopen64Row]

def closeFamily : List Row := [closeRow, fcloseRow]

/-- A call of the open or the close family, and the descriptor it opens or
closes. -/
structure FileCall where
  row : Row
  inv : Invocation
  fd : Int
  env : Env

/-- The outcome of opening `path` as `fd`: `fopen` returns a stream. -/
def FileCall.Opens (c : FileCall) (path : Str) : Prop :=
  3 ≤ c.fd ∧ path ≠ [] ∧ path ≠ ['.'] ∧ path ≠ ['.', '.'] ∧ nul ∉ path ∧
    path.length < PATH_MAX ∧
    if c.row ∈ [fopenRow, fopen64Row] then
      c.inv.result ≠ 0 ∧ c.inv.fileno = some (.value c.fd) ∧ (c.inv.text "mode").Readable
    else c.inv.result = c.fd

/-- The outcome of closing `fd`; for `fclose` it is the stream's. -/
def FileCall.Closes (c : FileCall) : Prop :=
  c.inv.result = 0 ∧ (c.row = closeRow → c.inv.fd = c.fd)

instance (c : FileCall) (path : Str) : Decidable (c.Opens path) := by
  unfold FileCall.Opens CharPtr.Readable; infer_instance

instance (c : FileCall) : Decidable c.Closes := by unfold FileCall.Closes; infer_instance

/-- What a successful call leaves at its descriptor. -/
def FileCall.leaves (c : FileCall) (files : Files) : Option (Option Str) :=
  if c.row ∈ openFamily then
    match c.inv.text c.row.s1 with
    | .str path => if c.Opens path ∧ files c.fd = none then some (some path) else none
    | _ => none
  else if c.row ∈ closeFamily ∧ c.Closes ∧ (files c.fd).isSome then some none
  else none

/-! ### The system -/

/-- The process with its interposed library, what it has open, and the
listener's table. -/
structure System where
  world : World
  files : Files
  table : FdTable

/-- A successful call, and the messages it sends received. Over the queue no
fuel is needed. -/
def System.step (mounts : MountTable) (hostname : Str) (s : System) (c : FileCall) :
    Option System :=
  match c.leaves s.files, handleCall c.env 0 c.row c.inv s.world with
  | some path, .returned _ w =>
      let received := w.delivered.drop s.world.delivered.length
      some
        { world := w
          files := Function.update s.files c.fd path
          table := (inputLoop mounts hostname s.table received).1 }
  | _, _ => none

/-- `fd_to_dev` has the open descriptors for its keys, each with the device of
its path. -/
def System.Tracks (mounts : MountTable) (s : System) : Prop :=
  ∀ fd, s.table fd = (s.files fd).map (pathToDev mounts)

/-- The queue takes the message. -/
def System.Delivers (s : System) (c : FileCall) : Prop :=
  HandedOver s.world.monitor (c.env.outcomes [1])

instance (s : System) (c : FileCall) : Decidable (s.Delivers c) := by
  unfold System.Delivers; infer_instance

/-- The queue, no sampling, not paused, and all domains monitored. -/
structure Unfiltered (m : Monitor) : Prop extends QueueUnsampled m where
  running : m.paused = false
  monitored : ∀ d, m.monitors d = true

theorem Unfiltered.congr {m m' : Monitor} (h : Unfiltered m)
    (same : m'.uncounted = m.uncounted) : Unfiltered m' where
  toQueueUnsampled := h.toQueueUnsampled.congr (congrArg Monitor.unsampled same :)
  running := (congrArg Monitor.paused same).trans h.running
  monitored d := by
    have mask : m'.domainBitFlags = m.domainBitFlags := (congrArg Monitor.domainBitFlags same :)
    rw [Monitor.monitors, mask]
    exact h.monitored d

/-! ### One record -/

/-- The filters drop a standard stream and an open of `.` or `..`, and nothing
else. -/
theorem recordFilters_unfiltered {m : Monitor} (h : Unfiltered m) {c : RecordCall}
    (defined_ : c.Defined) (timestamp : Nat) :
    recordFilters c timestamp m =
      if c.isStdio || c.opensDot then .ignored m else .admitted m := by
  have late : (countStage m).andThen (timeStage timestamp) = .admitted m := by
    simp [countStage, timeStage, h.noCount, h.noTime]
  have reaches : Reaches m c ↔ ¬ (c.isStdio || c.opensDot) = true := by
    rw [reaches_queue ⟨h.queue, h.running, h.noSocket, h.connected⟩]
    simp [Eligible, h.monitored]
  rw [recordFilters_running h.running defined_, late]
  by_cases dropped : (c.isStdio || c.opensDot) = true
  · rw [if_pos dropped, if_neg fun h => reaches.mp h dropped]
  · rw [if_neg dropped, if_pos (reaches.mpr dropped)]

/-- A record that passes them is delivered. -/
theorem recordAt_delivered {env : Env} (n : Nat) {q : List Nat} (who : Caller) {c : RecordCall}
    {w : World} (h : Unfiltered w.monitor) (valid : c.Valid) (stdio : c.isStdio = false)
    (dot : c.opensDot = false) (takes : HandedOver w.monitor (env.outcomes q)) :
    ∃ w' r, recordAt env n q who c w = .returned () w' ∧ w'.delivered = w.delivered ++ [r] ∧
      buildRecord w.monitor c (env.outcomes q).time (env.outcomes q).getpid = some r ∧
      w'.monitor.uncounted = w.monitor.uncounted := by
  have verdict := recordFilters_unfiltered h valid.defined (env.outcomes q).time
  rw [if_neg (by simp [stdio, dot])] at verdict
  obtain ⟨r, built⟩ := buildRecord_isSome w.monitor valid.defined (env.outcomes q).time
    (env.outcomes q).getpid
  obtain ⟨w', sent, -, monitor, delivered⟩ := dispatchRecord_queue (libraryCalls env n q)
    (env.outcomes q) who r h.queue
  have took := (sendMsgQueue_sent (env.outcomes q) r
    (w := { w with attempts := w.attempts ++ [⟨who, r⟩] }) h.queue).took takes
  exact ⟨w', r, (record_admitted verdict built).trans sent, delivered.trans took, built, monitor⟩

/-! ### The wrappers of the two families -/

/-- Those that put the descriptor into their record. -/
def carriers : List Row := [fopenRow, fopen64Row, closeRow]

theorem openFamily_shape : ∀ row ∈ openFamily,
    row.isExec = false ∧ row.domain = .fileOpenClose ∧ row.op = .opens ∧ row.s1 ≠ "NULL" ∧
      row.hasFd = decide (row ∈ carriers) ∧
      if row ∈ [fopenRow, fopen64Row] then row.hook = [.openedFile] ∧ row.s2 = "mode"
      else row.hook = [.setError .isMinusOne] ∧ row.s2 = "NULL" := by
  decide

theorem closeFamily_shape : ∀ row ∈ closeFamily,
    row.isExec = false ∧ row.domain = .fileOpenClose ∧ row.op = .close ∧
      row.s1 = "NULL" ∧ row.s2 = "NULL" ∧ row.hasFd = decide (row ∈ carriers) ∧
      row.hook = [.setError .isMinusOne] := by
  decide

theorem carriers_open : ∀ row ∈ openFamily, row ∈ carriers ↔ row ∈ [fopenRow, fopen64Row] := by
  decide

theorem carriers_close : ∀ row ∈ closeFamily, row ∈ carriers → row = closeRow := by
  decide

/-- A hook that only looks for an error leaves the parameters to the record. -/
theorem actions_setError {row : Row} {test : ErrorTest} (hook : row.hook = [.setError test])
    (inv : Invocation) :
    ∃ e, row.actions inv = [.emit 1 (row.recordCall inv { inv.locals with errorCode := e })] := by
  by_cases failed : test.holds row inv
  · exact ⟨inv.errno, by simp [Row.actions, hook, runHook, HookStmt.run, failed]⟩
  · exact ⟨0, by simp [Row.actions, hook, runHook, HookStmt.run, failed, Invocation.locals]⟩

/-- A stream opened has its descriptor taken from `fileno`. -/
theorem actions_openedFile {row : Row} (hook : row.hook = [.openedFile]) {inv : Invocation}
    (stream : inv.result ≠ 0) {fd : Int} (fileno : inv.fileno = some (.value fd)) :
    row.actions inv =
      [.answered (.value fd), .emit 1 (row.recordCall inv { inv.locals with fd := fd })] := by
  simp [Row.actions, hook, runHook, HookStmt.run, stream, fileno, Locals.takeFd, Answer.ret]

/-- What the record of a successful call says, given what the call leaves. -/
structure FileCall.Records (c : FileCall) (left : Option Str) (rc : RecordCall) : Prop where
  runs : ∀ emit w, runActions emit (c.row.actions c.inv) w = (emit 1 rc >>= fun _ => pure ()) w
  valid : rc.Valid
  domain : rc.domType = .fileOpenClose
  fd : rc.fd = if c.row ∈ carriers then c.fd else FD_NONE
  opens : ∀ path, left = some path → rc.opType = .opens ∧ rc.s1 = .str path
  closes : left = none → rc.opType = .close

theorem recordCall_fd {row : Row} (hasFd : row.hasFd = decide (row ∈ carriers)) (inv : Invocation)
    {l : Locals} {fd : Int} (carried : row ∈ carriers → l.fd = fd) :
    (row.recordCall inv l).fd = if row ∈ carriers then fd else FD_NONE := by
  by_cases carries : row ∈ carriers
  · simp [Row.recordCall, hasFd, carries, carried carries]
  · simp [Row.recordCall, hasFd, carries]

/-- The name of an open row is its first argument. -/
theorem FileCall.first_argument {c : FileCall} {path : Str} (open_ : c.row ∈ openFamily)
    (s1 : c.inv.text c.row.s1 = .str path) : Row.argument c.inv.locals c.row.s1 = .str path := by
  obtain ⟨-, -, -, named, -⟩ := openFamily_shape c.row open_
  rw [Row.argument, if_neg named]
  exact s1

/-- A call that opened a stream. -/
theorem FileCall.records_stream {c : FileCall} {path : Str}
    (stream : c.row ∈ [fopenRow, fopen64Row]) (s1 : c.inv.text c.row.s1 = .str path)
    (mode : (c.inv.text "mode").Readable) (nonnull : c.inv.result ≠ 0)
    (fileno : c.inv.fileno = some (.value c.fd)) : ∃ rc, c.Records (some path) rc := by
  have open_ : c.row ∈ openFamily := by
    simp only [List.mem_cons, List.not_mem_nil, or_false] at stream
    rcases stream with row | row <;> rw [row] <;> decide
  obtain ⟨-, domain, op, -, hasFd, shape⟩ := openFamily_shape c.row open_
  rw [if_pos stream] at shape
  obtain ⟨hook, s2⟩ := shape
  have first := FileCall.first_argument open_ s1
  have readable : (Row.argument c.inv.locals c.row.s1).Readable := by
    simp [first, CharPtr.Readable]
  have second : (Row.argument c.inv.locals c.row.s2).Readable := by
    rw [s2]
    exact mode
  exact ⟨c.row.recordCall c.inv { c.inv.locals with fd := c.fd },
    { runs := fun emit w => by rw [actions_openedFile hook nonnull fileno]; rfl
      valid := ⟨readable, second, fun _ => ⟨domain, path, first⟩⟩
      domain
      fd := recordCall_fd hasFd c.inv fun _ => rfl
      opens := fun p left => ⟨op, by cases left; exact first⟩
      closes := fun none => by cases none }⟩

theorem FileCall.records_open {c : FileCall} {path : Str} (open_ : c.row ∈ openFamily)
    (s1 : c.inv.text c.row.s1 = .str path) (success : c.Opens path) :
    ∃ rc, c.Records (some path) rc := by
  obtain ⟨-, -, -, -, -, -, outcome⟩ := success
  by_cases stream : c.row ∈ [fopenRow, fopen64Row]
  · rw [if_pos stream] at outcome
    obtain ⟨nonnull, fileno, mode⟩ := outcome
    exact FileCall.records_stream stream s1 mode nonnull fileno
  · obtain ⟨-, domain, op, -, hasFd, shape⟩ := openFamily_shape c.row open_
    rw [if_neg stream] at shape
    obtain ⟨hook, s2⟩ := shape
    obtain ⟨e, actions⟩ := actions_setError hook c.inv
    have first := FileCall.first_argument open_ s1
    have readable : (Row.argument c.inv.locals c.row.s1).Readable := by
      simp [first, CharPtr.Readable]
    have second : (Row.argument c.inv.locals c.row.s2).Readable := by
      simp [s2, Row.argument, CharPtr.Readable]
    exact ⟨c.row.recordCall c.inv { c.inv.locals with errorCode := e },
      { runs := fun emit w => by rw [actions]; rfl
        valid := ⟨readable, second, fun _ => ⟨domain, path, first⟩⟩
        domain
        fd := recordCall_fd hasFd c.inv fun carries =>
          absurd ((carriers_open c.row open_).mp carries) stream
        opens := fun p left => ⟨op, by cases left; exact first⟩
        closes := fun none => by cases none }⟩

theorem FileCall.records_close {c : FileCall} (close_ : c.row ∈ closeFamily)
    (closing : c.row = closeRow → c.inv.fd = c.fd) : ∃ rc, c.Records none rc := by
  obtain ⟨-, domain, op, s1, s2, hasFd, hook⟩ := closeFamily_shape c.row close_
  obtain ⟨e, actions⟩ := actions_setError hook c.inv
  have first : (Row.argument c.inv.locals c.row.s1).Readable := by
    simp [s1, Row.argument, CharPtr.Readable]
  have second : (Row.argument c.inv.locals c.row.s2).Readable := by
    simp [s2, Row.argument, CharPtr.Readable]
  exact ⟨c.row.recordCall c.inv { c.inv.locals with errorCode := e },
    { runs := fun emit w => by rw [actions]; rfl
      valid := ⟨first, second, fun opens => by simp [Row.recordCall, op] at opens⟩
      domain
      fd := recordCall_fd hasFd c.inv fun carries =>
        closing (carriers_close c.row close_ carries)
      opens := fun p left => by cases left
      closes := fun _ => op }⟩

theorem FileCall.leaves_cases {c : FileCall} {files : Files} {left : Option Str}
    (h : c.leaves files = some left) :
    (∃ path, left = some path ∧ c.row ∈ openFamily ∧ c.inv.text c.row.s1 = .str path ∧
      c.Opens path ∧ files c.fd = none) ∨
    (left = none ∧ c.row ∈ closeFamily ∧ c.Closes ∧ (files c.fd).isSome) := by
  unfold FileCall.leaves at h
  split at h
  · rename_i open_
    split at h
    · rename_i path s1
      split at h
      · rename_i success
        cases h
        exact .inl ⟨path, rfl, open_, s1, success⟩
      · cases h
    · cases h
  · split at h
    · rename_i close_
      cases h
      exact .inr ⟨rfl, close_⟩
    · cases h

/-! ### One step -/

theorem buildRecord_fields {m : Monitor} {c : RecordCall} {timestamp : Nat} {pid : Int}
    {r : MonitorRecord} (built : buildRecord m c timestamp pid = some r) :
    r.fd = c.fd ∧ r.domType = c.domType.code ∧ r.opType = c.opType.code ∧
      recordField PATH_MAX c.s1 = some r.s1 := by
  simp only [buildRecord, Option.bind_eq_bind, Option.bind_eq_some_iff, Option.some.injEq] at built
  obtain ⟨s1, first, s2, -, rfl⟩ := built
  exact ⟨rfl, rfl, rfl, first⟩

/-- The listener reads the path as it was passed. -/
theorem path_of_str {r : MonitorRecord} {p : Str} (noNul : nul ∉ p) (short : p.length < PATH_MAX)
    (field : recordField PATH_MAX (.str p) = some r.s1) : path r = p := by
  cases field' : r.s1 with
  | mk chars fits noNul' =>
      rw [field'] at field
      have closed : (strncpy PATH_MAX p).closeLast = r.s1 := by
        rw [field']
        exact Option.some.inj field
      rw [path, ← closed, if_pos (CharArray.closeLast_terminated (by decide) _),
        strncpy_closeLast_chars noNul short]

/-- The effect of the message on the table. -/
theorem FileCall.Records.update {c : FileCall} {left : Option Str} {rc : RecordCall}
    (h : c.Records left rc) (mounts : MountTable) (high : 3 ≤ c.fd)
    (good : ∀ p, left = some p → c.Opens p) {m : Monitor} {timestamp : Nat} {pid : Int}
    {r : MonitorRecord} (built : buildRecord m rc timestamp pid = some r) :
    Listener.update mounts r =
      if c.row ∈ carriers then some (c.fd, left.map (pathToDev mounts)) else none := by
  obtain ⟨fd, dom, op, s1⟩ := buildRecord_fields built
  rw [h.fd] at fd
  rw [h.domain] at dom
  by_cases carries : c.row ∈ carriers
  · rw [if_pos carries] at fd
    have set : r.fd ≠ FD_NONE := by rw [fd, FD_NONE]; omega
    rw [if_pos carries, Listener.update, if_neg set, fd]
    cases left with
    | some p =>
        obtain ⟨opens, str⟩ := h.opens p rfl
        obtain ⟨-, nonempty, -, -, noNul, short, -⟩ := good p rfl
        rw [opens] at op
        rw [str] at s1
        have long : 0 < p.length := List.length_pos_iff.mpr nonempty
        rw [if_pos ⟨dom, op⟩, path_of_str noNul short s1, if_pos long]
        rfl
    | none =>
        rw [h.closes rfl] at op
        have notOpen : ¬ IsOpen r := by
          intro isOpen
          rw [isOpen.2] at op
          exact close_code_ne_opens op.symm
        rw [if_neg notOpen, if_pos ⟨dom, op⟩]
        rfl
  · rw [if_neg carries] at fd
    rw [if_neg carries, Listener.update, if_pos fd]

theorem FileCall.records {c : FileCall} {files : Files} {left : Option Str}
    (h : c.leaves files = some left) : ∃ rc, c.Records left rc := by
  rcases FileCall.leaves_cases h with ⟨p, rfl, open_, s1, success, -⟩ | ⟨rfl, close_, success, -⟩
  · exact FileCall.records_open open_ s1 success
  · exact FileCall.records_close close_ success.2

theorem FileCall.leaves_high {c : FileCall} {files : Files} {left : Option Str}
    (high : ∀ fd, (files fd).isSome → 3 ≤ fd) (h : c.leaves files = some left) : 3 ≤ c.fd := by
  rcases FileCall.leaves_cases h with ⟨p, -, -, -, success, -⟩ | ⟨-, -, -, opened⟩
  · exact success.1
  · exact high c.fd opened

theorem FileCall.leaves_opens {c : FileCall} {files : Files} {left : Option Str}
    (h : c.leaves files = some left) : ∀ p, left = some p → c.Opens p := by
  rintro p rfl
  rcases FileCall.leaves_cases h with ⟨p', same, -, -, success, -⟩ | ⟨none, -⟩
  · cases same
    exact success
  · cases none

theorem FileCall.row_not_exec {c : FileCall} {files : Files} {left : Option Str}
    (h : c.leaves files = some left) : c.row.isExec = false := by
  rcases FileCall.leaves_cases h with ⟨-, -, open_, -⟩ | ⟨-, close_, -⟩
  · exact (openFamily_shape c.row open_).1
  · exact (closeFamily_shape c.row close_).1

/-- A wrapper whose one record returns, returns. -/
theorem handleCall_emits {env : Env} {row : Row} {inv : Invocation} {rc : RecordCall}
    (plain : row.isExec = false)
    (runs : ∀ emit w, runActions emit (row.actions inv) w = (emit 1 rc >>= fun _ => pure ()) w)
    {w w' : World}
    (ran : recordAt env 0 [1] .application rc { w with errno := inv.errno } = .returned () w') :
    handleCall env 0 row inv w = .returned inv.result w' := by
  rw [handleCall_plain _ _ _ _ plain]
  refine Prog.bind_of_returned (a := ()) ?_
  rw [runs]
  exact Prog.bind_of_returned ran

/-- What one step does: the process's files change at the descriptor, and the
table follows if the record carries it. -/
theorem System.step_spec {mounts : MountTable} {hostname : Str} {s s' : System} {c : FileCall}
    (settings : Unfiltered s.world.monitor) (high : ∀ fd, (s.files fd).isSome → 3 ≤ fd)
    (delivers : s.Delivers c) (h : s.step mounts hostname c = some s') :
    ∃ left, c.leaves s.files = some left ∧
      s'.files = Function.update s.files c.fd left ∧
      s'.table = (if c.row ∈ carriers then
        Function.update s.table c.fd (left.map (pathToDev mounts)) else s.table) ∧
      Unfiltered s'.world.monitor := by
  unfold System.step at h
  cases leaves : c.leaves s.files with
  | none => simp [leaves] at h
  | some left =>
      have high := FileCall.leaves_high high leaves
      have good := FileCall.leaves_opens leaves
      obtain ⟨rc, records⟩ := FileCall.records leaves
      have stdio : rc.isStdio = false := by
        simp only [RecordCall.isStdio, records.fd, decide_eq_false_iff_not]
        split
        · omega
        · simp [FD_NONE]
      have dot : rc.opensDot = false := by
        cases left with
        | some p =>
            obtain ⟨-, -, notDot, notDots, -⟩ := good p rfl
            simp [RecordCall.opensDot, (records.opens p rfl).2, notDot, notDots]
        | none => simp [RecordCall.opensDot, records.closes rfl]
      obtain ⟨w', r, ran, delivered, built, monitor⟩ := recordAt_delivered 0 .application
        (w := { s.world with errno := c.inv.errno }) settings records.valid stdio dot delivers
      have handled := handleCall_emits (FileCall.row_not_exec leaves) records.runs ran
      rw [leaves, handled] at h
      cases h
      refine ⟨left, rfl, rfl, ?_, settings.congr monitor⟩
      dsimp only
      rw [delivered, List.drop_left, inputLoop_table, KeyedStore.replay_cons, KeyedStore.replay_nil,
        KeyedStore.apply, records.update mounts high good built]
      by_cases carries : c.row ∈ carriers
      · rw [if_pos carries, if_pos carries]
      · rw [if_neg carries, if_neg carries]

/-! ### Whole runs -/

/-- What a run keeps as long as the table tracks the process. -/
structure System.Inv (mounts : MountTable) (s : System) : Prop where
  settings : Unfiltered s.world.monitor
  high : ∀ fd, (s.files fd).isSome → 3 ≤ fd
  tracks : s.Tracks mounts

theorem System.inv_step {mounts : MountTable} {hostname : Str} (s : System) (c : FileCall)
    (s' : System) (h : s.Inv mounts) (delivers : s.Delivers c) (carries : c.row ∈ carriers)
    (step : s.step mounts hostname c = some s') : s'.Inv mounts := by
  obtain ⟨left, leaves, files, table, settings⟩ := step_spec h.settings h.high delivers step
  rw [if_pos carries] at table
  refine ⟨settings, fun fd => ?_, fun fd => ?_⟩
  · rw [files]
    by_cases same : fd = c.fd
    · rw [same]
      exact fun _ => FileCall.leaves_high h.high leaves
    · rw [Function.update_of_ne same]
      exact h.high fd
  · rw [files, table]
    by_cases same : fd = c.fd
    · simp [same]
    · rw [Function.update_of_ne same, Function.update_of_ne same]
      exact h.tracks fd

/-- A call whose record does not carry the descriptor leaves the table behind. -/
theorem System.lost_step {mounts : MountTable} {hostname : Str} (s : System) (c : FileCall)
    (s' : System) (h : s.Inv mounts) (delivers : s.Delivers c) (bare : c.row ∉ carriers)
    (step : s.step mounts hostname c = some s') : ¬ s'.Tracks mounts := by
  obtain ⟨left, leaves, files, table, -⟩ := step_spec h.settings h.high delivers step
  intro tracks
  have before := h.tracks c.fd
  have after := tracks c.fd
  rw [files, table, if_neg bare, before, Function.update_self] at after
  rcases FileCall.leaves_cases leaves with ⟨p, rfl, -, -, -, closed⟩ | ⟨rfl, -, -, opened⟩
  · simp [closed] at after
  · obtain ⟨p, held⟩ := Option.isSome_iff_exists.mp opened
    simp [held] at after

/-- Before the first call. -/
def System.start (w : World) : System := ⟨w, fun _ => none, noFiles⟩

/-- **Descriptor tracking.** Over a run of successful calls whose messages are
all delivered, the listener's table tracks the process throughout iff every call
is one of `fopen`, `fopen64` and `close`. -/
theorem tracks_iff (mounts : MountTable) (hostname : Str) (w : World)
    (settings : Unfiltered w.monitor) (calls : List FileCall) (t : System)
    (delivers : Machine.AllSteps (System.step mounts hostname) System.Delivers (.start w) calls)
    (run : Machine.run (System.step mounts hostname) (.start w) calls = some t) :
    Machine.Always (System.step mounts hostname) (System.Tracks mounts) (.start w) calls ↔
      ∀ c ∈ calls, c.row ∈ carriers := by
  have start : (System.start w).Inv mounts :=
    ⟨settings, fun fd h => by simp [System.start] at h, fun fd => rfl⟩
  have sound : ∀ s : System, s.Inv mounts → s.Tracks mounts := fun _ h => h.tracks
  have exactly := Machine.always_iff_allSteps (C := fun _ c => c.row ∈ carriers) sound
    System.inv_step System.lost_step calls start delivers run
  exact exactly.trans
    ⟨Machine.forall_of_allSteps run, fun h => Machine.allSteps_of_forall h _⟩

/-! One file, opened as descriptor 3 and closed. -/

def fopenCall : FileCall where
  row := fopenRow
  inv :=
    { Invocation.zero with
      result := 1
      text := fun name => if name = "path" then .str "/a/x".toList else .str "r".toList
      fileno := some (.value 3) }
  fd := 3
  env := .always .success

def closeCall : FileCall := ⟨closeRow, { Invocation.zero with fd := 3 }, 3, .always .success⟩

def openCall : FileCall where
  row := openRow
  inv := { Invocation.zero with result := 3, text := fun _ => .str "/a/x".toList }
  fd := 3
  env := .always .success

def noMounts : MountTable := ⟨[], .nil, "vda".toList⟩

/-- All domains, over the queue. -/
def allDomains : World :=
  startWorld { queueMonitor [] with domainBitFlags := -1 }

theorem allDomains_unfiltered : Unfiltered allDomains.monitor where
  queue := rfl
  noElapsed := rfl
  noCount := rfl
  noTime := rfl
  noSocket := rfl
  connected := rfl
  running := rfl
  monitored d := by cases d <;> decide

theorem tracks_iff_fopen :
    Machine.Always (System.step noMounts []) (System.Tracks noMounts) (.start allDomains)
      [fopenCall, closeCall] := by
  have delivers : Machine.AllSteps (System.step noMounts []) System.Delivers (.start allDomains)
      [fopenCall, closeCall] := by
    decide
  obtain ⟨t, run⟩ : ∃ t, Machine.run (System.step noMounts []) (.start allDomains)
      [fopenCall, closeCall] = some t := Option.isSome_iff_exists.mp (by decide)
  exact (tracks_iff noMounts [] allDomains allDomains_unfiltered _ t delivers run).mpr (by decide)

/-- After `open` the table knows nothing of the descriptor. -/
theorem open_not_tracked :
    ¬ Machine.Always (System.step noMounts []) (System.Tracks noMounts) (.start allDomains)
      [openCall] := by
  intro always
  have lost : ∀ t ∈ System.step noMounts [] (.start allDomains) openCall,
      t.table 3 = none ∧ t.files 3 = some "/a/x".toList := by
    decide
  obtain ⟨t, step⟩ : ∃ t, System.step noMounts [] (.start allDomains) openCall = some t :=
    Option.isSome_iff_exists.mp (by decide)
  obtain ⟨table, files⟩ := lost t step
  have tracked := always [openCall] List.prefix_rfl t (by rw [Machine.run_cons, step]; rfl) 3
  rw [table, files] at tracked
  cases tracked

end IoMonitor
