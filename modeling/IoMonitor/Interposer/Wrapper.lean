import IoMonitor.Interposer.Table
import IoMonitor.Monitor.Record

/-!
The generated wrappers.

A wrapper calls the original function, runs the hook of its row and records the
call; for an exec it records first. An `Invocation` holds what one such call
reads from outside. Given that, hook and record are straight-line code, and
`Row.actions` lists what they do.

Calls the library makes by public name end up in wrappers again, which record
them in turn. Nothing bounds that nesting, so `libraryCalls` runs on fuel.
-/

namespace IoMonitor

open CString

/-! ### One call of a wrapper -/

/-- What `check_for_http` finds: a byte it may not read, no start line, a
request's, or a response's, which it scans with `sscanf` for a status to report. -/
inductive HttpScan where
  | unreadable
  | nothing
  | request (line : Str)
  | response (line : Str) (sscanf : Answer) (reported : Bool)
  deriving DecidableEq, Repr

/-- A `const struct sockaddr*`; for `AF_INET`, the text `real_ip` prints. -/
inductive SockAddr where
  | unreadable
  | otherFamily
  | inet (text : Str)
  deriving DecidableEq, Repr

/-- What `init()` meets. `cmdline` is the buffer after its loop. -/
structure InitCalls where
  open_ : Answer
  read : Answer
  close : Status
  cmdline : CharPtr
  ppid : Int
  currentDir : Except Int Str
  startTime : Timeval
  endTime : Timeval

/-- The call of a wrapper: the outcome of the original function (a pointer is 0
for `NULL`) and `errno` after it, the parameters by their names in the table,
and what the calls of a hook answer. `fileno` and `dirfd` are `none` on a
stream they may not be called on. -/
structure Invocation where
  result : Int
  errno : Int
  fd : Int
  count : Int
  size : Int
  nmemb : Int
  pid : Int
  sig : Int
  text : String → CharPtr
  fileno : Option Answer
  dirfd : Option Answer
  http : HttpScan
  address : SockAddr
  init : InitCalls
  startTime : Timeval
  endTime : Timeval

/-! ### Hooks -/

/-- One thing a hook does: a call that may set `errno`, something undefined, or
the `k`-th kind of `record()` call (0 of HTTP, 1 of the wrapper itself, 2 and 3
of `init`). -/
inductive Action where
  | answered (a : Answer)
  | crash
  | emit (k : Nat) (call : RecordCall)

/-- The variables of a wrapper that its `record()` call reads. -/
structure Locals where
  errorCode : Int
  fd : Int
  count : Int
  text : String → CharPtr

def Invocation.locals (inv : Invocation) : Locals where
  errorCode := 0
  fd := inv.fd
  count := inv.count
  text := inv.text

def ErrorTest.holds (row : Row) (inv : Invocation) : ErrorTest → Bool
  | .isMinusOne | .isEof => inv.result = -1
  | .isNegative => !row.isUnsigned && inv.result < 0
  | .isBelowNmemb => inv.result < inv.nmemb
  | .isNonzero => inv.result ≠ 0
  | .isNull => inv.result = 0

/-- `fd = fileno(…)` or `fd = dirfd(…)`. -/
def Locals.takeFd (l : Locals) : Option Answer → Locals × List Action
  | some a => ({ l with fd := a.ret }, [.answered a])
  | none => (l, [.crash])

def Locals.set (l : Locals) (name : String) (value : Str) : Locals :=
  { l with text := fun n => if n = name then .str value else l.text n }

def httpCall (inv : Invocation) (fd : Int) (op : OpType) (line : Str) : RecordCall where
  domType := .http
  opType := op
  fd
  s1 := .str line
  s2 := .null
  startTime := inv.startTime
  endTime := inv.endTime
  errorCode := 0
  bytesTransferred := 0

/-- `check_for_http(dom, fd, …)`. -/
def httpActions (inv : Invocation) (fd : Int) (dom : DomainType) : List Action :=
  match inv.http with
  | .unreadable => [.crash]
  | .nothing => []
  | .request line =>
      let op := if dom = .fileWrite then .httpReqSend else .httpReqRecv
      [.emit 0 (httpCall inv fd op line)]
  | .response line sscanf reported =>
      let op := if dom = .fileWrite then .httpRespSend else .httpRespRecv
      .answered sscanf :: if reported then [.emit 0 (httpCall inv fd op line)] else []

/-- `init()`. A read of one byte, or none because it failed, sends its loop
below the buffer. -/
def initActions (i : InitCalls) : List Action :=
  let start (s1 : CharPtr) : RecordCall :=
    { domType := .startStop, opType := .start, fd := 0, s1,
      s2 := .str ("PPID:".toList ++ decimal i.ppid), startTime := i.startTime,
      endTime := i.endTime, errorCode := 0, bytesTransferred := 0 }
  let chdir (s1 : CharPtr) : RecordCall :=
    { domType := .dirs, opType := .chdir, fd := FD_NONE, s1, s2 := .null,
      startTime := i.startTime, endTime := i.endTime, errorCode := 0, bytesTransferred := 0 }
  let len := i.read.ret
  [.answered i.open_, .answered i.read] ++
    (if len < 0 ∨ len = 1 then [.crash] else []) ++
    [.answered i.close.answer,
      .emit 2 (start (if len = 0 then .str "could not determine path".toList else i.cmdline))] ++
    match i.currentDir with
    | .ok path => [.emit 3 (chdir (.str path))]
    | .error e => [.answered (.failed e), .emit 3 (chdir .null)]

/-- One statement of a hook. The original's `errno` still stands where it is
read (`monitoredFunctions_errno`). -/
def HookStmt.run (row : Row) (inv : Invocation) (l : Locals) : HookStmt → Locals × List Action
  | .setError test => (if test.holds row inv then { l with errorCode := inv.errno } else l, [])
  | .openedFile =>
      if inv.result = 0 then ({ l with errorCode := inv.errno, fd := FD_NONE }, [])
      else l.takeFd inv.fileno
  | .openedDir =>
      if inv.result = 0 then ({ l with errorCode := inv.errno, fd := FD_NONE }, [])
      else l.takeFd inv.dirfd
  | .checkForHttp dom => (l, httpActions inv l.fd dom)
  | .filenoStream => l.takeFd inv.fileno
  | .dirfdStream => l.takeFd inv.dirfd
  | .fdResult => ({ l with fd := inv.result }, [])
  | .countProduct => ({ l with count := toInt (inv.size * inv.nmemb) }, [])
  | .countSize => ({ l with count := toInt inv.size }, [])
  | .countResult => ({ l with count := toInt inv.result }, [])
  | .realIp =>
      match inv.address with
      | .unreadable => (l.set "path" [], [.crash])
      | .otherFamily => (l.set "path" [], [])
      | .inet text => (l.set "path" text, [])
  | .initInChild => (l, if inv.result = 0 then initActions inv.init else [])
  | .printPidAndSig =>
      -- `tpid` and `tsig` have room for nine characters
      if 9 < (decimal inv.pid).length ∨ 9 < (decimal inv.sig).length then (l, [.crash])
      else ((l.set "tpid" (decimal inv.pid)).set "tsig" (decimal inv.sig), [])

def runHook (row : Row) (inv : Invocation) : List HookStmt → Locals → Locals × List Action
  | [], l => (l, [])
  | stmt :: rest, l =>
      let first := stmt.run row inv l
      let later := runHook row inv rest first.1
      (later.1, first.2 ++ later.2)

/-! ### Wrappers -/

namespace Row

def argument (l : Locals) (expr : String) : CharPtr :=
  if expr = "NULL" then .null else l.text expr

/-- The wrapper's own `record()` call. -/
def recordCall (row : Row) (inv : Invocation) (l : Locals) : RecordCall where
  domType := row.domain
  opType := row.op
  fd := if row.hasFd then l.fd else FD_NONE
  s1 := argument l row.s1
  s2 := argument l row.s2
  startTime := inv.startTime
  endTime := inv.endTime
  errorCode := l.errorCode
  bytesTransferred := if row.hasCount then l.count.bmod (2 ^ 64) else 0

/-- The wrapper besides the original call. -/
def actions (row : Row) (inv : Invocation) : List Action :=
  let hook := runHook row inv row.hook inv.locals
  hook.2 ++ [.emit 1 (row.recordCall inv hook.1)]

end Row

def runActions (emit : Nat → RecordCall → Prog World Unit) : List Action → Prog World Unit
  | [] => pure ()
  | .answered a :: rest => do
      World.answered a
      runActions emit rest
  | .crash :: _ => Prog.crash
  | .emit k c :: rest => do
      emit k c
      runActions emit rest

def callWrapper (emit : Nat → RecordCall → Prog World Unit) (original : Prog World Int) (row : Row)
    (inv : Invocation) : Prog World Int :=
  if row.isExec then do
    runActions emit (row.actions inv)
    original
  else do
    let result ← original
    runActions emit (row.actions inv)
    pure result

/-! ### The library's own calls -/

/-- What the outside answers while one call of the application is handled. Every
`record()` on the way has its own place, the path of calls that leads to it.
`peer` is what `real_ip` prints for the library's own peer. -/
structure Env where
  outcomes : List Nat → Outcomes
  clock : List Nat → Timeval × Timeval
  peer : Str

/-- Every record is answered alike. -/
def Env.always (o : Outcomes) : Env := ⟨fun _ => o, fun _ => (⟨0, 0⟩, ⟨0, 0⟩), []⟩

/-- All-zero arguments, for the calls that read few of them. -/
def Invocation.zero : Invocation where
  result := 0
  errno := 0
  fd := 0
  count := 0
  size := 0
  nmemb := 0
  pid := 0
  sig := 0
  text _ := .null
  fileno := none
  dirfd := none
  http := .nothing
  address := .unreadable
  init := ⟨.value 0, .value 0, .ok, .null, 0, .ok [], ⟨0, 0⟩, ⟨0, 0⟩⟩
  startTime := ⟨0, 0⟩
  endTime := ⟨0, 0⟩

/-- `errno` after a failing call. -/
def Answer.errno : Answer → Int
  | .value _ => 0
  | .failed e => e

namespace SocketCall

def index : SocketCall → Nat
  | .socket => 0
  | .connect _ => 1
  | .writeHeader _ => 2
  | .writeRecord _ => 3
  | .close _ => 4

def row : SocketCall → Row
  | .socket => socketRow
  | .connect _ => connectRow
  | .writeHeader _ => writeRow
  | .writeRecord _ => writeRow
  | .close _ => closeRow

/-- The call as its wrapper sees it. Header and record each have a NUL among
their first bytes, where `check_for_http` gives up. -/
def invocation (env : Env) (q : List Nat) (a : Answer) (call : SocketCall) : Invocation :=
  let inv :=
    { Invocation.zero with
      result := a.ret, errno := a.errno, startTime := (env.clock q).1, endTime := (env.clock q).2 }
  match call with
  | .socket => inv
  | .connect sockfd => { inv with fd := sockfd, address := .inet env.peer }
  | .writeHeader sockfd => { inv with fd := sockfd, count := 10 }
  | .writeRecord sockfd => { inv with fd := sockfd, count := recordLength }
  | .close sockfd => { inv with fd := sockfd }

end SocketCall

/-- The calls made at place `q`, with the nesting cut off at depth `n`. -/
def libraryCalls (env : Env) : Nat → List Nat → LibraryCalls
  | 0, _ => fun _ _ => Prog.exhaust
  | n + 1, q => fun call a =>
      let q := q ++ [call.index]
      callWrapper
        (fun k c => record (libraryCalls env n (q ++ [k])) (env.outcomes (q ++ [k])) .library c)
        (LibraryCalls.direct call a) call.row (call.invocation env q a)

/-- `record()` at place `q`. -/
def recordAt (env : Env) (n : Nat) (q : List Nat) (who : Caller) (c : RecordCall) :
    Prog World Unit :=
  record (libraryCalls env n q) (env.outcomes q) who c

def Invocation.original (inv : Invocation) : Prog World Int :=
  fun w => .returned inv.result { w with errno := inv.errno }

/-- The exec variant that `orig_vexecl` and its siblings call by public name. -/
def Row.forward (row : Row) : Option Row :=
  if row.callee = "vexecl".toList then some execvRow
  else if row.callee = "vexeclp".toList then some execvpRow
  else if row.callee = "vexecle".toList then some execvpeRow
  else none

/-- It passes on the path, or file name, and an argument table. -/
def Invocation.forwarded (inv : Invocation) (env : Env) (row : Row) : Invocation :=
  { inv with
    text := fun _ => inv.text row.s1
    startTime := (env.clock [4]).1
    endTime := (env.clock [4]).2 }

/-- `orig_…`: the function itself, or for `execl` and its siblings a call by
public name. -/
def originalCall (env : Env) (n : Nat) (row : Row) (inv : Invocation) : Prog World Int :=
  match row.forward with
  | none => inv.original
  | some target =>
      callWrapper (fun k => recordAt env n [4, k] .library) inv.original target
        (inv.forwarded env row)

/-- A call of the application. -/
def handleCall (env : Env) (n : Nat) (row : Row) (inv : Invocation) : Prog World Int :=
  callWrapper (fun k => recordAt env n [k] .application) (originalCall env n row inv) row inv

/-! ### How a library call runs -/

namespace SocketCall

/-- The descriptor of the wrapper's record: for `socket` the new one. -/
def fd (a : Answer) : SocketCall → Int
  | .socket => a.ret
  | .connect sockfd => sockfd
  | .writeHeader sockfd => sockfd
  | .writeRecord sockfd => sockfd
  | .close sockfd => sockfd

/-- The record its wrapper makes. -/
def record (env : Env) (q : List Nat) (a : Answer) (call : SocketCall) : RecordCall :=
  let inv := call.invocation env q a
  call.row.recordCall inv (runHook call.row inv call.row.hook inv.locals).1

/-- Its wrapper makes that record and does nothing else. -/
theorem actions_eq (env : Env) (q : List Nat) (a : Answer) (call : SocketCall) :
    call.row.actions (call.invocation env q a) = [.emit 1 (call.record env q a)] := by
  cases call <;> rfl

theorem row_not_exec (call : SocketCall) : call.row.isExec = false := by
  cases call <;> simp only [row] <;> decide

theorem row_hasFd (call : SocketCall) : call.row.hasFd = true := by
  cases call <;> simp only [row] <;> decide

theorem record_fd (env : Env) (q : List Nat) (a : Answer) (call : SocketCall) :
    (call.record env q a).fd = call.fd a := by
  simp only [record, Row.recordCall, row_hasFd, if_true]
  cases call with
  | socket =>
      simp only [row, socketRow, invocation, runHook, HookStmt.run]
      split <;> rfl
  | connect sockfd =>
      simp only [row, connectRow, invocation, runHook, HookStmt.run]
      split <;> rfl
  | writeHeader sockfd =>
      simp only [row, writeRow, invocation, runHook, HookStmt.run]
      split <;> rfl
  | writeRecord sockfd =>
      simp only [row, writeRow, invocation, runHook, HookStmt.run]
      split <;> rfl
  | close sockfd =>
      simp only [row, closeRow, invocation, runHook, HookStmt.run]
      split <;> rfl

end SocketCall

theorem libraryCalls_succ (env : Env) (n : Nat) (q : List Nat) (call : SocketCall) (a : Answer)
    (w : World) :
    libraryCalls env (n + 1) q call a w =
      (recordAt env n (q ++ [call.index] ++ [1]) .library
        (call.record env (q ++ [call.index]) a) >>= fun _ => pure a.ret) (w.after a) := by
  simp only [libraryCalls, callWrapper, SocketCall.row_not_exec, SocketCall.actions_eq, runActions,
    Prog.bind_apply, LibraryCalls.direct, Bool.false_eq_true, if_false, recordAt, Prog.pure_apply]
  cases record (libraryCalls env n (q ++ [call.index] ++ [1]))
    (env.outcomes (q ++ [call.index] ++ [1])) .library
    (call.record env (q ++ [call.index]) a) (w.after a) <;> rfl

/-- On the library's own socket a call goes unrecorded. -/
theorem libraryCalls_own (env : Env) (n : Nat) (q : List Nat) {call : SocketCall} {a : Answer}
    {w : World} (set : w.monitor.socketFd ≠ FD_NONE) (own : call.fd a = w.monitor.socketFd) :
    libraryCalls env (n + 1) q call a w = .returned a.ret (w.after a) := by
  have dropped := recordFilters_ownSocket (c := call.record env (q ++ [call.index]) a)
    (m := (w.after a).monitor) (env.outcomes (q ++ [call.index] ++ [1])).time
    (by simpa using set) (by rw [SocketCall.record_fd, own, after_monitor])
  rw [libraryCalls_succ, recordAt, Prog.bind_of_returned (record_ignored dropped)]
  rfl

theorem libraryCalls_direct (env : Env) (n : Nat) (q : List Nat) (call : SocketCall) (a : Answer)
    {sockfd : Int} {w : World} (set : sockfd ≠ FD_NONE) (fd : call.fd a = sockfd)
    (own : w.monitor.socketFd = sockfd) :
    libraryCalls env (n + 1) q call a w = LibraryCalls.direct call a w :=
  libraryCalls_own env n q (by rwa [own]) (by rw [fd, own])

theorem writeFrame_own (env : Env) (n : Nat) (q : List Nat) (o : Outcomes) {sockfd : Int}
    (r : MonitorRecord) {w : World} (set : sockfd ≠ FD_NONE)
    (own : w.monitor.socketFd = sockfd) :
    writeFrame (libraryCalls env (n + 1) q) o sockfd r w = writeFrame .direct o sockfd r w := by
  have ours := fun call a v => libraryCalls_direct env n q call a (w := v) set
  unfold writeFrame
  refine Prog.bind_congr rfl fun _ v h => ?_
  cases h
  refine Prog.bind_congr rfl fun _ v h => ?_
  cases h
  refine Prog.bind_congr (ours _ _ _ rfl (by simpa using own)) fun rc v h => ?_
  cases h
  split
  · exact Prog.bind_congr (ours _ _ _ rfl (by simpa using own)) fun _ _ _ => rfl
  · rfl

/-- From the moment `socket_fd` is set, the calls of `send_tcp_socket` are those
of the C library. -/
theorem sendOver_own (env : Env) (n : Nat) (q : List Nat) (o : Outcomes) {sockfd : Int}
    (r : MonitorRecord) (w : World) (set : sockfd ≠ FD_NONE) :
    sendOver (libraryCalls env (n + 1) q) o sockfd r w = sendOver .direct o sockfd r w := by
  have ours := fun call a v => libraryCalls_direct env n q call a (w := v) set
  unfold sendOver
  refine Prog.bind_congr rfl fun _ v h => ?_
  cases h
  refine Prog.bind_congr (ours _ _ _ rfl rfl) fun rc v h => ?_
  cases h
  have own : ((w.withMonitor fun m => { m with socketFd := sockfd }).after
      o.connect.answer).monitor.socketFd = sockfd := by simp [World.withMonitor]
  split
  · refine Prog.bind_congr (writeFrame_own env n q o r set own) fun rc v h => ?_
    obtain ⟨w', frame, -, monitor, -⟩ := writeFrame_direct o sockfd r
      ((w.withMonitor fun m => { m with socketFd := sockfd }).after o.connect.answer)
    rw [frame] at h
    cases h
    exact Prog.bind_congr (ours _ _ _ rfl (by rw [monitor, own])) fun _ _ _ => rfl
  · refine Prog.bind_congr rfl fun _ v h => ?_
    cases h
    refine Prog.bind_congr rfl fun rc v h => ?_
    cases h
    exact Prog.bind_congr (ours _ _ _ rfl (by exact own)) fun _ _ _ => rfl

/-! ### What holds of every wrapper -/

namespace Row

theorem name_infix (row : Row) : row.name <:+: row.prototype.toList := by
  have suffix : row.name <:+ row.retAndName := by
    have := List.takeWhile_prefix (l := row.retAndName.reverse) (· ≠ ' ')
    rw [name, ← List.reverse_prefix, List.reverse_reverse]
    exact this
  exact suffix.isInfix.trans (List.takeWhile_prefix _).isInfix

/-- Only exec wrappers forward. -/
theorem isExec_of_forward {row target : Row} (h : row.forward = some target) :
    row.isExec = true := by
  have named : ∀ f : Str, "exec".toList <:+: f → row.callee = 'v' :: f → row.isExec = true := by
    intro f exec callee
    refine strstr_iff.mpr ?_
    unfold Row.callee at callee
    split at callee
    · rw [← (List.cons.inj callee).2] at exec
      exact exec.trans row.name_infix
    · refine (exec.trans ?_).trans row.name_infix
      rw [callee]
      exact List.infix_cons (List.infix_refl f)
  unfold forward at h
  split at h
  · exact named "execl".toList (by decide) ‹_›
  · split at h
    · exact named "execlp".toList (by decide) ‹_›
    · split at h
      · exact named "execle".toList (by decide) ‹_›
      · cases h

end Row

/-- Outside the exec family: the original, then hook and record. -/
theorem handleCall_plain (env : Env) (n : Nat) {row : Row} (inv : Invocation) (w : World)
    (plain : row.isExec = false) :
    handleCall env n row inv w =
      (runActions (fun k => recordAt env n [k] .application) (row.actions inv) >>=
        fun _ => pure inv.result) { w with errno := inv.errno } := by
  have noForward : row.forward = none := by
    cases forward : row.forward with
    | none => rfl
    | some target => simp [Row.isExec_of_forward forward] at plain
  simp only [handleCall, originalCall, noForward, callWrapper, plain, Bool.false_eq_true, if_false]
  rfl

/-- In the exec family: the record, then the original. -/
theorem handleCall_exec (env : Env) (n : Nat) {row : Row} (inv : Invocation)
    (exec : row.isExec = true) :
    handleCall env n row inv =
      runActions (fun k => recordAt env n [k] .application) (row.actions inv) >>=
        fun _ => originalCall env n row inv := by
  simp only [handleCall, callWrapper, exec, if_true]

/-- The record of the exec variant forwarded to. -/
def forwardedRecord (env : Env) (row target : Row) (inv : Invocation) : RecordCall :=
  target.recordCall (inv.forwarded env row) (inv.forwarded env row).locals

theorem originalCall_forward (env : Env) (n : Nat) {row target : Row} (inv : Invocation)
    (forward : row.forward = some target) :
    originalCall env n row inv =
      (recordAt env n [4, 1] .library (forwardedRecord env row target inv) >>= pure) >>=
        fun _ => inv.original := by
  have shape : target.isExec = true ∧ target.hook = [] := by
    unfold Row.forward at forward
    split at forward
    · exact Option.some.inj forward ▸ ⟨by decide, rfl⟩
    · split at forward
      · exact Option.some.inj forward ▸ ⟨by decide, rfl⟩
      · split at forward
        · exact Option.some.inj forward ▸ ⟨by decide, rfl⟩
        · cases forward
  simp only [originalCall, forward, callWrapper, shape.1, if_true, Row.actions, shape.2, runHook,
    List.nil_append, runActions]
  rfl

end IoMonitor
