import IoMonitor.Record
import IoMonitor.Lib.Prog
import Mathlib.Data.BitVec

/-!
The state of the interposed library and the calls it makes.

`Monitor` holds the static variables of `io_monitor.c`. The calls the library
makes are answered from outside: an `Outcomes` gives, for one call of
`record()`, what each call on its way returns, so that a statement about all
`Outcomes` is a statement about every way the calls can go.
-/

namespace IoMonitor

open CString

/-- The answer of a call that returns a number, or -1 with `errno` set. -/
inductive Answer where
  | value (v : Int)
  | failed (errno : Int)
  deriving DecidableEq, Repr

def Answer.ret : Answer → Int
  | .value v => v
  | .failed _ => -1

/-- The answer of a call that returns 0, or -1 with `errno` set. -/
inductive Status where
  | ok
  | failed (errno : Int)
  deriving DecidableEq, Repr

def Status.answer : Status → Answer
  | .ok => .value 0
  | .failed e => .failed e

@[simp] theorem ok_ret : Status.ok.answer.ret = 0 := rfl

@[simp] theorem failed_ret (e : Int) : (Status.failed e).answer.ret = -1 := rfl

def EAGAIN : Int := 11

/-- No queue key, or no queue. -/
def MQ_KEY_NONE : Int := -1

/-- What answers the calls of one `record()`. `msgsnd i` and `usleep i` answer
the `i`-th try. `garbage` is the indeterminate `int` that a send routine yields
where it reaches no `return` with a value it has set. -/
structure Outcomes where
  time : Nat
  getpid : Int
  ftok : Answer
  msgget : Answer
  msgsnd : Nat → Status
  usleep : Nat → Status
  socket : Answer
  connect : Status
  setNoDelay : Status
  setSendBuffer : Status
  writeHeader : Answer
  writeRecord : Answer
  close : Status
  garbage : Int

/-- Every call succeeds at the first try. -/
def Outcomes.success : Outcomes where
  time := 1500000000
  getpid := 4242
  ftok := .value 7
  msgget := .value 3
  msgsnd _ := .ok
  usleep _ := .ok
  socket := .value 5
  connect := .ok
  setNoDelay := .ok
  setSendBuffer := .ok
  writeHeader := .value 10
  writeRecord := .value recordLength
  close := .ok
  garbage := 0

/-- A `const char*`: null, readable as a string, or neither. -/
inductive CharPtr where
  | null
  | str (s : Str)
  | bad
  deriving DecidableEq, Repr

structure Timeval where
  tvSec : Int
  tvUsec : Int
  deriving DecidableEq, Repr

/-- The arguments of `record()`. -/
structure RecordCall where
  domType : DomainType
  opType : OpType
  fd : Int
  s1 : CharPtr
  s2 : CharPtr
  startTime : Timeval
  endTime : Timeval
  errorCode : Int
  bytesTransferred : Int
  deriving DecidableEq, Repr

/-- The static variables of `io_monitor.c`. The counters are `int`s,
read as `BitVec.toInt`. -/
structure Monitor where
  failedSocketConnections : BitVec 32
  failedIpcSends : BitVec 32
  ipcRetries : BitVec 32
  ipcRetryWaitLostTime : BitVec 32
  ipcRecords : BitVec 32
  messageQueuePath : Option Str
  messageQueueKey : Int
  messageQueueId : Int
  domainBitFlags : BitVec 32
  facility : CharArray 5
  startOnOpen : Option Str
  socketFd : Int
  paused : Bool
  haveElapsedThreshold : Bool
  elapsedThreshold : Float
  countBasedSampling : Bool
  countBasedSampleFrequency : Int
  countInterceptsSinceLastReport : Int
  timeBasedSampling : Bool
  withinTimeBasedSample : Bool
  startTimeBasedSample : Nat
  timeBasedSampleDuration : Nat
  timeBasedSampleFrequency : Nat
  deriving DecidableEq

/-- The initial values of the static variables. -/
def Monitor.initial : Monitor where
  failedSocketConnections := 0
  failedIpcSends := 0
  ipcRetries := 0
  ipcRetryWaitLostTime := 0
  ipcRecords := 0
  messageQueuePath := none
  messageQueueKey := MQ_KEY_NONE
  messageQueueId := MQ_KEY_NONE
  domainBitFlags := 0
  facility := .zero _
  startOnOpen := none
  socketFd := FD_NONE
  paused := false
  haveElapsedThreshold := false
  elapsedThreshold := 0
  countBasedSampling := false
  countBasedSampleFrequency := 10
  countInterceptsSinceLastReport := 0
  timeBasedSampling := false
  withinTimeBasedSample := false
  startTimeBasedSample := 0
  timeBasedSampleDuration := 2
  timeBasedSampleFrequency := 10

/-- The pausing half of `load_library_functions()`. `startOnElapsed` is what `atof` makes
of `START_ON_ELAPSED`. -/
def loadLibraryFunctions (startOnOpen : Option Str) (startOnElapsed : Option Float) (m : Monitor) :
    Monitor :=
  match startOnOpen, startOnElapsed with
  | some pattern, _ => { m with startOnOpen := some pattern, paused := true }
  | none, some elapsed =>
      if elapsed > 0.1 then
        { m with
          startOnOpen := none, elapsedThreshold := elapsed, haveElapsedThreshold := true,
          paused := true }
      else { m with startOnOpen := none }
  | none, none => { m with startOnOpen := none }

/-- Whose call a record reports: the application's, or the library's own. -/
inductive Caller where
  | application | library
  deriving DecidableEq, Repr

/-- A record handed to a send routine. -/
structure Attempt where
  caller : Caller
  record : MonitorRecord
  deriving DecidableEq

/-- The library, the thread's `errno`, the records handed to the transport, and
those the transport took over whole. -/
structure World where
  monitor : Monitor
  errno : Int
  attempts : List Attempt
  delivered : List MonitorRecord

/-- `errno` after a call: a call that fails sets it. -/
def World.after (w : World) : Answer → World
  | .value _ => w
  | .failed e => { w with errno := e }

@[simp] theorem after_monitor (w : World) (a : Answer) : (w.after a).monitor = w.monitor := by
  cases a <;> rfl

@[simp] theorem after_attempts (w : World) (a : Answer) : (w.after a).attempts = w.attempts := by
  cases a <;> rfl

@[simp] theorem after_delivered (w : World) (a : Answer) :
    (w.after a).delivered = w.delivered := by
  cases a <;> rfl

def World.withMonitor (w : World) (f : Monitor → Monitor) : World :=
  { w with monitor := f w.monitor }

/-! ### The start of a process -/

/-- The variables after `initialize_monitor`, with a message queue path or none,
the domains given, no sampling, and no facility id. -/
def Monitor.started (path : Option Str) (domains : List DomainType) : Monitor :=
  { Monitor.initial with
    facility := strncpy 5 ['u']
    messageQueuePath := path
    domainBitFlags := domains.foldl (fun mask d => mask ||| 1#32 <<< d.ctorIdx) 0 }

def queueMonitor (domains : List DomainType) : Monitor := .started (some "mq1".toList) domains

def socketMonitor (domains : List DomainType) : Monitor := .started none domains

def startWorld (m : Monitor) : World := ⟨m, 0, [], []⟩

end IoMonitor
