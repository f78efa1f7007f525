import IoMonitor.Lib.CString
import IoMonitor.Lib.Prog
import IoMonitor.Record

/-!
The parsers of `mq_listener`, over any `run_command`.

`parse_args` scans `argv` and runs a command when it sees the next one, and
`c_config` reads lines and runs one command from each. A command returns to the
parser that ran it, or ends the process. What the commands do is a parameter: the
results of `parse_args` and `c_config` on their own take logged calls for it, and
`main` the handlers.
-/

namespace IoMonitor.Listener

open CString Prog

/-- A call of `run_command`: the name and the strings before the `NULL` of `args`. -/
abbrev CommandCall := Str × List Str

inductive HandlerResult where
  | returns (rc : Int)
  | exits (status : Int)
  deriving DecidableEq

/-- `run_command`, over the state that the commands change. -/
abbrev CommandRun (S : Type) := CommandCall → Prog S HandlerResult

/-- The files that can be opened, with their contents. -/
abbrev Files := Str → Option Str

/-- The slots of `command_parameters` and `command_tokenized`. -/
def COMMAND_SLOTS : Nat := 128

variable {S : Type}

/-- Goes on with what is returned, unless the process has exited. -/
def thenRc (p : Prog S HandlerResult) (f : Int → Prog S HandlerResult) :
    Prog S HandlerResult := do
  match ← p with
  | .exits status => pure (.exits status)
  | .returns rc => f rc

/-- The command an argument that starts with `-` names; none after `-` or `--`. -/
def commandOf : Str → Option Str
  | '-' :: '-' :: name => if name = [] then none else some name
  | '-' :: name => if name = [] then none else some name
  | _ => none

/-! ### Operands -/

/-- A read of `args[i]`, and a use as a string: of an operand, or of a pointer that is
null or was never set. -/
inductive OperandUse where
  | read (i : Nat)
  | string (operand : Option Str)
  deriving DecidableEq

/-- `args[i]`; at the `NULL`, and past it, there is no operand. -/
def operand (args : List Str) (i : Nat) : Traced OperandUse S (Option Str) := do
  Traced.event (.read i)
  pure args[i]?

/-- A string that is missing is undefined. -/
def useString (p : Option Str) : Traced OperandUse S Str := do
  Traced.event (.string p)
  match p with
  | none => Traced.lift crash
  | some s => pure s

theorem operand_bind {α : Type} (s : S) (args : List Str) (i : Nat)
    (f : Option Str → Traced OperandUse S α) :
    (operand args i >>= f) s = (.read i :: (f args[i]? s).1, (f args[i]? s).2) := rfl

theorem useString_bind {α : Type} (s : S) (text : Str) (f : Str → Traced OperandUse S α) :
    (useString (some text) >>= f) s = (.string (some text) :: (f text s).1, (f text s).2) := rfl

/-! ### The parsers -/

namespace CommandRun

variable (run : CommandRun S)

/-- `parse_command`, with the result of the command, which its callers ignore. -/
def parseCommand (buf : Str) : Prog S HandlerResult :=
  match strtok [' ', '\n'] [] (cstr buf) with
  | [] => pure (.returns 0)
  | name :: parameters =>
      if parameters.length + 1 < COMMAND_SLOTS then run (name, parameters) else crash

/-- The body of the loop of `c_config`. -/
def configLine (buf : Str) : Prog S HandlerResult :=
  if buf.head? = some '#' then pure (.returns 0) else run.parseCommand buf

/-- The loop of `c_config`. -/
def configLines : List Str → Prog S HandlerResult
  | [] => pure (.returns 0)
  | buf :: rest => thenRc (run.configLine buf) fun _ => configLines rest

/-- `c_config`, which goes on after "Path to cfg missing". -/
def cConfig (fopen : Files) (args : List Str) : Traced OperandUse S HandlerResult := do
  let _ ← operand args 0
  let path ← useString (← operand args 0)
  match fopen path with
  | none => Traced.lift crash -- `fgets` from a null stream
  | some contents => Traced.lift (run.configLines (fgets PATH_MAX [] contents))

/-- Runs the command read last, if there is one. -/
def runPending : Option CommandCall → Prog S HandlerResult
  | none => pure (.returns 0)
  | some call => if call.2.length < COMMAND_SLOTS then run call else crash

/-- The loop over the arguments and the command it leaves to the end. `pending` is the
command read last with its parameters so far. A write past the array is undefined. -/
def parseArgsLoop (pending : Option CommandCall) : List Str → Prog S HandlerResult
  | [] => thenRc (run.runPending pending) fun rc =>
      pure (.returns (if pending = none ∨ rc ≠ 0 then -1 else 0))
  | arg :: args =>
      if arg.head? = some '-' then
        thenRc (run.runPending pending) fun rc =>
          if rc ≠ 0 then pure (.returns (-1))
          else
            match commandOf arg with
            | none => pure (.returns (-1))
            | some name => parseArgsLoop (some (name, [])) args
      else
        match pending with
        | none => pure (.returns (-1))
        | some (name, parameters) =>
            if parameters.length < COMMAND_SLOTS then
              parseArgsLoop (some (name, parameters ++ [arg])) args
            else crash

def parseArgs : List Str → Prog S HandlerResult
  | [] => crash
  | _ :: args => run.parseArgsLoop none args

end CommandRun

/-! ### The lines of a file -/

theorem thenRc_pure (rc : Int) (f : Int → Prog S HandlerResult) :
    thenRc (pure (.returns rc)) f = f rc := rfl

theorem thenRc_crash (f : Int → Prog S HandlerResult) : thenRc crash f = crash := rfl

def commandOfWords : List Str → Option CommandCall
  | [] => none
  | name :: parameters => some (name, parameters)

/-- The command of what `fgets` read. -/
def readCommand (read : Str) : Option CommandCall :=
  if read.head? = some '#' then none else commandOfWords (strtok [' ', '\n'] [] (cstr read))

namespace CommandRun

variable (run : CommandRun S)

theorem configLine_eq (buf : Str) : run.configLine buf = match readCommand buf with
    | none => pure (.returns 0)
    | some call => if call.2.length + 1 < COMMAND_SLOTS then run call else crash := by
  rw [configLine, readCommand]
  split
  · rfl
  · rw [parseCommand]
    cases strtok [' ', '\n'] [] (cstr buf) <;> rfl

theorem configLines_cons (buf : Str) (rest : List Str) :
    run.configLines (buf :: rest) = match readCommand buf with
      | none => run.configLines rest
      | some call =>
          if call.2.length + 1 < COMMAND_SLOTS then
            thenRc (run call) fun _ => run.configLines rest
          else crash := by
  rw [configLines, configLine_eq]
  cases readCommand buf with
  | none => exact thenRc_pure _ _
  | some call =>
      dsimp only
      split
      · rfl
      · exact thenRc_crash _

/-- What `c_config` does with its operand. -/
theorem cConfig_nil (fopen : Files) (s : S) :
    run.cConfig fopen [] s = ([.read 0, .read 0, .string none], .crashed s) := rfl

theorem cConfig_cons (fopen : Files) (path : Str) (rest : List Str) (s : S) :
    run.cConfig fopen (path :: rest) s = ([.read 0, .read 0, .string (some path)],
      match fopen path with
      | none => .crashed s
      | some contents => run.configLines (fgets PATH_MAX [] contents) s) := by
  simp only [cConfig, operand_bind, List.getElem?_cons_zero, useString_bind]
  cases fopen path <;> rfl

end CommandRun

end IoMonitor.Listener
