import IoMonitor.Lib.Columns
import IoMonitor.Listener.CommandRuns

/-!
The two ways to give `mq_listener` its commands: `argv` and a configuration file.

Both parsers, with the calls of `run_command` logged and its results taken from
outside. Rendered in either way, a list of commands makes the same calls
(`config_as_args`).
-/

namespace IoMonitor.Listener

open CString Columns

/-! ### The calls -/

/-- The calls made and what each returned. -/
abbrev CallLog := List (CommandCall × Int)

/-- What `run_command` returns, given the calls up to this one. -/
abbrev Answers := List CommandCall → Int

def rcOf (answers : Answers) (log : CallLog) (call : CommandCall) : Int :=
  answers (log.map Prod.fst ++ [call])

def logCall (answers : Answers) (log : CallLog) (call : CommandCall) : CallLog :=
  log ++ [(call, rcOf answers log call)]

/-- A `run_command` that only returns. -/
def logged (answers : Answers) : CommandRun CallLog := fun call log =>
  .returned (.returns (rcOf answers log call)) (logCall answers log call)

/-- The result of a scan, and what it leaves; none of one that crashes. -/
def outcome {S : Type} : Exit S HandlerResult → Option (Int × S)
  | .returned (.returns rc) s => some (rc, s)
  | _ => none

/-! ### The parsers -/

def parseArgsLoop (answers : Answers) (log : CallLog) (pending : Option CommandCall)
    (args : List Str) : Option (Int × CallLog) :=
  outcome ((logged answers).parseArgsLoop pending args log)

/-- What `parse_args` returns and the calls it makes. -/
def parseArgs (answers : Answers) (argv : List Str) : Option (Int × CallLog) :=
  outcome ((logged answers).parseArgs argv [])

def parseCommand (answers : Answers) (log : CallLog) (buf : Str) : Option CallLog :=
  (outcome ((logged answers).parseCommand buf log)).map Prod.snd

def configLines (answers : Answers) (log : CallLog) (bufs : List Str) : Option CallLog :=
  (outcome ((logged answers).configLines bufs log)).map Prod.snd

/-- A path that is missing, or a file that does not open, is undefined. -/
def cConfig (answers : Answers) (files : Files) (args : List Str) (log : CallLog) :
    Option CallLog :=
  (outcome ((logged answers).cConfig files args log).2).map Prod.snd

/-- The command read last is run, if there is one. -/
def runPending (answers : Answers) (log : CallLog) (pending : Option CommandCall) :
    Option (Int × CallLog) :=
  outcome ((logged answers).runPending pending log)

theorem outcome_thenRc {S : Type} (p : Prog S HandlerResult) (f : Int → Prog S HandlerResult)
    (s : S) : outcome (thenRc p f s) = (outcome (p s)).bind fun r => outcome (f r.1 r.2) := by
  rw [thenRc, Prog.bind_apply]
  cases p s with
  | returned result s' => cases result <;> rfl
  | crashed s' => rfl
  | exhausted => rfl

theorem runPending_none (answers : Answers) (log : CallLog) :
    runPending answers log none = some (0, log) := rfl

theorem runPending_some (answers : Answers) (log : CallLog) (call : CommandCall) :
    runPending answers log (some call) =
      if call.2.length < COMMAND_SLOTS then some (rcOf answers log call, logCall answers log call)
      else none := by
  rw [runPending, CommandRun.runPending]
  split <;> rfl

theorem parseArgsLoop_nil (answers : Answers) (log : CallLog) (pending : Option CommandCall) :
    parseArgsLoop answers log pending [] =
      (runPending answers log pending).bind fun r =>
        some (if pending = none ∨ r.1 ≠ 0 then -1 else 0, r.2) := by
  rw [parseArgsLoop, CommandRun.parseArgsLoop, outcome_thenRc]
  rfl

theorem parseArgsLoop_header (answers : Answers) (log : CallLog) (pending : Option CommandCall)
    {arg : Str} (header : arg.head? = some '-') (args : List Str) :
    parseArgsLoop answers log pending (arg :: args) =
      (runPending answers log pending).bind fun r =>
        if r.1 ≠ 0 then some (-1, r.2)
        else
          match commandOf arg with
          | none => some (-1, r.2)
          | some name => parseArgsLoop answers r.2 (some (name, [])) args := by
  rw [parseArgsLoop, CommandRun.parseArgsLoop.eq_def]
  dsimp only
  rw [if_pos header, outcome_thenRc]
  refine Option.bind_congr fun r _ => ?_
  split
  · rfl
  · cases commandOf arg <;> rfl

theorem parseArgsLoop_parameter (answers : Answers) (log : CallLog) (name : Str)
    (parameters : List Str) {arg : Str} (parameter : arg.head? ≠ some '-') (args : List Str) :
    parseArgsLoop answers log (some (name, parameters)) (arg :: args) =
      if parameters.length < COMMAND_SLOTS then
        parseArgsLoop answers log (some (name, parameters ++ [arg])) args
      else none := by
  rw [parseArgsLoop, CommandRun.parseArgsLoop, if_neg parameter]
  split <;> rfl

theorem parseArgsLoop_leading (answers : Answers) (log : CallLog) {arg : Str}
    (parameter : arg.head? ≠ some '-') (args : List Str) :
    parseArgsLoop answers log none (arg :: args) = some (-1, log) := by
  rw [parseArgsLoop, CommandRun.parseArgsLoop, if_neg parameter]
  rfl

theorem parseCommand_eq (answers : Answers) (log : CallLog) (buf : Str) :
    parseCommand answers log buf = match strtok [' ', '\n'] [] (cstr buf) with
      | [] => some log
      | name :: parameters =>
          if parameters.length + 1 < COMMAND_SLOTS then some (logCall answers log (name, parameters))
          else none := by
  rw [parseCommand, CommandRun.parseCommand]
  cases strtok [' ', '\n'] [] (cstr buf) with
  | nil => rfl
  | cons name parameters =>
      dsimp only
      split <;> rfl

theorem configLines_cons (answers : Answers) (log : CallLog) (buf : Str) (rest : List Str) :
    configLines answers log (buf :: rest) = match readCommand buf with
      | none => configLines answers log rest
      | some call =>
          if call.2.length + 1 < COMMAND_SLOTS then
            configLines answers (logCall answers log call) rest
          else none := by
  rw [configLines, CommandRun.configLines_cons]
  cases readCommand buf with
  | none => rfl
  | some call =>
      dsimp only
      split
      · rw [outcome_thenRc]
        rfl
      · rfl

theorem cConfig_opened (answers : Answers) {files : Files} {path contents : Str}
    (opened : files path = some contents) (rest : List Str) (log : CallLog) :
    cConfig answers files (path :: rest) log =
      configLines answers log (fgets PATH_MAX [] contents) := by
  rw [cConfig, CommandRun.cConfig_cons, opened]
  rfl

/-! ### A list of commands, written down -/

/-- `--name p1 … pn`. -/
def asArgs (call : CommandCall) : List Str := ('-' :: '-' :: call.1) :: call.2

/-- `name p1 … pn`. -/
def asLine (call : CommandCall) : Str := join ' ' (call.1 :: call.2)

/-- A command that both ways can express. -/
structure Expressible (call : CommandCall) : Prop where
  words : ∀ w ∈ call.1 :: call.2, w ≠ [] ∧ ' ' ∉ w ∧ '\n' ∉ w ∧ nul ∉ w
  notComment : call.1.head? ≠ some '#'
  notCommands : ∀ p ∈ call.2, p.head? ≠ some '-'
  few : call.2.length ≤ 126
  short : (asLine call).length + 1 < PATH_MAX

/-- A file with a command on each line; the last may lack its newline. -/
def OneEachLine (contents : Str) (commands : List CommandCall) : Prop :=
  ∃ ending, (ending = [] ∨ ending = ['\n']) ∧
    contents = join '\n' (commands.map asLine) ++ ending

/-- The calls of the commands in order. -/
def logCalls (answers : Answers) (log : CallLog) (commands : List CommandCall) : CallLog :=
  commands.foldl (logCall answers) log

theorem logCalls_calls (answers : Answers) (log : CallLog) (commands : List CommandCall) :
    (logCalls answers log commands).map Prod.fst = log.map Prod.fst ++ commands := by
  induction commands generalizing log with
  | nil => simp [logCalls]
  | cons call commands ih =>
      rw [logCalls, List.foldl_cons]
      refine (ih (logCall answers log call)).trans ?_
      simp [logCall]

/-! ### `argv` -/

/-- The parameters of a command are collected. -/
theorem parseArgsLoop_parameters (answers : Answers) (log : CallLog) (name : Str)
    {parameters : List Str} (notCommands : ∀ p ∈ parameters, p.head? ≠ some '-')
    (collected rest : List Str) (few : collected.length + parameters.length ≤ 126) :
    parseArgsLoop answers log (some (name, collected)) (parameters ++ rest) =
      parseArgsLoop answers log (some (name, collected ++ parameters)) rest := by
  induction parameters generalizing collected with
  | nil => rw [List.nil_append, List.append_nil]
  | cons p parameters ih =>
      obtain ⟨parameter, others⟩ := List.forall_mem_cons.mp notCommands
      rw [List.length_cons] at few
      have room : collected.length < COMMAND_SLOTS := by
        unfold COMMAND_SLOTS
        omega
      have few' : (collected ++ [p]).length + parameters.length ≤ 126 := by
        rw [List.length_append, List.length_singleton]
        omega
      rw [List.cons_append, parseArgsLoop_parameter _ _ _ _ parameter, if_pos room,
        ih others _ few', List.append_assoc]
      rfl

theorem commandOf_asArgs {name : Str} (nonempty : name ≠ []) :
    commandOf ('-' :: '-' :: name) = some name := by
  rw [commandOf, if_neg nonempty]

/-- A command is left pending, with all of its parameters. -/
theorem parseArgsLoop_command (answers : Answers) {log log' : CallLog}
    {pending : Option CommandCall} {call : CommandCall} (expressible : Expressible call)
    (flushed : runPending answers log pending = some (0, log')) (rest : List Str) :
    parseArgsLoop answers log pending (asArgs call ++ rest) =
      parseArgsLoop answers log' (some call) rest := by
  have name := (expressible.words call.1 List.mem_cons_self).1
  have few : ([] : List Str).length + call.2.length ≤ 126 := by
    simpa using expressible.few
  have opens : parseArgsLoop answers log pending (asArgs call ++ rest) =
      parseArgsLoop answers log' (some (call.1, [])) (call.2 ++ rest) := by
    rw [asArgs, List.cons_append, parseArgsLoop_header _ _ _ rfl, flushed]
    simp [commandOf_asArgs name]
  rw [opens, parseArgsLoop_parameters answers log' call.1 expressible.notCommands [] rest few]
  rfl

theorem runPending_expressible (answers : Answers) (log : CallLog) {call : CommandCall}
    (expressible : Expressible call) :
    runPending answers log (some call) =
      some (rcOf answers log call, logCall answers log call) := by
  have room : call.2.length < COMMAND_SLOTS := Nat.lt_of_le_of_lt expressible.few (by decide)
  rw [runPending_some, if_pos room]

/-- A call that fails is the last. -/
theorem parseArgsLoop_fails (answers : Answers) (log : CallLog) {call : CommandCall}
    (expressible : Expressible call) (failed : rcOf answers log call ≠ 0)
    (commands : List CommandCall) :
    parseArgsLoop answers log (some call) (commands.flatMap asArgs) =
      some (-1, logCall answers log call) := by
  have flushed := runPending_expressible answers log expressible
  cases commands with
  | nil =>
      rw [List.flatMap_nil, parseArgsLoop_nil, flushed]
      simp [failed]
  | cons next commands =>
      rw [List.flatMap_cons, asArgs, List.cons_append, parseArgsLoop_header _ _ _ rfl, flushed]
      simp [failed]

/-- The scan makes no call that returns anything but 0. -/
def Succeeds (scan : Option (Int × CallLog)) : Prop :=
  ∀ rc log, scan = some (rc, log) → ∀ entry ∈ log, entry.2 = 0

/-- In a scan that succeeds the command read last returns 0. -/
theorem runPending_succeeds (answers : Answers) {log : CallLog} {call : CommandCall}
    (expressible : Expressible call) {commands : List CommandCall}
    (succeeds : Succeeds (parseArgsLoop answers log (some call) (commands.flatMap asArgs))) :
    runPending answers log (some call) = some (0, logCall answers log call) := by
  have returned : rcOf answers log call = 0 := by
    by_contra failed
    exact failed (succeeds _ _ (parseArgsLoop_fails answers log expressible failed commands) _
      (List.mem_append_right _ List.mem_cons_self))
  rw [runPending_expressible answers log expressible, returned]

/-- Each command is run when the next one is read, and the last one at the end. -/
theorem parseArgsLoop_commands (answers : Answers) {commands : List CommandCall}
    (expressible : ∀ call ∈ commands, Expressible call) {log : CallLog} {call : CommandCall}
    (first : Expressible call)
    (succeeds : Succeeds (parseArgsLoop answers log (some call) (commands.flatMap asArgs))) :
    parseArgsLoop answers log (some call) (commands.flatMap asArgs) =
      some (0, logCalls answers log (call :: commands)) := by
  induction commands generalizing log call with
  | nil =>
      rw [List.flatMap_nil, parseArgsLoop_nil, runPending_succeeds answers first succeeds]
      simp [logCalls]
  | cons next commands ih =>
      obtain ⟨second, others⟩ := List.forall_mem_cons.mp expressible
      have flushed := runPending_succeeds answers first succeeds
      rw [List.flatMap_cons, parseArgsLoop_command answers second flushed] at succeeds ⊢
      rw [ih others second succeeds]
      rfl

/-! ### Lines -/

theorem strtok_words {words : List Str}
    (h : ∀ w ∈ words, w ≠ [] ∧ ' ' ∉ w ∧ '\n' ∉ w ∧ nul ∉ w) {ending : Str}
    (ends : ending = [] ∨ ending = ['\n']) :
    strtok [' ', '\n'] [] (join ' ' words ++ ending) = words := by
  induction words with
  | nil => rcases ends with rfl | rfl <;> rfl
  | cons w words ih =>
      obtain ⟨⟨nonempty, space, newline, -⟩, others⟩ := List.forall_mem_cons.mp h
      have plain : ∀ c ∈ w, c ∉ [' ', '\n'] := by
        rintro c mem delim
        rcases List.mem_pair.mp delim with rfl | rfl
        · exact space mem
        · exact newline mem
      cases words with
      | nil =>
          rw [join_singleton, strtok_word plain]
          rcases ends with rfl | rfl
          · rw [List.nil_append, strtok, if_neg nonempty]
          · rw [List.nil_append, strtok_delim nonempty (by decide)]
            rfl
      | cons w' words =>
          rw [join_cons_cons, List.append_assoc, strtok_word plain, List.nil_append,
            List.cons_append, strtok_delim nonempty (by decide), ih others]

theorem notMem_asLine {call : CommandCall} {c : Char} (ne : c ≠ ' ')
    (h : ∀ w ∈ call.1 :: call.2, c ∉ w) : c ∉ asLine call := by
  intro mem
  obtain ⟨w, word, within⟩ := (mem_join_iff ne _).mp mem
  exact h w word within

/-- The line starts as the name does. -/
theorem head_asLine {call : CommandCall} (nonempty : call.1 ≠ []) (ending : Str) :
    (asLine call ++ ending).head? = call.1.head? := by
  obtain ⟨c, name, named⟩ := List.exists_cons_of_ne_nil nonempty
  rw [asLine, named]
  cases call.2 with
  | nil => simp [join]
  | cons p parameters => simp [join_cons_cons]

theorem asLine_ne_nil {call : CommandCall} (expressible : Expressible call) : asLine call ≠ [] := by
  intro empty
  have nonempty := (expressible.words call.1 List.mem_cons_self).1
  have head := head_asLine nonempty []
  rw [empty] at head
  exact nonempty (List.head?_eq_none_iff.mp head.symm)

theorem readCommand_asLine {call : CommandCall} (expressible : Expressible call) {ending : Str}
    (ends : ending = [] ∨ ending = ['\n']) : readCommand (asLine call ++ ending) = some call := by
  have nonempty := (expressible.words call.1 List.mem_cons_self).1
  have noNul : nul ∉ asLine call ++ ending := by
    rw [List.mem_append, not_or]
    constructor
    · exact notMem_asLine (by decide) fun w word => (expressible.words w word).2.2.2
    · rcases ends with rfl | rfl <;> decide
  have tokens := strtok_words expressible.words ends
  rw [readCommand, if_neg (head_asLine nonempty ending ▸ expressible.notComment), cstr,
    takeWhile_eq_self noNul, asLine, tokens]
  rfl

/-- Each line makes the call of its command. -/
theorem configLines_commands (answers : Answers) {commands : List CommandCall}
    (expressible : ∀ call ∈ commands, Expressible call) (log : CallLog) {ending : Str}
    (ends : ending = [] ∨ ending = ['\n']) :
    configLines answers log (fgets PATH_MAX [] (join '\n' (commands.map asLine) ++ ending)) =
      some (logCalls answers log commands) := by
  induction commands generalizing log with
  | nil =>
      rcases ends with rfl | rfl
      · rfl
      · have blank : fgets PATH_MAX [] (join '\n' (([] : List CommandCall).map asLine) ++ ['\n']) =
            [['\n']] := by decide
        rw [blank, configLines_cons]
        rfl
  | cons call commands ih =>
      obtain ⟨first, others⟩ := List.forall_mem_cons.mp expressible
      have newline : '\n' ∉ asLine call :=
        notMem_asLine (by decide) fun w word => (first.words w word).2.2.1
      have room : call.2.length + 1 < COMMAND_SLOTS :=
        Nat.lt_of_le_of_lt (Nat.succ_le_succ first.few) (by decide)
      cases commands with
      | nil =>
          have single := fgets_lastLine newline (asLine_ne_nil first) ends first.short
          have one : join '\n' ([call].map asLine) = asLine call := join_singleton _ _
          rw [one, single, configLines_cons, readCommand_asLine first ends]
          dsimp only
          rw [if_pos room]
          rfl
      | cons next commands =>
          have line := fgets_line newline (join '\n' ((next :: commands).map asLine) ++ ending)
            first.short
          rw [List.map_cons, List.map_cons, join_cons_cons, List.append_assoc, List.cons_append,
            ← List.map_cons, line, configLines_cons, readCommand_asLine first (.inr rfl)]
          dsimp only
          rw [if_pos room]
          exact ih others (logCall answers log call)

/-! ### Both -/

/-- **The command line and the configuration file agree.** The commands as
arguments and as lines make the same calls, in order, while `run_command`
returns 0. -/
theorem config_as_args (answers : Answers) (files : Files) {commands : List CommandCall}
    (nonempty : commands ≠ []) (expressible : ∀ call ∈ commands, Expressible call)
    {path : Str} {contents : Str} (opened : files path = some contents)
    (lines : OneEachLine contents commands) (program : Str)
    (succeeds : Succeeds (parseArgs answers (program :: commands.flatMap asArgs))) :
    ∃ log, parseArgs answers (program :: commands.flatMap asArgs) = some (0, log) ∧
      cConfig answers files [path] [] = some log ∧ log.map Prod.fst = commands := by
  refine ⟨logCalls answers [] commands, ?_, ?_, logCalls_calls answers [] commands⟩
  · obtain ⟨call, others, rfl⟩ := List.exists_cons_of_ne_nil nonempty
    obtain ⟨first, rest⟩ := List.forall_mem_cons.mp expressible
    have scan : parseArgs answers (program :: (call :: others).flatMap asArgs) =
        parseArgsLoop answers [] (some call) (others.flatMap asArgs) := by
      rw [List.flatMap_cons]
      exact parseArgsLoop_command answers first (runPending_none answers []) _
    rw [scan] at succeeds ⊢
    exact parseArgsLoop_commands answers rest first succeeds
  · obtain ⟨ending, ends, rfl⟩ := lines
    rw [cConfig_opened answers opened]
    exact configLines_commands answers expressible [] ends

/-- `--mq-path mq1 --load-plugin output_csv.so fast` and the two lines. -/
def startup : List CommandCall :=
  [("mq-path".toList, ["mq1".toList]),
    ("load-plugin".toList, ["output_csv.so".toList, "fast".toList])]

theorem startup_expressible : ∀ call ∈ startup, Expressible call := by
  intro call mem
  rcases List.mem_pair.mp mem with rfl | rfl
  · exact ⟨by decide, by decide, by decide, by decide, by decide⟩
  · exact ⟨by decide, by decide, by decide, by decide, by decide⟩

theorem startup_succeeds :
    Succeeds (parseArgs (fun _ => 0) ("mq_listener".toList :: startup.flatMap asArgs)) := by
  have scan : parseArgs (fun _ => 0) ("mq_listener".toList :: startup.flatMap asArgs) =
      some (0, startup.map (·, 0)) := rfl
  intro rc log ran
  rw [scan] at ran
  cases ran
  decide

theorem config_as_args_startup :
    ∃ log, parseArgs (fun _ => 0) ("mq_listener".toList :: startup.flatMap asArgs) = some (0, log) ∧
      cConfig (fun _ => 0)
          (fun _ => some "mq-path mq1\nload-plugin output_csv.so fast\n".toList)
          ["listener.conf".toList] [] = some log ∧
      log.map Prod.fst = startup := by
  have lines : OneEachLine "mq-path mq1\nload-plugin output_csv.so fast\n".toList startup :=
    ⟨['\n'], .inr rfl, by decide⟩
  exact config_as_args (fun _ => 0) (fun _ => some _) (by decide) startup_expressible rfl lines _
    startup_succeeds

end IoMonitor.Listener
