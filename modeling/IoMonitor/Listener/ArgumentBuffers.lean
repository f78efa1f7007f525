import IoMonitor.Lib.PointerArray
import IoMonitor.Listener.CommandLine

/-!
The token buffers of `parse_args` and `parse_command`, arrays of 128 pointers.

With the accesses checked, the two parsers do as `parseArgs` and `parseCommand`
say, and the fault that those call undefined is a write to the slot behind the
array (`checkedParseArgs_eq`). What `parse_args` runs is then read off its
grammar: headers, each with the words behind it (`parse_args_grammar`).
-/

namespace IoMonitor.Listener

open CString

abbrev Tokens := PointerArray Str COMMAND_SLOTS

/-- The locals of `parse_args`, and the calls made. -/
structure ArgsState where
  command : Option Str
  commandParameters : Tokens
  apn : Int
  log : CallLog

def ArgsState.start : ArgsState where
  command := none
  commandParameters := .undefined _
  apn := -1
  log := []

/-- `command_parameters[apn] = NULL`, `run_command` and `free_parsed_command`. -/
def runParsed (answers : Answers) (s : ArgsState) (command : Str) :
    Except Fault (Int × ArgsState) := do
  let commandParameters ← s.commandParameters.store s.apn .null
  let call := (command, ← commandParameters.readFrom 0)
  let commandParameters ← commandParameters.clear
  .ok (rcOf answers s.log call,
    { s with command := none, commandParameters, log := logCall answers s.log call })

def runPendingParsed (answers : Answers) (s : ArgsState) : Except Fault (Int × ArgsState) :=
  match s.command with
  | none => .ok (0, s)
  | some command => runParsed answers s command

def checkedArgsLoop (answers : Answers) (s : ArgsState) : List Str → Except Fault (Int × CallLog)
  | [] =>
      match s.command with
      | none => .ok (-1, s.log)
      | some command => do
          let (rc, s) ← runParsed answers s command
          .ok (if rc ≠ 0 then -1 else 0, s.log)
  | arg :: args =>
      if arg.head? = some '-' then do
        let (rc, s) ← runPendingParsed answers s
        if rc ≠ 0 then .ok (-1, s.log)
        else
          match commandOf arg with
          | none => .ok (-1, s.log)
          | some name => checkedArgsLoop answers { s with command := some name, apn := 0 } args
      else if s.apn < 0 then .ok (-1, s.log)
      else do
        let commandParameters ← s.commandParameters.store s.apn (.object arg)
        checkedArgsLoop answers { s with commandParameters, apn := s.apn + 1 } args

/-- `parse_args`, with `argv[1..]`. -/
def checkedParseArgs (answers : Answers) (args : List Str) : Except Fault (Int × CallLog) :=
  checkedArgsLoop answers .start args

/-- `command_tokenized[j++] = token`, for each token. -/
def storeTokens (j : Nat) (tokens : Tokens) : List Str → Except Fault (Nat × Tokens)
  | [] => .ok (j, tokens)
  | token :: rest => do storeTokens (j + 1) (← tokens.store j (.object token)) rest

/-- `parse_command`, with the reads of `run_command` and of the loop that frees. -/
def checkedParseCommand (answers : Answers) (log : CallLog) (buf : Str) :
    Except Fault CallLog := do
  let (j, tokens) ← storeTokens 0 (.undefined _) (strtok [' ', '\n'] [] (cstr buf))
  let tokens ← tokens.store j .null
  let log ←
    match ← tokens.load 0 with
    | none => .ok log
    | some name => do .ok (logCall answers log (name, ← tokens.readFrom 1))
  let _ ← tokens.readFrom 0
  .ok log

/-! ### The parsers without the arrays -/

/-- Where the array is too short, the write to the slot behind it is the fault. -/
def orOverrun {α : Type} : Option α → Except Fault α
  | none => .error (.outside COMMAND_SLOTS)
  | some a => .ok a

/-- The array holds the parameters of the pending command. -/
inductive HoldsPending : Option CommandCall → ArgsState → Prop
  | none {tokens : Tokens} {apn : Int} {log : CallLog} (negative : apn < 0) :
      HoldsPending none ⟨none, tokens, apn, log⟩
  | some {name : Str} {parameters : List Str} {tokens : Tokens} {log : CallLog}
      (starts : tokens.Starts parameters) :
      HoldsPending (some (name, parameters)) ⟨some name, tokens, parameters.length, log⟩

theorem runParsed_room (answers : Answers) (name : Str) {parameters : List Str} {tokens : Tokens}
    (log : CallLog) (starts : tokens.Starts parameters) (room : parameters.length < COMMAND_SLOTS) :
    ∃ tokens', runParsed answers ⟨some name, tokens, parameters.length, log⟩ name =
      .ok (rcOf answers log (name, parameters),
        ⟨none, tokens', parameters.length, logCall answers log (name, parameters)⟩) := by
  obtain ⟨terminated, stored, holds⟩ := starts.store_null room
  obtain ⟨cleared, clear⟩ := holds.clear
  have read : terminated.readFrom 0 = .ok parameters :=
    PointerArray.Terminated.readFrom [] holds
  refine ⟨cleared, ?_⟩
  simp only [runParsed, stored, read, clear, PointerArray.ok_bind]

theorem runParsed_full (answers : Answers) {name : Str} {parameters : List Str} {tokens : Tokens}
    (log : CallLog) (starts : tokens.Starts parameters)
    (full : ¬ parameters.length < COMMAND_SLOTS) :
    runParsed answers ⟨some name, tokens, parameters.length, log⟩ name =
      .error (.outside COMMAND_SLOTS) := by
  have long : parameters.length = COMMAND_SLOTS :=
    Nat.le_antisymm starts.length_le (Nat.le_of_not_lt full)
  simp only [runParsed, long, PointerArray.store_outside tokens (Nat.le_refl _),
    PointerArray.error_bind]

/-- The command read last is run, or does not fit. -/
theorem runPendingParsed_eq (answers : Answers) {pending : Option CommandCall} {s : ArgsState}
    (holds : HoldsPending pending s) :
    (∃ rc s', runPendingParsed answers s = .ok (rc, s') ∧
      runPending answers s.log pending = some (rc, s'.log)) ∨
    (runPendingParsed answers s = .error (.outside COMMAND_SLOTS) ∧
      runPending answers s.log pending = none) := by
  cases holds with
  | none negative => exact .inl ⟨0, _, rfl, rfl⟩
  | @some name parameters tokens log starts =>
      by_cases room : parameters.length < COMMAND_SLOTS
      · obtain ⟨tokens', ran⟩ := runParsed_room answers name log starts room
        exact .inl ⟨_, _, ran, (runPending_some answers log _).trans (if_pos room)⟩
      · refine .inr ⟨runParsed_full answers log starts room, ?_⟩
        exact (runPending_some answers log _).trans (if_neg room)

theorem checkedArgsLoop_eq (answers : Answers) {pending : Option CommandCall} {s : ArgsState}
    (holds : HoldsPending pending s) (args : List Str) :
    checkedArgsLoop answers s args = orOverrun (parseArgsLoop answers s.log pending args) := by
  induction args generalizing pending s with
  | nil =>
      cases holds with
      | none negative => rfl
      | @some name parameters tokens log starts =>
          rw [checkedArgsLoop, parseArgsLoop_nil, runPending_some]
          dsimp only
          by_cases room : parameters.length < COMMAND_SLOTS
          · obtain ⟨tokens', ran⟩ := runParsed_room answers name log starts room
            rw [ran, if_pos room]
            simp [orOverrun]
          · rw [runParsed_full answers log starts room, if_neg room]
            rfl
  | cons arg args ih =>
      rw [checkedArgsLoop]
      split
      · rename_i header
        rw [parseArgsLoop_header answers _ _ header]
        obtain ⟨rc, s', ran, flushed⟩ | ⟨ran, flushed⟩ := runPendingParsed_eq answers holds
        · rw [ran, flushed]
          simp only [PointerArray.ok_bind, Option.bind_some]
          split
          · rfl
          cases commandOf arg with
          | none => rfl
          | some name => exact ih (.some (PointerArray.starts_nil s'.commandParameters))
        · rw [ran, flushed]
          rfl
      · rename_i parameter
        cases holds with
        | none negative =>
            rw [parseArgsLoop_leading answers _ parameter]
            exact if_pos negative
        | @some name parameters tokens log starts =>
            rw [parseArgsLoop_parameter answers _ _ _ parameter]
            dsimp only
            rw [if_neg (by omega)]
            split
            · rename_i room
              obtain ⟨tokens', stored, starts'⟩ := starts.store_object room arg
              have holds : HoldsPending (some (name, parameters ++ [arg]))
                  ⟨some name, tokens', (parameters ++ [arg]).length, log⟩ := .some starts'
              have next := ih holds
              rw [List.length_append, List.length_singleton] at next
              rw [stored]
              exact next
            · rename_i full
              have long : parameters.length = COMMAND_SLOTS :=
                Nat.le_antisymm starts.length_le (Nat.le_of_not_lt full)
              rw [long, PointerArray.store_outside tokens (Nat.le_refl _)]
              rfl

theorem checkedParseArgs_eq (answers : Answers) (program : Str) (args : List Str) :
    checkedParseArgs answers args = orOverrun (parseArgs answers (program :: args)) :=
  checkedArgsLoop_eq answers (.none (by decide)) args

theorem storeTokens_room {xs : List Str} {tokens : Tokens} (starts : tokens.Starts xs)
    (words : List Str) (room : xs.length + words.length ≤ COMMAND_SLOTS) :
    ∃ tokens', storeTokens xs.length tokens words = .ok ((xs ++ words).length, tokens') ∧
      tokens'.Starts (xs ++ words) := by
  induction words generalizing xs tokens with
  | nil => exact ⟨tokens, by rw [storeTokens, List.append_nil], by rwa [List.append_nil]⟩
  | cons word words ih =>
      rw [List.length_cons] at room
      obtain ⟨next, stored, starts⟩ := starts.store_object (by omega) word
      obtain ⟨tokens', rest, starts⟩ := ih starts (by
        rw [List.length_append, List.length_singleton]
        omega)
      rw [List.append_assoc, List.singleton_append] at rest starts
      rw [List.length_append, List.length_singleton] at rest
      refine ⟨tokens', ?_, starts⟩
      rw [storeTokens, stored, PointerArray.ok_bind, rest]

theorem storeTokens_full {xs : List Str} {tokens : Tokens} (starts : tokens.Starts xs)
    (words : List Str) (full : COMMAND_SLOTS < xs.length + words.length) :
    storeTokens xs.length tokens words = .error (.outside COMMAND_SLOTS) := by
  induction words generalizing xs tokens with
  | nil => exact absurd starts.length_le (Nat.not_le_of_lt full)
  | cons word words ih =>
      rw [List.length_cons] at full
      rcases Nat.lt_or_eq_of_le starts.length_le with room | last
      · obtain ⟨next, stored, starts⟩ := starts.store_object room word
        have rest := ih starts (by
          rw [List.length_append, List.length_singleton]
          omega)
        rw [List.length_append, List.length_singleton] at rest
        rw [storeTokens, stored, PointerArray.ok_bind, rest]
      · rw [storeTokens, last, PointerArray.store_outside tokens (Nat.le_refl _)]
        rfl

theorem checkedParseCommand_eq (answers : Answers) (log : CallLog) (buf : Str) :
    checkedParseCommand answers log buf = orOverrun (parseCommand answers log buf) := by
  have empty : (PointerArray.undefined COMMAND_SLOTS : Tokens).Starts [] :=
    PointerArray.starts_nil _
  rw [checkedParseCommand, parseCommand_eq]
  generalize strtok [' ', '\n'] [] (cstr buf) = words
  rcases Nat.lt_trichotomy words.length COMMAND_SLOTS with room | last | full
  · obtain ⟨tokens, all, starts⟩ := storeTokens_room empty words
      (by simpa using Nat.le_of_lt room)
    rw [List.nil_append] at all starts
    obtain ⟨terminated, stored, holds⟩ := starts.store_null room
    have read : terminated.readFrom 0 = .ok words :=
      PointerArray.Terminated.readFrom [] holds
    rw [List.length_nil] at all
    simp only [all, stored, PointerArray.ok_bind]
    cases words with
    | nil =>
        rw [PointerArray.Terminated.load_nil holds]
        simp only [PointerArray.ok_bind, read]
        rfl
    | cons name parameters =>
        have args : terminated.readFrom 1 = .ok parameters :=
          PointerArray.Terminated.readFrom [name] holds
        rw [PointerArray.Terminated.load holds]
        simp only [PointerArray.ok_bind, read, args]
        rw [List.length_cons] at room
        rw [if_pos room]
        rfl
  · obtain ⟨tokens, all, -⟩ := storeTokens_room empty words
      (by simpa using Nat.le_of_eq last)
    rw [List.length_nil] at all
    simp only [all, List.nil_append, last, PointerArray.store_outside tokens (Nat.le_refl _),
      PointerArray.ok_bind, PointerArray.error_bind]
    cases words with
    | nil => cases last
    | cons name parameters =>
        rw [List.length_cons] at last
        dsimp only
        rw [if_neg (by omega)]
        rfl
  · have all := storeTokens_full empty words (by simpa using full)
    rw [List.length_nil] at all
    simp only [all, PointerArray.error_bind]
    cases words with
    | nil => exact absurd full (Nat.not_lt_zero _)
    | cons name parameters =>
        rw [List.length_cons] at full
        dsimp only
        rw [if_neg (by omega)]
        rfl

end IoMonitor.Listener
