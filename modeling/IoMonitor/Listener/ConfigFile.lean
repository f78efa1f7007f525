import IoMonitor.Listener.ArgumentGrammar

/-!
`c_config`, line by line.

`configRun` marks each call with the number of the line it was read from. A file asks
for one call from each line that is not blank and no comment. It gets those from the
lines that `fgets` does not cut in two commands, or comments in commands, and nothing
stops at a call that fails (`config_line_exact_iff`).
-/

namespace IoMonitor.Listener

open CString

/-- The calls made, each with the number of its line and its result. -/
abbrev LineLog := List ((Nat × CommandCall) × Int)

def LineLog.calls (log : LineLog) : CallLog := log.map fun entry => (entry.1.2, entry.2)

def logLine (answers : Answers) (log : LineLog) (command : Nat × CommandCall) : LineLog :=
  log ++ [(command, rcOf answers log.calls command.2)]

/-- The numbers of the lines that the reads of `fgets` are of. -/
def readNumbers (contents : Str) : List Nat :=
  (linesOf [] contents).zipIdx.flatMap fun line => (fgets PATH_MAX [] line.1).map fun _ => line.2

/-- What `fgets` reads, each with the number of the line it is of. -/
def numberedReads (contents : Str) : List (Nat × Str) :=
  (readNumbers contents).zip (fgets PATH_MAX [] contents)

/-- A `run_command` that only returns, at a line. -/
def loggedAt (answers : Answers) (line : Nat) : CommandRun LineLog := fun call log =>
  .returned (.returns (rcOf answers log.calls call)) (logLine answers log (line, call))

/-- The loop of `c_config`. -/
def numberedLines (answers : Answers) : List (Nat × Str) → Prog LineLog HandlerResult
  | [] => pure (.returns 0)
  | (line, buf) :: rest => thenRc ((loggedAt answers line).configLine buf) fun _ =>
      numberedLines answers rest

/-- `c_config` on an open file. -/
def configRun (answers : Answers) (contents : Str) : Option (Int × LineLog) :=
  outcome (numberedLines answers (numberedReads contents) [])

/-! ### The numbers -/

theorem calls_logLine (answers : Answers) (log : LineLog) (command : Nat × CommandCall) :
    (logLine answers log command).calls = logCall answers log.calls command.2 := by
  simp [logLine, LineLog.calls, logCall]

/-- The reads are those of the lines, one after the other. -/
theorem numberedReads_eq (contents : Str) :
    numberedReads contents = (linesOf [] contents).zipIdx.flatMap fun line =>
      (fgets PATH_MAX [] line.1).map (line.2, ·) := by
  have reads : ∀ (lines : List Str) k, lines.flatMap (fgets PATH_MAX []) =
      (lines.zipIdx k).flatMap fun line => fgets PATH_MAX [] line.1 := by
    intro lines
    induction lines with
    | nil => exact fun _ => rfl
    | cons line lines ih =>
        intro k
        rw [List.flatMap_cons, List.zipIdx_cons, List.flatMap_cons, ih (k + 1)]
  have pieces : (linesOf [] contents).flatMap (fgets PATH_MAX []) = fgets PATH_MAX [] contents :=
    fgets_linesOf PATH_MAX [] contents
  rw [numberedReads, readNumbers, ← pieces, reads _ 0]
  generalize (linesOf [] contents).zipIdx = lines
  induction lines with
  | nil => rfl
  | cons line lines ih =>
      rw [List.flatMap_cons, List.flatMap_cons, List.flatMap_cons, List.zip_append (by simp), ih]
      congr 1
      have same := List.zip_map' (l := fgets PATH_MAX [] line.1) (f := fun _ => line.2) (g := id)
      rwa [List.map_id] at same

/-! ### What a file asks for -/

/-- None from a comment, or a line without words. -/
def lineCommand (line : Str) : Option CommandCall :=
  if line.head? = some '#' then none else commandOfWords (strtok [' ', '\n'] [] line)

/-- The commands of each line, with its number. -/
def numbered (commands : Str → List CommandCall) (contents : Str) : List (Nat × CommandCall) :=
  (linesOf [] contents).zipIdx.flatMap fun line => (commands line.1).map (line.2, ·)

def commandLines (contents : Str) : List (Nat × CommandCall) :=
  numbered (fun line => (lineCommand line).toList) contents

/-- One call from each of those lines, as far as one that fails, which is told. -/
structure LineExact (answers : Answers) (contents : Str) (rc : Int) (log : LineLog) : Prop where
  calls : log.calls = callUntilFailure answers [] ((commandLines contents).map Prod.snd)
  lines : log.map Prod.fst <+: commandLines contents
  result : rc = 0 ↔ NoneFailed log.calls

/-- Cut where the buffer of `fgets` is full, a comment stays one, and another line
has its words in one piece that does not look like a comment. -/
def ReadWhole (line : Str) : Prop :=
  if line.head? = some '#' then
    ∀ read ∈ fgets PATH_MAX [] line,
      read.head? = some '#' ∨ strtok [' ', '\n'] [] (cstr read) = []
  else
    nul ∉ line ∧ (∀ read ∈ fgets PATH_MAX [] line, read.head? ≠ some '#') ∧
      ((fgets PATH_MAX [] line).filter fun read => strtok [' ', '\n'] [] read ≠ []).length ≤ 1

/-! ### The calls of the run -/

/-- The commands of the reads, each with its number. -/
def readsCommands (reads : List (Nat × Str)) : List (Nat × CommandCall) :=
  reads.flatMap fun read => (readCommand read.2).toList.map (read.1, ·)

/-- The loop, one read further. -/
theorem numberedLines_cons (answers : Answers) (log : LineLog) (read : Nat × Str)
    (reads : List (Nat × Str)) :
    outcome (numberedLines answers (read :: reads) log) = match readCommand read.2 with
      | none => outcome (numberedLines answers reads log)
      | some call =>
          if call.2.length + 1 < COMMAND_SLOTS then
            outcome (numberedLines answers reads (logLine answers log (read.1, call)))
          else none := by
  rw [numberedLines, outcome_thenRc, CommandRun.configLine_eq]
  cases readCommand read.2 with
  | none => rfl
  | some call =>
      dsimp only
      split <;> rfl

theorem numberedLines_calls (answers : Answers) {reads : List (Nat × Str)} {log log' : LineLog}
    {rc : Int} (ran : outcome (numberedLines answers reads log) = some (rc, log')) :
    rc = 0 ∧ log'.map Prod.fst = log.map Prod.fst ++ readsCommands reads ∧
      log'.calls = logCalls answers log.calls ((readsCommands reads).map Prod.snd) := by
  induction reads generalizing log with
  | nil =>
      cases ran
      exact ⟨rfl, (List.append_nil _).symm, rfl⟩
  | cons read reads ih =>
      rw [numberedLines_cons] at ran
      rw [readsCommands, List.flatMap_cons]
      cases command : readCommand read.2 with
      | none =>
          rw [command] at ran
          exact ih ran
      | some call =>
          rw [command] at ran
          dsimp only at ran
          split at ran
          · obtain ⟨zero, lines, calls⟩ := ih ran
            rw [lines, calls, calls_logLine]
            refine ⟨zero, ?_, rfl⟩
            rw [logLine, List.map_append, List.append_assoc]
            rfl
          · cases ran

theorem numberedLines_isSome (answers : Answers) {reads : List (Nat × Str)}
    (few : ∀ read ∈ reads, ∀ call, readCommand read.2 = some call →
      call.2.length + 1 < COMMAND_SLOTS) (log : LineLog) :
    ∃ result, outcome (numberedLines answers reads log) = some result := by
  induction reads generalizing log with
  | nil => exact ⟨(0, log), rfl⟩
  | cons read reads ih =>
      obtain ⟨room, others⟩ := List.forall_mem_cons.mp few
      rw [numberedLines_cons]
      cases command : readCommand read.2 with
      | none => exact ih others log
      | some call =>
          dsimp only
          rw [if_pos (room call command)]
          exact ih others _

/-- The commands that are read of a line. -/
def lineReads (line : Str) : List CommandCall :=
  (fgets PATH_MAX [] line).flatMap fun read => (readCommand read).toList

theorem readsCommands_numberedReads (contents : Str) :
    readsCommands (numberedReads contents) = numbered lineReads contents := by
  rw [readsCommands, numberedReads_eq, numbered, List.flatMap_assoc]
  refine List.flatMap_congr fun line _ => ?_
  rw [List.flatMap_map, lineReads, List.map_flatMap]

/-- The numbers tell the lines apart. -/
theorem numbered_eq_iff {f g : Str → List CommandCall} {contents : Str} :
    numbered f contents = numbered g contents ↔ ∀ line ∈ linesOf [] contents, f line = g line := by
  suffices from_ : ∀ (lines : List Str) k,
      ((lines.zipIdx k).flatMap fun line => (f line.1).map (line.2, ·)) =
        ((lines.zipIdx k).flatMap fun line => (g line.1).map (line.2, ·)) ↔
      ∀ line ∈ lines, f line = g line from from_ _ 0
  intro lines
  induction lines with
  | nil => simp
  | cons line lines ih =>
      intro k
      -- a filter by number keeps the commands of the first line
      have first : ∀ h : Str → List CommandCall,
          (((line :: lines).zipIdx k).flatMap fun line => (h line.1).map (line.2, ·)).filter
            (·.1 = k) = (h line).map (k, ·) := by
        intro h
        rw [List.zipIdx_cons, List.flatMap_cons, List.filter_append, List.filter_eq_self.mpr,
          List.filter_eq_nil_iff.mpr, List.append_nil]
        · intro command mem
          obtain ⟨numbered, within, mem⟩ := List.mem_flatMap.mp mem
          obtain ⟨call, -, rfl⟩ := List.mem_map.mp mem
          have later := List.le_snd_of_mem_zipIdx within
          simp only [decide_eq_true_eq]
          omega
        · intro command mem
          obtain ⟨call, -, rfl⟩ := List.mem_map.mp mem
          simp
      rw [List.forall_mem_cons]
      constructor
      · intro same
        have head : (f line).map (k, ·) = (g line).map (k, ·) := by rw [← first f, same, first g]
        have head : f line = g line :=
          List.map_injective_iff.mpr (fun _ _ same => (Prod.mk.inj same).2) head
        rw [List.zipIdx_cons, List.flatMap_cons, List.flatMap_cons, head,
          List.append_cancel_left_eq] at same
        exact ⟨head, (ih (k + 1)).mp same⟩
      · rintro ⟨head, rest⟩
        rw [List.zipIdx_cons, List.flatMap_cons, List.flatMap_cons, head, (ih (k + 1)).mpr rest]

/-! ### Lines that are cut -/

/-- The characters of a line's words. -/
def kept (s : Str) : Str := s.filter (· ∉ [' ', '\n'])

def text (calls : List CommandCall) : Str := calls.flatMap fun call => (call.1 :: call.2).flatten

theorem text_commandOfWords (words : List Str) :
    text (commandOfWords words).toList = words.flatten := by
  cases words with
  | nil => rfl
  | cons name parameters => exact List.append_nil _

/-- The words of a string with at most one piece that is not blank are those of that piece. -/
theorem commandOfWords_pieces {reads : List Str}
    (single : (reads.filter fun read => strtok [' ', '\n'] [] read ≠ []).length ≤ 1) :
    (reads.flatMap fun read => (commandOfWords (strtok [' ', '\n'] [] read)).toList) =
      (commandOfWords (strtok [' ', '\n'] [] reads.flatten)).toList := by
  induction reads with
  | nil => rfl
  | cons read reads ih =>
      rw [List.flatMap_cons, List.flatten_cons]
      by_cases blank : strtok [' ', '\n'] [] read = []
      · rw [List.filter_cons_of_neg (by simpa using blank)] at single
        rw [ih single, blank, strtok_delims_append (strtok_eq_nil_iff.mp blank)]
        rfl
      · rw [List.filter_cons_of_pos (by simpa using blank), List.length_cons] at single
        have others : ∀ r ∈ reads, strtok [' ', '\n'] [] r = [] := by
          have none := List.length_eq_zero_iff.mp (Nat.le_zero.mp (Nat.le_of_succ_le_succ single))
          simpa [List.filter_eq_nil_iff] using none
        have delims : ∀ c ∈ reads.flatten, c ∈ [' ', '\n'] := by
          intro c mem
          obtain ⟨r, within, mem⟩ := List.mem_flatten.mp mem
          exact strtok_eq_nil_iff.mp (others r within) c mem
        rw [strtok_append_delims delims, List.flatMap_eq_nil_iff.mpr, List.append_nil]
        intro r mem
        rw [others r mem]
        rfl

theorem length_flatMap_le {α β : Type} {f g : α → List β} {xs : List α}
    (le : ∀ x ∈ xs, (f x).length ≤ (g x).length) :
    (xs.flatMap f).length ≤ (xs.flatMap g).length := by
  induction xs with
  | nil => exact Nat.le_refl _
  | cons x xs ih =>
      obtain ⟨first, others⟩ := List.forall_mem_cons.mp le
      rw [List.flatMap_cons, List.flatMap_cons, List.length_append, List.length_append]
      exact Nat.add_le_add first (ih others)

/-- Pieces no longer than others, of the same length in total, are each as long. -/
theorem length_eq_of_flatMap {α β : Type} {f g : α → List β} {xs : List α}
    (le : ∀ x ∈ xs, (f x).length ≤ (g x).length)
    (same : (xs.flatMap f).length = (xs.flatMap g).length) :
    ∀ x ∈ xs, (f x).length = (g x).length := by
  induction xs with
  | nil => simp
  | cons x xs ih =>
      obtain ⟨first, others⟩ := List.forall_mem_cons.mp le
      have rest := length_flatMap_le others
      simp only [List.flatMap_cons, List.length_append] at same
      exact List.forall_mem_cons.mpr ⟨by omega, ih others (by omega)⟩

/-- A read loses the characters behind a NUL, and all of what looks like a comment. -/
theorem text_readCommand (read : Str) :
    text (readCommand read).toList = if read.head? = some '#' then [] else kept (cstr read) := by
  rw [readCommand]
  split
  · rfl
  · rw [text_commandOfWords, strtok_flatten, List.nil_append, kept]

theorem length_text_readCommand_le (read : Str) :
    (text (readCommand read).toList).length ≤ (kept read).length := by
  rw [text_readCommand]
  split
  · exact Nat.zero_le _
  · exact ((List.takeWhile_prefix _).sublist.filter _).length_le

theorem whole_of_length_text {read : Str}
    (same : (text (readCommand read).toList).length = (kept read).length) :
    read.head? ≠ some '#' ∧ nul ∉ read := by
  rw [text_readCommand] at same
  split at same
  · rename_i comment
    obtain ⟨rest, rfl⟩ := List.head?_eq_some_iff.mp comment
    rw [kept, List.filter_cons_of_pos (by decide)] at same
    cases same
  · rename_i command
    refine ⟨command, fun mem => ?_⟩
    have whole : kept (cstr read) = kept read :=
      ((List.takeWhile_prefix _).sublist.filter _).eq_of_length same
    have lost : nul ∈ kept (cstr read) := by
      rw [whole]
      exact List.mem_filter.mpr ⟨mem, by decide⟩
    have noNul := List.mem_takeWhile_imp (List.mem_filter.mp lost).1
    simp at noNul

theorem length_flatMap_toList {α β : Type} (f : α → Option β) (xs : List α) :
    (xs.flatMap fun x => (f x).toList).length = (xs.filter fun x => (f x).isSome).length := by
  induction xs with
  | nil => rfl
  | cons x xs ih =>
      rw [List.flatMap_cons, List.length_append, ih, List.filter_cons]
      cases f x with
      | none => simp
      | some a =>
          rw [Option.isSome_some, if_pos rfl, List.length_cons]
          exact Nat.add_comm _ _

theorem isSome_commandOfWords (words : List Str) :
    (commandOfWords words).isSome = decide (words ≠ []) := by
  cases words <;> simp [commandOfWords]

theorem readCommand_of_whole {read : Str} (command : read.head? ≠ some '#') (noNul : nul ∉ read) :
    readCommand read = commandOfWords (strtok [' ', '\n'] [] read) := by
  rw [readCommand, if_neg command, cstr_of_noNul noNul]

/-- A line makes the call that it asks for iff it is read whole. -/
theorem readWhole_iff {line : Str} :
    lineReads line = (lineCommand line).toList ↔ ReadWhole line := by
  have pieces : (fgets PATH_MAX [] line).flatten = line := fgets_flatten PATH_MAX [] line
  rw [lineCommand, ReadWhole]
  by_cases comment : line.head? = some '#'
  · rw [if_pos comment, if_pos comment, lineReads, Option.toList_none, List.flatMap_eq_nil_iff]
    refine forall₂_congr fun read _ => ?_
    rw [Option.toList_eq_nil_iff, readCommand]
    by_cases head : read.head? = some '#'
    · simp [head]
    · rw [if_neg head, or_iff_right head]
      cases strtok [' ', '\n'] [] (cstr read) <;> simp [commandOfWords]
  rw [if_neg comment, if_neg comment]
  have asRead (whole : ∀ read ∈ fgets PATH_MAX [] line, read.head? ≠ some '#' ∧ nul ∉ read) :
      lineReads line = (fgets PATH_MAX [] line).flatMap fun read =>
        (commandOfWords (strtok [' ', '\n'] [] read)).toList :=
    List.flatMap_congr fun read mem => by
      rw [readCommand_of_whole (whole read mem).1 (whole read mem).2]
  constructor
  · intro same
    have chars : ((fgets PATH_MAX [] line).flatMap fun read => text (readCommand read).toList) =
        (fgets PATH_MAX [] line).flatMap kept :=
      calc
        _ = text (lineReads line) := by rw [lineReads, text, List.flatMap_assoc]; rfl
        _ = kept line := by rw [same, text_commandOfWords, strtok_flatten, List.nil_append, kept]
        _ = kept (fgets PATH_MAX [] line).flatten := by rw [pieces]
        _ = _ := by rw [kept, List.filter_flatten]; rfl
    have whole := fun read mem => whole_of_length_text (length_eq_of_flatMap
      (fun read _ => length_text_readCommand_le read) (congrArg List.length chars) read mem)
    refine ⟨?_, fun read mem => (whole read mem).1, ?_⟩
    · rw [← pieces, List.mem_flatten]
      rintro ⟨read, within, mem⟩
      exact (whole read within).2 mem
    · have count := congrArg List.length same
      rw [asRead whole, length_flatMap_toList] at count
      simp only [isSome_commandOfWords] at count
      rw [count]
      exact Option.length_toList_le
  · rintro ⟨noNul, commands, single⟩
    rw [asRead fun read mem => ⟨commands read mem, fun nulMem => noNul ?_⟩,
      commandOfWords_pieces single, pieces]
    rw [← pieces]
    exact List.mem_flatten.mpr ⟨read, mem, nulMem⟩

/-! ### The file -/

theorem configRun_calls (answers : Answers) {contents : Str} {rc : Int} {log : LineLog}
    (ran : configRun answers contents = some (rc, log)) :
    rc = 0 ∧ log.map Prod.fst = numbered lineReads contents ∧
      log.calls = logCalls answers [] ((numbered lineReads contents).map Prod.snd) := by
  have made := numberedLines_calls answers ran
  rwa [readsCommands_numberedReads] at made

theorem callUntilFailure_clean {answers : Answers} {log : CallLog} {calls : List CommandCall}
    (clean : NoneFailed (logCalls answers log calls)) :
    callUntilFailure answers log calls = logCalls answers log calls := by
  induction calls generalizing log with
  | nil => rfl
  | cons call calls ih =>
      have ok : rcOf answers log call = 0 :=
        clean _ (mem_logCalls (List.mem_append_right _ List.mem_cons_self) calls)
      rw [callUntilFailure, if_pos ok, ih clean]
      rfl

theorem logCalls_of_noneFailed {answers : Answers} {log : CallLog} {calls : List CommandCall}
    (clean : NoneFailed (callUntilFailure answers log calls)) :
    callUntilFailure answers log calls = logCalls answers log calls := by
  induction calls generalizing log with
  | nil => rfl
  | cons call calls ih =>
      rw [callUntilFailure] at clean ⊢
      split at clean
      · rename_i ok
        rw [if_pos ok, ih clean]
        rfl
      · rename_i failed
        exact absurd (clean _ (List.mem_append_right _ List.mem_cons_self)) failed

/-- With at most 127 words in a line its command fits. -/
theorem commandLines_fit {contents : Str}
    (few : ∀ line ∈ linesOf [] contents, line.head? ≠ some '#' →
      (strtok [' ', '\n'] [] line).length ≤ 127) {command : Nat × CommandCall}
    (mem : command ∈ commandLines contents) : command.2.2.length + 1 < COMMAND_SLOTS := by
  obtain ⟨line, within, mem⟩ := List.mem_flatMap.mp mem
  obtain ⟨call, asked, rfl⟩ := List.mem_map.mp mem
  have asked := Option.mem_toList.mp asked
  rw [lineCommand] at asked
  split at asked
  · cases asked
  · rename_i command
    have short := few line.1 (List.fst_mem_of_mem_zipIdx within) command
    cases words : strtok [' ', '\n'] [] line.1 with
    | nil =>
        rw [words] at asked
        cases asked
    | cons name parameters =>
        rw [words] at asked short
        cases asked
        exact Nat.lt_succ_of_le short

/-- **The configuration file.** Each line makes its call, up to one that fails, iff all
lines are read whole and no call fails. -/
theorem config_line_exact_iff (answers : Answers) {contents : Str}
    (few : ∀ line ∈ linesOf [] contents, line.head? ≠ some '#' →
      (strtok [' ', '\n'] [] line).length ≤ 127) :
    (∃ rc log, configRun answers contents = some (rc, log) ∧
        LineExact answers contents rc log) ↔
      (∀ line ∈ linesOf [] contents, ReadWhole line) ∧
        NoneFailed (logCalls answers [] ((commandLines contents).map Prod.snd)) := by
  have whole_iff : (∀ line ∈ linesOf [] contents, ReadWhole line) ↔
      numbered lineReads contents = commandLines contents :=
    (forall₂_congr fun _ _ => readWhole_iff.symm).trans numbered_eq_iff.symm
  rw [whole_iff]
  constructor
  · rintro ⟨rc, log, ran, calls, lines, result⟩
    obtain ⟨returned, made, -⟩ := configRun_calls answers ran
    have clean := result.mp returned
    rw [calls] at clean
    have all := logCalls_of_noneFailed clean
    have length : (log.map Prod.fst).length = (commandLines contents).length := by
      have made := congrArg (fun calls : CallLog => (calls.map Prod.fst).length) (calls.trans all)
      simpa [logCalls_calls, LineLog.calls] using made
    exact ⟨made.symm.trans (lines.eq_of_length length), all ▸ clean⟩
  · rintro ⟨whole, clean⟩
    obtain ⟨⟨rc, log⟩, ran⟩ : ∃ result, configRun answers contents = some result := by
      refine numberedLines_isSome answers (fun read mem call command => ?_) []
      have asked : (read.1, call) ∈ commandLines contents := by
        rw [← whole, ← readsCommands_numberedReads]
        exact List.mem_flatMap.mpr ⟨read, mem, by simp [command]⟩
      exact commandLines_fit few asked
    obtain ⟨rfl, made, calls⟩ := configRun_calls answers ran
    rw [whole] at made calls
    refine ⟨0, log, ran, ?_, made ▸ List.prefix_refl _, ?_⟩
    · rw [calls, callUntilFailure_clean clean]
    · exact iff_of_true rfl (calls ▸ clean)

/-- A short line without NUL is read whole. -/
theorem readWhole_of_short {line : Str} (noNul : nul ∉ line)
    (single : fgets PATH_MAX [] line = [line]) : ReadWhole line := by
  rw [ReadWhole, single]
  split
  · rename_i comment
    simp [comment]
  · rename_i command
    exact ⟨noNul, by simpa using command, List.length_filter_le _ _⟩

theorem config_line_exact_two : ∃ rc log,
    configRun (fun _ => 0) "# queue\nmq-path mq1\n\nhelp".toList = some (rc, log) ∧
      LineExact (fun _ => 0) "# queue\nmq-path mq1\n\nhelp".toList rc log := by
  refine (config_line_exact_iff (fun _ => 0) (by decide)).mpr ⟨?_, by decide⟩
  intro line mem
  have lines : linesOf [] "# queue\nmq-path mq1\n\nhelp".toList =
    ["# queue\n".toList, "mq-path mq1\n".toList, "\n".toList, "help".toList] := by decide
  rw [lines] at mem
  rcases List.mem_cons.mp mem with rfl | mem
  · exact readWhole_of_short (by decide) (by decide)
  rcases List.mem_cons.mp mem with rfl | mem
  · exact readWhole_of_short (by decide) (by decide)
  rcases List.mem_pair.mp mem with rfl | rfl
  · exact readWhole_of_short (by decide) (by decide)
  · exact readWhole_of_short (by decide) (by decide)

/-- The failure of a command is not told. -/
theorem config_hides_failure : ¬ ∀ answers contents,
    (∀ line ∈ linesOf [] contents, line.head? ≠ some '#' →
      (strtok [' ', '\n'] [] line).length ≤ 127) →
    ∃ rc log, configRun answers contents = some (rc, log) ∧
      LineExact answers contents rc log := by
  intro exact_
  obtain ⟨rc, log, ran, -, -, result⟩ := exact_ (fun _ => 1) "quti\n".toList (by decide)
  have hidden : configRun (fun _ => 1) "quti\n".toList =
      some (0, [((0, ("quti".toList, [])), 1)]) := rfl
  rw [hidden] at ran
  cases ran
  exact absurd (result.mp rfl) (by decide)

end IoMonitor.Listener
