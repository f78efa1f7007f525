import IoMonitor.Listener.ArgumentBuffers

/-!
The grammar of `parse_args`: headers, words that start with `-`, each with the
words behind it up to the next header.

`runGroups` runs the groups one after the other and is what the scan of the
arguments comes to, whatever the commands do (`parseArgs_eq`). From it come the calls of a run and its
result (`parse_args_grammar`), and when the token buffers are overrun
(`token_buffers_iff`).
-/

namespace IoMonitor.Listener

open CString Columns

def isHeader (word : Str) : Bool := word.head? = some '-'

/-- A header and its parameters. -/
abbrev Group := Str × List Str

def groupsOf : List Str → List Group
  | [] => []
  | word :: words =>
      if isHeader word then (word, words.takeWhile (!isHeader ·)) :: groupsOf words
      else groupsOf words

/-- The words before the first header. -/
def leadingWords (words : List Str) : List Str := words.takeWhile (!isHeader ·)

/-- `-` and `--`. -/
def Nameless (group : Group) : Prop := group.1 = ['-'] ∨ group.1 = ['-', '-']

instance (group : Group) : Decidable (Nameless group) :=
  inferInstanceAs (Decidable (group.1 = ['-'] ∨ group.1 = ['-', '-']))

/-- A header without its leading dashes, one or two. -/
def stripped (header : Str) : Str :=
  if ['-', '-'] <+: header then header.drop 2 else header.drop 1

def callOf (group : Group) : CommandCall := (stripped group.1, group.2)

/-- The calls in order, as far as one that fails. -/
def callUntilFailure (answers : Answers) (log : CallLog) : List CommandCall → CallLog
  | [] => log
  | call :: calls =>
      if rcOf answers log call = 0 then callUntilFailure answers (logCall answers log call) calls
      else logCall answers log call

def NoneFailed (log : CallLog) : Prop := ∀ entry ∈ log, entry.2 = 0

instance (log : CallLog) : Decidable (NoneFailed log) :=
  inferInstanceAs (Decidable (∀ entry ∈ log, entry.2 = 0))

/-- What the arguments ask for. -/
structure Executes (answers : Answers) (words : List Str) (rc : Int) (log : CallLog) : Prop where
  none : leadingWords words ≠ [] → log = []
  calls : leadingWords words = [] → log = callUntilFailure answers []
    (((groupsOf words).takeWhile fun group => ¬ Nameless group).map callOf)
  success : rc = 0 ↔ groupsOf words ≠ [] ∧ leadingWords words = [] ∧
    (∀ group ∈ groupsOf words, ¬ Nameless group) ∧ NoneFailed log
  failure : rc ≠ 0 → rc = -1

theorem commandOf_header (group : Group) (header : isHeader group.1) :
    commandOf group.1 = if Nameless group then none else some (stripped group.1) := by
  obtain ⟨word, parameters⟩ := group
  obtain ⟨rest, rfl⟩ : ∃ rest, word = '-' :: rest := by
    simpa [isHeader, List.head?_eq_some_iff] using header
  cases rest with
  | nil => rfl
  | cons c name =>
      by_cases dash : c = '-'
      · subst dash
        simp [commandOf, Nameless, stripped]
      · have single : commandOf ('-' :: c :: name) = some (c :: name) := by
          rw [commandOf, if_neg (List.cons_ne_nil c name)]
          rintro name' ⟨⟩
          exact dash rfl
        have named : ¬ Nameless ('-' :: c :: name, parameters) := by simp [Nameless, dash]
        rw [single, if_neg named, stripped, if_neg (by simp [Ne.symm dash])]
        rfl

/-! ### Running the groups -/

section Running

variable {S : Type} (run : CommandRun S)

/-- A call, and what comes after it. -/
def runThen (call : CommandCall) (behind : Prog S HandlerResult) : Prog S HandlerResult :=
  if call.2.length < COMMAND_SLOTS then
    thenRc (run call) fun rc => if rc ≠ 0 then pure (.returns (-1)) else behind
  else Prog.crash

def runGroups : List Group → Prog S HandlerResult
  | [] => pure (.returns 0)
  | group :: groups =>
      if Nameless group then pure (.returns (-1))
      else runThen run (callOf group) (runGroups groups)

/-- A header opens its group. -/
theorem parseArgsLoop_opens {word : Str} {words : List Str} (header : isHeader word)
    (opened : ∀ name, run.parseArgsLoop (some (name, [])) words =
      runThen run (name, leadingWords words) (runGroups run (groupsOf words))) :
    (match commandOf word with
      | none => pure (.returns (-1))
      | some name => run.parseArgsLoop (some (name, [])) words) =
    runGroups run (groupsOf (word :: words)) := by
  rw [groupsOf, if_pos header, runGroups]
  have name := commandOf_header (word, words.takeWhile (!isHeader ·)) header
  by_cases nameless : Nameless (word, words.takeWhile (!isHeader ·))
  · rw [if_pos nameless] at name ⊢
    simp only [name]
  · rw [if_neg nameless] at name ⊢
    simp only [name]
    exact opened _

/-- The pending command gets the words before the next header. -/
theorem parseArgsLoop_pending (name : Str) (collected words : List Str) :
    run.parseArgsLoop (some (name, collected)) words =
      runThen run (name, collected ++ leadingWords words) (runGroups run (groupsOf words)) := by
  induction words generalizing name collected with
  | nil =>
      rw [CommandRun.parseArgsLoop, leadingWords, List.takeWhile_nil, List.append_nil, runThen,
        CommandRun.runPending]
      dsimp only
      split
      · congr 1
        funext rc
        by_cases ok : rc = 0 <;> simp [ok, groupsOf, runGroups]
      · exact thenRc_crash _
  | cons word words ih =>
      rw [CommandRun.parseArgsLoop.eq_def, leadingWords]
      dsimp only
      by_cases header : isHeader word
      · have head : word.head? = some '-' := by simpa [isHeader] using header
        rw [if_pos head, List.takeWhile_cons_of_neg (by simp [header]), List.append_nil, runThen,
          CommandRun.runPending]
        dsimp only
        split
        · congr 1
          funext rc
          by_cases failed : rc ≠ 0
          · rw [if_pos failed, if_pos failed]
          · rw [if_neg failed, if_neg failed]
            exact parseArgsLoop_opens run header fun name => ih name []
        · exact thenRc_crash _
      · have head : word.head? ≠ some '-' := by simpa [isHeader] using header
        rw [if_neg head, List.takeWhile_cons_of_pos (by simp [header]), groupsOf, if_neg header]
        split
        · rw [ih, List.append_assoc]
          rfl
        · rename_i full
          refine (if_neg fun short => full ?_).symm
          rw [List.length_append] at short
          omega

/-- What the scan of the arguments comes to, whatever the commands do. -/
theorem parseArgs_eq (program : Str) (words : List Str) :
    run.parseArgs (program :: words) =
      if leadingWords words = [] ∧ groupsOf words ≠ [] then runGroups run (groupsOf words)
      else pure (.returns (-1)) := by
  cases words with
  | nil => rfl
  | cons word words =>
      rw [CommandRun.parseArgs, CommandRun.parseArgsLoop.eq_def, leadingWords]
      dsimp only
      by_cases header : isHeader word
      · have head : word.head? = some '-' := by simpa [isHeader] using header
        have grouped : groupsOf (word :: words) ≠ [] := by simp [groupsOf, header]
        have noLeading : leadingWords (word :: words) = [] :=
          List.takeWhile_cons_of_neg (by simp [header])
        rw [if_pos head, if_pos ⟨noLeading, grouped⟩, CommandRun.runPending, thenRc_pure]
        simp only [ne_eq, not_true, if_false]
        exact parseArgsLoop_opens run header fun name => parseArgsLoop_pending run name [] words
      · have head : word.head? ≠ some '-' := by simpa [isHeader] using header
        rw [if_neg head, List.takeWhile_cons_of_pos (by simp [header]), if_neg (by simp)]

end Running

/-- The groups with their calls logged. -/
def loggedGroups (answers : Answers) (log : CallLog) (groups : List Group) :
    Option (Int × CallLog) :=
  outcome (runGroups (logged answers) groups log)

theorem loggedGroups_cons (answers : Answers) (log : CallLog) (group : Group)
    (groups : List Group) :
    loggedGroups answers log (group :: groups) =
      if Nameless group then some (-1, log)
      else if group.2.length < COMMAND_SLOTS then
        if rcOf answers log (callOf group) = 0 then
          loggedGroups answers (logCall answers log (callOf group)) groups
        else some (-1, logCall answers log (callOf group))
      else none := by
  rw [loggedGroups, runGroups]
  split
  · rfl
  have parameters : (callOf group).2 = group.2 := rfl
  rw [runThen, parameters]
  by_cases room : group.2.length < COMMAND_SLOTS
  · rw [if_pos room, if_pos room, outcome_thenRc]
    by_cases ok : rcOf answers log (callOf group) = 0
    · rw [if_pos ok]
      simp only [logged, outcome, Option.bind_some, ok, ne_eq, not_true, if_false]
      rfl
    · rw [if_neg ok]
      simp only [logged, outcome, Option.bind_some, ok, ne_eq, not_false_eq_true, if_true]
      rfl
  · rw [if_neg room, if_neg room]
    rfl

theorem loggedArgs_eq (answers : Answers) (program : Str) (words : List Str) :
    parseArgs answers (program :: words) =
      if leadingWords words = [] ∧ groupsOf words ≠ [] then loggedGroups answers [] (groupsOf words)
      else some (-1, []) := by
  rw [parseArgs, parseArgs_eq]
  split <;> rfl

/-! ### The calls of a run -/

theorem noneFailed_logCall (answers : Answers) {log : CallLog} (clean : NoneFailed log)
    (call : CommandCall) : NoneFailed (logCall answers log call) ↔ rcOf answers log call = 0 := by
  rw [NoneFailed, logCall, List.forall_mem_append]
  simp only [List.forall_mem_singleton]
  exact and_iff_right clean

/-- Groups that fit make their calls, as far as one fails or has no name. -/
theorem loggedGroups_fitting (answers : Answers) {log : CallLog} (clean : NoneFailed log)
    {groups : List Group} (few : ∀ group ∈ groups, group.2.length < COMMAND_SLOTS) :
    ∃ rc, loggedGroups answers log groups = some (rc, callUntilFailure answers log
        ((groups.takeWhile fun group => ¬ Nameless group).map callOf)) ∧
      (rc = 0 ↔ (∀ group ∈ groups, ¬ Nameless group) ∧ NoneFailed (callUntilFailure answers log
        ((groups.takeWhile fun group => ¬ Nameless group).map callOf))) ∧
      (rc ≠ 0 → rc = -1) := by
  induction groups generalizing log with
  | nil => exact ⟨0, rfl, by simpa [callUntilFailure] using clean, fun h => absurd rfl h⟩
  | cons group groups ih =>
      obtain ⟨short, others⟩ := List.forall_mem_cons.mp few
      rw [loggedGroups_cons]
      by_cases nameless : Nameless group
      · rw [if_pos nameless, List.takeWhile_cons_of_neg (by simpa using nameless)]
        exact ⟨-1, rfl, by simp [nameless], fun _ => rfl⟩
      · rw [if_neg nameless, if_pos short,
          List.takeWhile_cons_of_pos (by simpa using nameless), List.map_cons, callUntilFailure]
        have step := noneFailed_logCall answers clean (callOf group)
        by_cases ok : rcOf answers log (callOf group) = 0
        · obtain ⟨rc, ran, success, failure⟩ := ih (step.mpr ok) others
          rw [if_pos ok, if_pos ok]
          refine ⟨rc, ran, ?_, failure⟩
          rw [success, List.forall_mem_cons, and_iff_right nameless]
        · rw [if_neg ok, if_neg ok]
          exact ⟨-1, rfl, by simp [step, ok], fun _ => rfl⟩

/-- **The grammar.** Where no command has more than 127 parameters, `parse_args`
runs the groups of its arguments in order, as far as one fails or has no name, and
none behind words without a header. -/
theorem parse_args_grammar (answers : Answers) {words : List Str}
    (few : ∀ group ∈ groupsOf words, group.2.length ≤ 127) :
    ∃ rc log, checkedParseArgs answers words = .ok (rc, log) ∧ Executes answers words rc log := by
  rw [checkedParseArgs_eq answers [], loggedArgs_eq]
  by_cases grouped : leadingWords words = [] ∧ groupsOf words ≠ []
  · have clean : NoneFailed [] := List.forall_mem_nil _
    obtain ⟨rc, ran, success, failure⟩ := loggedGroups_fitting answers clean fun group mem =>
      Nat.lt_succ_of_le (few group mem)
    rw [if_pos grouped, ran]
    refine ⟨rc, _, rfl, fun leading => absurd grouped.1 leading, fun _ => rfl, ?_, failure⟩
    rw [success, and_iff_right grouped.2, and_iff_right grouped.1]
  · rw [if_neg grouped]
    refine ⟨-1, [], rfl, fun _ => rfl, fun leading => ?_, ?_, fun _ => rfl⟩
    · have none : groupsOf words = [] := by
        by_contra some
        exact grouped ⟨leading, some⟩
      rw [none]
      rfl
    · refine iff_of_false (by decide) ?_
      rintro ⟨some, leading, -⟩
      exact grouped ⟨leading, some⟩

theorem parse_args_grammar_two : ∃ rc log,
    checkedParseArgs (fun calls => if calls.length = 2 then 1 else 0)
        ["-m".toList, "mq1".toList, "--help".toList, "--".toList] = .ok (rc, log) ∧
      Executes (fun calls => if calls.length = 2 then 1 else 0)
        ["-m".toList, "mq1".toList, "--help".toList, "--".toList] rc log :=
  parse_args_grammar _ (by decide)

/-! ### The buffers -/

/-- Every access is at an index of its array. -/
def InBounds {α : Type} (run : Except Fault α) : Prop := ∀ i, run ≠ .error (.outside i)

theorem inBounds_orOverrun {α : Type} (run : Option α) :
    InBounds (orOverrun run) ↔ run.isSome = true := by
  cases run with
  | none => exact iff_of_false (fun h => h _ rfl) (by simp)
  | some a =>
      refine iff_of_true (fun i h => ?_) rfl
      cases h

/-- `group` is reached: it and the groups before it are named, and their calls return 0. -/
structure Reached (answers : Answers) (log : CallLog) (before : List Group) (group : Group) :
    Prop where
  named : ∀ g ∈ before ++ [group], ¬ Nameless g
  calls : NoneFailed (logCalls answers log (before.map callOf))

/-- The parameters of the commands that are reached leave room for the `NULL`. -/
def ArgsFit (answers : Answers) (words : List Str) : Prop :=
  leadingWords words ≠ [] ∨ ∀ before group after, groupsOf words = before ++ group :: after →
    Reached answers [] before group → group.2.length < COMMAND_SLOTS

theorem mem_logCalls {answers : Answers} {log : CallLog} {entry : CommandCall × Int}
    (mem : entry ∈ log) (calls : List CommandCall) : entry ∈ logCalls answers log calls := by
  induction calls generalizing log with
  | nil => exact mem
  | cons call calls ih => exact ih (List.mem_append_left _ mem)

theorem reached_cons {answers : Answers} {log : CallLog} {first group : Group}
    {before : List Group} :
    Reached answers log (first :: before) group ↔
      ¬ Nameless first ∧ Reached answers (logCall answers log (callOf first)) before group := by
  constructor
  · rintro ⟨named, calls⟩
    exact ⟨named first List.mem_cons_self, fun g mem => named g (List.mem_cons_of_mem _ mem), calls⟩
  · rintro ⟨name, named, calls⟩
    exact ⟨List.forall_mem_cons.mpr ⟨name, named⟩, calls⟩

/-- An element of a list with those before it: the first one, or one of the others. -/
theorem forall_split_cons {α : Type} {P : List α → α → Prop} {x : α} {xs : List α} :
    (∀ before y after, x :: xs = before ++ y :: after → P before y) ↔
      P [] x ∧ ∀ before y after, xs = before ++ y :: after → P (x :: before) y := by
  constructor
  · intro all
    refine ⟨all [] x xs rfl, fun before y after split => all (x :: before) y after ?_⟩
    rw [split, List.cons_append]
  · rintro ⟨first, others⟩ before y after split
    cases before with
    | nil =>
        cases split
        exact first
    | cons b before =>
        cases split
        exact others before y after rfl

/-- The groups run within the array iff those that are reached fit. -/
theorem loggedGroups_isSome_iff (answers : Answers) {log : CallLog} (clean : NoneFailed log)
    (groups : List Group) :
    (loggedGroups answers log groups).isSome = true ↔
      ∀ before group after, groups = before ++ group :: after →
        Reached answers log before group → group.2.length < COMMAND_SLOTS := by
  induction groups generalizing log with
  | nil => exact iff_of_true rfl (by simp)
  | cons first groups ih =>
      rw [loggedGroups_cons, forall_split_cons]
      by_cases nameless : Nameless first
      · rw [if_pos nameless]
        refine iff_of_true rfl ⟨fun reached => ?_, fun before group after _ reached => ?_⟩
        · exact absurd nameless (reached.named first List.mem_cons_self)
        · exact absurd nameless (reached_cons.mp reached).1
      rw [if_neg nameless]
      have step := noneFailed_logCall answers clean (callOf first)
      by_cases room : first.2.length < COMMAND_SLOTS
      · have fits : Reached answers log [] first → first.2.length < COMMAND_SLOTS := fun _ => room
        rw [if_pos room, and_iff_right fits]
        simp only [reached_cons, nameless, not_false_eq_true, true_and]
        by_cases ok : rcOf answers log (callOf first) = 0
        · rw [if_pos ok]
          exact ih (step.mpr ok)
        · rw [if_neg ok]
          refine iff_of_true rfl ?_
          rintro before group after - ⟨-, calls⟩
          refine absurd (calls (callOf first, rcOf answers log (callOf first)) ?_) ok
          exact mem_logCalls (List.mem_append_right _ List.mem_cons_self) _
      · rw [if_neg room]
        refine iff_of_false (by simp) fun fits => room (fits.1 ⟨?_, clean⟩)
        simpa using nameless

/-- **The token buffers.** A line stays within its buffer iff it has at most 127 words,
and the arguments iff each command that is reached has at most 127 parameters. -/
theorem token_buffers_iff (answers : Answers) :
    (∀ log buf, InBounds (checkedParseCommand answers log buf) ↔
      (strtok [' ', '\n'] [] (cstr buf)).length < COMMAND_SLOTS) ∧
    ∀ words, InBounds (checkedParseArgs answers words) ↔ ArgsFit answers words := by
  constructor
  · intro log buf
    rw [checkedParseCommand_eq, inBounds_orOverrun, parseCommand_eq]
    cases strtok [' ', '\n'] [] (cstr buf) with
    | nil => exact iff_of_true rfl (by decide)
    | cons name parameters =>
        dsimp only
        split
        · rename_i room
          exact iff_of_true rfl room
        · rename_i full
          exact iff_of_false (by simp) full
  · intro words
    rw [checkedParseArgs_eq answers [], inBounds_orOverrun, loggedArgs_eq, ArgsFit]
    by_cases leading : leadingWords words = []
    · rw [or_iff_right (not_not_intro leading)]
      split
      · exact loggedGroups_isSome_iff answers (by simp [NoneFailed]) _
      · rename_i empty
        have none : groupsOf words = [] := by
          by_contra some
          exact empty ⟨leading, some⟩
        rw [none]
        exact iff_of_true rfl (by simp)
    · rw [if_neg fun both => leading both.1]
      exact iff_of_true rfl (.inl leading)

/-- A line of 128 words, short enough to be read whole. -/
theorem long_line_overruns : ¬ ((∀ answers log buf, buf.length < PATH_MAX →
      InBounds (checkedParseCommand answers log buf)) ∧
    ∀ answers words, InBounds (checkedParseArgs answers words)) := by
  rintro ⟨lines, -⟩
  have words : strtok [' ', '\n'] [] (join ' ' (List.replicate 128 ['a']) ++ []) =
      List.replicate 128 ['a'] := by
    refine strtok_words (fun w mem => ?_) (.inl rfl)
    obtain rfl := List.eq_of_mem_replicate mem
    decide
  have length : ∀ n, (join ' ' (List.replicate (n + 1) ['a'])).length = 2 * n + 1 := by
    intro n
    induction n with
    | zero => rfl
    | succ n ih =>
        rw [List.replicate_succ, List.replicate_succ, join_cons_cons, ← List.replicate_succ]
        simp only [List.length_append, List.length_cons, List.length_nil, ih]
        omega
  have short := lines (fun _ => 0) [] (join ' ' (List.replicate 128 ['a'])) (by
    rw [length 127]
    decide)
  have clean : cstr (join ' ' (List.replicate 128 ['a'])) =
      join ' ' (List.replicate 128 ['a']) := by
    refine cstr_of_noNul ?_
    rw [notMem_join_iff (by decide)]
    intro w mem
    obtain rfl := List.eq_of_mem_replicate mem
    decide
  rw [List.append_nil] at words
  rw [checkedParseCommand_eq, inBounds_orOverrun, parseCommand_eq, clean, words,
    List.replicate_succ] at short
  dsimp only at short
  rw [List.length_replicate, if_neg (by decide)] at short
  cases short

end IoMonitor.Listener
