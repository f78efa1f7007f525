import IoMonitor.Listener.ConfigFile
import IoMonitor.Listener.Main

/-!
The start of `mq_listener`.

The arguments name files, and files name files. What comes of them all is settled by
the directives in the order in which they are read, wherever they stand: whether the
listener listens, on which queue, and which plugins the records are passed to
(`startup_law`).
-/

namespace IoMonitor.Listener.Main

open CString Prog ChainMemory

variable {σ : Type}

/-! ### What is asked for -/

inductive Directive where
  | queue (path : Str)
  | plugin (library : Str) (options pluginAlias : Option Str)
  deriving DecidableEq

/-- The built-in command with a name. -/
def handlerOf (name : Str) : Option Handler :=
  match Listener.runCommand name (setCommandsArray builtins []) with
  | some (.handler h, _) => some h
  | _ => none

/-- The calls that a file asks for; none where a line has more words than there are slots. -/
def fileCalls (contents : Str) : Option (List CommandCall) :=
  let calls := (fgets PATH_MAX [] contents).filterMap readCommand
  if calls.all (·.2.length + 1 < COMMAND_SLOTS) then some calls else none

/-- The directives of a call: of `config`, those of the file, with the files that it
names, as deep as the first argument says. None where the call is not one for the start,
or lacks its operand. -/
def directives (files : Files) : Nat → CommandCall → Option (List Directive)
  | 0, _ => none
  | depth + 1, (name, args) =>
      match handlerOf name, args with
      | some .help, _ => some []
      | some .mqPath, path :: _ => some [.queue path]
      | some .loadPlugin, library :: rest =>
          some [.plugin (splitAlias library).1 rest.head? (splitAlias library).2]
      | some .config, path :: _ => do
          let calls ← fileCalls (← files path)
          return (← calls.mapM (directives files depth)).flatten
      | _, _ => none

/-- The groups that are run: those before one without a name. -/
def argCalls (words : List Str) : List CommandCall :=
  ((groupsOf words).takeWhile fun group => ¬ Nameless group).map callOf

section Asked

variable (env : StartEnv σ)

def Directive.request : Directive → Option (LoadRequest σ)
  | .queue _ => none
  | .plugin library options pluginAlias => some (env.plugin library options pluginAlias)

/-- The plugins, in order. -/
def requests (script : List Directive) : List (LoadRequest σ) :=
  script.filterMap (Directive.request env)

/-- The queue after a directive: a path without a key leaves what was there. -/
def queueAfter (id : Int) : Directive → Int
  | .queue path => if env.ftok path = -1 then id else env.msgget (env.ftok path)
  | .plugin _ _ _ => id

def queueOf (script : List Directive) : Int := script.foldl (queueAfter env) (-1)

end Asked

/-- The listener with the plugins loaded, in order. -/
def listenerOf (loaded : List (LoadRequest σ)) : ListenerState σ where
  plugins := loaded.zipIdx.map fun q => q.1.node q.2
  commands := loaded.foldl (fun commands q => registerCommand q commands)
    (setCommandsArray builtins [])
  trace := loaded.zipIdx.map fun q => (q.2, .openPlugin q.1.openPlugin)
  nextSerial := loaded.length

/-- Its entry, if it has one, has no name of a built-in command. -/
def Unshadowing (q : LoadRequest σ) : Prop :=
  ∀ c ∈ registerCommand q [], ∀ name, (handlerOf name).isSome → ¬ c.matches name

/-- Whatever is received then is passed along those plugins. -/
def Serves (env : StartEnv σ) (script : List Directive) (g : Globals σ) : Prop :=
  ∀ received, ∃ g', inputLoop env (captureDeviceInfo env.lsblk) received g = .returned () g' ∧
    Represents g'.chain (served
      (Listener.inputLoop (captureDeviceInfo env.lsblk) env.hostname noFiles received).2
      (listenerOf (requests env script)))

/-- Memory is granted as long as finitely many cells are in use. -/
def Ample (allocator : Allocator σ) : Prop :=
  ∀ n heap, {a | heap a ≠ none}.Finite → (allocator.calloc n heap).isSome

/-- `mq-path` gets its queue. -/
def Answered (env : StartEnv σ) (call : CommandCall) : Prop :=
  handlerOf call.1 = some .mqPath → ∀ path ∈ call.2.head?,
    env.ftok path ≠ -1 ∧ env.msgget (env.ftok path) ≠ -1

/-- When the listener comes to listen. -/
structure Starts (env : StartEnv σ) (words : List Str) (script : List Directive) : Prop where
  leading : leadingWords words = []
  asked : groupsOf words ≠ []
  named : ∀ group ∈ groupsOf words, ¬ Nameless group
  opens : ∀ q ∈ requests env script, Opens q
  answered : ∀ call ∈ argCalls words, Answered env call
  queue : queueOf env script ≠ -1

/-! ### The plugins that are loaded -/

section Loaded

theorem loadPlugin_listenerOf {q : LoadRequest σ} (opens : Opens q)
    (loaded : List (LoadRequest σ)) :
    Listener.loadPlugin q (listenerOf loaded) = (0, listenerOf (loaded ++ [q])) := by
  rw [loadPlugin_opens opens]
  simp [listenerOf, List.zipIdx_append]

/-- A command is found behind one that does not have its name. -/
theorem runCommand_register {q : LoadRequest σ} (unshadowing : Unshadowing q) {name : Str}
    (builtin : (handlerOf name).isSome) (commands : List Command) :
    Listener.runCommand name (registerCommand q commands) =
      Listener.runCommand name commands := by
  unfold Unshadowing registerCommand at unshadowing
  unfold registerCommand
  cases exported : q.pluginCommand with
  | none => rfl
  | some entry =>
      rw [exported] at unshadowing
      have other := unshadowing _ List.mem_cons_self name builtin
      unfold Listener.runCommand
      dsimp only [setCommand]
      rw [List.find?_cons_of_neg other]

/-- The built-in commands are found behind the entries of the plugins. -/
theorem runCommand_listenerOf {loaded : List (LoadRequest σ)}
    (unshadowing : ∀ q ∈ loaded, Unshadowing q) {name : Str} {h : Handler}
    (builtin : handlerOf name = some h) :
    ∃ state, Listener.runCommand name (listenerOf loaded).commands =
      some (.handler h, state) := by
  induction loaded using List.reverseRecOn with
  | nil =>
      unfold handlerOf at builtin
      split at builtin
      · rename_i h' state found
        cases builtin
        exact ⟨state, found⟩
      · cases builtin
  | append_singleton loaded q ih =>
      obtain ⟨state, found⟩ := ih fun q mem => unshadowing q (List.mem_append_left _ mem)
      refine ⟨state, ?_⟩
      have behind : (listenerOf (loaded ++ [q])).commands =
          registerCommand q (listenerOf loaded).commands := by
        simp [listenerOf]
      rw [behind, runCommand_register (unshadowing q (by simp)) (by rw [builtin]; rfl)]
      exact found

end Loaded

/-! ### Directives behind directives -/

section Directives

variable {env : StartEnv σ} {done ds : List Directive} {g : Globals σ}

theorem requests_append (ds ds' : List Directive) :
    requests env (ds ++ ds') = requests env ds ++ requests env ds' :=
  List.filterMap_append

theorem queueOf_append (ds : List Directive) (d : Directive) :
    queueOf env (ds ++ [d]) = queueAfter env (queueOf env ds) d := by
  rw [queueOf, List.foldl_append]
  rfl

/-- The globals with the directives done. -/
structure Ready (env : StartEnv σ) (done : List Directive) (g : Globals σ) : Prop where
  chain : Represents g.chain (listenerOf (requests env done))
  queue : g.messageQueueId = queueOf env done
  finite : {a | g.chain.heap a ≠ none}.Finite

theorem ready_start : Ready env [] Globals.start where
  chain := represents_start
  queue := rfl
  finite := by
    have empty : {a | (Globals.start (σ := σ)).chain.heap a ≠ none} = ∅ := by
      ext a
      exact ⟨fun used => used rfl, fun mem => mem.elim⟩
    rw [empty]
    exact Set.finite_empty

/-- There is fuel for the walks along the chain, and the built-in commands are found. -/
structure Fits (env : StartEnv σ) (script : List Directive) : Prop where
  room : (requests env script).length < env.chainFuel
  unshadowing : ∀ q ∈ requests env script, Unshadowing q

theorem Ready.serves {script : List Directive} (ready : Ready env script g)
    (fits : Fits env script) : Serves env script g := by
  intro received
  have room : (listenerOf (requests env script)).plugins.length < env.chainFuel := by
    simpa [listenerOf] using fits.room
  obtain ⟨chain, ran, after⟩ := passAll_represents ready.chain room
    (Listener.inputLoop (captureDeviceInfo env.lsblk) env.hostname noFiles received).2
  refine ⟨{ g with chain }, ?_, after⟩
  rw [inputLoop, onChain, ran]

theorem Fits.before (fits : Fits env (done ++ ds)) : Fits env done := by
  obtain ⟨room, unshadowing⟩ := fits
  rw [requests_append] at room unshadowing
  rw [List.length_append] at room
  exact ⟨by omega, fun q mem => unshadowing q (List.mem_append_left _ mem)⟩

def AllOpen (env : StartEnv σ) (ds : List Directive) : Prop := ∀ q ∈ requests env ds, Opens q

/-- Where a run of `ds` behind `done` leads: it returns with `ds` done, or the process
exits because of a plugin. -/
inductive Leads (env : StartEnv σ) (done ds : List Directive) (ok : Prop) :
    Exit (Globals σ) HandlerResult → Prop where
  | returned {rc : Int} {g : Globals σ} (opens : AllOpen env ds) (ready : Ready env (done ++ ds) g)
      (result : rc = 0 ↔ ok) : Leads env done ds ok (.returned (.returns rc) g)
  | exited {g : Globals σ} (fails : ¬ AllOpen env ds) :
      Leads env done ds ok (.returned (.exits 1) g)

/-- A load returns what `load_plugin` returns, or exits. -/
theorem cLoadPlugin_of_load {run : CommandRun (Globals σ)} {library : Str} {rest : List Str}
    {res : Int} {chain : Memory σ}
    (ran : ChainMemory.loadPlugin env.allocator env.chainFuel
      (env.plugin (splitAlias library).1 rest.head? (splitAlias library).2) g.chain =
        .returned res chain) :
    quiet (cLoadPlugin (env.handlers run) (library :: rest)) g =
      .returned (if res ≠ 0 then .exits 1 else .returns 0) { g with chain } := by
  have options : (library :: rest)[1]? = rest.head? := by
    rw [List.getElem?_cons_succ, List.head?_eq_getElem?]
  simp only [quiet, cLoadPlugin, operand_bind, List.getElem?_cons_zero, useString_bind, options]
  have lifted : (Traced.lift (onChain (ChainMemory.loadPlugin env.allocator
      env.chainFuel (env.plugin (splitAlias library).1 rest.head? (splitAlias library).2))) :
        HandlerProg σ Int) g = ([], .returned res { g with chain }) := by
    rw [Traced.lift, onChain, ran]
  exact congrArg Prod.snd (Traced.bind_of_returned lifted _)

theorem load_leads (ample : Ample env.allocator) {run : CommandRun (Globals σ)} {library : Str}
    {rest : List Str} {d : Directive}
    (asked : d = .plugin (splitAlias library).1 rest.head? (splitAlias library).2)
    (ready : Ready env done g) (fits : Fits env (done ++ [d])) :
    Leads env done [d] True (quiet (cLoadPlugin (env.handlers run) (library :: rest)) g) := by
  obtain ⟨q, requested⟩ : ∃ q, d.request env = some q := ⟨_, by rw [asked]; rfl⟩
  have one : requests env [d] = [q] := by
    rw [requests, List.filterMap_cons_some requested, List.filterMap_nil]
  have room : (listenerOf (requests env done)).plugins.length < env.chainFuel := by
    have := fits.before.room
    simpa [listenerOf] using this
  obtain ⟨m, ran, represents⟩ := load_represents env.allocator ready.chain room q
  rw [if_pos (ample _ _ ready.finite)] at ran represents
  have finite := loadPlugin_finite env.allocator env.chainFuel q g.chain
  rw [ran] at finite
  rw [asked] at requested
  cases requested
  rw [cLoadPlugin_of_load ran]
  by_cases opens : Opens (env.plugin (splitAlias library).1 rest.head? (splitAlias library).2)
  · rw [loadPlugin_listenerOf opens] at represents ⊢
    refine .returned (by simpa [AllOpen, one] using opens) ⟨?_, ?_, finite ready.finite⟩ (by simp)
    · rw [requests_append, one]
      exact represents
    · rw [queueOf_append, asked]
      exact ready.queue
  · obtain ⟨called, failed, -⟩ := loadPlugin_fails opens (listenerOf (requests env done))
    rw [failed]
    exact .exited (by simpa [AllOpen, one] using opens)

theorem queue_leads {run : CommandRun (Globals σ)} {path : Str} (rest : List Str)
    (ready : Ready env done g) :
    Leads env done [.queue path] (env.ftok path ≠ -1 ∧ env.msgget (env.ftok path) ≠ -1)
      (quiet (cMqPath (env.handlers run) (path :: rest)) g) := by
  have opens : AllOpen env [.queue path] := fun q mem => by cases mem
  have chain : requests env (done ++ [.queue path]) = requests env done := by
    rw [requests_append]
    exact List.append_nil _
  have queue : queueOf env (done ++ [.queue path]) =
      queueAfter env (queueOf env done) (.queue path) := queueOf_append done _
  rw [queueAfter, ← ready.queue] at queue
  have key : (env.handlers run).ftok path = env.ftok path := rfl
  have id : (env.handlers run).msgget (env.ftok path) = env.msgget (env.ftok path) := rfl
  rw [quiet, cMqPath_cons, key, id]
  by_cases noKey : env.ftok path = -1
  · rw [if_pos noKey] at queue ⊢
    exact .returned opens ⟨chain ▸ ready.chain, queue.symm, ready.finite⟩ (by simp [noKey])
  rw [if_neg noKey] at queue ⊢
  by_cases noId : env.msgget (env.ftok path) = -1
  · rw [if_pos noId]
    exact .returned opens ⟨chain ▸ ready.chain, noId ▸ queue.symm, ready.finite⟩ (by simp [noId])
  · rw [if_neg noId]
    exact .returned opens ⟨chain ▸ ready.chain, queue.symm, ready.finite⟩ (by simp [noKey, noId])

/-! ### Commands that run commands -/

theorem allOpen_append {ds ds' : List Directive} :
    AllOpen env (ds ++ ds') ↔ AllOpen env ds ∧ AllOpen env ds' := by
  rw [AllOpen, requests_append, List.forall_mem_append]
  rfl

/-- Directives one after the other. -/
theorem Leads.andThen {ds' : List Directive} {ok ok' : Prop} {p : Prog (Globals σ) HandlerResult}
    {f : Int → Prog (Globals σ) HandlerResult} (first : Leads env done ds ok (p g))
    (second : ∀ rc g', Ready env (done ++ ds) g' → Leads env (done ++ ds) ds' ok' (f rc g')) :
    Leads env done (ds ++ ds') ok' (thenRc p f g) := by
  rw [thenRc, bind_apply]
  generalize p g = x at first
  cases first with
  | exited fails => exact .exited fun opens => fails (allOpen_append.mp opens).1
  | @returned rc g' opens ready =>
      have behind := second rc g' ready
      dsimp only
      generalize f rc g' = y at behind
      cases behind with
      | exited fails => exact .exited fun opens => fails (allOpen_append.mp opens).2
      | returned opens' ready' result =>
          have both := allOpen_append.mpr ⟨opens, opens'⟩
          exact .returned both (List.append_assoc .. ▸ ready') result

theorem Leads.none {ok : Prop} {rc : Int} (ready : Ready env done g) (result : rc = 0 ↔ ok) :
    Leads env done [] ok (.returned (.returns rc) g) :=
  .returned (fun q mem => by cases mem) ((List.append_nil done).symm ▸ ready) result

/-- The run of a file, if the commands in it lead where they are to. -/
theorem configLines_leads {run : CommandRun (Globals σ)}
    {unfold : CommandCall → Option (List Directive)}
    (leads : ∀ call ds done g, unfold call = some ds → Ready env done g →
      Fits env (done ++ ds) → Leads env done ds (Answered env call) (run call g))
    {reads : List Str} {dss : List (List Directive)}
    (few : ∀ call ∈ reads.filterMap readCommand, call.2.length + 1 < COMMAND_SLOTS)
    (asked : (reads.filterMap readCommand).mapM unfold = some dss) (ready : Ready env done g)
    (fits : Fits env (done ++ dss.flatten)) :
    Leads env done dss.flatten True (run.configLines reads g) := by
  induction reads generalizing done dss g with
  | nil =>
      cases asked
      exact .none ready (by simp)
  | cons buf rest ih =>
      rw [CommandRun.configLines_cons]
      cases read : readCommand buf with
      | none =>
          rw [List.filterMap_cons_none read] at few asked
          exact ih few asked ready fits
      | some call =>
          rw [List.filterMap_cons_some read] at few asked
          obtain ⟨room, others⟩ := List.forall_mem_cons.mp few
          rw [List.mapM_cons] at asked
          obtain ⟨ds, here, asked⟩ := Option.bind_eq_some_iff.mp asked
          obtain ⟨dss, behind, same⟩ := Option.bind_eq_some_iff.mp asked
          cases same
          rw [List.flatten_cons, ← List.append_assoc] at fits
          dsimp only
          rw [if_pos room, List.flatten_cons]
          exact (leads call ds done g here ready fits.before).andThen
            fun _ g' ready' => ih others behind ready' fits

theorem directives_cases {files : Files} {depth : Nat} {name : Str} {args : List Str}
    (asked : directives files (depth + 1) (name, args) = some ds) :
    (handlerOf name = some .help ∧ ds = []) ∨
    (∃ path rest, handlerOf name = some .mqPath ∧ args = path :: rest ∧ ds = [.queue path]) ∨
    (∃ library rest, handlerOf name = some .loadPlugin ∧ args = library :: rest ∧
      ds = [.plugin (splitAlias library).1 rest.head? (splitAlias library).2]) ∨
    (∃ path rest contents calls dss, handlerOf name = some .config ∧ args = path :: rest ∧
      files path = some contents ∧ fileCalls contents = some calls ∧
      calls.mapM (directives files depth) = some dss ∧ ds = dss.flatten) := by
  unfold directives at asked
  split at asked
  · rename_i help
    cases asked
    exact .inl ⟨help, rfl⟩
  · rename_i path rest mqPath
    cases asked
    exact .inr (.inl ⟨path, rest, mqPath, rfl, rfl⟩)
  · rename_i library rest loadPlugin
    cases asked
    exact .inr (.inr (.inl ⟨library, rest, loadPlugin, rfl, rfl⟩))
  · rename_i path rest config
    obtain ⟨contents, opened, asked⟩ := Option.bind_eq_some_iff.mp asked
    obtain ⟨calls, lines, asked⟩ := Option.bind_eq_some_iff.mp asked
    obtain ⟨dss, unfolded, same⟩ := Option.bind_eq_some_iff.mp asked
    cases same
    exact .inr (.inr (.inr ⟨path, rest, contents, calls, dss, config, rfl, opened, lines,
      unfolded, rfl⟩))
  · cases asked

theorem runCommand_builtin {fuel : Nat} {name : Str} (args : List Str) {h : Handler}
    (ready : Ready env done g) (fits : Fits env done) (builtin : handlerOf name = some h) :
    runCommand env (fuel + 1) (name, args) g =
      runHandler env (runCommand env fuel) args h g := by
  obtain ⟨state, found⟩ := runCommand_listenerOf fits.unshadowing builtin
  rw [runCommand, get_bind, ready.chain.commands, found]

theorem answered_other {call : CommandCall} {h : Handler} (builtin : handlerOf call.1 = some h)
    (other : h ≠ .mqPath) : Answered env call := by
  intro mqPath
  rw [builtin] at mqPath
  exact absurd (Option.some.inj mqPath) other

/-- **A command, with all that it runs.** By induction on how deep the files nest. -/
theorem runCommand_leads (ample : Ample env.allocator) {depth fuel : Nat} (deep : depth ≤ fuel)
    {call : CommandCall} (asked : directives env.fopen depth call = some ds)
    (ready : Ready env done g) (fits : Fits env (done ++ ds)) :
    Leads env done ds (Answered env call) (runCommand env fuel call g) := by
  induction depth generalizing fuel call done ds g with
  | zero => cases asked
  | succ depth ih =>
      obtain ⟨fuel, rfl⟩ : ∃ n, fuel = n + 1 := ⟨fuel - 1, by omega⟩
      obtain ⟨name, args⟩ := call
      obtain ⟨help, rfl⟩ | ⟨path, rest, mqPath, rfl, rfl⟩ | ⟨library, rest, loadPlugin, rfl, rfl⟩ |
        ⟨path, rest, contents, calls, dss, config, rfl, opened, lines, unfolded, rfl⟩ :=
        directives_cases asked
      · rw [runCommand_builtin args ready fits.before help]
        exact .none ready (iff_of_true rfl (answered_other help (by decide)))
      · rw [runCommand_builtin _ ready fits.before mqPath]
        have answered : Answered env (name, path :: rest) ↔
            env.ftok path ≠ -1 ∧ env.msgget (env.ftok path) ≠ -1 := by
          simp [Answered, mqPath]
        rw [answered]
        exact queue_leads rest ready
      · rw [runCommand_builtin _ ready fits.before loadPlugin]
        have answered : Answered env (name, library :: rest) ↔ True :=
          iff_true_intro (answered_other loadPlugin (by decide))
        rw [answered]
        exact load_leads ample rfl ready fits
      · have found : (env.handlers (runCommand env fuel)).fopen path = some contents := opened
        rw [runCommand_builtin _ ready fits.before config, runHandler, quiet, cConfigHandler,
          CommandRun.cConfig_cons, found]
        have answered : Answered env (name, path :: rest) ↔ True :=
          iff_true_intro (answered_other config (by decide))
        rw [answered]
        unfold fileCalls at lines
        dsimp only at lines
        split at lines
        · rename_i few
          cases lines
          refine configLines_leads (fun call ds done g asked ready fits =>
            ih (Nat.le_of_succ_le_succ deep) asked ready fits) ?_ unfolded ready fits
          intro call mem
          simpa using List.all_eq_true.mp few call mem
        · cases lines

end Directives

/-! ### The start -/

section Start

variable {env : StartEnv σ} {done : List Directive} {g : Globals σ}

/-- The arguments are run to the end. -/
structure RunsThrough (env : StartEnv σ) (groups : List Group) (calls : List CommandCall)
    (ds : List Directive) : Prop where
  named : ∀ group ∈ groups, ¬ Nameless group
  opens : AllOpen env ds
  answered : ∀ call ∈ calls, Answered env call

theorem runsThrough_cons {group : Group} {groups : List Group} {call : CommandCall}
    {calls : List CommandCall} {ds ds' : List Directive} (named : ¬ Nameless group)
    (opens : AllOpen env ds) (answered : Answered env call) :
    RunsThrough env (group :: groups) (call :: calls) (ds ++ ds') ↔
      RunsThrough env groups calls ds' := by
  constructor
  · rintro ⟨named, opens, answered⟩
    exact ⟨(List.forall_mem_cons.mp named).2, (allOpen_append.mp opens).2,
      (List.forall_mem_cons.mp answered).2⟩
  · rintro ⟨others, opens', answered'⟩
    exact ⟨List.forall_mem_cons.mpr ⟨named, others⟩, allOpen_append.mpr ⟨opens, opens'⟩,
      List.forall_mem_cons.mpr ⟨answered, answered'⟩⟩

/-- Where the arguments lead. -/
inductive Goes (env : StartEnv σ) (done ds : List Directive) (whole : Prop) :
    Exit (Globals σ) HandlerResult → Prop where
  | through {g : Globals σ} (holds : whole) (ready : Ready env (done ++ ds) g) :
      Goes env done ds whole (.returned (.returns 0) g)
  | fails {g : Globals σ} (stops : ¬ whole) : Goes env done ds whole (.returned (.returns (-1)) g)
  | exits {g : Globals σ} (stops : ¬ whole) : Goes env done ds whole (.returned (.exits 1) g)

theorem runGroups_goes {run : CommandRun (Globals σ)}
    {unfold : CommandCall → Option (List Directive)}
    (leads : ∀ call ds done g, unfold call = some ds → Ready env done g →
      Fits env (done ++ ds) → Leads env done ds (Answered env call) (run call g))
    {groups : List Group} {calls : List CommandCall} {dss : List (List Directive)}
    (before : (groups.takeWhile fun group => ¬ Nameless group).map callOf = calls)
    (few : ∀ call ∈ calls, call.2.length < COMMAND_SLOTS) (asked : calls.mapM unfold = some dss)
    (ready : Ready env done g) (fits : Fits env (done ++ dss.flatten)) :
    Goes env done dss.flatten (RunsThrough env groups calls dss.flatten)
      (runGroups run groups g) := by
  induction groups generalizing calls done dss g with
  | nil =>
      cases before
      cases asked
      refine .through ⟨by simp, fun q mem => List.not_mem_nil.elim mem, by simp⟩ ?_
      exact (List.append_nil done).symm ▸ ready
  | cons group groups ih =>
      rw [runGroups]
      by_cases nameless : Nameless group
      · rw [if_pos nameless]
        exact .fails fun through => through.named group List.mem_cons_self nameless
      rw [List.takeWhile_cons_of_pos (by simpa using nameless), List.map_cons] at before
      cases before
      obtain ⟨room, others⟩ := List.forall_mem_cons.mp few
      rw [List.mapM_cons] at asked
      obtain ⟨ds, here, asked⟩ := Option.bind_eq_some_iff.mp asked
      obtain ⟨dss, behind, same⟩ := Option.bind_eq_some_iff.mp asked
      cases same
      rw [List.flatten_cons, ← List.append_assoc] at fits
      rw [if_neg nameless, runThen, if_pos room, thenRc, bind_apply, List.flatten_cons]
      have first := leads _ _ _ _ here ready fits.before
      generalize run (callOf group) g = x at first
      cases first with
      | exited fails => exact .exits fun through => fails (allOpen_append.mp through.opens).1
      | @returned rc g' opens ready' result =>
          dsimp only
          by_cases ok : rc = 0
          · rw [if_neg (not_not.mpr ok)]
            have rest := ih rfl others behind ready' fits
            rw [runsThrough_cons nameless opens (result.mp ok)]
            generalize runGroups run groups g' = y at rest
            cases rest with
            | through through ready'' => exact .through through (List.append_assoc .. ▸ ready'')
            | fails stops => exact .fails stops
            | exits stops => exact .exits stops
          · rw [if_pos ok]
            exact .fails fun through => ok (result.mpr (through.answered _ List.mem_cons_self))

/-- **The start.** The commands of the arguments, with those of the files that they
name and the files named there, come to a list of directives. The listener listens iff
the arguments are groups with names, each plugin opens, each `mq-path` among the
arguments themselves gets its queue, and there is a queue in the end: the one of the
last `mq-path`, in the arguments or a file, whose path has a key. It then has just the
plugins that were asked for, in order, numbered from 0. Otherwise the process ends with
a status that is not 0. -/
theorem startup_law (env : StartEnv σ) (program : Str) {words : List Str} {depth fuel : Nat}
    {dss : List (List Directive)} (ample : Ample env.allocator) (deep : depth ≤ fuel)
    (few : ∀ call ∈ argCalls words, call.2.length < COMMAND_SLOTS)
    (asked : (argCalls words).mapM (directives env.fopen depth) = some dss)
    (fits : Fits env dss.flatten) :
    (Starts env words dss.flatten → ∃ g, main env fuel (program :: words) Globals.start =
        .returned (.inputLoop (queueOf env dss.flatten) (captureDeviceInfo env.lsblk)) g ∧
      Ready env dss.flatten g ∧ Serves env dss.flatten g) ∧
      (¬ Starts env words dss.flatten → ∃ status g,
        main env fuel (program :: words) Globals.start = .returned (.ends status) g ∧
          status ≠ 0) := by
  rw [main, parseArgs_eq]
  by_cases grouped : leadingWords words = [] ∧ groupsOf words ≠ []
  · rw [if_pos grouped, bind_apply]
    have goes := runGroups_goes (fun call ds done g asked ready fits =>
      runCommand_leads ample deep asked ready fits) rfl few asked ready_start fits
    generalize runGroups (runCommand env fuel) (groupsOf words) Globals.start = x at goes
    cases goes with
    | @through g through ready =>
        rw [List.nil_append] at ready
        dsimp only
        rw [if_neg (by decide), get_bind, ready.queue]
        by_cases listening : queueOf env dss.flatten = -1
        · rw [if_pos listening]
          exact ⟨fun starts => absurd listening starts.queue, fun _ => ⟨1, g, rfl, by decide⟩⟩
        · rw [if_neg listening, get_bind, ready.queue]
          refine ⟨fun _ => ⟨g, rfl, ready, ready.serves fits⟩, fun stops => absurd ?_ stops⟩
          exact ⟨grouped.1, grouped.2, through.named, through.opens, through.answered, listening⟩
    | @fails g stops =>
        dsimp only
        rw [if_pos (by decide)]
        refine ⟨fun starts => absurd ?_ stops, fun _ => ⟨-1, g, rfl, by decide⟩⟩
        exact ⟨starts.named, starts.opens, starts.answered⟩
    | @exits g stops =>
        refine ⟨fun starts => absurd ?_ stops, fun _ => ⟨1, g, rfl, by decide⟩⟩
        exact ⟨starts.named, starts.opens, starts.answered⟩
  · rw [if_neg grouped]
    exact ⟨fun starts => absurd ⟨starts.leading, starts.asked⟩ grouped,
      fun _ => ⟨-1, Globals.start, rfl, by decide⟩⟩

end Start

/-! Two files, of which the first names the second, and a filter behind them. -/

open Classical in
noncomputable def firstFree : Allocator σ where
  calloc _ heap := if free : ∃ a, heap a = none then some free.choose else none
  fresh := by
    intro n heap a found
    split at found
    · rename_i free
      cases found
      exact free.choose_spec
    · cases found

theorem firstFree_ample : Ample (firstFree (σ := σ)) := by
  intro n heap finite
  obtain ⟨a, unused⟩ := finite.exists_notMem
  have free : ∃ a, heap a = none := ⟨a, not_not.mp unused⟩
  simp [firstFree, free]

/-- `mq1` has a queue, all plugins open, and two files can be read. -/
noncomputable def twoFiles : StartEnv Unit where
  ftok path := if path = "mq1".toList then 7 else -1
  msgget key := key + 1
  fopen path :=
    if path = "listener.conf".toList then some "# queue\nmq-path mq1\nconfig more.conf\n".toList
    else if path = "more.conf".toList then some "mq-path mq2\nload-plugin csv.so\n".toList
    else none
  plugin library _ pluginAlias :=
    { library
      pluginAlias
      dlopens := true
      entryPoints := true
      openPlugin := 0
      state := 0
      memory := ()
      okToAcceptData := fun _ => (1, ())
      processData := fun _ _ => (1, ())
      pluginCommand := none
      overrun := .blank }
  allocator := firstFree
  mallocs := ChainMemory.zeroed
  granted := true
  pluginCommand _ _ _ _ := pure 0
  left _ := 0
  lsblk := []
  hostname := []
  chainFuel := 3

def fileWords : List Str := ["-c".toList, "listener.conf".toList, "-p".toList, "fd.so:f".toList]

/-- The second `mq-path` has no key. -/
def fileScript : List (List Directive) :=
  [[.queue "mq1".toList, .queue "mq2".toList, .plugin "csv.so".toList none none],
    [.plugin "fd.so".toList none (some "f".toList)]]

theorem fileScript_asked :
    (argCalls fileWords).mapM (directives twoFiles.fopen 3) = some fileScript := by
  decide

theorem twoFiles_opens (ds : List Directive) : AllOpen twoFiles ds := by
  intro q mem
  obtain ⟨d, -, requested⟩ := List.mem_filterMap.mp mem
  cases d with
  | queue path => cases requested
  | plugin library options pluginAlias =>
      cases requested
      exact ⟨rfl, rfl, (by decide : (0 : Int) ≠ 1)⟩

theorem twoFiles_fits : Fits twoFiles fileScript.flatten where
  room := by decide
  unshadowing q mem := by
    obtain ⟨d, -, requested⟩ := List.mem_filterMap.mp mem
    cases d with
    | queue path => cases requested
    | plugin library options pluginAlias =>
        cases requested
        intro c added
        cases added

/-- It listens on the queue of `mq1`, with both plugins. -/
theorem startup_law_files : Starts twoFiles fileWords fileScript.flatten ∧
    queueOf twoFiles fileScript.flatten = 8 ∧
    ∃ g, main twoFiles 3 ("mq_listener".toList :: fileWords) Globals.start =
        .returned (.inputLoop (queueOf twoFiles fileScript.flatten)
          (captureDeviceInfo twoFiles.lsblk)) g ∧
      Ready twoFiles fileScript.flatten g ∧ Serves twoFiles fileScript.flatten g := by
  have starts : Starts twoFiles fileWords fileScript.flatten :=
    { leading := by decide
      asked := by decide
      named := by decide
      opens := twoFiles_opens _
      answered := by
        intro call mem mqPath
        have config : argCalls fileWords =
            [("c".toList, ["listener.conf".toList]), ("p".toList, ["fd.so:f".toList])] := by decide
        rw [config] at mem
        rcases List.mem_pair.mp mem with rfl | rfl
        · exact absurd mqPath (by decide)
        · exact absurd mqPath (by decide)
      queue := by decide }
  refine ⟨starts, by decide, ?_⟩
  exact (startup_law twoFiles "mq_listener".toList firstFree_ample (Nat.le_refl 3) (by decide)
    fileScript_asked twoFiles_fits).1 starts

end IoMonitor.Listener.Main
