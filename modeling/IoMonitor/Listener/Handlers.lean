import IoMonitor.Listener.ChainMemory
import IoMonitor.Listener.CommandRuns

/-!
The handlers of `mq_listener` that take operands.

What a handler does with its operand vector is recorded: each read, and each use
of an operand as a string, also of one that is missing. `c_unload_plugin` checks
its operand and is the one that is safe on all vectors; `c_mq_path` besides sets
the key and the id of the queue before it knows that it has them
(`handlers_meet_iff`).
-/

namespace IoMonitor.Listener

open CString Prog ChainMemory

variable {σ : Type}

/-- The globals of `mq_listener.c` and, in `chain`, of `plugin_chain.c`. -/
structure Globals (σ : Type) where
  chain : Memory σ
  messageQueueKey : Int
  messageQueueId : Int

/-- What the handlers are answered. `runCommand` runs the commands of a config file, with
handlers that have operand vectors of their own. -/
structure HandlerEnv (σ : Type) where
  ftok : Str → Int
  msgget : Int → Int
  fopen : Str → Option Str
  plugin : Str → Option Str → Option Str → LoadRequest σ
  allocator : Allocator σ
  fuel : Nat
  runCommand : CommandRun (Globals σ)

abbrev HandlerProg (σ α : Type) := Traced OperandUse (Globals σ) α

def onChain {α : Type} (p : Prog (Memory σ) α) : Prog (Globals σ) α := fun g =>
  match p g.chain with
  | .returned a chain => .returned a { g with chain }
  | .crashed chain => .crashed { g with chain }
  | .exhausted => .exhausted

def cMqPath (env : HandlerEnv σ) (args : List Str) : HandlerProg σ HandlerResult := do
  -- without an operand `message_queue_path` stays unset
  let messageQueuePath ←
    match ← operand args 0 with
    | none => pure none
    | some _ => operand args 0
  let path ← useString messageQueuePath
  let key := env.ftok path
  Traced.lift (modify fun g => { g with messageQueueKey := key })
  if key = -1 then
    let _ ← useString messageQueuePath
    pure (.returns 1)
  else
    let id := env.msgget key
    Traced.lift (modify fun g => { g with messageQueueId := id })
    if id = -1 then
      let _ ← useString messageQueuePath
      pure (.returns 1)
    else pure (.returns 0)

/-- `plugin_library` and `plugin_alias`, cut at the first `:`. -/
def splitAlias (s : Str) : Str × Option Str :=
  match strchr s ':' with
  | none => (s, none)
  | some found => (s.takeWhile (· ≠ ':'), if found.tail = [] then none else some found.tail)

def cLoadPlugin (env : HandlerEnv σ) (args : List Str) : HandlerProg σ HandlerResult := do
  let (pluginLibrary, pluginAlias) := splitAlias (← useString (← operand args 0))
  let pluginOptions ← operand args 1
  let res ← Traced.lift (onChain (ChainMemory.loadPlugin env.allocator env.fuel
    (env.plugin pluginLibrary pluginOptions pluginAlias)))
  pure (if res ≠ 0 then .exits 1 else .returns 0)

/-- `c_config` among the handlers. -/
def cConfigHandler (env : HandlerEnv σ) (args : List Str) : HandlerProg σ HandlerResult :=
  env.runCommand.cConfig env.fopen args

def cUnloadPlugin (env : HandlerEnv σ) (args : List Str) : HandlerProg σ HandlerResult := do
  match ← operand args 0 with
  | none => pure (.returns 1)
  | some _ => do
      let name ← useString (← operand args 0)
      pure (.returns (← Traced.lift (onChain (ChainMemory.unloadPluginByName env.fuel name))))

/-! ### What is asked of a handler -/

/-- The vector is read up to its `NULL`, and no missing operand is taken for a string. -/
def OperandUse.Fine (args : List Str) : OperandUse → Prop
  | .read i => i ≤ args.length
  | .string p => p ≠ none

/-- Safe on the vector; and the operand, which all four need, is missed. -/
structure SafeOn (handler : List Str → HandlerProg σ HandlerResult) (args : List Str)
    (g : Globals σ) : Prop where
  uses : ∀ use ∈ (handler args g).1, use.Fine args
  missing : args = [] → ∃ rc g', (handler args g).2 = .returned (.returns rc) g' ∧ rc ≠ 0

/-- A failure leaves the queue as it was. -/
def QueueKept (handler : List Str → HandlerProg σ HandlerResult) (args : List Str)
    (g : Globals σ) : Prop :=
  ∀ rc g', (handler args g).2 = .returned (.returns rc) g' → rc ≠ 0 →
    g'.messageQueueKey = g.messageQueueKey ∧ g'.messageQueueId = g.messageQueueId

/-- The calls that fail find the queue as they leave it. -/
def QueueUnchanged (env : HandlerEnv σ) (path : Str) (g : Globals σ) : Prop :=
  (env.ftok path = -1 → g.messageQueueKey = -1) ∧
    (env.ftok path ≠ -1 → env.msgget (env.ftok path) = -1 →
      g.messageQueueKey = env.ftok path ∧ g.messageQueueId = -1)

/-! ### Each handler -/

variable (env : HandlerEnv σ) (g : Globals σ)

theorem cMqPath_cons (path : Str) (rest : List Str) :
    cMqPath env (path :: rest) g =
      if env.ftok path = -1 then
        ([.read 0, .read 0, .string (some path), .string (some path)],
          .returned (.returns 1) { g with messageQueueKey := -1 })
      else if env.msgget (env.ftok path) = -1 then
        ([.read 0, .read 0, .string (some path), .string (some path)],
          .returned (.returns 1)
            { g with messageQueueKey := env.ftok path, messageQueueId := -1 })
      else
        ([.read 0, .read 0, .string (some path)], .returned (.returns 0) { g with
          messageQueueKey := env.ftok path
          messageQueueId := env.msgget (env.ftok path) }) := by
  by_cases noKey : env.ftok path = -1
  · simp only [cMqPath, operand_bind, List.getElem?_cons_zero, useString_bind,
      Traced.lift_modify_bind, noKey, if_true, Traced.pure_apply]
  · rw [if_neg noKey]
    by_cases noId : env.msgget (env.ftok path) = -1
    · simp only [cMqPath, operand_bind, List.getElem?_cons_zero, useString_bind,
        Traced.lift_modify_bind, noKey, if_false, noId, if_true, Traced.pure_apply]
    · simp only [cMqPath, operand_bind, List.getElem?_cons_zero, useString_bind,
        Traced.lift_modify_bind, noKey, noId, if_false, Traced.pure_apply]

theorem cMqPath_nil : cMqPath env [] g = ([.read 0, .string none], .crashed g) := rfl

theorem cLoadPlugin_nil : cLoadPlugin env [] g = ([.read 0, .string none], .crashed g) := rfl

theorem cLoadPlugin_uses (library : Str) (rest : List Str) :
    (cLoadPlugin env (library :: rest) g).1 = [.read 0, .string (some library), .read 1] := by
  simp only [cLoadPlugin, operand_bind, List.getElem?_cons_zero, useString_bind]
  rw [Traced.lift_bind_trace fun _ _ => rfl]

theorem cUnloadPlugin_nil : cUnloadPlugin env [] g = ([.read 0], .returned (.returns 1) g) := rfl

theorem cUnloadPlugin_uses (name : Str) (rest : List Str) :
    (cUnloadPlugin env (name :: rest) g).1 = [.read 0, .read 0, .string (some name)] := by
  simp only [cUnloadPlugin, operand_bind, List.getElem?_cons_zero, useString_bind]
  rw [Traced.lift_bind_trace fun _ _ => rfl]

/-! ### All four -/

variable {g} {handler : List Str → HandlerProg σ HandlerResult} {args : List Str}

theorem safeOn_of_uses (nonempty : args ≠ []) {uses : List OperandUse}
    (made : (handler args g).1 = uses) (fine : ∀ use ∈ uses, use.Fine args) :
    SafeOn handler args g where
  uses := made ▸ fine
  missing empty := absurd empty nonempty

/-- A handler that takes a missing operand for a string needs one. -/
theorem safeOn_iff (missing : OperandUse.string none ∈ (handler [] g).1)
    (given : args ≠ [] → SafeOn handler args g) : SafeOn handler args g ↔ args ≠ [] := by
  refine ⟨?_, given⟩
  rintro safe rfl
  exact safe.uses _ missing rfl

theorem cUnloadPlugin_safe (args : List Str) : SafeOn (cUnloadPlugin env) args g := by
  cases args with
  | nil =>
      constructor
      · rw [cUnloadPlugin_nil]
        simp [OperandUse.Fine]
      · exact fun _ => ⟨1, g, rfl, by decide⟩
  | cons name rest =>
      exact safeOn_of_uses (List.cons_ne_nil _ _) (cUnloadPlugin_uses env g name rest)
        (by simp [OperandUse.Fine])

theorem cLoadPlugin_safe_iff : SafeOn (cLoadPlugin env) args g ↔ args ≠ [] := by
  refine safeOn_iff (by simp [cLoadPlugin_nil]) fun given => ?_
  obtain ⟨library, rest, rfl⟩ := List.exists_cons_of_ne_nil given
  exact safeOn_of_uses given (cLoadPlugin_uses env g library rest) (by simp [OperandUse.Fine])

theorem cConfigHandler_safe_iff : SafeOn (cConfigHandler env) args g ↔ args ≠ [] := by
  refine safeOn_iff (by simp [cConfigHandler, CommandRun.cConfig_nil]) fun given => ?_
  obtain ⟨path, rest, rfl⟩ := List.exists_cons_of_ne_nil given
  have uses := congrArg Prod.fst (env.runCommand.cConfig_cons env.fopen path rest g)
  exact safeOn_of_uses given uses (by simp [OperandUse.Fine])

theorem cMqPath_safe_iff : SafeOn (cMqPath env) args g ↔ args ≠ [] := by
  refine safeOn_iff (by simp [cMqPath_nil]) fun given => ?_
  obtain ⟨path, rest, rfl⟩ := List.exists_cons_of_ne_nil given
  refine safeOn_of_uses given rfl ?_
  rw [cMqPath_cons]
  split
  · simp [OperandUse.Fine]
  · split <;> simp [OperandUse.Fine]

/-- The key is set before the id is asked for, and both before they are checked. -/
theorem cMqPath_kept_iff (path : Str) (rest : List Str) :
    QueueKept (cMqPath env) (path :: rest) g ↔ QueueUnchanged env path g := by
  rw [QueueKept, cMqPath_cons, QueueUnchanged]
  by_cases noKey : env.ftok path = -1
  · rw [if_pos noKey]
    constructor
    · intro kept
      exact ⟨fun _ => (kept 1 _ rfl (by decide)).1.symm, fun key => absurd noKey key⟩
    · rintro ⟨unchanged, -⟩ rc g' ran -
      cases ran
      exact ⟨(unchanged noKey).symm, rfl⟩
  rw [if_neg noKey]
  by_cases noId : env.msgget (env.ftok path) = -1
  · rw [if_pos noId]
    constructor
    · intro kept
      obtain ⟨key, id⟩ := kept 1 _ rfl (by decide)
      exact ⟨fun none => absurd none noKey, fun _ _ => ⟨key.symm, id.symm⟩⟩
    · rintro ⟨-, unchanged⟩ rc g' ran -
      cases ran
      exact ⟨(unchanged noKey noId).1.symm, (unchanged noKey noId).2.symm⟩
  · rw [if_neg noId]
    refine iff_of_true (fun rc g' ran failed => ?_)
      ⟨fun none => absurd none noKey, fun _ none => absurd none noId⟩
    cases ran
    exact absurd rfl failed

/-- **The handlers on their operands.** `c_unload_plugin` is safe on every vector, the
others on those that have an operand; and `c_mq_path` keeps the queue where it fails
iff what it failed with was there before. -/
theorem handlers_meet_iff (args : List Str) (g : Globals σ) :
    SafeOn (cUnloadPlugin env) args g ∧
      (SafeOn (cLoadPlugin env) args g ↔ args ≠ []) ∧
      (SafeOn (cConfigHandler env) args g ↔ args ≠ []) ∧
      (SafeOn (cMqPath env) args g ∧ QueueKept (cMqPath env) args g ↔
        ∃ path ∈ args.head?, QueueUnchanged env path g) := by
  refine ⟨cUnloadPlugin_safe env args, cLoadPlugin_safe_iff env, cConfigHandler_safe_iff env, ?_⟩
  rw [cMqPath_safe_iff]
  cases args with
  | nil => simp
  | cons path rest =>
      rw [cMqPath_kept_iff]
      simp

/-- `mq-path` without its operand: what `ftok` is given was never set. -/
theorem mq_path_without_operand : ¬ ∀ (env : HandlerEnv Unit) args g,
    SafeOn (cUnloadPlugin env) args g ∧ SafeOn (cLoadPlugin env) args g ∧
      SafeOn (cConfigHandler env) args g ∧
      SafeOn (cMqPath env) args g ∧ QueueKept (cMqPath env) args g := by
  intro meets
  have safe := (meets
    { ftok := fun _ => -1
      msgget := fun _ => 0
      fopen := fun _ => none
      plugin := fun library _ pluginAlias =>
        { library
          pluginAlias
          dlopens := false
          entryPoints := false
          openPlugin := 0
          state := 0
          memory := ()
          okToAcceptData := fun _ => (0, ())
          processData := fun _ _ => (0, ())
          pluginCommand := none
          overrun := .blank }
      allocator := ⟨fun _ _ => none, fun h => absurd h (by simp)⟩
      fuel := 0
      runCommand := fun _ => pure (.returns 0) }
    [] ⟨.start, -1, -1⟩).2.2.2.1
  have used : OperandUse.string none ∈ [.read 0, .string none] := by simp
  exact safe.uses _ used rfl

end IoMonitor.Listener
