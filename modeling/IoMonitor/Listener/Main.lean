import IoMonitor.Listener.CaptureDevices
import IoMonitor.Listener.Handlers
import IoMonitor.Listener.ListPlugins
import Mathlib.Data.Set.Finite.Basic

/-!
`main` of `mq_listener`, as far as `input_loop`.

`parse_args` and `c_config` run commands, and a command may be a `c_config`, so the
files nest. A command that fails ends `parse_args` but not a file, and a plugin that
does not load ends the process from anywhere. The records received are passed along
the chain in memory as along the list of plugins (`passAll_represents`).
-/

namespace IoMonitor.Listener.Main

open CString Prog ChainMemory

variable {σ : Type}

/-! ### The commands -/

/-- What the process is answered. A handler without a `return` leaves `left` for its
value. -/
structure StartEnv (σ : Type) where
  ftok : Str → Int
  msgget : Int → Int
  fopen : Str → Option Str
  plugin : Str → Option Str → Option Str → LoadRequest σ
  allocator : Allocator σ
  mallocs : Mallocs
  granted : Bool
  pluginCommand : Nat → Str → List Str → Nat → Prog (Globals σ) Int
  left : Handler → Int
  lsblk : Str
  hostname : Str
  chainFuel : Nat

/-- The loop of `unload_all_plugins`. -/
def unloadNodes : Nat → Prog (Memory σ) Unit
  | 0 => exhaust
  | fuel + 1 => do
      match (← get).plugins with
      | none => pure ()
      | some p => do
          ChainMemory.unloadPlugin (some p)
          let next := (← read (some p)).next
          modify fun m => { m with plugins := next }
          unloadNodes fuel

def unloadAllPlugins (fuel : Nat) : Prog (Memory σ) Unit := do
  pluginsLock
  unloadNodes fuel
  modify fun m => { m with plugins := none }
  pluginsUnlock

def cListPlugins (env : StartEnv σ) : Prog (Globals σ) HandlerResult := do
  match ← onChain (listPlugins env.mallocs env.granted env.chainFuel) with
  | none => crash -- `list_of_plugins[0]`
  | some _ => pure (.returns (env.left .listPlugins))

def cQuit (env : StartEnv σ) : Prog (Globals σ) HandlerResult := do
  onChain (unloadAllPlugins env.chainFuel)
  pure (.exits 1)

def StartEnv.handlers (env : StartEnv σ) (run : CommandRun (Globals σ)) : HandlerEnv σ where
  ftok := env.ftok
  msgget := env.msgget
  fopen := env.fopen
  plugin := env.plugin
  allocator := env.allocator
  fuel := env.chainFuel
  runCommand := run

/-- A handler, without what it did to its operands. -/
def quiet (p : HandlerProg σ HandlerResult) : Prog (Globals σ) HandlerResult := fun g => (p g).2

def runHandler (env : StartEnv σ) (run : CommandRun (Globals σ)) (args : List Str) :
    Handler → Prog (Globals σ) HandlerResult
  | .loadPlugin => quiet (cLoadPlugin (env.handlers run) args)
  | .unloadPlugin => quiet (cUnloadPlugin (env.handlers run) args)
  | .reorderPlugins => pure (.returns (env.left .reorderPlugins))
  | .listPlugins => cListPlugins env
  | .quit => cQuit env
  | .mqPath => quiet (cMqPath (env.handlers run) args)
  | .config => quiet (cConfigHandler (env.handlers run) args)
  | .help => pure (.returns 0)

/-- `run_command`; the fuel bounds how deep the files nest. -/
def runCommand (env : StartEnv σ) : Nat → CommandRun (Globals σ)
  | 0, _ => exhaust
  | fuel + 1, (name, args) => do
      match Listener.runCommand name (← get).chain.commands with
      | none => pure (.returns 1)
      | some (.handler h, _) => runHandler env (runCommand env fuel) args h
      | some (.plugin entry, state) => return .returns (← env.pluginCommand entry name args state)

/-! ### `main` -/

/-- How `main` goes on. -/
inductive MainResult where
  | ends (status : Int)
  | inputLoop (messageQueueId : Int) (mounts : MountTable)

def main (env : StartEnv σ) (fuel : Nat) (argv : List Str) : Prog (Globals σ) MainResult := do
  match ← (runCommand env fuel).parseArgs argv with
  | .exits status => pure (.ends status)
  | .returns rc =>
      if rc ≠ 0 then pure (.ends rc)
      else if (← get).messageQueueId = -1 then pure (.ends 1)
      else pure (.inputLoop (← get).messageQueueId (captureDeviceInfo env.lsblk))

/-- The records, one after the other. -/
def passAll (fuel : Nat) : List MonitorRecord → Prog (Memory σ) Unit
  | [] => pure ()
  | record :: records => do
      let _ ← ChainMemory.executePluginChain fuel record
      passAll fuel records

/-- `input_loop`, as far as the messages go that it receives. -/
def inputLoop (env : StartEnv σ) (mounts : MountTable) (received : List MonitorRecord) :
    Prog (Globals σ) Unit :=
  onChain (passAll env.chainFuel (Listener.inputLoop mounts env.hostname noFiles received).2)

/-- The globals at start. -/
def Globals.start : Globals σ := ⟨Memory.start, -1, -1⟩

/-! ### Records, on the chain in memory -/

/-- The listener after the records. -/
def served (records : List MonitorRecord) (l : ListenerState σ) : ListenerState σ :=
  { l with
    plugins := (executeAll records l.plugins).1
    trace := l.trace ++ (executeAll records l.plugins).2 }

section Chain

variable {m : Memory σ} {l : ListenerState σ} {fuel : Nat}

theorem passAll_represents (h : Represents m l) (short : l.plugins.length < fuel)
    (records : List MonitorRecord) : ∃ m', passAll fuel records m = .returned () m' ∧
      Represents m' (served records l) := by
  induction records generalizing m l with
  | nil =>
      refine ⟨m, rfl, ?_⟩
      rw [served, executeAll, List.append_nil]
      exact h
  | cons record records ih =>
      obtain ⟨m', ran, after⟩ := execute_represents h short record
      obtain ⟨m'', rest, served⟩ := ih after ((executePluginChain_length record _).symm ▸ short)
      refine ⟨m'', ?_, ?_⟩
      · rw [passAll, bind_of_returned ran, rest]
      · simpa [Main.served, executeAll] using served

end Chain

/-! ### Memory in use -/

/-- A run leaves finitely many cells in use where it found finitely many. -/
def KeepsFinite (m m' : Memory σ) : Prop :=
  {a | m.heap a ≠ none}.Finite → {a | m'.heap a ≠ none}.Finite

theorem KeepsFinite.refl (m : Memory σ) : KeepsFinite m m := id

theorem KeepsFinite.trans (m m' m'' : Memory σ) (first : KeepsFinite m m')
    (second : KeepsFinite m' m'') : KeepsFinite m m'' := second ∘ first

/-- What writes to other globals leaves memory as it was. -/
theorem modify_finite {f : Memory σ → Memory σ} (same : ∀ m, (f m).heap = m.heap) :
    Transitions KeepsFinite (modify f) :=
  Transitions.modify fun m finite => (same m).symm ▸ finite

theorem read_finite (p : Option Nat) : Transitions KeepsFinite (ChainMemory.read (σ := σ) p) := by
  intro m
  unfold ChainMemory.read
  split
  · exact KeepsFinite.refl m
  · exact KeepsFinite.refl m

theorem write_finite (a : Nat) (cell : Option (LinkedList.Cell Nat (Plugin σ))) :
    Transitions KeepsFinite (write a cell) := by
  refine Transitions.modify fun m finite => (finite.insert a).subset fun b used => ?_
  by_cases same : b = a
  · exact .inl same
  · exact .inr fun unused => used ((Function.update_of_ne same _ _).trans unused)

theorem lastNode_finite (fuel tmp : Nat) :
    Transitions KeepsFinite (lastNode (σ := σ) fuel tmp) := by
  induction fuel generalizing tmp with
  | zero => exact Transitions.exhaust
  | succ fuel ih =>
      refine Transitions.bind KeepsFinite.trans (read_finite _) fun cell => ?_
      cases cell.next with
      | none => exact Transitions.pure KeepsFinite.refl tmp
      | some next => exact ih next

theorem pluginsLock_finite : Transitions KeepsFinite (pluginsLock (σ := σ)) := by
  intro m
  unfold pluginsLock
  split
  · trivial
  · exact KeepsFinite.refl m

theorem appendNode_finite (fuel a : Nat) :
    Transitions KeepsFinite (appendNode (σ := σ) fuel a) := by
  have unlock : Transitions KeepsFinite (pluginsUnlock (σ := σ)) := modify_finite fun _ => rfl
  refine Transitions.bind KeepsFinite.trans pluginsLock_finite fun _ m => ?_
  rw [get_bind]
  cases m.plugins with
  | none =>
      refine Transitions.bind KeepsFinite.trans ?first (fun _ => unlock) m
      case first => exact modify_finite fun _ => rfl
  | some head =>
      refine Transitions.bind KeepsFinite.trans (lastNode_finite fuel head) (fun tmp => ?_) m
      refine Transitions.bind KeepsFinite.trans (read_finite _) fun cell => ?_
      exact Transitions.bind KeepsFinite.trans (write_finite tmp _) fun _ => unlock

theorem loadPlugin_finite (allocator : Allocator σ) (fuel : Nat) (q : LoadRequest σ) :
    Transitions KeepsFinite (ChainMemory.loadPlugin allocator fuel q) := by
  have fails : Transitions KeepsFinite (pure 1 : Prog (Memory σ) Int) :=
    Transitions.pure KeepsFinite.refl 1
  intro m
  rw [ChainMemory.loadPlugin, get_bind]
  refine Transitions.bind KeepsFinite.trans ?allocated (fun _ => ?_) m
  case allocated => exact modify_finite fun _ => rfl
  cases allocator.calloc m.nextSerial m.heap with
  | none => exact fails
  | some a =>
      refine Transitions.bind KeepsFinite.trans (write_finite a _) fun _ => ?_
      split
      · exact fails
      split
      · exact fails
      refine Transitions.bind KeepsFinite.trans (modify_finite fun _ => rfl) fun _ => ?_
      split
      · exact fails
      refine Transitions.bind KeepsFinite.trans (modify_finite fun _ => rfl) fun _ => ?_
      exact Transitions.bind KeepsFinite.trans (appendNode_finite fuel a)
        fun _ => Transitions.pure KeepsFinite.refl 0

end IoMonitor.Listener.Main
