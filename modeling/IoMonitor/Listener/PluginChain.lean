import IoMonitor.Record
import IoMonitor.Listener.CommandParser

/-!
The plugin chain: loading, unloading, and passing a record along it.

The linked list is a `List` of nodes, oldest first. Every callback into a
plugin is appended to `trace` under the node's `serial`, which numbers the
nodes in the order `load_plugin` allocated them; the allocator may reuse an
address, never a serial. A step is `none` where the C code has no defined
behaviour: unloading a name nothing has.
-/

namespace IoMonitor.Listener

open CString IoMonitor

def PLUGIN_OPEN_FAIL : Int := 1
def PLUGIN_ACCEPT_DATA : Int := 1
def PLUGIN_REFUSE_DATA : Int := 0
def PLUGIN_DROP_DATA : Int := -1

/-- A node of `struct plugin_chain`. `memory` is what the plugin keeps behind
its `void* state`, and the entry points read and write nothing else. -/
structure Plugin (σ : Type) where
  serial : Nat
  pluginLibrary : Str
  pluginAlias : Option Str
  okToAcceptData : σ → Int × σ
  processData : MonitorRecord → σ → Int × σ
  pluginCommand : Option Nat
  pluginPaused : Bool
  state : Nat
  memory : σ

/-- A call into a plugin, with its answer. -/
inductive Call where
  | openPlugin (rc : Int)
  | okToAcceptData (rc : Int)
  | processData (record : MonitorRecord) (rc : Int)
  | closePlugin
  deriving DecidableEq

abbrev Trace := List (Nat × Call)

variable {σ : Type}

/-! ### Passing a record -/

/-- The first half of the loop body: a paused plugin is asked whether it takes
data again. -/
def askPaused (p : Plugin σ) : Plugin σ × List Call :=
  if p.pluginPaused then
    let (rc, memory) := p.okToAcceptData p.memory
    ({ p with memory, pluginPaused := decide (rc ≠ PLUGIN_ACCEPT_DATA) }, [.okToAcceptData rc])
  else (p, [])

/-- The loop body of `execute_plugin_chain` on one node: the node afterwards,
the calls made, and whether the pass ends here. -/
def visit (record : MonitorRecord) (p : Plugin σ) : Plugin σ × List Call × Bool :=
  let (p, asked) := askPaused p
  if p.pluginPaused then (p, asked, false)
  else
    let (rc, memory) := p.processData record p.memory
    ({ p with memory, pluginPaused := decide (rc = PLUGIN_REFUSE_DATA) },
      asked ++ [.processData record rc], decide (rc = PLUGIN_DROP_DATA))

def executePluginChain (record : MonitorRecord) : List (Plugin σ) → List (Plugin σ) × Trace
  | [] => ([], [])
  | p :: rest =>
      let (p', calls, dropped) := visit record p
      if dropped then (p' :: rest, calls.map (p.serial, ·))
      else
        let (rest', later) := executePluginChain record rest
        (p' :: rest', calls.map (p.serial, ·) ++ later)

/-- The records of `input_loop`, passed along the chain one after the other. -/
def executeAll : List MonitorRecord → List (Plugin σ) → List (Plugin σ) × Trace
  | [], chain => (chain, [])
  | record :: records, chain =>
      let (chain', calls) := executePluginChain record chain
      let (chain'', later) := executeAll records chain'
      (chain'', calls ++ later)

/-! ### Loading and unloading -/

/-- A `load-plugin` request and what the shared object answers: whether `dlopen`
finds it and it has the four required entry points, what `open_plugin` returns
and stores in `*state`, and its entry points. `overrun` is what a command reads as
whose names do not keep to the texts of `struct command`. -/
structure LoadRequest (σ : Type) where
  library : Str
  pluginAlias : Option Str
  dlopens : Bool
  entryPoints : Bool
  openPlugin : Int
  state : Nat
  memory : σ
  okToAcceptData : σ → Int × σ
  processData : MonitorRecord → σ → Int × σ
  pluginCommand : Option Nat
  overrun : Command

/-- The chain, `s_commands`, the calls made so far, and the next serial. -/
structure ListenerState (σ : Type) where
  plugins : List (Plugin σ)
  commands : List Command
  trace : Trace
  nextSerial : Nat

/-- The state after `set_commands_array(commands)`. -/
def ListenerState.start : ListenerState σ where
  plugins := []
  commands := setCommandsArray builtins []
  trace := []
  nextSerial := 0

def LoadRequest.node (q : LoadRequest σ) (serial : Nat) : Plugin σ where
  serial
  pluginLibrary := q.library
  pluginAlias := q.pluginAlias
  okToAcceptData := q.okToAcceptData
  processData := q.processData
  pluginCommand := q.pluginCommand
  pluginPaused := false
  state := q.state
  memory := q.memory

/-- The sizes of `name`, and of `short_name` with the two texts behind it. -/
def NAME_LEN : Nat := 256
def SHORT_TEXT_LEN : Nat := 16 + 512 + 4096

/-- The entry `load_plugin` registers: the library path as name, the alias as short name,
or the library path again where there is no alias. A short name longer than its member
runs on into the texts behind it and reads whole. -/
def commandEntry (library : Str) (pluginAlias : Option Str) (entry state : Nat) :
    Option Command :=
  let name := cstr library
  let shortName := cstr (pluginAlias.getD library)
  if name.length < NAME_LEN ∧ shortName.length < SHORT_TEXT_LEN then
    some ⟨name, shortName, .plugin entry, state⟩
  else none

/-- The entry of a loaded plugin that exports `plugin_command`. -/
def Plugin.entry (p : Plugin σ) : Option Command :=
  p.pluginCommand.bind fun entry => commandEntry p.pluginLibrary p.pluginAlias entry p.state

/-- Registration: nothing for a plugin without `plugin_command`. -/
def registerCommand (q : LoadRequest σ) (commands : List Command) : List Command :=
  match q.pluginCommand with
  | none => commands
  | some entry =>
      setCommand ((commandEntry q.library q.pluginAlias entry q.state).getD q.overrun) commands

/-- `load_plugin`: its return value and the state afterwards. -/
def loadPlugin (q : LoadRequest σ) (l : ListenerState σ) : Int × ListenerState σ :=
  -- the node is allocated before anything can fail
  let l' := { l with nextSerial := l.nextSerial + 1 }
  if !q.dlopens || !q.entryPoints then (1, l')
  else
    let opened := { l' with trace := l.trace ++ [(l.nextSerial, .openPlugin q.openPlugin)] }
    if q.openPlugin = PLUGIN_OPEN_FAIL then (1, opened)
    else (0, { opened with
      plugins := l.plugins ++ [q.node l.nextSerial]
      commands := registerCommand q l.commands })

def Plugin.named (name : Str) (p : Plugin σ) : Bool :=
  p.pluginLibrary = name || p.pluginAlias = some name

def locatePluginByName (name : Str) (plugins : List (Plugin σ)) : Option (Plugin σ) :=
  plugins.find? (·.named name)

/-- `unload_plugin`: close the plugin and free its command, by library path. -/
def unloadPlugin (p : Plugin σ) (l : ListenerState σ) : ListenerState σ :=
  { l with
    trace := l.trace ++ [(p.serial, .closePlugin)]
    commands := freeCommand p.pluginLibrary l.commands }

/-- `unload_plugin_by_name`, which dereferences the node it located. -/
def unloadPluginByName (name : Str) (l : ListenerState σ) : Option (Int × ListenerState σ) :=
  (locatePluginByName name l.plugins).map fun p =>
    (0, { unloadPlugin p l with plugins := l.plugins.eraseP (·.serial = p.serial) })

def unloadAllPlugins (l : ListenerState σ) : ListenerState σ :=
  { l.plugins.foldl (fun l p => unloadPlugin p l) l with plugins := [] }

/-! ### What the operations change -/

@[simp] theorem askPaused_serial (p : Plugin σ) : (askPaused p).1.serial = p.serial := by
  unfold askPaused
  split <;> rfl

@[simp] theorem visit_serial (record : MonitorRecord) (p : Plugin σ) :
    (visit record p).1.serial = p.serial := by
  unfold visit
  split
  rename_i p' asked eq
  have serial : p'.serial = p.serial := by rw [← askPaused_serial p, eq]
  split
  · exact serial
  · exact serial

/-- Unlinking a node by its number leaves the nodes with other numbers. -/
theorem unlink_eq {serial : Nat} {chain : List (Plugin σ)}
    (distinct : (chain.map Plugin.serial).Nodup) :
    chain.eraseP (·.serial = serial) = chain.filter (·.serial ≠ serial) := by
  induction chain with
  | nil => rfl
  | cons p rest ih =>
      obtain ⟨notIn, distinct'⟩ := List.nodup_cons.mp distinct
      by_cases same : p.serial = serial
      · have others : rest.filter (·.serial ≠ serial) = rest :=
          List.filter_eq_self.mpr fun r hr => by
            have : r.serial ≠ serial := fun eq =>
              notIn (List.mem_map.mpr ⟨r, hr, eq.trans same.symm⟩)
            simpa using this
        rw [List.eraseP_cons_of_pos (by simpa using same),
          List.filter_cons_of_neg (by simpa using same), others]
      · rw [List.eraseP_cons_of_neg (by simpa using same),
          List.filter_cons_of_pos (by simpa using same), ih distinct']

/-- Everything but the private memory and the paused flag. -/
def Plugin.identity (p : Plugin σ) : Nat × Str × Option Str × Option Nat × Nat :=
  (p.serial, p.pluginLibrary, p.pluginAlias, p.pluginCommand, p.state)

theorem visit_identity (record : MonitorRecord) (p : Plugin σ) :
    (visit record p).1.identity = p.identity := by
  unfold visit askPaused Plugin.identity
  by_cases paused : p.pluginPaused
  · simp only [paused, if_true]
    split <;> rfl
  · simp [paused]

/-- A pass over the chain keeps its nodes, in order. -/
theorem executePluginChain_identity (record : MonitorRecord) (chain : List (Plugin σ)) :
    (executePluginChain record chain).1.map Plugin.identity = chain.map Plugin.identity := by
  induction chain with
  | nil => rfl
  | cons p rest ih =>
      simp only [executePluginChain]
      split
      · simp [visit_identity]
      · simp [visit_identity, ih]

theorem executePluginChain_length (record : MonitorRecord) (chain : List (Plugin σ)) :
    (executePluginChain record chain).1.length = chain.length := by
  have same := congrArg List.length (executePluginChain_identity record chain)
  rwa [List.length_map, List.length_map] at same

theorem mem_executePluginChain {record : MonitorRecord} {chain : List (Plugin σ)} {r : Plugin σ}
    (hr : r ∈ (executePluginChain record chain).1) : ∃ p ∈ chain, p.identity = r.identity := by
  have mem : r.identity ∈ chain.map Plugin.identity :=
    executePluginChain_identity record chain ▸ List.mem_map_of_mem hr
  exact List.mem_map.mp mem

/-- What of a plugin its identity settles. -/
theorem Plugin.same_of_identity {p r : Plugin σ} (same : p.identity = r.identity) :
    p.pluginLibrary = r.pluginLibrary ∧ p.pluginAlias = r.pluginAlias ∧
      p.pluginCommand = r.pluginCommand ∧ p.state = r.state ∧ p.entry = r.entry := by
  simp only [identity, Prod.mk.injEq] at same
  obtain ⟨-, library, pluginAlias, command, state⟩ := same
  refine ⟨library, pluginAlias, command, state, ?_⟩
  rw [entry, entry, library, pluginAlias, command, state]

end IoMonitor.Listener
