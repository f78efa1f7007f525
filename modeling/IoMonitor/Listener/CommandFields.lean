import IoMonitor.Lib.CharBuffer
import IoMonitor.Listener.Coherence

/-!
The command that `load_plugin` registers, as the bytes of its structure.

The two `sprintf`s write the names into the first two members and do not look at their
sizes. What does not fit runs on into the next member (`registersNames_iff`).
-/

namespace IoMonitor.Listener

open CString

variable {σ : Type}

/-! ### `struct command` -/

/-- The offsets of the members behind `name`. -/
def SHORT_NAME : Nat := 256
def PARAMS_DESC : Nat := 272
def COMMAND_FUNCTION : Nat := 4880

/-- `sizeof(struct command)`: four texts, a pointer, an `int` padded to 8 bytes, and two
pointers. -/
def COMMAND_SIZE : Nat := 4912

abbrev CommandBytes := CharBuffer COMMAND_SIZE

/-- The bytes of the members from one offset to another. -/
def memberBytes (b : CommandBytes) (start stop : Nat) : Str := (b.bytes.take stop).drop start

/-- `_command` with its empty texts; `members` are the bytes of the others. -/
def initCommand (members : CharBuffer (COMMAND_SIZE - COMMAND_FUNCTION)) : CommandBytes where
  bytes := List.replicate COMMAND_FUNCTION nul ++ members.bytes
  size := by
    rw [List.length_append, List.length_replicate, members.size]
    rfl

/-- `sprintf(_command.name, …)` and `sprintf(_command.short_name, …)`. -/
def fillCommand (command : CommandBytes) (library : Str) (pluginAlias : Option Str) :
    Except Fault CommandBytes := do
  let command ← command.strcpy 0 library
  command.strcpy SHORT_NAME (pluginAlias.getD library)

/-! ### `load_plugin` -/

/-- The chain, `s_commands`, the calls made so far, and the next serial. The order of the
commands stands for `next_command`. -/
structure ListenerBytes (σ : Type) where
  plugins : List (Plugin σ)
  commands : List CommandBytes
  trace : Trace
  nextSerial : Nat

def registerBytes (members : CharBuffer (COMMAND_SIZE - COMMAND_FUNCTION)) (p : Plugin σ)
    (commands : List CommandBytes) : Except Fault (List CommandBytes) :=
  match p.pluginCommand with
  | none => .ok commands
  | some _ => do
      let command ← fillCommand (initCommand members) p.pluginLibrary p.pluginAlias
      .ok (command :: commands)

def loadPluginBytes (members : CharBuffer (COMMAND_SIZE - COMMAND_FUNCTION)) (q : LoadRequest σ)
    (l : ListenerBytes σ) : Except Fault (Int × ListenerBytes σ) :=
  let l' := { l with nextSerial := l.nextSerial + 1 }
  if !q.dlopens || !q.entryPoints then .ok (1, l')
  else
    let opened := { l' with trace := l.trace ++ [(l.nextSerial, .openPlugin q.openPlugin)] }
    if q.openPlugin = PLUGIN_OPEN_FAIL then .ok (1, opened)
    else do
      let commands ← registerBytes members (q.node l.nextSerial) l.commands
      .ok (0, { opened with plugins := l.plugins ++ [q.node l.nextSerial], commands })

/-- The load succeeds, and the plugin exports `plugin_command`. -/
structure LoadRequest.Registers (q : LoadRequest σ) : Prop where
  dlopens : q.dlopens = true
  entryPoints : q.entryPoints = true
  opens : q.openPlugin ≠ PLUGIN_OPEN_FAIL
  exports : q.pluginCommand.isSome

/-- The two names are in their members with their NULs, and no other member is changed. -/
structure NamesFit (library : Str) (pluginAlias : Option Str) (before after : CommandBytes) :
    Prop where
  name : library ++ [nul] <+: memberBytes after 0 SHORT_NAME
  shortName : pluginAlias.getD library ++ [nul] <+: memberBytes after SHORT_NAME PARAMS_DESC
  others : memberBytes after PARAMS_DESC COMMAND_SIZE = memberBytes before PARAMS_DESC COMMAND_SIZE

/-- The load is refused and changes neither chain nor registry, or the names fit. -/
def RegistersNames (members : CharBuffer (COMMAND_SIZE - COMMAND_FUNCTION)) (q : LoadRequest σ)
    (l : ListenerBytes σ) : Prop :=
  ∃ rc l', loadPluginBytes members q l = .ok (rc, l') ∧
    ((rc ≠ 0 ∧ l'.plugins = l.plugins ∧ l'.commands = l.commands) ∨
      ∃ command, l'.commands = command :: l.commands ∧
        NamesFit q.library q.pluginAlias (initCommand members) command)

/-! ### Where the names fit -/

theorem memberBytes_length (b : CommandBytes) {start stop : Nat} (inside : stop ≤ COMMAND_SIZE) :
    (memberBytes b start stop).length = stop - start := by
  rw [memberBytes, List.length_drop, List.length_take, b.size, Nat.min_eq_left inside]

theorem memberBytes_end (b : CommandBytes) (start : Nat) :
    memberBytes b start COMMAND_SIZE = b.bytes.drop start := by
  rw [memberBytes, List.take_of_length_le b.size.le]

theorem NamesFit.short {library : Str} {pluginAlias : Option Str} {before after : CommandBytes}
    (fit : NamesFit library pluginAlias before after) :
    library.length ≤ 255 ∧ (pluginAlias.getD library).length ≤ 15 := by
  have name := fit.name.length_le
  have shortName := fit.shortName.length_le
  rw [memberBytes_length after (by decide), List.length_append, List.length_singleton] at name
  rw [memberBytes_length after (by decide), List.length_append, List.length_singleton] at shortName
  simp only [SHORT_NAME, PARAMS_DESC] at name shortName
  omega

theorem fillCommand_fits (before : CommandBytes) {library : Str} {pluginAlias : Option Str}
    (name : library.length ≤ 255) (shortName : (pluginAlias.getD library).length ≤ 15) :
    ∃ after, fillCommand before library pluginAlias = .ok after ∧
      NamesFit library pluginAlias before after := by
  obtain ⟨named, copied, -, text, behind⟩ := before.strcpy_frame (i := 0) (s := library)
    (by rw [COMMAND_SIZE]; omega)
  obtain ⟨after, copied', front, short, behind'⟩ :=
    named.strcpy_frame (i := SHORT_NAME) (s := pluginAlias.getD library)
      (by rw [COMMAND_SIZE, SHORT_NAME]; omega)
  refine ⟨after, ?_, ?_, ?_, ?_⟩
  · rw [fillCommand, copied, PointerArray.ok_bind, copied']
  · rw [memberBytes, List.drop_zero, front, List.prefix_take_iff, List.length_append,
      List.length_singleton, SHORT_NAME]
    exact ⟨text, by omega⟩
  · rw [memberBytes, List.drop_take, List.prefix_take_iff, List.length_append,
      List.length_singleton]
    exact ⟨short, by rw [SHORT_NAME, PARAMS_DESC]; omega⟩
  · rw [memberBytes_end, memberBytes_end,
      behind' PARAMS_DESC (by rw [SHORT_NAME, PARAMS_DESC]; omega),
      behind PARAMS_DESC (by rw [PARAMS_DESC]; omega)]

/-- Such a load makes the command and puts it first, and the plugin last. -/
theorem loadPluginBytes_registers (members : CharBuffer (COMMAND_SIZE - COMMAND_FUNCTION))
    {q : LoadRequest σ} (registers : q.Registers) (l : ListenerBytes σ) :
    loadPluginBytes members q l =
      (fillCommand (initCommand members) q.library q.pluginAlias).map fun command => (0,
        { plugins := l.plugins ++ [q.node l.nextSerial]
          commands := command :: l.commands
          trace := l.trace ++ [(l.nextSerial, .openPlugin q.openPlugin)]
          nextSerial := l.nextSerial + 1 }) := by
  obtain ⟨entry, exports⟩ := Option.isSome_iff_exists.mp registers.exports
  have found : ¬ (!q.dlopens || !q.entryPoints) = true := by
    simp [registers.dlopens, registers.entryPoints]
  have node : (q.node l.nextSerial).pluginCommand = some entry := exports
  rw [loadPluginBytes, if_neg found]
  dsimp only
  rw [if_neg registers.opens, registerBytes, node]
  change ((fillCommand (initCommand members) q.library q.pluginAlias >>= _) >>= _) = _
  cases fillCommand (initCommand members) q.library q.pluginAlias with
  | error fault => rfl
  | ok command => rfl

theorem RegistersNames.short {members : CharBuffer (COMMAND_SIZE - COMMAND_FUNCTION)}
    {q : LoadRequest σ} (registers : q.Registers) {l : ListenerBytes σ}
    (h : RegistersNames members q l) :
    q.library.length ≤ 255 ∧ (q.pluginAlias.getD q.library).length ≤ 15 := by
  obtain ⟨rc, l', loaded, done⟩ := h
  rw [loadPluginBytes_registers members registers] at loaded
  cases filled : fillCommand (initCommand members) q.library q.pluginAlias with
  | error fault =>
      rw [filled] at loaded
      cases loaded
  | ok command =>
      rw [filled] at loaded
      cases loaded
      rcases done with ⟨refused, -⟩ | ⟨command', same, fit⟩
      · exact absurd rfl refused
      · exact fit.short

/-- **Command names.** A load that succeeds registers both names whole, and nothing else of
the command is changed, iff the library path has at most 255 characters and the short name,
alias or path, at most 15. -/
theorem registersNames_iff (members : CharBuffer (COMMAND_SIZE - COMMAND_FUNCTION))
    {q : LoadRequest σ} (registers : q.Registers) (l : ListenerBytes σ) :
    RegistersNames members q l ↔
      q.library.length ≤ 255 ∧ (q.pluginAlias.getD q.library).length ≤ 15 := by
  constructor
  · exact RegistersNames.short registers
  · rintro ⟨name, shortName⟩
    obtain ⟨command, filled, fit⟩ := fillCommand_fits (initCommand members) name shortName
    rw [RegistersNames, loadPluginBytes_registers members registers, filled]
    exact ⟨0, _, rfl, .inr ⟨command, rfl, fit⟩⟩

/-- The listener with no plugin and no command. -/
def ListenerBytes.empty : ListenerBytes σ := ⟨[], [], [], 0⟩

theorem filterRequest_registers (pluginAlias : String) (state : Nat) :
    (filterRequest pluginAlias state).Registers where
  dlopens := rfl
  entryPoints := rfl
  opens := (by decide : (0 : Int) ≠ PLUGIN_OPEN_FAIL)
  exports := rfl

theorem registersNames_iff_filter :
    RegistersNames (.zero _) (filterRequest "df1" 1) .empty ↔
      (filterRequest "df1" 1).library.length ≤ 255 ∧
        ((filterRequest "df1" 1).pluginAlias.getD (filterRequest "df1" 1).library).length ≤ 15 :=
  registersNames_iff (.zero _) (filterRequest_registers "df1" 1) .empty

/-- A plugin that is loaded by its path alone. -/
def unaliasedRequest : LoadRequest Unit :=
  { filterRequest "" 1 with
    library := "plugins/filter_domains.so".toList
    pluginAlias := none }

/-- Its path does not fit `short_name`. -/
theorem path_overruns_short_name : unaliasedRequest.Registers ∧
    ¬ RegistersNames (.zero _) unaliasedRequest .empty := by
  have registers : unaliasedRequest.Registers := ⟨rfl, rfl, by decide, rfl⟩
  refine ⟨registers, fun fit => ?_⟩
  exact absurd (fit.short registers).2 (by decide)

end IoMonitor.Listener
