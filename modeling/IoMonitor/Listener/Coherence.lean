import IoMonitor.Lib.Machine
import IoMonitor.Listener.Protocol
import Mathlib.Data.List.Nodup
import Mathlib.Data.List.Pairwise
import Mathlib.Data.Multiset.Basic

/-!
The command registry against the plugin chain.

`load_plugin` pushes the entry of a plugin onto `s_commands`; `unload_plugin`
frees by library path, and `free_command` then unlinks the head of the list.
`coherent_iff_unloadsOwn` says exactly which runs keep the two structures
together: those in which every plugin unloaded owns the head of the registry,
or owns no entry and shares its library path with none.
-/

namespace IoMonitor.Listener

open CString IoMonitor

variable {σ : Type}

/-! ### Successful commands -/

/-- The state after a call that returned 0. -/
def succeeded (result : Int × ListenerState σ) : Option (ListenerState σ) :=
  if result.1 = 0 then some result.2 else none

/-- The command of the plugin, if it has one, reads as its names. -/
def LoadRequest.NamesKept (q : LoadRequest σ) : Prop :=
  ∀ entry ∈ q.pluginCommand, (commandEntry q.library q.pluginAlias entry q.state).isSome

instance (q : LoadRequest σ) : Decidable q.NamesKept :=
  inferInstanceAs (Decidable (∀ entry ∈ q.pluginCommand, _))

/-- A step of the listener in which a load succeeds, with names that keep to their texts. -/
def commandStep (l : ListenerState σ) : ChainOp σ → Option (ListenerState σ)
  | .load q => if q.NamesKept then succeeded (loadPlugin q l) else none
  | .unload name => (unloadPluginByName name l).bind succeeded
  | .execute record => chainStep l (.execute record)

/-- The names a plugin goes by: library path and alias. -/
abbrev Names := Str × Option Str

def Plugin.names (p : Plugin σ) : Names := (p.pluginLibrary, p.pluginAlias)

def LoadRequest.names (q : LoadRequest σ) : Names := (q.library, q.pluginAlias)

/-- The names the loads of a run use. -/
def loadedNames : List (ChainOp σ) → List Names
  | [] => []
  | .load q :: ops => q.names :: loadedNames ops
  | _ :: ops => loadedNames ops

/-- Names are C strings, aliases are pairwise distinct, and none is a library
path or a name of a built-in command. -/
structure WellNamed (names : List Names) : Prop where
  cStrings : ∀ n ∈ names, nul ∉ n.1 ∧ ∀ a ∈ n.2, nul ∉ a
  distinct : (names.filterMap Prod.snd).Nodup
  notLibrary : ∀ a ∈ names.filterMap Prod.snd, ∀ n ∈ names, n.1 ≠ a
  notBuiltin : ∀ a ∈ names.filterMap Prod.snd, ∀ c ∈ builtins, c.matches a = false

theorem WellNamed.sublist {xs ys : List Names} (h : WellNamed ys) (sub : xs.Sublist ys) :
    WellNamed xs where
  cStrings n hn := h.cStrings n (sub.subset hn)
  distinct := h.distinct.sublist (sub.filterMap _)
  notLibrary a ha n hn := h.notLibrary a ((sub.filterMap _).subset ha) n (sub.subset hn)
  notBuiltin a ha := h.notBuiltin a ((sub.filterMap _).subset ha)

/-- The registry holds the built-in commands and the entry of each loaded plugin
that exports `plugin_command`. So its alias reaches that plugin, and every entry
of a plugin is of a loaded one. -/
structure Coherent (l : ListenerState σ) : Prop where
  exported : ∀ p ∈ l.plugins, p.pluginCommand.isSome → p.entry.isSome
  registry : l.commands.Perm (l.plugins.filterMap Plugin.entry ++ builtins)
  reaches : ∀ p ∈ l.plugins, ∀ a entry, p.pluginAlias = some a → p.pluginCommand = some entry →
    runCommand a l.commands = some (.plugin entry, p.state)
  live : ∀ c ∈ l.commands, ∀ entry, c.commandFunction = .plugin entry →
    ∃ p ∈ l.plugins, p.entry = some c

/-- The step unloads no plugin, or one whose entry is the head of the registry,
or one without an entry whose library path no entry carries. -/
def UnloadsOwn (l : ListenerState σ) : ChainOp σ → Prop
  | .unload name => ∀ p ∈ locatePluginByName name l.plugins,
      match p.entry with
      | some c => l.commands.head? = some c
      | none => ∀ c ∈ l.commands, c.matches p.pluginLibrary = false
  | _ => True

instance (l : ListenerState σ) (op : ChainOp σ) : Decidable (UnloadsOwn l op) := by
  unfold UnloadsOwn
  cases op with
  | unload name =>
      have (p : Plugin σ) : Decidable (match p.entry with
          | some c => l.commands.head? = some c
          | none => ∀ c ∈ l.commands, c.matches p.pluginLibrary = false) := by
        split <;> infer_instance
      infer_instance
  | _ => exact .isTrue trivial

/-! ### Entries -/

theorem commandEntry_some {library : Str} {pluginAlias : Option Str} {entry state : Nat}
    {c : Command} (h : commandEntry library pluginAlias entry state = some c)
    (hl : nul ∉ library) (ha : ∀ a ∈ pluginAlias, nul ∉ a) :
    c.name = library ∧ c.shortName = pluginAlias.getD library ∧
      c.commandFunction = .plugin entry ∧ c.state = state := by
  have short : nul ∉ pluginAlias.getD library := by
    cases pluginAlias with
    | none => exact hl
    | some a => exact ha a rfl
  unfold commandEntry at h
  rw [Option.ite_none_right_eq_some] at h
  obtain ⟨-, made⟩ := h
  cases made
  exact ⟨cstr_of_noNul hl, cstr_of_noNul short, rfl, rfl⟩

/-- What an entry says about its plugin. -/
theorem entry_some {p : Plugin σ} {c : Command} (h : p.entry = some c)
    (hl : nul ∉ p.pluginLibrary) (ha : ∀ a ∈ p.pluginAlias, nul ∉ a) :
    c.name = p.pluginLibrary ∧ c.shortName = p.pluginAlias.getD p.pluginLibrary ∧
      (∃ entry, p.pluginCommand = some entry ∧ c.commandFunction = .plugin entry) ∧
      c.state = p.state := by
  obtain ⟨entry, exported, h⟩ := Option.bind_eq_some_iff.mp h
  obtain ⟨name, shortName, function, state⟩ := commandEntry_some h hl ha
  exact ⟨name, shortName, ⟨entry, exported, function⟩, state⟩

/-- Where the names are kept, what is registered is the entry of the node. -/
theorem registerCommand_eq {q : LoadRequest σ} (kept : q.NamesKept) (serial : Nat)
    (commands : List Command) :
    registerCommand q commands = (q.node serial).entry.toList ++ commands ∧
      (q.pluginCommand.isSome → (q.node serial).entry.isSome) := by
  unfold registerCommand Plugin.entry LoadRequest.node
  cases exported : q.pluginCommand with
  | none => simp
  | some entry =>
      obtain ⟨c, hc⟩ := Option.isSome_iff_exists.mp (kept entry exported)
      simp [hc, setCommand]

theorem succeeded_eq {result : Int × ListenerState σ} {l : ListenerState σ} :
    succeeded result = some l ↔ result = (0, l) := by
  rw [succeeded, Option.ite_none_right_eq_some, Option.some.injEq, Prod.ext_iff]

/-- A successful load appends its node and pushes its entry. -/
theorem load_succeeded {q : LoadRequest σ} {l l' : ListenerState σ}
    (h : commandStep l (.load q) = some l') :
    let p := q.node l.nextSerial
    l'.plugins = l.plugins ++ [p] ∧ l'.commands = p.entry.toList ++ l.commands ∧
      (p.pluginCommand.isSome → p.entry.isSome) := by
  rw [commandStep, Option.ite_none_right_eq_some, succeeded_eq] at h
  obtain ⟨kept, loaded⟩ := h
  unfold loadPlugin at loaded
  split at loaded
  · cases loaded
  · dsimp only at loaded
    split at loaded
    · cases loaded
    · cases loaded
      exact ⟨rfl, registerCommand_eq kept l.nextSerial l.commands⟩

theorem chainStep_of_commandStep {l l' : ListenerState σ} {op : ChainOp σ}
    (h : commandStep l op = some l') : chainStep l op = some l' := by
  cases op with
  | load q =>
      rw [commandStep, Option.ite_none_right_eq_some, succeeded_eq] at h
      rw [chainStep, h.2]
  | unload name =>
      obtain ⟨result, unloaded, done⟩ := Option.bind_eq_some_iff.mp h
      rw [succeeded_eq] at done
      rw [chainStep, unloaded, done]
      rfl
  | execute record => exact h

/-- Entry and names are part of what a pass over the chain keeps. -/
theorem executePluginChain_entries (record : MonitorRecord) (chain : List (Plugin σ)) :
    (executePluginChain record chain).1.filterMap Plugin.entry = chain.filterMap Plugin.entry ∧
      (executePluginChain record chain).1.map Plugin.names = chain.map Plugin.names := by
  let entryOf : Nat × Str × Option Str × Option Nat × Nat → Option Command :=
    fun (_, library, pluginAlias, command, state) =>
      command.bind fun entry => commandEntry library pluginAlias entry state
  have kept := executePluginChain_identity record chain
  have entries := congrArg (List.filterMap entryOf) kept
  have names := congrArg (List.map fun (i : Nat × Str × Option Str × Option Nat × Nat) =>
    (i.2.1, i.2.2.1)) kept
  rw [List.filterMap_map, List.filterMap_map] at entries
  rw [List.map_map, List.map_map] at names
  exact ⟨entries, names⟩

/-- The node unlinked by its number is the one with that number, and the rest
of the chain is as it was. -/
theorem unlink_split {l : ListenerState σ} (h : Tracks l) {p : Plugin σ} (hp : p ∈ l.plugins) :
    ∃ before after, l.plugins = before ++ p :: after ∧
      l.plugins.eraseP (·.serial = p.serial) = before ++ after := by
  obtain ⟨q, before, after, -, same, eq, erased⟩ :=
    List.exists_of_eraseP (p := fun r : Plugin σ => decide (r.serial = p.serial)) hp (by simp)
  have hq : q ∈ l.plugins := by
    rw [eq]
    exact List.mem_append_right _ List.mem_cons_self
  have : q = p := List.inj_on_of_nodup_map h.distinct hq hp (by simpa using same)
  exact ⟨before, after, this ▸ eq, erased⟩

theorem perm_cons_head {a b : Command} {l : List Command} (h : (a :: l).Perm (b :: l)) : a = b :=
  (Multiset.cons_inj_left (l : Multiset Command)).mp (Multiset.coe_eq_coe.mpr h)

/-! ### The invariant -/

/-- The names of the plugins loaded stay well formed with the next load. -/
def NamesFresh (l : ListenerState σ) : ChainOp σ → Prop
  | .load q => WellNamed (l.plugins.map Plugin.names ++ [q.names])
  | _ => True

structure Registered (l : ListenerState σ) : Prop where
  tracks : Tracks l
  wellNamed : WellNamed (l.plugins.map Plugin.names)
  exported : ∀ p ∈ l.plugins, p.pluginCommand.isSome → p.entry.isSome
  registry : l.commands.Perm (l.plugins.filterMap Plugin.entry ++ builtins)

theorem registered_start : Registered (ListenerState.start (σ := σ)) where
  tracks := tracks_start
  wellNamed := ⟨by simp [ListenerState.start], List.nodup_nil, by simp [ListenerState.start],
    by simp [ListenerState.start]⟩
  exported := by simp [ListenerState.start]
  registry := by
    simp only [ListenerState.start, setCommandsArray_eq, List.append_nil, List.filterMap_nil,
      List.nil_append]
    exact List.reverse_perm _

theorem Registered.noNul {l : ListenerState σ} (h : Registered l) {p : Plugin σ}
    (hp : p ∈ l.plugins) : nul ∉ p.pluginLibrary ∧ ∀ a ∈ p.pluginAlias, nul ∉ a :=
  h.wellNamed.cStrings p.names (List.mem_map_of_mem hp)

theorem Registered.alias_mem {l : ListenerState σ} {p : Plugin σ} {a : Str} (hp : p ∈ l.plugins)
    (named : p.pluginAlias = some a) : a ∈ (l.plugins.map Plugin.names).filterMap Prod.snd :=
  List.mem_filterMap.mpr ⟨p.names, List.mem_map_of_mem hp, named⟩

/-- No two loaded plugins share an alias. -/
theorem Registered.alias_unique {l : ListenerState σ} (h : Registered l) {p q : Plugin σ} {a : Str}
    (hp : p ∈ l.plugins) (hq : q ∈ l.plugins) (pa : p.pluginAlias = some a)
    (qa : q.pluginAlias = some a) : p = q := by
  have apart := h.wellNamed.distinct
  rw [List.filterMap_map, List.nodup_iff_pairwise_ne, List.pairwise_filterMap] at apart
  by_contra different
  have : Std.Symm fun x y : Plugin σ => ∀ b, (Prod.snd ∘ Plugin.names) x = some b →
      ∀ b', (Prod.snd ∘ Plugin.names) y = some b' → b ≠ b' :=
    ⟨fun x y hxy b hb b' hb' => (hxy b' hb' b hb).symm⟩
  exact apart.forall hp hq different a pa a qa rfl

/-- The only entry an alias matches is that of its own plugin. -/
theorem Registered.matches_alias {l : ListenerState σ} (h : Registered l) {p : Plugin σ} {a : Str}
    (hp : p ∈ l.plugins) (pa : p.pluginAlias = some a) {d : Command} (hd : d ∈ l.commands)
    (hit : d.matches a = true) : p.entry = some d := by
  rcases List.mem_append.mp (h.registry.mem_iff.mp hd) with hd | hd
  · obtain ⟨q, hq, qd⟩ := List.mem_filterMap.mp hd
    obtain ⟨name, shortName, -, -⟩ := entry_some qd (h.noNul hq).1 (h.noNul hq).2
    have other : q.pluginLibrary ≠ a :=
      h.wellNamed.notLibrary a (alias_mem hp pa) q.names (List.mem_map_of_mem hq)
    have short : q.pluginAlias.getD q.pluginLibrary = a := by
      simpa [Command.matches, name, shortName, other] using hit
    have qa : q.pluginAlias = some a := by
      cases named : q.pluginAlias with
      | none =>
          rw [named] at short
          exact absurd short other
      | some b =>
          rw [named] at short
          exact congrArg some short
    rw [h.alias_unique hp hq pa qa]
    exact qd
  · rw [h.wellNamed.notBuiltin a (alias_mem hp pa) d hd] at hit
    cases hit

theorem builtins_handlers : ∀ c ∈ builtins, ∀ entry, c.commandFunction ≠ .plugin entry := by
  simp [builtins, builtin]

theorem Registered.coherent {l : ListenerState σ} (h : Registered l) : Coherent l where
  exported := h.exported
  registry := h.registry
  reaches p hp a entry pa exported := by
    obtain ⟨c, hc⟩ := Option.isSome_iff_exists.mp (h.exported p hp (by simp [exported]))
    obtain ⟨-, shortName, ⟨entry', exported', function⟩, state⟩ :=
      entry_some hc (h.noNul hp).1 (h.noNul hp).2
    have mem : c ∈ l.commands := h.registry.mem_iff.mpr
      (List.mem_append_left _ (List.mem_filterMap.mpr ⟨p, hp, hc⟩))
    have hit : c.matches a = true := by simp [Command.matches, shortName, pa]
    have found : l.commands.find? (·.matches a) = some c := by
      cases first : l.commands.find? (·.matches a) with
      | none => exact absurd hit (List.find?_eq_none.mp first c mem)
      | some d =>
          have := h.matches_alias hp pa (List.mem_of_find?_eq_some first) (List.find?_some first)
          rw [← this, hc]
    rw [runCommand, found, Option.map_some, function, state]
    rw [exported] at exported'
    cases exported'
    rfl
  live c hc entry function := by
    rcases List.mem_append.mp (h.registry.mem_iff.mp hc) with hc | hc
    · exact List.mem_filterMap.mp hc
    · exact absurd function (builtins_handlers c hc entry)

/-! ### What an unload does to the registry -/

theorem unload_succeeded {name : Str} {l l' : ListenerState σ}
    (h : commandStep l (.unload name) = some l') :
    ∃ p, locatePluginByName name l.plugins = some p ∧
      l'.plugins = l.plugins.eraseP (·.serial = p.serial) ∧
      l'.commands = freeCommand p.pluginLibrary l.commands := by
  obtain ⟨result, called, h⟩ := Option.bind_eq_some_iff.mp h
  obtain ⟨p, located, eq⟩ := Option.map_eq_some_iff.mp called
  cases eq
  cases h
  exact ⟨p, located, rfl, rfl⟩

/-- The entries split off with the plugin unloaded. -/
theorem Registered.split {l : ListenerState σ} (h : Registered l) {p : Plugin σ}
    (hp : p ∈ l.plugins) : l.commands.Perm (p.entry.toList ++
      ((l.plugins.eraseP (·.serial = p.serial)).filterMap Plugin.entry ++ builtins)) := by
  obtain ⟨before, after, eq, erased⟩ := unlink_split h.tracks hp
  have front : ((before ++ p :: after).filterMap Plugin.entry).Perm
      (p.entry.toList ++ (before ++ after).filterMap Plugin.entry) := by
    have moved : (before ++ p :: after).Perm (p :: (before ++ after)) := List.perm_middle
    have := moved.filterMap Plugin.entry
    rw [List.filterMap_cons] at this
    cases own : p.entry with
    | none =>
        rw [own] at this
        exact this
    | some c =>
        rw [own] at this
        exact this
  rw [erased, ← List.append_assoc]
  exact h.registry.trans ((eq ▸ front).append_right builtins)

/-- Some entry carries the library path of a plugin that has an entry. -/
theorem Registered.library_matches {l : ListenerState σ} (h : Registered l) {p : Plugin σ}
    (hp : p ∈ l.plugins) {c : Command} (own : p.entry = some c) :
    ∃ c ∈ l.commands, c.matches p.pluginLibrary := by
  obtain ⟨name, -, -, -⟩ := entry_some own (h.noNul hp).1 (h.noNul hp).2
  refine ⟨c, (h.split hp).mem_iff.mpr (by simp [own]), by simp [Command.matches, name]⟩

theorem registered_keep (l : ListenerState σ) (op : ChainOp σ) (l' : ListenerState σ)
    (h : Registered l) (fresh : NamesFresh l op) (own : UnloadsOwn l op)
    (step : commandStep l op = some l') : Registered l' := by
  have tracks := tracks_step l op l' h.tracks (chainStep_of_commandStep step)
  cases op with
  | load q =>
      obtain ⟨plugins, commands, exported⟩ := load_succeeded step
      refine ⟨tracks, ?_, ?_, ?_⟩
      · rw [plugins, List.map_append]
        exact fresh
      · intro p hp
        rw [plugins] at hp
        rcases List.mem_append.mp hp with hp | hp
        · exact h.exported p hp
        · obtain rfl := List.mem_singleton.mp hp
          exact exported
      · rw [plugins, commands, List.filterMap_append]
        have pushed : ([q.node l.nextSerial].filterMap Plugin.entry) =
            (q.node l.nextSerial).entry.toList := by
          cases own : (q.node l.nextSerial).entry <;> simp [own]
        rw [pushed]
        refine (h.registry.append_left _).trans ?_
        rw [← List.append_assoc]
        exact List.perm_append_comm.append_right _
  | unload name =>
      obtain ⟨p, located, plugins, commands⟩ := unload_succeeded step
      have hp : p ∈ l.plugins := List.mem_of_find?_eq_some located
      have sub : l'.plugins.Sublist l.plugins := plugins ▸ List.eraseP_sublist
      refine ⟨tracks, h.wellNamed.sublist (sub.map _), fun r hr => h.exported r (sub.subset hr), ?_⟩
      have whole := h.split hp
      have condition := own p located
      rw [plugins, commands, freeCommand_eq]
      cases entry : p.entry with
      | none =>
          rw [entry] at condition whole
          rw [if_neg (by simpa using condition)]
          exact whole
      | some c =>
          rw [entry] at condition whole
          rw [if_pos (h.library_matches hp entry)]
          obtain ⟨rest, eq⟩ := List.head?_eq_some_iff.mp condition
          rw [eq] at whole ⊢
          exact whole.cons_inv
  | execute record =>
      cases step
      obtain ⟨entries, names⟩ := executePluginChain_entries record l.plugins
      refine ⟨tracks, names ▸ h.wellNamed, ?_, entries ▸ h.registry⟩
      intro r hr
      obtain ⟨p, hp, same⟩ := mem_executePluginChain hr
      obtain ⟨-, -, command, -, entry⟩ := Plugin.same_of_identity same
      rw [← command, ← entry]
      exact h.exported p hp

/-- An unload that does not own what it frees breaks the registry at once. -/
theorem registered_lose (l : ListenerState σ) (op : ChainOp σ) (l' : ListenerState σ)
    (h : Registered l) (missed : ¬ UnloadsOwn l op) (step : commandStep l op = some l') :
    ¬ Coherent l' := by
  intro coherent
  have after := coherent.registry
  cases op with
  | load q => exact missed trivial
  | execute record => exact missed trivial
  | unload name =>
      obtain ⟨p, located, plugins, commands⟩ := unload_succeeded step
      have hp : p ∈ l.plugins := List.mem_of_find?_eq_some located
      have whole := h.split hp
      rw [plugins, commands, freeCommand_eq] at after
      refine missed fun r again => ?_
      rw [located] at again
      cases again
      cases entry : p.entry with
      | none =>
          rw [entry] at whole
          by_contra shared
          have hit : ∃ c ∈ l.commands, c.matches p.pluginLibrary := by simpa using shared
          rw [if_pos hit] at after
          -- an entry too many was freed
          have short := after.length_eq.trans whole.length_eq.symm
          obtain ⟨c, hc, -⟩ := hit
          have := List.length_pos_of_mem hc
          rw [List.length_tail] at short
          omega
      | some c =>
          rw [entry] at whole
          rw [if_pos (h.library_matches hp entry)] at after
          cases list : l.commands with
          | nil =>
              rw [list] at whole
              exact absurd whole.length_eq (by simp)
          | cons d rest =>
              rw [list] at whole after
              have : d = c := perm_cons_head (whole.trans ((after.symm).cons c))
              rw [List.head?_cons, this]

/-! ### Whole runs -/

/-- Well formed names over the whole run are well formed at every load. -/
theorem namesFresh_of_wellNamed :
    ∀ (ops : List (ChainOp σ)) {l : ListenerState σ},
      WellNamed (l.plugins.map Plugin.names ++ loadedNames ops) →
      Machine.AllSteps commandStep NamesFresh l ops
  | [], _, _ => trivial
  | .load q :: ops, l, names => by
      refine ⟨names.sublist ?_, fun l' step => namesFresh_of_wellNamed ops ?_⟩
      · exact List.Sublist.append_left (List.singleton_sublist.mpr List.mem_cons_self) _
      · rw [(load_succeeded step).1, List.map_append, List.append_assoc]
        exact names
  | .unload name :: ops, l, names => by
      refine ⟨trivial, fun l' step => namesFresh_of_wellNamed ops (names.sublist ?_)⟩
      obtain ⟨p, -, plugins, -⟩ := unload_succeeded step
      rw [plugins]
      exact (List.eraseP_sublist.map _).append_right _
  | .execute record :: ops, l, names => by
      refine ⟨trivial, fun l' step => namesFresh_of_wellNamed ops ?_⟩
      cases step
      exact (executePluginChain_entries record l.plugins).2 ▸ names

/-- **Coherence of registry and chain.** Over a run of successful commands whose
names are well formed, the registry is coherent with the chain in every state
iff each unload takes the head of the registry for a plugin with an entry, and
nothing for one without. -/
theorem coherent_iff_unloadsOwn (ops : List (ChainOp σ)) (names : WellNamed (loadedNames ops))
    (ran : (Machine.run commandStep .start ops).isSome) :
    Machine.Always commandStep Coherent .start ops ↔
      Machine.AllSteps commandStep UnloadsOwn .start ops := by
  obtain ⟨l, ran⟩ := Option.isSome_iff_exists.mp ran
  exact Machine.always_iff_allSteps (fun _ h => h.coherent) registered_keep
    (fun l op l' h _ missed step => registered_lose l op l' h missed step) ops registered_start
    (namesFresh_of_wellNamed ops names) ran

/-! Two copies of one filter library: unloading the first frees the command of
the second. -/

def filterRequest (pluginAlias : String) (state : Nat) : LoadRequest Unit where
  library := "filter_domains.so".toList
  pluginAlias := some pluginAlias.toList
  dlopens := true
  entryPoints := true
  openPlugin := 0
  state
  memory := ()
  okToAcceptData s := (PLUGIN_ACCEPT_DATA, s)
  processData _ s := (PLUGIN_ACCEPT_DATA, s)
  pluginCommand := some 7
  overrun := .blank

def firstUnloaded : List (ChainOp Unit) :=
  [.load (filterRequest "df1" 1), .load (filterRequest "df2" 2), .unload "df1".toList]

def lastUnloaded : List (ChainOp Unit) :=
  [.load (filterRequest "df1" 1), .load (filterRequest "df2" 2), .unload "df2".toList]

theorem wellNamed_filters :
    WellNamed [("filter_domains.so".toList, some "df1".toList),
      ("filter_domains.so".toList, some "df2".toList)] where
  cStrings := by decide
  distinct := by decide
  notLibrary := by decide
  notBuiltin := by decide

theorem coherent_iff_unloadsOwn_last :
    Machine.Always commandStep Coherent .start lastUnloaded :=
  (coherent_iff_unloadsOwn lastUnloaded wellNamed_filters (by decide)).mpr (by decide)

/-- `df1` is gone from the chain and still answers; `df2` is in it and does not. -/
theorem unload_first_not_coherent :
    WellNamed (loadedNames firstUnloaded) ∧
      (Machine.run commandStep .start firstUnloaded).isSome ∧
      ¬ Machine.Always commandStep Coherent .start firstUnloaded ∧
      ∀ l ∈ Machine.run commandStep .start firstUnloaded,
        l.plugins.map Plugin.pluginAlias = [some "df2".toList] ∧
          runCommand "df1".toList l.commands = some (.plugin 7, 1) ∧
          runCommand "df2".toList l.commands = none := by
  have stray : ∀ l ∈ Machine.run commandStep .start firstUnloaded,
      ¬ l.commands.Perm (l.plugins.filterMap Plugin.entry ++ builtins) := by decide
  have ran : (Machine.run commandStep .start firstUnloaded).isSome := by decide
  refine ⟨wellNamed_filters, ran, fun always => ?_, by decide⟩
  obtain ⟨l, reached⟩ := Option.isSome_iff_exists.mp ran
  exact stray l reached (always firstUnloaded List.prefix_rfl l reached).registry

end IoMonitor.Listener
