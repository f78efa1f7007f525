import IoMonitor.Listener.Coherence

/-!
Names of plugins, looked up in the registry and in the chain.

`set_command` pushes and `load_plugin` appends, and both lookups take the first
match. So of several plugins with one name `run_command` calls the last loaded
and `locate_plugin_by_name` selects the first (`same_plugin_iff`).
-/

namespace IoMonitor.Listener

open CString IoMonitor

variable {σ : Type}

/-- The plugin of the name that was loaded last. -/
def lastPluginByName (name : Str) (plugins : List (Plugin σ)) : Option (Plugin σ) :=
  plugins.reverse.find? (·.named name)

/-- `run_command` calls `plugin_command` of the plugin, with its state. -/
def Invokes (name : Str) (l : ListenerState σ) (p : Plugin σ) : Prop :=
  ∃ entry, p.pluginCommand = some entry ∧
    runCommand name l.commands = some (.plugin entry, p.state)

/-- A load of a plugin with `plugin_command`, by names that are C strings, or a pass. -/
def LoadsCommand : ChainOp σ → Prop
  | .load q => q.pluginCommand.isSome ∧ nul ∉ q.library ∧ ∀ a ∈ q.pluginAlias, nul ∉ a
  | .unload _ => False
  | .execute _ => True

instance : ∀ op : ChainOp σ, Decidable (LoadsCommand op)
  | .load q => inferInstanceAs (Decidable
      (q.pluginCommand.isSome ∧ nul ∉ q.library ∧ ∀ a ∈ q.pluginAlias, nul ∉ a))
  | .unload _ => inferInstanceAs (Decidable False)
  | .execute _ => inferInstanceAs (Decidable True)

/-- The entries of the plugins lie on the registry, the last loaded on top. -/
structure Stacked (l : ListenerState σ) : Prop where
  cStrings : ∀ p ∈ l.plugins, nul ∉ p.pluginLibrary ∧ ∀ a ∈ p.pluginAlias, nul ∉ a
  exported : ∀ p ∈ l.plugins, p.entry.isSome
  registry : l.commands = l.plugins.reverse.filterMap Plugin.entry ++ builtins.reverse

theorem stacked_start : Stacked (ListenerState.start (σ := σ)) where
  cStrings := by simp [ListenerState.start]
  exported := by simp [ListenerState.start]
  registry := by simp [ListenerState.start, setCommandsArray_eq]

theorem stacked_step (l : ListenerState σ) (op : ChainOp σ) (l' : ListenerState σ)
    (h : Stacked l) (loads : LoadsCommand op) (step : commandStep l op = some l') : Stacked l' := by
  cases op with
  | unload name => exact loads.elim
  | load q =>
      obtain ⟨plugins, commands, entry⟩ := load_succeeded step
      obtain ⟨command, library, pluginAlias⟩ := loads
      have own : (q.node l.nextSerial).entry.isSome := entry command
      have members : ∀ {P : Plugin σ → Prop}, (∀ p ∈ l.plugins, P p) → P (q.node l.nextSerial) →
          ∀ p ∈ l'.plugins, P p := by
        intro P before new p hp
        rw [plugins] at hp
        rcases List.mem_append.mp hp with hp | hp
        · exact before p hp
        · exact List.mem_singleton.mp hp ▸ new
      refine ⟨members h.cStrings ⟨library, pluginAlias⟩, members h.exported own, ?_⟩
      obtain ⟨c, hc⟩ := Option.isSome_iff_exists.mp own
      rw [plugins, commands, h.registry, List.reverse_append, hc]
      simp [hc]
  | execute record =>
      cases step
      have entries := (executePluginChain_entries record l.plugins).1
      refine ⟨fun r hr => ?_, fun r hr => ?_, ?_⟩
      · obtain ⟨p, hp, same⟩ := mem_executePluginChain hr
        obtain ⟨library, pluginAlias, -⟩ := Plugin.same_of_identity same
        rw [← library, ← pluginAlias]
        exact h.cStrings p hp
      · obtain ⟨p, hp, same⟩ := mem_executePluginChain hr
        obtain ⟨-, -, -, -, entry⟩ := Plugin.same_of_identity same
        rw [← entry]
        exact h.exported p hp
      · rw [List.filterMap_reverse, entries, ← List.filterMap_reverse]
        exact h.registry

/-- An entry has the names of its plugin. -/
theorem matches_entry {p : Plugin σ} {c : Command} (h : p.entry = some c)
    (cStrings : nul ∉ p.pluginLibrary ∧ ∀ a ∈ p.pluginAlias, nul ∉ a) (name : Str) :
    c.matches name = p.named name := by
  obtain ⟨library, short, -, -⟩ := entry_some h cStrings.1 cStrings.2
  rw [Command.matches, Plugin.named, library, short]
  cases p.pluginAlias <;> simp

/-- The first entry of the name is that of the last plugin of the name. -/
theorem Stacked.invokes {l : ListenerState σ} (h : Stacked l) {name : Str} {p : Plugin σ}
    (last : lastPluginByName name l.plugins = some p) : Invokes name l p := by
  obtain ⟨named, before, after, split, others⟩ := List.find?_eq_some_iff_append.mp last
  have mem : ∀ q ∈ before ++ p :: after, q ∈ l.plugins := fun q hq =>
    List.mem_reverse.mp (split ▸ hq)
  have hp : p ∈ l.plugins := mem p (List.mem_append_right _ List.mem_cons_self)
  obtain ⟨c, hc⟩ := Option.isSome_iff_exists.mp (h.exported p hp)
  obtain ⟨-, -, ⟨entry, command, function⟩, state⟩ :=
    entry_some hc (h.cStrings p hp).1 (h.cStrings p hp).2
  have found : l.commands.find? (·.matches name) = some c := by
    refine List.find?_eq_some_iff_append.mpr ⟨?_, before.filterMap Plugin.entry,
      after.filterMap Plugin.entry ++ builtins.reverse, ?_, fun d hd => ?_⟩
    · rw [matches_entry hc (h.cStrings p hp) name, named]
    · rw [h.registry, split]
      simp [hc]
    · obtain ⟨q, hq, entry⟩ := List.mem_filterMap.mp hd
      rw [matches_entry entry (h.cStrings q (mem q (List.mem_append_left _ hq))) name]
      exact others q hq
  exact ⟨entry, command, by rw [runCommand, found, Option.map_some, function, state]⟩

theorem exists_first {name : Str} {plugins : List (Plugin σ)} (h : ∃ p ∈ plugins, p.named name) :
    ∃ p, locatePluginByName name plugins = some p := by
  rw [← Option.isSome_iff_exists]
  exact List.find?_isSome.mpr h

theorem exists_last {name : Str} {plugins : List (Plugin σ)} (h : ∃ p ∈ plugins, p.named name) :
    ∃ p, lastPluginByName name plugins = some p := by
  rw [← Option.isSome_iff_exists]
  refine List.find?_isSome.mpr ?_
  simpa using h

/-- **Names.** After any run of successful loads, `run_command` calls the plugin that
`locate_plugin_by_name` selects iff the first and the last plugin of the name have the
same `plugin_command` and state. -/
theorem same_plugin_iff {ops : List (ChainOp σ)} (loads : ∀ op ∈ ops, LoadsCommand op)
    {l : ListenerState σ} (ran : Machine.run commandStep .start ops = some l) {name : Str}
    (loaded : ∃ p ∈ l.plugins, p.named name) :
    (∃ p, locatePluginByName name l.plugins = some p ∧ Invokes name l p) ↔
      ∀ first ∈ locatePluginByName name l.plugins, ∀ last ∈ lastPluginByName name l.plugins,
        first.pluginCommand = last.pluginCommand ∧ first.state = last.state := by
  have stacked := Machine.run_invariant_of stacked_step stacked_start loads ran
  obtain ⟨first, located⟩ := exists_first loaded
  obtain ⟨last, latest⟩ := exists_last loaded
  obtain ⟨entry, command, runs⟩ := stacked.invokes latest
  simp only [located, latest, Option.mem_some, forall_eq']
  constructor
  · rintro ⟨_, ⟨⟩, entry', command', runs'⟩
    rw [runs] at runs'
    simp only [Option.some.injEq, Prod.mk.injEq, CommandFun.plugin.injEq] at runs'
    obtain ⟨rfl, state⟩ := runs'
    exact ⟨command'.trans command.symm, state.symm⟩
  · rintro ⟨sameCommand, sameState⟩
    exact ⟨first, rfl, entry, sameCommand.trans command, sameState ▸ runs⟩

/-! One filter library, loaded twice under two aliases. -/

def oneFilter : List (ChainOp Unit) := [.load (filterRequest "df1" 1)]

def twoFilters : List (ChainOp Unit) :=
  [.load (filterRequest "df1" 1), .load (filterRequest "df2" 2)]

theorem same_plugin_iff_one : (Machine.run commandStep .start oneFilter).isSome ∧
    ∀ l ∈ Machine.run commandStep .start oneFilter,
      ∃ p, locatePluginByName "df1".toList l.plugins = some p ∧ Invokes "df1".toList l p := by
  have once : ∀ l ∈ Machine.run commandStep .start oneFilter,
      (∃ p ∈ l.plugins, p.named "df1".toList) ∧
        (locatePluginByName "df1".toList l.plugins).map (fun p => (p.pluginCommand, p.state)) =
          (lastPluginByName "df1".toList l.plugins).map fun p => (p.pluginCommand, p.state) := by
    decide
  refine ⟨by decide, fun l ran => ?_⟩
  obtain ⟨loaded, same⟩ := once l ran
  refine (same_plugin_iff (by decide) ran loaded).mpr fun first located last latest => ?_
  rw [Option.mem_def.mp located, Option.mem_def.mp latest] at same
  exact Prod.mk.inj (Option.some.inj same)

/-- The library path calls the second copy, and is taken to name the first. -/
theorem library_path_split : (∀ op ∈ twoFilters, LoadsCommand op) ∧
    (∀ c ∈ builtins, c.matches "filter_domains.so".toList = false) ∧
    (Machine.run commandStep .start twoFilters).isSome ∧
    ∀ l ∈ Machine.run commandStep .start twoFilters,
      (∃ p ∈ l.plugins, p.named "filter_domains.so".toList) ∧
        ¬ ∃ p, locatePluginByName "filter_domains.so".toList l.plugins = some p ∧
          Invokes "filter_domains.so".toList l p := by
  have found : ∀ l ∈ Machine.run commandStep .start twoFilters,
      (∃ p ∈ l.plugins, p.named "filter_domains.so".toList) ∧
        (locatePluginByName "filter_domains.so".toList l.plugins).map Plugin.state = some 1 ∧
          (runCommand "filter_domains.so".toList l.commands).map Prod.snd = some 2 := by decide
  refine ⟨by decide, by decide, by decide, fun l ran => ?_⟩
  obtain ⟨loaded, first, last⟩ := found l ran
  refine ⟨loaded, ?_⟩
  rintro ⟨p, located, entry, -, runs⟩
  rw [located] at first
  rw [runs] at last
  have same : p.state = 1 := Option.some.inj first
  have other : p.state = 2 := Option.some.inj last
  omega

end IoMonitor.Listener
