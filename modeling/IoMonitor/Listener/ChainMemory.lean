import IoMonitor.Lib.LinkedList
import IoMonitor.Lib.Machine
import IoMonitor.Lib.Prog
import IoMonitor.Listener.Coherence

/-!
The plugin chain as a linked list in memory.

`load_plugin`, `unload_plugin_by_name` and `execute_plugin_chain` with their
pointers, loops and `plugin_mutex`, one call after the other in one thread. On
names that match each of them does to the list at `plugins` what it is to do
(`chain_refines_list`), and the runs of the list model that fit in memory are
runs of them (`memory_refines_chainStep`). An unload of a name that nothing has
dereferences the null pointer it located (`unload_unknown_crashes`).
-/

namespace IoMonitor.Listener.ChainMemory

open CString IoMonitor LinkedList Prog

variable {σ : Type}

/-- The globals of `plugin_chain.c` and `command_parser.c` and the nodes in memory.
`locked` is `plugin_mutex`. -/
structure Memory (σ : Type) where
  heap : Heap Nat (Plugin σ)
  plugins : Option Nat
  locked : Bool
  commands : List Command
  trace : Trace
  nextSerial : Nat

/-- Memory at start: no node, and the built-in commands. -/
def Memory.start : Memory σ where
  heap _ := none
  plugins := none
  locked := false
  commands := setCommandsArray builtins []
  trace := []
  nextSerial := 0

/-- `calloc`: what it returns at a call is null or memory not in use. -/
structure Allocator (σ : Type) where
  calloc : Nat → Heap Nat (Plugin σ) → Option Nat
  fresh : ∀ {n heap a}, calloc n heap = some a → heap a = none

/-! ### Accesses -/

/-- Dereferences a pointer. -/
def read (p : Option Nat) : Prog (Memory σ) (Cell Nat (Plugin σ)) := fun m =>
  match p.bind m.heap with
  | some cell => .returned cell m
  | none => .crashed m

def write (a : Nat) (cell : Option (Cell Nat (Plugin σ))) : Prog (Memory σ) Unit :=
  modify fun m => { m with heap := Function.update m.heap a cell }

/-- `plugins_lock()`: the one thread waits for ever if it has the mutex already. -/
def pluginsLock : Prog (Memory σ) Unit := fun m =>
  if m.locked then .exhausted else .returned () { m with locked := true }

def pluginsUnlock : Prog (Memory σ) Unit := modify fun m => { m with locked := false }

/-! ### Passing a record -/

/-- The loop of `execute_plugin_chain`. -/
def visitNodes (record : MonitorRecord) : Nat → Option Nat → Prog (Memory σ) Unit
  | 0, _ => exhaust
  | _ + 1, none => pure ()
  | fuel + 1, some p => do
      let cell ← read (some p)
      let (plugin, calls, dropped) := visit record cell.value
      write p (some { cell with value := plugin })
      modify fun m => { m with trace := m.trace ++ calls.map (cell.value.serial, ·) }
      if dropped then pure () else visitNodes record fuel cell.next

def executePluginChain (fuel : Nat) (record : MonitorRecord) : Prog (Memory σ) Int := do
  let p := (← get).plugins
  pluginsLock
  visitNodes record fuel p
  pluginsUnlock
  pure 0

/-! ### Unloading -/

def locatePluginByName (name : Str) : Nat → Option Nat → Prog (Memory σ) (Option Nat)
  | 0, _ => exhaust
  | _ + 1, none => pure none
  | fuel + 1, some p => do
      let cell ← read (some p)
      if cell.value.named name then pure (some p) else locatePluginByName name fuel cell.next

/-- `unload_plugin`: it calls through the pointer it is given. -/
def unloadPlugin (p : Option Nat) : Prog (Memory σ) Unit := do
  let cell ← read p
  modify fun m => { m with
    trace := m.trace ++ [(cell.value.serial, .closePlugin)]
    commands := freeCommand cell.value.pluginLibrary m.commands }

/-- The loop of `unload_plugin_by_name` for a plugin that is not the head. -/
def unlinkScan (p : Nat) : Nat → Option Nat → Prog (Memory σ) Int
  | 0, _ => exhaust
  | _ + 1, none => do
      pluginsUnlock
      pure 1
  | fuel + 1, some i => do
      let cell ← read (some i)
      if cell.next = some p then
        write i (some { cell with next := (← read (some p)).next })
        write p none
        pluginsUnlock
        pure 0
      else unlinkScan p fuel cell.next

def unloadPluginByName (fuel : Nat) (name : Str) : Prog (Memory σ) Int := do
  let p ← locatePluginByName name fuel (← get).plugins
  let i := (← get).plugins
  pluginsLock
  unloadPlugin p
  match p with
  | none => crash -- not reached: `unload_plugin` has dereferenced it
  | some p =>
      if (← get).plugins = some p then
        let next := (← read (some p)).next
        modify fun m => { m with plugins := next }
        write p none
        pluginsUnlock
        pure 0
      else unlinkScan p fuel i

/-! ### Loading -/

/-- The walk to the last node. -/
def lastNode : Nat → Nat → Prog (Memory σ) Nat
  | 0, _ => exhaust
  | fuel + 1, tmp => do
      let cell ← read (some tmp)
      match cell.next with
      | none => pure tmp
      | some next => lastNode fuel next

def appendNode (fuel : Nat) (newPlugin : Nat) : Prog (Memory σ) Unit := do
  pluginsLock
  match (← get).plugins with
  | none => modify fun m => { m with plugins := some newPlugin }
  | some head => do
      let tmp ← lastNode fuel head
      write tmp (some { ← read (some tmp) with next := some newPlugin })
  pluginsUnlock

/-- `load_plugin`. The members of the node that are set step by step are written at
once: nothing reads them before it is in the chain. -/
def loadPlugin (allocator : Allocator σ) (fuel : Nat) (q : LoadRequest σ) :
    Prog (Memory σ) Int := do
  let m ← get
  let node := q.node m.nextSerial
  modify fun m => { m with nextSerial := m.nextSerial + 1 }
  match allocator.calloc m.nextSerial m.heap with
  | none => pure 1
  | some newPlugin =>
      write newPlugin (some ⟨node, none⟩)
      if !q.dlopens then pure 1
      else if !q.entryPoints then pure 1
      else
        modify fun m => { m with trace := m.trace ++ [(node.serial, .openPlugin q.openPlugin)] }
        if q.openPlugin = PLUGIN_OPEN_FAIL then pure 1
        else
          modify fun m => { m with commands := registerCommand q m.commands }
          appendNode fuel newPlugin
          pure 0

/-! ### One call on the list in memory -/

section Calls

variable {m : Memory σ} {nodes : List (Nat × Plugin σ)}

theorem read_bind {α : Type} {a : Nat} {cell : Cell Nat (Plugin σ)} (h : m.heap a = some cell)
    (f : Cell Nat (Plugin σ) → Prog (Memory σ) α) : (read (some a) >>= f) m = f cell m := by
  refine bind_of_returned ?_
  simp [read, h]

@[simp] theorem write_bind {α : Type} (a : Nat) (cell : Option (Cell Nat (Plugin σ)))
    (f : Unit → Prog (Memory σ) α) : (write a cell >>= f) m =
      f () { m with heap := Function.update m.heap a cell } := rfl

theorem lock_bind {α : Type} (free : m.locked = false) (f : Unit → Prog (Memory σ) α) :
    (pluginsLock >>= f) m = f () { m with locked := true } := by
  refine bind_of_returned ?_
  simp [pluginsLock, free]

/-- The first node of the name, if there is one. -/
theorem locate_eq {name : Str} :
    ∀ {fuel : Nat} {p : Option Nat} {nodes : List (Nat × Plugin σ)}, Holds m.heap p nodes →
      nodes.length < fuel → locatePluginByName name fuel p m =
        .returned ((nodes.find? (·.2.named name)).map Prod.fst) m
  | 0, _, _, _, short => absurd short (Nat.not_lt_zero _)
  | fuel + 1, _, [], h, _ => by
      obtain rfl := h
      rfl
  | fuel + 1, _, n :: rest, ⟨start, next, cell, tail⟩, short => by
      subst start
      rw [locatePluginByName, read_bind cell]
      by_cases named : n.2.named name
      · simp [named]
      · have later : locatePluginByName name fuel next m = _ :=
          locate_eq tail (Nat.lt_of_succ_lt_succ short)
        simp [named, later]

/-- The walk ends at the last node. -/
theorem lastNode_eq {j : Nat} {v : Plugin σ} :
    ∀ {fuel p : Nat} {before : List (Nat × Plugin σ)},
      Holds m.heap (some p) (before ++ [(j, v)]) → before.length < fuel →
        lastNode fuel p m = .returned j m
  | 0, _, _, _, short => absurd short (Nat.not_lt_zero _)
  | fuel + 1, p, [], ⟨start, next, cell, tail⟩, _ => by
      cases start
      obtain rfl : next = none := tail
      rw [lastNode, read_bind cell]
      rfl
  | fuel + 1, p, n :: before, ⟨start, next, cell, tail⟩, short => by
      cases start
      rw [lastNode, read_bind cell]
      cases next with
      | none => cases before <;> cases tail.1
      | some next => exact lastNode_eq tail (Nat.lt_of_succ_lt_succ short)

/-- The scan takes the node out of the list and leaves the mutex. -/
theorem unlinkScan_eq {j a : Nat} {v w : Plugin σ} {after : List (Nat × Plugin σ)}
    {next : Option Nat} (victim : m.heap a = some ⟨w, next⟩) :
    ∀ {fuel : Nat} {i : Option Nat} {before : List (Nat × Plugin σ)},
      Holds m.heap i (before ++ (j, v) :: (a, w) :: after) → before.length < fuel →
        unlinkScan a fuel i m = .returned 0 { m with
          heap := Function.update (Function.update m.heap j (some ⟨v, next⟩)) a none
          locked := false }
  | 0, _, _, _, short => absurd short (Nat.not_lt_zero _)
  | fuel + 1, _, [], ⟨start, link, cell, tail⟩, _ => by
      subst start
      obtain rfl : link = some a := tail.1
      rw [unlinkScan, read_bind cell, if_pos rfl, read_bind victim]
      rfl
  | fuel + 1, _, n :: before, ⟨start, link, cell, tail⟩, short => by
      subst start
      have other : link ≠ some a := by
        rintro rfl
        have regrouped : Holds m.heap (some a) ((before ++ [(j, v)]) ++ (a, w) :: after) := by
          rwa [List.append_assoc]
        have cycle := congrArg List.length (regrouped.unique regrouped.suffix)
        simp only [List.length_append, List.length_cons] at cycle
        omega
      rw [unlinkScan, read_bind cell, if_neg other]
      exact unlinkScan_eq victim tail (Nat.lt_of_succ_lt_succ short)

/-- After `close_plugin`: the mutex is held and the node still in the chain. -/
def closing (m : Memory σ) (p : Plugin σ) : Memory σ :=
  { m with
    locked := true
    trace := m.trace ++ [(p.serial, .closePlugin)]
    commands := freeCommand p.pluginLibrary m.commands }

theorem unloadPlugin_bind {α : Type} {a : Nat} {p : Plugin σ} {next : Option Nat}
    (h : m.heap a = some ⟨p, next⟩) (f : Unit → Prog (Memory σ) α) :
    (unloadPlugin (some a) >>= f) { m with locked := true } = f () (closing m p) := by
  refine bind_of_returned ?_
  rw [unloadPlugin, read_bind (m := { m with locked := true }) h]
  rfl

/-- An unload takes the first node of the name out of the list, and nothing else. -/
theorem unload_holds {fuel : Nat} {name : Str} {before after : List (Nat × Plugin σ)} {a : Nat}
    {p : Plugin σ} (h : Holds m.heap m.plugins (before ++ (a, p) :: after))
    (first : ∀ n ∈ before, n.2.named name = false) (named : p.named name)
    (free : m.locked = false) (short : (before ++ (a, p) :: after).length < fuel) :
    ∃ heap plugins, unloadPluginByName fuel name m =
        .returned 0 { closing m p with heap, plugins, locked := false } ∧
      Holds heap plugins (before ++ after) := by
  have located : locatePluginByName name fuel m.plugins m = .returned (some a) m := by
    rw [locate_eq h short, List.find?_append]
    have none : before.find? (·.2.named name) = none :=
      List.find?_eq_none.mpr fun n hn => by simp [first n hn]
    simp [none, named]
  obtain ⟨next, victim, tail⟩ := h.here
  rw [unloadPluginByName, get_bind, bind_of_returned located, get_bind, lock_bind free,
    unloadPlugin_bind victim]
  simp only [get_bind]
  rcases List.eq_nil_or_concat before with rfl | ⟨before, ⟨j, v⟩, rfl⟩
  · have head : (closing m p).plugins = some a := h.1
    rw [if_pos head, read_bind (m := closing m p) victim]
    exact ⟨_, next, rfl, tail.frame h.apart.2⟩
  · have notHead : (closing m p).plugins ≠ some a := by
      intro head
      have whole : Holds m.heap (some a) _ := head ▸ h
      have cycle := congrArg List.length (whole.unique whole.suffix)
      simp only [List.concat_eq_append, List.length_append, List.length_cons] at cycle
      omega
    rw [List.concat_eq_append, List.append_assoc] at h
    rw [if_neg notHead]
    have enough : before.length < fuel := by
      simp only [List.concat_eq_append, List.length_append, List.length_cons] at short
      omega
    refine ⟨_, _, unlinkScan_eq (m := closing m p) victim h enough, ?_⟩
    rw [List.concat_eq_append, List.append_assoc]
    exact h.unlink victim

theorem visitNodes_cons {record : MonitorRecord} {fuel a : Nat} {q q' : Plugin σ}
    {next : Option Nat} {made : List Call} {dropped : Bool} (cell : m.heap a = some ⟨q, next⟩)
    (visited : visit record q = (q', made, dropped)) :
    visitNodes record (fuel + 1) (some a) m =
      (if dropped then pure () else visitNodes record fuel next : Prog (Memory σ) Unit) { m with
        heap := Function.update m.heap a (some ⟨q', next⟩)
        trace := m.trace ++ made.map (q.serial, ·) } := by
  rw [visitNodes, read_bind cell]
  simp only [visited]
  rfl

/-- A pass changes the nodes in place, as the pass over the list does. -/
theorem visitNodes_holds (record : MonitorRecord) :
    ∀ {fuel : Nat} {p : Option Nat} {nodes : List (Nat × Plugin σ)} {m : Memory σ},
      Holds m.heap p nodes → nodes.length < fuel → ∃ heap nodes',
        visitNodes record fuel p m = .returned () { m with
          heap
          trace := m.trace ++ (Listener.executePluginChain record (nodes.map Prod.snd)).2 } ∧
        Holds heap p nodes' ∧
        nodes'.map Prod.snd = (Listener.executePluginChain record (nodes.map Prod.snd)).1 ∧
        ∀ a ∉ nodes.map Prod.fst, heap a = m.heap a
  | 0, _, _, _, _, short => absurd short (Nat.not_lt_zero _)
  | fuel + 1, _, [], m, h, _ => by
      obtain rfl := h
      refine ⟨m.heap, [], ?_, rfl, rfl, fun _ _ => rfl⟩
      simp [visitNodes, Listener.executePluginChain]
  | fuel + 1, _, (a, q) :: rest, m, h, short => by
      have outside : a ∉ rest.map Prod.fst := (List.nodup_cons.mp h.nodup).1
      obtain ⟨rfl, next, cell, tail⟩ := h
      obtain ⟨⟨q', made, dropped⟩, visited⟩ : ∃ result, visit record q = result := ⟨_, rfl⟩
      have rest' : Holds (Function.update m.heap a (some ⟨q', next⟩)) next rest :=
        tail.frame outside
      rw [visitNodes_cons cell visited]
      simp only [List.map_cons, Listener.executePluginChain, visited]
      cases dropped with
      | true =>
          refine ⟨_, (a, q') :: rest, rfl, ⟨rfl, next, Function.update_self _ _ _, rest'⟩, rfl,
            fun b hb => Function.update_of_ne (List.ne_of_not_mem_cons hb) _ _⟩
      | false =>
          obtain ⟨heap, nodes', ran, holds, values, frame⟩ :=
            visitNodes_holds record (m := { m with
              heap := Function.update m.heap a (some ⟨q', next⟩)
              trace := m.trace ++ made.map (q.serial, ·) }) rest' (Nat.lt_of_succ_lt_succ short)
          refine ⟨heap, (a, q') :: nodes', ?_, ⟨rfl, next, ?_, holds⟩, ?_, fun b hb => ?_⟩
          · simpa using ran
          · rw [frame a outside]
            exact Function.update_self _ _ _
          · simp [values]
          · rw [List.mem_cons, not_or] at hb
            rw [frame b hb.2]
            exact Function.update_of_ne hb.1 _ _

/-- A new node comes behind the last. -/
theorem appendNode_holds {fuel a : Nat} {w : Plugin σ} (h : Holds m.heap m.plugins nodes)
    (fresh : a ∉ nodes.map Prod.fst) (new : m.heap a = some ⟨w, none⟩) (free : m.locked = false)
    (short : nodes.length < fuel) : ∃ heap plugins,
      appendNode fuel a m = .returned () { m with heap, plugins, locked := false } ∧
        Holds heap plugins (nodes ++ [(a, w)]) := by
  rw [appendNode, lock_bind free]
  simp only [get_bind]
  rcases List.eq_nil_or_concat nodes with rfl | ⟨before, ⟨j, v⟩, rfl⟩
  · have none : m.plugins = none := h
    rw [none]
    exact ⟨_, _, rfl, rfl, Option.none, new, rfl⟩
  · rw [List.concat_eq_append] at h fresh short ⊢
    cases head : m.plugins with
    | none =>
        rw [head] at h
        cases before <;> cases h.1
    | some p =>
        rw [head] at h
        obtain ⟨next, cell, tail⟩ := h.here
        obtain rfl : next = none := tail
        have enough : before.length < fuel := by
          rw [List.length_append, List.length_singleton] at short
          omega
        let waiting : Memory σ := { m with plugins := some p, locked := true }
        have walk := lastNode_eq (m := waiting) h enough
        refine ⟨Function.update m.heap j (some ⟨v, some a⟩), some p, ?_, ?_⟩
        · simp only []
          rw [bind_of_returned walk, read_bind (m := waiting) cell, write_bind]
          rfl
        · rw [List.append_assoc]
          exact h.append fresh new

/-! ### Unloading what is not loaded -/

/-- A non-zero result, with nothing called or changed and the mutex free. -/
def HarmlessError (m : Memory σ) (x : Exit (Memory σ) Int) : Prop :=
  ∃ rc, rc ≠ 0 ∧ x = .returned rc { m with locked := false }

theorem locate_unknown {name : Str} :
    ∀ (fuel : Nat) {p : Option Nat} {nodes : List (Nat × Plugin σ)}, Holds m.heap p nodes →
      (∀ n ∈ nodes, n.2.named name = false) →
        locatePluginByName name fuel p m = .exhausted ∨
          locatePluginByName name fuel p m = .returned none m
  | 0, _, _, _, _ => .inl rfl
  | fuel + 1, _, [], h, _ => by
      obtain rfl := h
      exact .inr rfl
  | fuel + 1, _, n :: rest, ⟨start, next, cell, tail⟩, unknown => by
      subst start
      obtain ⟨other, others⟩ := List.forall_mem_cons.mp unknown
      rw [locatePluginByName, read_bind cell]
      simpa [other] using locate_unknown fuel tail others

/-- Null is dereferenced with the mutex held. -/
theorem unload_null {fuel : Nat} {name : Str} (free : m.locked = false)
    (located : locatePluginByName name fuel m.plugins m = .returned none m) :
    unloadPluginByName fuel name m = .crashed { m with locked := true } := by
  rw [unloadPluginByName, get_bind, bind_of_returned located, get_bind, lock_bind free]
  rfl

theorem unload_unknown {name : Str} (h : Holds m.heap m.plugins nodes)
    (unknown : ∀ n ∈ nodes, n.2.named name = false) (fuel : Nat) :
    ¬ HarmlessError m (unloadPluginByName fuel name m) := by
  rintro ⟨rc, -, harmless⟩
  rcases locate_unknown fuel h unknown with out | null
  · rw [unloadPluginByName, get_bind, bind_of_exhausted out] at harmless
    cases harmless
  · cases held : m.locked with
    | false =>
        rw [unload_null held null] at harmless
        cases harmless
    | true =>
        have waits : unloadPluginByName fuel name m = .exhausted := by
          rw [unloadPluginByName, get_bind, bind_of_returned null, get_bind]
          exact bind_of_exhausted (by simp [pluginsLock, held])
        rw [waits] at harmless
        cases harmless

/-- **Unloading an unknown plugin is never harmless.** Whatever the chain and the
registry, the call dereferences null, and the mutex is held by then. -/
theorem unload_unknown_crashes {name : Str} (h : Holds m.heap m.plugins nodes)
    (unknown : ∀ n ∈ nodes, n.2.named name = false) :
    (∀ fuel, ¬ HarmlessError m (unloadPluginByName fuel name m)) ∧
      (m.locked = false → ∀ fuel, nodes.length < fuel →
        unloadPluginByName fuel name m = .crashed { m with locked := true }) := by
  refine ⟨unload_unknown h unknown, fun free fuel short => unload_null free ?_⟩
  have null : nodes.find? (·.2.named name) = none :=
    List.find?_eq_none.mpr fun n hn => by simp [unknown n hn]
  rw [locate_eq h short, null]
  rfl

/-- A chain of the one filter `df1`. -/
def oneLoaded : Memory Unit where
  heap := Function.update (fun _ => none) 0 (some ⟨(filterRequest "df1" 1).node 0, none⟩)
  plugins := some 0
  locked := false
  commands :=
    ⟨"filter_domains.so".toList, "df1".toList, .plugin 7, 1⟩ ::
      setCommandsArray builtins []
  trace := [(0, .openPlugin 0)]
  nextSerial := 1

theorem oneLoaded_holds :
    Holds oneLoaded.heap oneLoaded.plugins [(0, (filterRequest "df1" 1).node 0)] :=
  ⟨rfl, none, rfl, rfl⟩

theorem oneLoaded_unknown :
    ∀ n ∈ [(0, (filterRequest "df1" 1).node 0)], n.2.named "df2".toList = false := by
  decide

theorem unload_unknown_crashes_df2 : unloadPluginByName 2 "df2".toList oneLoaded =
    .crashed { oneLoaded with locked := true } :=
  (unload_unknown_crashes oneLoaded_holds oneLoaded_unknown).2 rfl 2 (by simp)

/-- `df2` typed for `df1`. -/
theorem mistyped_alias_crashes :
    Holds oneLoaded.heap oneLoaded.plugins [(0, (filterRequest "df1" 1).node 0)] ∧
      ((filterRequest "df1" 1).node 0).named "df2".toList = false ∧
        (∀ fuel, ¬ HarmlessError oneLoaded (unloadPluginByName fuel "df2".toList oneLoaded)) ∧
          unloadPluginByName 2 "df2".toList oneLoaded =
            .crashed { oneLoaded with locked := true } :=
  ⟨oneLoaded_holds, by decide, unload_unknown oneLoaded_holds oneLoaded_unknown, rfl⟩

end Calls

/-! ### The list the memory represents -/

/-- Between two calls: `plugins` leads through finitely many nodes, none of them twice, to
null, and they are the plugins of the list; the rest of the memory is the list's. -/
structure Represents (m : Memory σ) (l : ListenerState σ) : Prop where
  chain : ∃ nodes, Holds m.heap m.plugins nodes ∧ (nodes.map Prod.fst).Nodup ∧
    nodes.map Prod.snd = l.plugins
  unlocked : m.locked = false
  commands : m.commands = l.commands
  trace : m.trace = l.trace
  nextSerial : m.nextSerial = l.nextSerial

theorem represents_start : Represents (Memory.start (σ := σ)) .start where
  chain := ⟨[], rfl, List.nodup_nil, rfl⟩
  unlocked := rfl
  commands := rfl
  trace := rfl
  nextSerial := rfl

section Represented

variable {m : Memory σ} {l : ListenerState σ} {fuel : Nat}

theorem execute_represents (h : Represents m l) (short : l.plugins.length < fuel)
    (record : MonitorRecord) : ∃ m', executePluginChain fuel record m = .returned 0 m' ∧
      Represents m' { l with
        plugins := (Listener.executePluginChain record l.plugins).1
        trace := l.trace ++ (Listener.executePluginChain record l.plugins).2 } := by
  obtain ⟨⟨nodes, holds, -, plugins⟩, unlocked, commands, trace, nextSerial⟩ := h
  rw [← plugins, List.length_map] at short
  obtain ⟨heap, nodes', ran, holds', values, -⟩ :=
    visitNodes_holds record (m := { m with locked := true }) holds short
  rw [plugins] at ran values
  refine ⟨{ m with
      heap
      trace := m.trace ++ (Listener.executePluginChain record l.plugins).2
      locked := false }, ?_, ⟨nodes', holds', holds'.nodup, values⟩, rfl, commands,
    congrArg (· ++ _) trace, nextSerial⟩
  rw [executePluginChain, get_bind, lock_bind unlocked, bind_of_returned ran]
  rfl

/-- The first plugin of the name is taken out from between the others. -/
theorem unload_represents (h : Represents m l) {name : Str} {before after : List (Plugin σ)}
    {p : Plugin σ} (split : l.plugins = before ++ p :: after) (named : p.named name)
    (others : ∀ r ∈ before, r.named name = false) (short : l.plugins.length < fuel) :
    ∃ m', unloadPluginByName fuel name m = .returned 0 m' ∧
      Represents m' { Listener.unloadPlugin p l with plugins := before ++ after } := by
  obtain ⟨⟨nodes, holds, -, plugins⟩, unlocked, commands, trace, nextSerial⟩ := h
  rw [← plugins] at split short
  rw [List.length_map] at short
  obtain ⟨front, tail, rfl, rfl, found⟩ := List.map_eq_append_iff.mp split
  obtain ⟨⟨a, _⟩, back, rfl, rfl, rfl⟩ := List.map_eq_cons_iff.mp found
  have first : ∀ n ∈ front, n.2.named name = false := fun n hn =>
    others n.2 (List.mem_map_of_mem hn)
  obtain ⟨heap, plugins', ran, holds'⟩ := unload_holds holds first named unlocked short
  refine ⟨_, ran, ⟨front ++ back, holds', holds'.nodup, List.map_append⟩, rfl, ?_, ?_, nextSerial⟩
  · exact congrArg (freeCommand _) commands
  · exact congrArg (· ++ _) trace

/-- Memory not in use is not in the chain. -/
theorem Represents.fresh (h : Represents m l) {a : Nat} (fresh : m.heap a = none) :
    ∃ nodes, (Holds m.heap m.plugins nodes ∧ nodes.map Prod.snd = l.plugins) ∧
      a ∉ nodes.map Prod.fst := by
  obtain ⟨nodes, holds, -, plugins⟩ := h.chain
  refine ⟨nodes, ⟨holds, plugins⟩, fun mem => ?_⟩
  obtain ⟨n, hn, rfl⟩ := List.mem_map.mp mem
  obtain ⟨next, cell⟩ := holds.cell hn
  rw [fresh] at cell
  cases cell

/-- A new node outside the chain is not seen. -/
theorem Represents.allocate (h : Represents m l) {a : Nat} (fresh : m.heap a = none)
    (cell : Option (Cell Nat (Plugin σ))) : Represents
      { m with heap := Function.update m.heap a cell, nextSerial := m.nextSerial + 1 }
      { l with nextSerial := l.nextSerial + 1 } := by
  obtain ⟨nodes, ⟨holds, plugins⟩, outside⟩ := h.fresh fresh
  have holds' := holds.frame (c := cell) outside
  exact ⟨⟨nodes, holds', holds'.nodup, plugins⟩, h.unlocked, h.commands, h.trace,
    congrArg (· + 1) h.nextSerial⟩

theorem Represents.log (h : Represents m l) (calls : Trace) :
    Represents { m with trace := m.trace ++ calls } { l with trace := l.trace ++ calls } :=
  ⟨h.chain, h.unlocked, h.commands, congrArg (· ++ calls) h.trace, h.nextSerial⟩

/-- A node is registered and put behind the last. -/
theorem Represents.append (h : Represents m l) (short : l.plugins.length < fuel) {a : Nat}
    {p : Plugin σ} (new : m.heap a = some ⟨p, none⟩)
    (outside : ∃ nodes, Holds m.heap m.plugins nodes ∧ a ∉ nodes.map Prod.fst)
    (commands : List Command) : ∃ m', appendNode fuel a { m with commands } = .returned () m' ∧
      Represents m' { l with plugins := l.plugins ++ [p], commands } := by
  obtain ⟨nodes, holds, -, plugins⟩ := h.chain
  obtain ⟨_, same, outside⟩ := outside
  obtain rfl := holds.unique same
  rw [← plugins, List.length_map] at short
  obtain ⟨heap, head, ran, holds'⟩ :=
    appendNode_holds (m := { m with commands }) holds outside new h.unlocked short
  exact ⟨_, ran, ⟨_, holds', holds'.nodup, by simp [plugins]⟩, rfl, rfl, h.trace, h.nextSerial⟩

theorem load_represents (allocator : Allocator σ) (h : Represents m l)
    (short : l.plugins.length < fuel) (q : LoadRequest σ) :
    let result := if (allocator.calloc m.nextSerial m.heap).isSome then Listener.loadPlugin q l
      else (1, { l with nextSerial := l.nextSerial + 1 })
    ∃ m', loadPlugin allocator fuel q m = .returned result.1 m' ∧ Represents m' result.2 := by
  intro result
  -- the list's other fields are the memory's
  obtain ⟨plugins, commands, trace, nextSerial⟩ := l
  obtain rfl : m.commands = commands := h.commands
  obtain rfl : m.trace = trace := h.trace
  obtain rfl : m.nextSerial = nextSerial := h.nextSerial
  rw [loadPlugin]
  simp only [get_bind, modify_bind]
  cases found : allocator.calloc m.nextSerial m.heap with
  | none =>
      simp only [result, found]
      exact ⟨_, rfl, h.chain, h.unlocked, rfl, rfl, rfl⟩
  | some a =>
      have fresh := allocator.fresh found
      have allocated := h.allocate fresh (some ⟨q.node m.nextSerial, none⟩)
      have opened := allocated.log [(m.nextSerial, .openPlugin q.openPlugin)]
      simp only [result, found, Listener.loadPlugin, write_bind, Option.isSome_some, if_true]
      cases q.dlopens with
      | false => exact ⟨_, rfl, allocated⟩
      | true =>
          cases q.entryPoints with
          | false => exact ⟨_, rfl, allocated⟩
          | true =>
              simp only [Bool.not_true, Bool.or_self, Bool.false_eq_true, if_false, modify_bind]
              by_cases fails : q.openPlugin = PLUGIN_OPEN_FAIL
              · rw [if_pos fails, if_pos fails]
                exact ⟨_, rfl, opened⟩
              · rw [if_neg fails, if_neg fails]
                obtain ⟨nodes, ⟨holds, -⟩, outside⟩ := h.fresh fresh
                obtain ⟨m', ran, appended⟩ := opened.append short (Function.update_self _ _ _)
                  ⟨nodes, holds.frame outside, outside⟩ (registerCommand q m.commands)
                exact ⟨m', bind_of_returned ran, appended⟩

end Represented

/-! ### Sequences of calls -/

section Sequences

variable (allocator : Allocator σ) (fuel : Nat)

def call : ChainOp σ → Prog (Memory σ) Int
  | .load q => loadPlugin allocator fuel q
  | .unload name => unloadPluginByName fuel name
  | .execute record => executePluginChain fuel record

/-- `calloc` finds memory for a node. -/
def Granted (m : Memory σ) : Prop := (allocator.calloc m.nextSerial m.heap).isSome

/-- A name to unload is that of a plugin in the chain. -/
def Matches (m : Memory σ) : ChainOp σ → Prop
  | .unload name => ∃ nodes, Holds m.heap m.plugins nodes ∧ ∃ n ∈ nodes, n.2.named name
  | _ => True

/-- `C` holds of each call and the memory it is made in. -/
def Throughout (C : Memory σ → ChainOp σ → Prop) : Memory σ → List (ChainOp σ) → Prop
  | _, [] => True
  | m, op :: ops => C m op ∧
      ∀ rc m', call allocator fuel op m = .returned rc m' → Throughout C m' ops

/-- Every name to unload is that of a plugin in the chain by then. -/
def Matching : Memory σ → List (ChainOp σ) → Prop := Throughout allocator fuel Matches

/-- `calloc` finds memory for every load. -/
def Supplied : Memory σ → List (ChainOp σ) → Prop :=
  Throughout allocator fuel fun m _ => Granted allocator m

end Sequences

/-- The plugin can be loaded. -/
def Opens (q : LoadRequest σ) : Prop :=
  q.dlopens = true ∧ q.entryPoints = true ∧ q.openPlugin ≠ PLUGIN_OPEN_FAIL

instance (q : LoadRequest σ) : Decidable (Opens q) :=
  inferInstanceAs (Decidable (_ ∧ _ ∧ _))

/-- What a call that returned `rc` is to do to the list of plugins, the registry and the
calls made; `granted` says whether there is memory for a node. -/
inductive ListStep (granted : Prop) :
    ListenerState σ → ChainOp σ → Int → ListenerState σ → Prop
  /-- The plugin comes behind the last, and its command on top. -/
  | loaded {l l' : ListenerState σ} {q : LoadRequest σ} (found : granted) (opens : Opens q)
      (plugins : l'.plugins = l.plugins ++ [q.node l.nextSerial])
      (commands : l'.commands = registerCommand q l.commands)
      (trace : l'.trace = l.trace ++ [(l.nextSerial, .openPlugin q.openPlugin)]) :
      ListStep granted l (.load q) 0 l'
  /-- A load that fails leaves the chain and the registry. -/
  | notLoaded {l l' : ListenerState σ} {q : LoadRequest σ} {rc : Int}
      (fails : ¬ (granted ∧ Opens q)) (failed : rc ≠ 0) (plugins : l'.plugins = l.plugins)
      (commands : l'.commands = l.commands)
      (trace : l'.trace = l.trace ∨
        l'.trace = l.trace ++ [(l.nextSerial, .openPlugin PLUGIN_OPEN_FAIL)]) :
      ListStep granted l (.load q) rc l'
  /-- The first plugin of the name goes; the nodes of the others stay as they are, with
  their paused flags and their state. -/
  | unloaded {l l' : ListenerState σ} {name : Str} {before after : List (Plugin σ)}
      {p : Plugin σ} (split : l.plugins = before ++ p :: after) (named : p.named name)
      (others : ∀ r ∈ before, r.named name = false) (plugins : l'.plugins = before ++ after)
      (commands : l'.commands = freeCommand p.pluginLibrary l.commands)
      (trace : l'.trace = l.trace ++ [(p.serial, .closePlugin)]) :
      ListStep granted l (.unload name) 0 l'
  | passed {l l' : ListenerState σ} {record : MonitorRecord}
      (plugins : l'.plugins = (Listener.executePluginChain record l.plugins).1)
      (commands : l'.commands = l.commands)
      (trace : l'.trace = l.trace ++ (Listener.executePluginChain record l.plugins).2) :
      ListStep granted l (.execute record) 0 l'

/-- The calls return one after the other. Memory and list go side by side: the list is in
memory before and after each call, and each call does to it what it is to do. -/
inductive Refines (allocator : Allocator σ) (fuel : Nat) : Memory σ → ListenerState σ →
    List (ChainOp σ) → Memory σ → ListenerState σ → Prop
  | nil {m : Memory σ} {l : ListenerState σ} (represents : Represents m l) :
      Refines allocator fuel m l [] m l
  | cons {m m' m'' : Memory σ} {l l' l'' : ListenerState σ} {op : ChainOp σ}
      {ops : List (ChainOp σ)} {rc : Int} (represents : Represents m l)
      (ran : call allocator fuel op m = .returned rc m')
      (step : ListStep (Granted allocator m) l op rc l')
      (rest : Refines allocator fuel m' l' ops m'' l'') :
      Refines allocator fuel m l (op :: ops) m'' l''

section Refinement

variable {allocator : Allocator σ} {fuel : Nat} {m : Memory σ} {l : ListenerState σ}

theorem loadPlugin_opens {q : LoadRequest σ} (opens : Opens q) (l : ListenerState σ) :
    Listener.loadPlugin q l = (0, { l with
      plugins := l.plugins ++ [q.node l.nextSerial]
      commands := registerCommand q l.commands
      trace := l.trace ++ [(l.nextSerial, .openPlugin q.openPlugin)]
      nextSerial := l.nextSerial + 1 }) := by
  obtain ⟨dlopens, entryPoints, opened⟩ := opens
  simp [Listener.loadPlugin, dlopens, entryPoints, opened]

/-- A load that fails may have called `open_plugin`, and nothing else. -/
theorem loadPlugin_fails {q : LoadRequest σ} (fails : ¬ Opens q) (l : ListenerState σ) :
    ∃ called, Listener.loadPlugin q l =
        (1, { l with trace := l.trace ++ called, nextSerial := l.nextSerial + 1 }) ∧
      (called = [] ∨ called = [(l.nextSerial, .openPlugin PLUGIN_OPEN_FAIL)]) := by
  unfold Listener.loadPlugin
  split
  · exact ⟨[], by simp, .inl rfl⟩
  · rename_i found
    have complete : q.dlopens ∧ q.entryPoints := by simpa using found
    have refuses : q.openPlugin = PLUGIN_OPEN_FAIL := by
      by_contra opens
      exact fails ⟨complete.1, complete.2, opens⟩
    rw [if_pos refuses]
    exact ⟨_, rfl, .inr (by rw [refuses])⟩

theorem loadPlugin_step {granted : Prop} (found : granted) (q : LoadRequest σ)
    (l : ListenerState σ) : ListStep granted l (.load q) (Listener.loadPlugin q l).1
      (Listener.loadPlugin q l).2 := by
  by_cases opens : Opens q
  · rw [loadPlugin_opens opens]
    exact .loaded found opens rfl rfl rfl
  · obtain ⟨called, failed, calls⟩ := loadPlugin_fails opens l
    rw [failed]
    refine .notLoaded (fun both => opens both.2) Int.one_ne_zero rfl rfl ?_
    rcases calls with rfl | rfl
    · exact .inl (List.append_nil _)
    · exact .inr rfl

theorem ListStep.length_le {granted : Prop} {l l' : ListenerState σ} {op : ChainOp σ} {rc : Int}
    (h : ListStep granted l op rc l') : l'.plugins.length ≤ l.plugins.length + 1 := by
  cases h with
  | loaded _ _ plugins => simp [plugins]
  | notLoaded _ _ plugins => simp [plugins]
  | unloaded split _ _ plugins =>
      rw [plugins, split, List.length_append, List.length_append, List.length_cons]
      omega
  | passed plugins =>
      rw [plugins, executePluginChain_length]
      exact Nat.le_succ _

theorem Represents.matches_iff (h : Represents m l) {name : Str} :
    Matches m (.unload name) ↔ ∃ p ∈ l.plugins, p.named name := by
  obtain ⟨nodes, holds, -, plugins⟩ := h.chain
  rw [← plugins]
  constructor
  · rintro ⟨_, same, n, hn, named⟩
    obtain rfl := holds.unique same
    exact ⟨n.2, List.mem_map_of_mem hn, named⟩
  · rintro ⟨_, hp, named⟩
    obtain ⟨n, hn, rfl⟩ := List.mem_map.mp hp
    exact ⟨nodes, holds, n, hn, named⟩

/-- The first plugin of a name, between the others. -/
theorem exists_named {name : Str} {plugins : List (Plugin σ)} {p : Plugin σ}
    (located : Listener.locatePluginByName name plugins = some p) :
    ∃ before after, plugins = before ++ p :: after ∧ p.named name ∧
      ∀ r ∈ before, r.named name = false := by
  obtain ⟨named, before, after, split, others⟩ := List.find?_eq_some_iff_append.mp located
  exact ⟨before, after, split, named, fun r hr => by simpa using others r hr⟩

/-- A call in memory does what it is to do to the list. -/
theorem call_step (h : Represents m l) (short : l.plugins.length < fuel) {op : ChainOp σ}
    (matching : Matches m op) : ∃ rc m' l', call allocator fuel op m = .returned rc m' ∧
      ListStep (Granted allocator m) l op rc l' ∧ Represents m' l' := by
  cases op with
  | load q =>
      obtain ⟨m', ran, after⟩ := load_represents allocator h short q
      refine ⟨_, m', _, ran, ?_, after⟩
      split
      · rename_i found
        exact loadPlugin_step found q l
      · rename_i none
        exact .notLoaded (fun both => none both.1) Int.one_ne_zero rfl rfl (.inl rfl)
  | unload name =>
      obtain ⟨p, located⟩ := Option.isSome_iff_exists.mp
        (List.find?_isSome.mpr (h.matches_iff.mp matching))
      obtain ⟨before, after, split, named, others⟩ := exists_named located
      obtain ⟨m', ran, represents⟩ := unload_represents h split named others short
      exact ⟨0, m', _, ran, .unloaded split named others rfl rfl rfl, represents⟩
  | execute record =>
      obtain ⟨m', ran, after⟩ := execute_represents h short record
      refine ⟨0, m', _, ran, ?_, after⟩
      exact .passed rfl rfl rfl

theorem calls_refine {ops : List (ChainOp σ)} (h : Represents m l)
    (short : l.plugins.length + ops.length < fuel) (matching : Matching allocator fuel m ops) :
    ∃ m' l', Refines allocator fuel m l ops m' l' := by
  induction ops generalizing m l with
  | nil => exact ⟨m, l, .nil h⟩
  | cons op ops ih =>
      rw [List.length_cons] at short
      obtain ⟨matched, later⟩ := matching
      have room : l.plugins.length < fuel := by omega
      obtain ⟨rc, m', l', ran, step, after⟩ := call_step h room matched
      have room : l'.plugins.length + ops.length < fuel := by
        have := step.length_le
        omega
      obtain ⟨m'', l'', rest⟩ := ih after room (later rc m' ran)
      exact ⟨m'', l'', .cons h ran step rest⟩

/-- **The chain.** Over any calls of which each unload names a plugin in the chain, all
calls return, and before and after each of them `plugins` leads through finitely many
nodes, without a cycle, that are the plugins of a list: one that grows at its end with each
load that succeeds and stays as it is, with the registry, at each that fails, loses the first
plugin of the name with each unload and nothing of the others, and takes each pass in
place. -/
theorem chain_refines_list {ops : List (ChainOp σ)} (short : ops.length < fuel)
    (matching : Matching allocator fuel .start ops) :
    ∃ m l, Refines allocator fuel .start .start ops m l := by
  have empty : (ListenerState.start (σ := σ)).plugins.length + ops.length < fuel := by
    simpa [ListenerState.start] using short
  exact calls_refine represents_start empty matching

/-! The list model of the other results -/

/-- The first plugin of the name is the one with the serial of the located. -/
theorem unlink_named (h : Tracks l) {before after : List (Plugin σ)} {p : Plugin σ}
    (split : l.plugins = before ++ p :: after) :
    l.plugins.eraseP (·.serial = p.serial) = before ++ after := by
  have distinct := h.distinct
  rw [split, List.map_append, List.map_cons, List.nodup_append] at distinct
  have other : ∀ r ∈ before, r.serial ≠ p.serial := fun r hr =>
    distinct.2.2 _ (List.mem_map_of_mem hr) _ List.mem_cons_self
  rw [split, List.eraseP_append_right _ fun r hr => by simpa using other r hr,
    List.eraseP_cons_of_pos (by simp)]

/-- A step of the list model is a call in memory. -/
theorem call_chainStep (h : Represents m l) (tracks : Tracks l)
    (short : l.plugins.length < fuel) (granted : Granted allocator m) {op : ChainOp σ}
    {l' : ListenerState σ} (step : chainStep l op = some l') :
    ∃ rc m', call allocator fuel op m = .returned rc m' ∧
      ListStep (Granted allocator m) l op rc l' ∧ Represents m' l' := by
  cases op with
  | load q =>
      cases step
      obtain ⟨m', ran, after⟩ := load_represents allocator h short q
      have found : (allocator.calloc m.nextSerial m.heap).isSome := granted
      rw [if_pos found] at ran after
      exact ⟨_, m', ran, loadPlugin_step granted q l, after⟩
  | unload name =>
      obtain ⟨_, unloaded, rfl⟩ := Option.map_eq_some_iff.mp step
      obtain ⟨p, located, rfl⟩ := Option.map_eq_some_iff.mp unloaded
      obtain ⟨before, after, split, named, others⟩ := exists_named located
      obtain ⟨m', ran, represents⟩ := unload_represents h split named others short
      have unlinked := unlink_named tracks split
      rw [← unlinked] at represents
      exact ⟨0, m', ran, .unloaded split named others unlinked rfl rfl, represents⟩
  | execute record =>
      obtain ⟨m', ran, after⟩ := execute_represents h short record
      cases step
      exact ⟨0, m', ran, .passed rfl rfl rfl, after⟩

/-- The runs of the list model are runs of the chain in memory. -/
theorem memory_refines_chainStep {ops : List (ChainOp σ)} (h : Represents m l)
    (tracks : Tracks l) (short : l.plugins.length + ops.length < fuel)
    (supplied : Supplied allocator fuel m ops) {last : ListenerState σ}
    (ran : Machine.run chainStep l ops = some last) :
    ∃ m', Refines allocator fuel m l ops m' last := by
  induction ops generalizing m l with
  | nil =>
      cases ran
      exact ⟨m, .nil h⟩
  | cons op ops ih =>
      rw [List.length_cons] at short
      obtain ⟨here, later⟩ := supplied
      obtain ⟨l', step, rest⟩ := Machine.run_cons_some ran
      have room : l.plugins.length < fuel := by omega
      obtain ⟨rc, m', first, listed, after⟩ := call_chainStep h tracks room here step
      have room' : l'.plugins.length + ops.length < fuel := by
        have := listed.length_le
        omega
      have kept := tracks_step _ _ _ tracks step
      obtain ⟨m'', others⟩ := ih after kept room' (later rc m' first) rest
      exact ⟨m'', .cons h first listed others⟩

end Refinement

/-! Two filters, of which the first is unloaded. -/

/-- Each node gets the address of its serial. -/
def bySerial : Allocator Unit where
  calloc n heap := if (heap n).isNone then some n else none
  fresh := by
    intro n heap a found
    split at found
    · cases found
      simpa using ‹(heap n).isNone›
    · cases found

theorem chain_refines_list_unload :
    ∃ m l, Refines bySerial 4 .start .start firstUnloaded m l := by
  have loaded : call bySerial 4 (.load (filterRequest "df1" 1)) .start =
      .returned 0 oneLoaded := rfl
  have once : Represents oneLoaded
      ⟨[(filterRequest "df1" 1).node 0], oneLoaded.commands, oneLoaded.trace, 1⟩ :=
    ⟨⟨_, oneLoaded_holds, oneLoaded_holds.nodup, rfl⟩, rfl, rfl, rfl, rfl⟩
  have room : [(filterRequest "df1" 1).node 0].length < 4 := by decide
  obtain ⟨m₂, loadedToo, twice⟩ := load_represents bySerial once room (filterRequest "df2" 2)
  refine chain_refines_list (by decide) ⟨trivial, fun rc m ran => ?_⟩
  rw [loaded] at ran
  cases ran
  refine ⟨trivial, fun rc m ran => ⟨?_, fun _ _ _ => trivial⟩⟩
  obtain ⟨-, rfl⟩ := Exit.returned.inj (loadedToo.symm.trans ran)
  exact twice.matches_iff.mpr ⟨_, List.mem_cons_self, by decide⟩

end IoMonitor.Listener.ChainMemory
