import IoMonitor.Lib.LinkedList
import IoMonitor.Lib.Prog
import IoMonitor.Listener.CommandParser

/-!
The command registry as a linked list in memory.

`set_command`, `free_command` and `run_command` with their pointers and loops. Over
any sequence of calls no null pointer and no freed memory is read, nothing is freed
twice and no node is lost: the memory in use is the list at `s_commands`, and that is
the list of the other results (`registry_refines`).
-/

namespace IoMonitor.Listener.CommandMemory

open CString LinkedList Prog

/-- `s_commands` and the nodes in memory. `requests` counts the calls of `malloc`. -/
structure Registry where
  heap : Heap Nat Command
  sCommands : Option Nat
  requests : Nat

def Registry.start : Registry := ⟨fun _ => none, none, 0⟩

/-- `malloc`: what it returns at a call is null or memory not in use. -/
structure Allocator where
  malloc : Nat → Heap Nat Command → Option Nat
  fresh : ∀ {n heap a}, malloc n heap = some a → heap a = none

/-- Dereferences a pointer. -/
def read (p : Option Nat) : Prog Registry (Cell Nat Command) := fun m =>
  match p.bind m.heap with
  | some cell => .returned cell m
  | none => .crashed m

/-- `free`: of memory not in use it is undefined. -/
def free (p : Option Nat) : Prog Registry Unit := fun m =>
  match p with
  | none => .returned () m
  | some a =>
      if (m.heap a).isSome then .returned () { m with heap := Function.update m.heap a none }
      else .crashed m

/-! ### The calls -/

/-- `set_command`. The `next_command` of the argument is overwritten, and nothing reads
it there. -/
def setCommand (allocator : Allocator) (command : Command) : Prog Registry Unit := do
  let m ← get
  modify fun m => { m with requests := m.requests + 1 }
  match allocator.malloc m.requests m.heap with
  | none => crash -- `memcpy` to the null pointer
  | some cmddup => modify fun m => { m with
      heap := Function.update m.heap cmddup (some ⟨command, m.sCommands⟩)
      sCommands := some cmddup }

/-- The loop of `free_command`. -/
def freeLoop (name : Str) : Nat → Option Nat → Option Nat → Prog Registry Unit
  | 0, _, _ => exhaust
  | _ + 1, _, none => pure ()
  | fuel + 1, ppCommand, some p => do
      let cell ← read (some p)
      if cell.value.matches name then
        -- `if (p_command = s_commands)`
        let pCommand := (← get).sCommands
        if pCommand.isSome then
          let next := (← read pCommand).next
          modify fun m => { m with sCommands := next }
          free pCommand
        else
          let pp ← read ppCommand
          let next := (← read pCommand).next
          match ppCommand with
          | none => crash
          | some a =>
              modify fun m => { m with
                heap := Function.update m.heap a (some { pp with next }) }
              free pCommand
      else freeLoop name fuel (some p) cell.next

def freeCommand (fuel : Nat) (name : Str) : Prog Registry Unit := do
  let m ← get
  freeLoop name fuel m.sCommands m.sCommands

/-- The loop of `run_command`, up to the call of the function found. -/
def runLoop (name : Str) : Nat → Option Nat → Prog Registry (Option (CommandFun × Nat))
  | 0, _ => exhaust
  | _ + 1, none => pure none
  | fuel + 1, some p => do
      let cell ← read (some p)
      if cell.value.matches name then pure (some (cell.value.commandFunction, cell.value.state))
      else runLoop name fuel cell.next

def runCommand (fuel : Nat) (name : Str) : Prog Registry (Option (CommandFun × Nat)) := do
  let m ← get
  runLoop name fuel m.sCommands

/-- A call, and what comes back of it: the function that `run_command` is to call. -/
inductive RegistryOp where
  | set (command : Command)
  | free (name : Str)
  | run (name : Str)

def call (allocator : Allocator) (fuel : Nat) :
    RegistryOp → Prog Registry (Option (CommandFun × Nat))
  | .set command => do
      setCommand allocator command
      pure none
  | .free name => do
      freeCommand fuel name
      pure none
  | .run name => runCommand fuel name

def calls (allocator : Allocator) (fuel : Nat) :
    List RegistryOp → Prog Registry (List (Option (CommandFun × Nat)))
  | [] => pure []
  | op :: ops => do
      let answer ← call allocator fuel op
      let answers ← calls allocator fuel ops
      pure (answer :: answers)

/-- The calls on a list. -/
def listCall (commands : List Command) : RegistryOp → List Command × Option (CommandFun × Nat)
  | .set command => (Listener.setCommand command commands, none)
  | .free name => (Listener.freeCommand name commands, none)
  | .run name => (commands, Listener.runCommand name commands)

def listCalls : List Command → List RegistryOp → List Command × List (Option (CommandFun × Nat))
  | commands, [] => (commands, [])
  | commands, op :: ops =>
      let (commands', answer) := listCall commands op
      let (last, answers) := listCalls commands' ops
      (last, answer :: answers)

/-! ### One call -/

/-- The memory in use is the list at `s_commands`, with these commands in it. -/
def Represents (m : Registry) (commands : List Command) : Prop :=
  ∃ nodes, Holds m.heap m.sCommands nodes ∧ Exactly m.heap nodes ∧ nodes.map Prod.snd = commands

section

variable {m : Registry} {commands : List Command} {nodes : List (Nat × Command)}

theorem read_bind {α : Type} {a : Nat} {cell : Cell Nat Command} (h : m.heap a = some cell)
    (f : Cell Nat Command → Prog Registry α) : (read (some a) >>= f) m = f cell m := by
  refine bind_of_returned ?_
  simp [read, h]

theorem represents_start : Represents .start [] :=
  ⟨[], rfl, fun _ used => absurd rfl used, rfl⟩

theorem set_represents (allocator : Allocator) (h : Represents m commands) (command : Command)
    (supplied : (allocator.malloc m.requests m.heap).isSome) :
    ∃ m', setCommand allocator command m = .returned () m' ∧
      Represents m' (Listener.setCommand command commands) := by
  obtain ⟨nodes, holds, exactly, rfl⟩ := h
  obtain ⟨a, given⟩ := Option.isSome_iff_exists.mp supplied
  have unused : a ∉ nodes.map Prod.fst := by
    intro mem
    obtain ⟨n, hn, rfl⟩ := List.mem_map.mp mem
    obtain ⟨next, cell⟩ := holds.cell hn
    rw [allocator.fresh given] at cell
    cases cell
  rw [setCommand, get_bind, modify_bind, given]
  exact ⟨_, rfl, _, holds.push unused command, exactly.push a command _, rfl⟩

/-- Somewhere in the list: the scan frees the head if what is ahead has the name. -/
theorem freeLoop_eq {name : Str} {head : Nat} {first : Cell Nat Command}
    (start : m.sCommands = some head) (cell : m.heap head = some first) :
    ∀ {fuel : Nat} {pp p : Option Nat} {ahead : List (Nat × Command)}, Holds m.heap p ahead →
      ahead.length < fuel → freeLoop name fuel pp p m =
        .returned () (if ∃ n ∈ ahead, n.2.matches name then
          { m with heap := Function.update m.heap head none, sCommands := first.next } else m)
  | 0, _, _, _, _, short => absurd short (Nat.not_lt_zero _)
  | fuel + 1, _, _, [], h, _ => by
      obtain rfl := h
      simp [freeLoop]
  | fuel + 1, _, _, n :: ahead, ⟨here, next, found, tail⟩, short => by
      subst here
      rw [freeLoop, read_bind found]
      by_cases named : n.2.matches name
      · have hit : ∃ n' ∈ n :: ahead, n'.2.matches name := ⟨n, List.mem_cons_self, named⟩
        rw [if_pos named, if_pos hit, get_bind, start, if_pos (Option.isSome_some ..),
          read_bind cell, modify_bind]
        simp [free, cell]
      · have later : freeLoop name fuel (some n.1) next m = _ :=
          freeLoop_eq start cell tail (Nat.lt_of_succ_lt_succ short)
        rw [if_neg named, later]
        simp only [List.exists_mem_cons_iff, named, Bool.false_eq_true, false_or]

theorem free_represents {fuel : Nat} (h : Represents m commands)
    (short : commands.length < fuel) (name : Str) :
    ∃ m', freeCommand fuel name m = .returned () m' ∧
      Represents m' (Listener.freeCommand name commands) := by
  obtain ⟨nodes, holds, exactly, rfl⟩ := h
  rw [List.length_map] at short
  rw [freeCommand, get_bind, freeCommand_eq]
  cases nodes with
  | nil =>
      have empty : m.sCommands = none := holds
      obtain ⟨fuel, rfl⟩ : ∃ k, fuel = k + 1 := ⟨fuel - 1, by omega⟩
      rw [empty]
      exact ⟨m, rfl, [], empty, exactly, rfl⟩
  | cons n rest =>
      obtain ⟨a, command⟩ := n
      obtain ⟨start, next, cell, popped⟩ := holds.pop
      refine ⟨_, freeLoop_eq start cell holds short, ?_⟩
      by_cases hit : ∃ n ∈ (a, command) :: rest, n.2.matches name
      · have found : ∃ c ∈ ((a, command) :: rest).map Prod.snd, c.matches name := by
          obtain ⟨n, hn, named⟩ := hit
          exact ⟨n.2, List.mem_map_of_mem hn, named⟩
        rw [if_pos hit, if_pos found]
        exact ⟨rest, popped, exactly.pop, rfl⟩
      · have missing : ¬ ∃ c ∈ ((a, command) :: rest).map Prod.snd, c.matches name := by
          rintro ⟨c, hc, named⟩
          obtain ⟨n, hn, rfl⟩ := List.mem_map.mp hc
          exact hit ⟨n, hn, named⟩
        rw [if_neg hit, if_neg missing]
        exact ⟨_, holds, exactly, rfl⟩

theorem runLoop_eq {name : Str} :
    ∀ {fuel : Nat} {p : Option Nat} {nodes : List (Nat × Command)}, Holds m.heap p nodes →
      nodes.length < fuel → runLoop name fuel p m =
        .returned (Listener.runCommand name (nodes.map Prod.snd)) m
  | 0, _, _, _, short => absurd short (Nat.not_lt_zero _)
  | fuel + 1, _, [], h, _ => by
      obtain rfl := h
      rfl
  | fuel + 1, _, n :: rest, ⟨start, next, cell, tail⟩, short => by
      subst start
      rw [runLoop, read_bind cell]
      by_cases named : n.2.matches name
      · simp [named, Listener.runCommand]
      · have later : runLoop name fuel next m = _ := runLoop_eq tail (Nat.lt_of_succ_lt_succ short)
        rw [if_neg named, later]
        simp [Listener.runCommand, named]

end

/-! ### All calls -/

/-- `malloc` returns memory at each `set_command` of the run. -/
def Supplied (allocator : Allocator) (fuel : Nat) : Registry → List RegistryOp → Prop
  | _, [] => True
  | m, op :: ops =>
      ((∃ command, op = .set command) → (allocator.malloc m.requests m.heap).isSome) ∧
        ∀ answer m', call allocator fuel op m = .returned answer m' →
          Supplied allocator fuel m' ops

variable {allocator : Allocator} {fuel : Nat}

theorem call_represents {m : Registry} {commands : List Command} (h : Represents m commands)
    (short : commands.length < fuel) {op : RegistryOp}
    (supplied : (∃ command, op = .set command) → (allocator.malloc m.requests m.heap).isSome) :
    ∃ m', call allocator fuel op m = .returned (listCall commands op).2 m' ∧
      Represents m' (listCall commands op).1 := by
  cases op with
  | set command =>
      obtain ⟨m', ran, after⟩ := set_represents allocator h command (supplied ⟨command, rfl⟩)
      exact ⟨m', bind_of_returned ran, after⟩
  | free name =>
      obtain ⟨m', ran, after⟩ := free_represents h short name
      exact ⟨m', bind_of_returned ran, after⟩
  | run name =>
      obtain ⟨nodes, holds, exactly, rfl⟩ := h
      rw [List.length_map] at short
      exact ⟨m, runLoop_eq holds short, nodes, holds, exactly, rfl⟩

theorem listCall_length (commands : List Command) (op : RegistryOp) :
    (listCall commands op).1.length ≤ commands.length + 1 := by
  cases op with
  | set command => exact Nat.le_refl _
  | free name =>
      simp only [listCall, freeCommand_eq]
      split
      · rw [List.length_tail]
        omega
      · omega
  | run name => exact Nat.le_succ _

theorem calls_represents (ops : List RegistryOp) {m : Registry} {commands : List Command}
    (h : Represents m commands) (short : commands.length + ops.length < fuel)
    (supplied : Supplied allocator fuel m ops) :
    ∃ m', calls allocator fuel ops m = .returned (listCalls commands ops).2 m' ∧
      Represents m' (listCalls commands ops).1 := by
  induction ops generalizing m commands with
  | nil => exact ⟨m, rfl, h⟩
  | cons op ops ih =>
      rw [List.length_cons] at short
      obtain ⟨here, later⟩ := supplied
      have room : commands.length < fuel := by omega
      obtain ⟨m₁, first, after⟩ := call_represents h room here
      have longer := listCall_length commands op
      have room₁ : (listCall commands op).1.length + ops.length < fuel := by omega
      obtain ⟨m₂, rest, last⟩ := ih after room₁ (later _ m₁ first)
      refine ⟨m₂, ?_, last⟩
      rw [calls, bind_of_returned first, bind_of_returned rest]
      rfl

/-- **The registry.** Over any calls for which there is memory, all calls return; each
`run_command` finds what it finds in the list; and the memory in use at the end is the
finite list at `s_commands`, without a cycle, with the commands of that list. -/
theorem registry_refines (ops : List RegistryOp) (short : ops.length < fuel)
    (supplied : Supplied allocator fuel .start ops) : ∃ m nodes,
      calls allocator fuel ops .start = .returned (listCalls [] ops).2 m ∧
        Holds m.heap m.sCommands nodes ∧ (nodes.map Prod.fst).Nodup ∧
        nodes.map Prod.snd = (listCalls [] ops).1 ∧
        ∀ a, m.heap a ≠ none ↔ a ∈ nodes.map Prod.fst := by
  have room : ([] : List Command).length + ops.length < fuel := by
    rw [List.length_nil]
    omega
  obtain ⟨m, ran, nodes, holds, exactly, listed⟩ := calls_represents ops represents_start room
    supplied
  refine ⟨m, nodes, ran, holds, holds.nodup, listed, fun a => ⟨exactly a, fun mem => ?_⟩⟩
  obtain ⟨n, hn, rfl⟩ := List.mem_map.mp mem
  obtain ⟨next, cell⟩ := holds.cell hn
  rw [cell]
  exact Option.some_ne_none _

/-! Two commands, the second freed through the name of the first. -/

/-- Each block at an address of its own. -/
def bySerial : Allocator where
  malloc n heap := if (heap n).isNone then some n else none
  fresh := by
    intro n heap a given
    split at given
    · next unused =>
        cases given
        exact Option.isNone_iff_eq_none.mp unused
    · cases given

def loadThenHelp : List RegistryOp :=
  [.set (builtin "load-plugin" "p" .loadPlugin), .set (builtin "help" "h" .help),
    .free "p".toList, .run "h".toList]

/-- `help` is no longer found. -/
theorem registry_refines_freed : ∃ m nodes,
    calls bySerial 5 loadThenHelp .start = .returned [none, none, none, none] m ∧
      Holds m.heap m.sCommands nodes ∧ (nodes.map Prod.fst).Nodup ∧
      nodes.map Prod.snd = [builtin "load-plugin" "p" .loadPlugin] ∧
      ∀ a, m.heap a ≠ none ↔ a ∈ nodes.map Prod.fst := by
  have supplied : Supplied bySerial 5 .start loadThenHelp := by
    refine ⟨fun _ => rfl, fun _ m₁ first => ?_⟩
    cases first
    refine ⟨fun _ => rfl, fun _ m₂ _ => ?_⟩
    refine ⟨fun isSet => ?_, fun _ m₃ _ => ⟨fun isSet => ?_, fun _ _ _ => trivial⟩⟩
    · obtain ⟨command, other⟩ := isSet
      cases other
    · obtain ⟨command, other⟩ := isSet
      cases other
  have listed : listCalls [] loadThenHelp =
      ([builtin "load-plugin" "p" .loadPlugin], [none, none, none, none]) := by decide
  have refined := registry_refines loadThenHelp (by decide : loadThenHelp.length < 5) supplied
  rwa [listed] at refined

end IoMonitor.Listener.CommandMemory
