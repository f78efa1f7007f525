import IoMonitor.Lib.CString

/-!
The command registry of `mq_listener`: a linked list, newest entry first.

`freeCommand` keeps the source's `if (p_command = s_commands)`, an assignment:
once some entry matches, the entry unlinked is the head of the list, whichever
entry matched (`freeCommand_eq`).
-/

namespace IoMonitor.Listener

open CString

/-- The handlers of the `commands` array of `mq_listener.c`. -/
inductive Handler where
  | loadPlugin | unloadPlugin | reorderPlugins | listPlugins | quit | mqPath | config | help
  deriving DecidableEq, Repr

/-- `command_function`: a handler of the listener, or a plugin's
`plugin_command` by its address. -/
inductive CommandFun where
  | handler (h : Handler)
  | plugin (entry : Nat)
  deriving DecidableEq, Repr

/-- `struct command`, without the texts only the help message reads. The names are the
strings that `strcmp` reads at the members. `state` is the `void*` handed to the
function. -/
structure Command where
  name : Str
  shortName : Str
  commandFunction : CommandFun
  state : Nat
  deriving DecidableEq

/-- Stands where no command is read. -/
def Command.blank : Command := ⟨[], [], .plugin 0, 0⟩

def Command.matches (name : Str) (c : Command) : Bool :=
  c.name = name || c.shortName = name

def setCommand (command : Command) (commands : List Command) : List Command :=
  command :: commands

def setCommandsArray (added commands : List Command) : List Command :=
  added.foldl (fun commands c => setCommand c commands) commands

/-- The scan of `free_command` over the rest of the list. On a match the head is
assigned to `p_command` and unlinked. -/
def freeCommandScan (name : Str) (head : List Command) : List Command → List Command
  | [] => head
  | c :: rest => if c.matches name then head.tail else freeCommandScan name head rest

def freeCommand (name : Str) (commands : List Command) : List Command :=
  freeCommandScan name commands commands

/-- The function and state `run_command` calls; `none` is "Not found". -/
def runCommand (name : Str) (commands : List Command) : Option (CommandFun × Nat) :=
  (commands.find? (·.matches name)).map fun c => (c.commandFunction, c.state)

theorem freeCommand_eq (name : Str) (commands : List Command) :
    freeCommand name commands =
      if ∃ c ∈ commands, c.matches name then commands.tail else commands := by
  suffices scan : ∀ head rest, freeCommandScan name head rest =
      if ∃ c ∈ rest, c.matches name then head.tail else head from scan commands commands
  intro head rest
  induction rest with
  | nil => simp [freeCommandScan]
  | cons c rest ih =>
      simp only [freeCommandScan, ih, List.exists_mem_cons_iff]
      by_cases h : c.matches name <;> simp [h]

/-- What `free_command` is for: the first entry with the name goes, all others stay. -/
structure DeletesFirst (name : Str) (before after : List Command) : Prop where
  found : ∀ front c rest, before = front ++ c :: rest → (∀ d ∈ front, ¬ d.matches name) →
    c.matches name → after = front ++ rest
  absent : (∀ c ∈ before, ¬ c.matches name) → after = before

/-- **Deletion.** The entry deleted is the first with the name iff that is the head of
the list, or there is none. -/
theorem deletesFirst_iff (name : Str) (commands : List Command) :
    DeletesFirst name commands (freeCommand name commands) ↔
      (∀ c ∈ commands, ¬ c.matches name) ∨ ∃ c ∈ commands.head?, c.matches name := by
  rw [freeCommand_eq]
  constructor
  · intro deletes
    by_cases absent : ∀ c ∈ commands, ¬ c.matches name
    · exact .inl absent
    · right
      rw [if_pos (by simpa using absent)] at deletes
      obtain ⟨c, mem, hit⟩ : ∃ c ∈ commands, c.matches name := by simpa using absent
      obtain ⟨d, front, rest, before, hit, split, -⟩ := List.exists_of_eraseP mem hit
      cases front with
      | nil => exact ⟨d, by simp [split], hit⟩
      | cons a front =>
          -- the head is gone and the entry is still there
          have kept := deletes.found (a :: front) d rest split before hit
          have count := congrArg (List.countP (·.matches name)) kept
          simp [split, hit, before a List.mem_cons_self] at count
  · rintro (absent | ⟨c, head, hit⟩)
    · rw [if_neg (by simpa using absent)]
      refine ⟨fun front c rest split _ hit => ?_, fun _ => rfl⟩
      exact absurd hit (absent c (by simp [split]))
    · obtain ⟨rest, rfl⟩ := List.head?_eq_some_iff.mp head
      rw [if_pos ⟨c, List.mem_cons_self, hit⟩]
      constructor
      · intro front d behind split before _
        cases front with
        | nil =>
            cases split
            rfl
        | cons a front =>
            cases split
            exact absurd hit (before c List.mem_cons_self)
      · intro absent
        exact absurd hit (absent c List.mem_cons_self)

def builtin (name shortName : String) (h : Handler) : Command where
  name := name.toList
  shortName := shortName.toList
  commandFunction := .handler h
  state := 0

/-- The `commands` array. -/
def builtins : List Command :=
  [builtin "load-plugin" "p" .loadPlugin,
   builtin "unload-plugin" "u" .unloadPlugin,
   builtin "reorder-plugins" "r" .reorderPlugins,
   builtin "list-plugins" "l" .listPlugins,
   builtin "quit" "q" .quit,
   builtin "mq-path" "m" .mqPath,
   builtin "config" "c" .config,
   builtin "help" "h" .help]

/-! Freeing a name that the second entry has. -/

/-- `load-plugin` is freed for `unload-plugin`. -/
theorem second_entry_kept : freeCommand "unload-plugin".toList builtins = builtins.tail ∧
    ¬ DeletesFirst "unload-plugin".toList builtins
      (freeCommand "unload-plugin".toList builtins) := by
  have freed : freeCommand "unload-plugin".toList builtins = builtins.tail := by decide
  refine ⟨freed, fun deletes => ?_⟩
  have kept := deletes.found [builtin "load-plugin" "p" .loadPlugin]
    (builtin "unload-plugin" "u" .unloadPlugin) (builtins.drop 2) rfl (by decide) (by decide)
  rw [freed] at kept
  revert kept
  decide

theorem setCommandsArray_eq (added commands : List Command) :
    setCommandsArray added commands = added.reverse ++ commands := by
  induction added generalizing commands with
  | nil => rfl
  | cons c added ih =>
      simp only [setCommandsArray, List.foldl_cons, setCommand] at ih ⊢
      rw [ih]
      simp

end IoMonitor.Listener
