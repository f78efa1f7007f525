import IoMonitor.Lib.LinkedList
import IoMonitor.Lib.Machine
import IoMonitor.Listener.PluginChain

/-!
The message thread and the CLI thread on the plugin chain.

`execute_plugin_chain` and `unload_plugin_by_name` are stepped at their reads
and writes of `plugins` and of the `next_plugin` links, at `plugin_mutex` and at
the callbacks. Both read `plugins` before they take the mutex. For the CLI
thread, the only one to write it, that is harmless; the message thread may find
the plugin it read closed (`neverClosed_iff_headOpen`).
-/

namespace IoMonitor.Listener.Threads

open CString IoMonitor LinkedList

inductive Thread where
  | message | cli
  deriving DecidableEq, Repr

/-- A node in memory. `closed` records that `close_plugin` has been called; the
node is freed before the mutex is released. -/
structure Node where
  pluginLibrary : Str
  pluginAlias : Option Str
  pluginPaused : Bool
  nextPlugin : Option Nat
  closed : Bool
  deriving DecidableEq

def Node.named (name : Str) (p : Node) : Bool :=
  p.pluginLibrary = name || p.pluginAlias = some name

/-- Where `execute_plugin_chain` stands, with its local `p`. -/
inductive MessagePc where
  | idle
  | wantLock (p : Option Nat)
  | loop (p : Option Nat)
  | ask (p : Nat)
  | process (p : Nat)
  | advance (p : Nat)
  | unlocking
  deriving DecidableEq

/-- Where `unload_plugin_by_name` stands, with its locals `p` and `i`. -/
inductive CliPc where
  | idle
  | locating (name : Str) (p : Option Nat)
  | located (p : Option Nat)
  | wantLock (p i : Option Nat)
  | closing (p i : Option Nat)
  | isHead (p : Nat) (i : Option Nat)
  | readNext (p : Nat)
  | setHead (p : Nat) (next : Option Nat)
  | scan (p : Nat) (i : Option Nat)
  | scanNext (p i : Nat)
  | readLink (p i : Nat)
  | setLink (p i : Nat) (next : Option Nat)
  | unlocking
  deriving DecidableEq

structure Config where
  heap : Nat → Node
  plugins : Option Nat
  mutex : Option Thread
  message : MessagePc
  cli : CliPc

def Config.next (c : Config) (n : Nat) : Option Nat := (c.heap n).nextPlugin

def Config.setPaused (c : Config) (n : Nat) (paused : Bool) : Config :=
  { c with heap := Function.update c.heap n { c.heap n with pluginPaused := paused } }

def Config.setClosed (c : Config) (n : Nat) : Config :=
  { c with heap := Function.update c.heap n { c.heap n with closed := true } }

def Config.setNext (c : Config) (n : Nat) (next : Option Nat) : Config :=
  { c with heap := Function.update c.heap n { c.heap n with nextPlugin := next } }

/-- One step of `execute_plugin_chain`, called again whenever it has returned.
`answer` is what a callback returns. -/
def messageStep (c : Config) (answer : Int) : Option Config :=
  match c.message with
  | .idle => some { c with message := .wantLock c.plugins }
  | .wantLock p =>
      if c.mutex = none then some { c with mutex := some .message, message := .loop p } else none
  | .loop none => some { c with mutex := none, message := .idle }
  | .loop (some p) =>
      some { c with message := if (c.heap p).pluginPaused then .ask p else .process p }
  | .ask p =>
      if answer = PLUGIN_ACCEPT_DATA then some { c.setPaused p false with message := .process p }
      else some { c with message := .advance p }
  | .process p =>
      if answer = PLUGIN_REFUSE_DATA then some { c.setPaused p true with message := .advance p }
      else if answer = PLUGIN_DROP_DATA then some { c with message := .unlocking }
      else some { c with message := .advance p }
  | .advance p => some { c with message := .loop (c.next p) }
  | .unlocking => some { c with mutex := none, message := .idle }

/-- One step of `unload_plugin_by_name`, called again with the next name
whenever it has returned. -/
def cliStep (c : Config) (name : Str) : Option Config :=
  match c.cli with
  | .idle => some { c with cli := .locating name c.plugins }
  | .locating _ none => some { c with cli := .located none }
  | .locating sought (some p) =>
      if (c.heap p).named sought then some { c with cli := .located (some p) }
      else some { c with cli := .locating sought (c.next p) }
  | .located p => some { c with cli := .wantLock p c.plugins }
  | .wantLock p i =>
      if c.mutex = none then some { c with mutex := some .cli, cli := .closing p i } else none
  | .closing none _ => none -- nothing has the name: `unload_plugin(NULL)`
  | .closing (some p) i => some { c.setClosed p with cli := .isHead p i }
  | .isHead p i => some { c with cli := if c.plugins = some p then .readNext p else .scan p i }
  | .readNext p => some { c with cli := .setHead p (c.next p) }
  | .setHead _ next => some { c with plugins := next, cli := .unlocking }
  | .scan _ none => some { c with cli := .unlocking }
  | .scan p (some i) =>
      some { c with cli := if c.next i = some p then .readLink p i else .scanNext p i }
  | .scanNext p i => some { c with cli := .scan p (c.next i) }
  | .readLink p i => some { c with cli := .setLink p i (c.next p) }
  | .setLink _ i next => some { c.setNext i next with cli := .unlocking }
  | .unlocking => some { c with mutex := none, cli := .idle }

/-- A scheduler's choice, with what the step it picks may need. -/
inductive Action where
  | message (answer : Int)
  | cli (name : Str)
  deriving DecidableEq

/-- Interleaving: one atomic step of one thread. -/
def step (c : Config) : Action → Option Config
  | .message answer => messageStep c answer
  | .cli name => cliStep c name

/-- Both threads outside their calls, on a chain of open plugins. -/
structure Start (c : Config) (nodes : List Nat) : Prop where
  linked : Linked c.next c.plugins nodes
  distinct : nodes.Nodup
  allOpen : ∀ n ∈ nodes, (c.heap n).closed = false
  mutex : c.mutex = none
  message : c.message = .idle
  cli : c.cli = .idle

/-- The node the next step of `execute_plugin_chain` reads or calls. -/
@[simp] def MessagePc.accesses : MessagePc → Option Nat
  | .loop p => p
  | .ask p | .process p | .advance p => some p
  | _ => none

/-- `execute_plugin_chain` does not turn to a closed plugin. -/
def NeverClosed (c : Config) : Prop := ∀ n ∈ c.message.accesses, (c.heap n).closed = false

/-- The head `execute_plugin_chain` has read and not yet locked. -/
@[simp] def MessagePc.saved : MessagePc → Option Nat
  | .wantLock p => p
  | _ => none

/-- Where the step is the message thread's `plugins_lock()`: the plugin it read
as head before is not closed by now. -/
def HeadOpen (c : Config) : Action → Prop
  | .message _ => ∀ p ∈ c.message.saved, (c.heap p).closed = false
  | .cli _ => True

instance (c : Config) (action : Action) : Decidable (HeadOpen c action) := by
  unfold HeadOpen
  cases action <;> infer_instance

/-! ### Fields after an update -/

@[simp] theorem next_setPaused (c : Config) (n : Nat) (b : Bool) :
    (c.setPaused n b).next = c.next := by
  funext m
  by_cases same : m = n
  · subst same
    simp [Config.next, Config.setPaused]
  · simp [Config.next, Config.setPaused, Function.update_of_ne same]

@[simp] theorem closed_setPaused (c : Config) (n m : Nat) (b : Bool) :
    ((c.setPaused n b).heap m).closed = (c.heap m).closed := by
  by_cases same : m = n
  · subst same
    simp [Config.setPaused]
  · simp [Config.setPaused, Function.update_of_ne same]

@[simp] theorem next_setClosed (c : Config) (n : Nat) : (c.setClosed n).next = c.next := by
  funext m
  by_cases same : m = n
  · subst same
    simp [Config.next, Config.setClosed]
  · simp [Config.next, Config.setClosed, Function.update_of_ne same]

theorem closed_setClosed (c : Config) (n m : Nat) :
    ((c.setClosed n).heap m).closed = (decide (m = n) || (c.heap m).closed) := by
  by_cases same : m = n
  · subst same
    simp [Config.setClosed]
  · simp [Config.setClosed, same]

theorem next_setNext (c : Config) (n : Nat) (x : Option Nat) :
    (c.setNext n x).next = Function.update c.next n x := by
  funext m
  by_cases same : m = n
  · subst same
    simp [Config.next, Config.setNext]
  · simp [Config.next, Config.setNext, Function.update_of_ne same]

@[simp] theorem closed_setNext (c : Config) (n m : Nat) (x : Option Nat) :
    ((c.setNext n x).heap m).closed = (c.heap m).closed := by
  by_cases same : m = n
  · subst same
    simp [Config.setNext]
  · simp [Config.setNext, Function.update_of_ne same]

/-! ### The invariant -/

def MessagePc.holds : MessagePc → Bool
  | .idle | .wantLock _ => false
  | _ => true

def CliPc.holds : CliPc → Bool
  | .idle | .locating .. | .located _ | .wantLock .. => false
  | _ => true

/-- The plugin closed and not yet unlinked. -/
def CliPc.removing : CliPc → Option Nat
  | .isHead p _ | .readNext p | .setHead p _ | .scan p _ | .scanNext p _ | .readLink p _
  | .setLink p _ _ => some p
  | _ => none

/-- The locals of `unload_plugin_by_name` against the chain. -/
def CliOk (next : Nat → Option Nat) (plugins : Option Nat) (nodes : List Nat) : CliPc → Prop
  | .idle | .unlocking => True
  | .locating _ p | .located p => ∀ n ∈ p, n ∈ nodes
  | .wantLock p i | .closing p i => (∀ n ∈ p, n ∈ nodes) ∧ i = plugins
  | .isHead p i => p ∈ nodes ∧ i = plugins
  | .readNext p => plugins = some p
  | .setHead p x => plugins = some p ∧ x = next p
  | .scan p i => ∃ j before after, i = some j ∧ nodes = before ++ j :: after ∧ p ∈ after
  | .scanNext p i => (∃ before after, nodes = before ++ i :: after ∧ p ∈ after) ∧ next i ≠ some p
  | .readLink p i => ∃ before after, nodes = before ++ i :: p :: after
  | .setLink p i x => (∃ before after, nodes = before ++ i :: p :: after) ∧ x = next p

/-- The chain is a list of plugins that are open, but for the one being removed;
the mutex belongs to the thread inside it; and the message thread stands on the
chain, or waits with a head that was on it. -/
structure Inv (c : Config) (nodes : List Nat) : Prop where
  linked : Linked c.next c.plugins nodes
  distinct : nodes.Nodup
  messageHolds : c.message.holds = true ↔ c.mutex = some .message
  cliHolds : c.cli.holds = true ↔ c.mutex = some .cli
  closedOnly : ∀ n ∈ nodes, (c.heap n).closed = true → c.cli.removing = some n
  removed : ∀ p, c.cli.removing = some p → (c.heap p).closed = true
  saved : ∀ p ∈ c.message.saved, p ∈ nodes ∨ (c.heap p).closed = true
  standing : ∀ p ∈ c.message.accesses, p ∈ nodes
  cli : CliOk c.next c.plugins nodes c.cli

theorem Start.inv {c : Config} {nodes : List Nat} (h : Start c nodes) : Inv c nodes where
  linked := h.linked
  distinct := h.distinct
  messageHolds := by simp [h.message, h.mutex, MessagePc.holds]
  cliHolds := by simp [h.cli, h.mutex, CliPc.holds]
  closedOnly n hn closed := by simp [h.allOpen n hn] at closed
  removed p eq := by simp [h.cli, CliPc.removing] at eq
  saved p eq := by simp [h.message, MessagePc.saved] at eq
  standing p hp := by simp [h.message, MessagePc.accesses] at hp
  cli := by simp [h.cli, CliOk]

theorem removing_holds {pc : CliPc} {n : Nat} (h : pc.removing = some n) : pc.holds = true := by
  cases pc <;> first | rfl | cases h

theorem accesses_holds {pc : MessagePc} {n : Nat} (h : n ∈ pc.accesses) : pc.holds = true := by
  cases pc <;> first | rfl | cases h

/-- While the message thread stands on the chain, the mutex keeps it open. -/
theorem Inv.neverClosed {c : Config} {nodes : List Nat} (h : Inv c nodes) : NeverClosed c := by
  intro n hn
  by_contra closed
  have removing := h.closedOnly n (h.standing n hn) (by simpa using closed)
  have cli := h.cliHolds.mp (removing_holds removing)
  have message := h.messageHolds.mp (accesses_holds hn)
  rw [cli] at message
  cases message

/-! ### Steps of the message thread -/

section MessageThread

variable {c c' : Config} {nodes : List Nat}

/-- The message thread goes on, with the mutex in its hand or not. -/
theorem Inv.moveMessage (h : Inv c nodes) (mutex : Option Thread) (pc : MessagePc)
    (messageHolds : pc.holds = true ↔ mutex = some .message)
    (cliHolds : c.cli.holds = true ↔ mutex = some .cli) (saved : ∀ p ∈ pc.saved, p ∈ nodes)
    (standing : ∀ p ∈ pc.accesses, p ∈ nodes) :
    Inv { c with mutex := mutex, message := pc } nodes :=
  { h with
    messageHolds := messageHolds
    cliHolds := cliHolds
    saved := fun p eq => .inl (saved p eq)
    standing := standing }

theorem Inv.setPaused (h : Inv c nodes) (n : Nat) (b : Bool) : Inv (c.setPaused n b) nodes where
  linked := by
    rw [next_setPaused]
    exact h.linked
  distinct := h.distinct
  messageHolds := h.messageHolds
  cliHolds := h.cliHolds
  closedOnly m hm shut := h.closedOnly m hm ((closed_setPaused c n m b).symm.trans shut)
  removed p eq := (closed_setPaused c n p b).trans (h.removed p eq)
  saved p eq := (h.saved p eq).imp_right (closed_setPaused c n p b).trans
  standing := h.standing
  cli := by
    rw [next_setPaused]
    exact h.cli

/-- The head that is read without the mutex. -/
theorem Inv.readPlugins (h : Inv c nodes) (pc : c.message = .idle) :
    Inv { c with message := .wantLock c.plugins } nodes := by
  have out : c.message.holds = true ↔ c.mutex = some .message := h.messageHolds
  rw [pc] at out
  refine h.moveMessage c.mutex _ out h.cliHolds (fun p head => ?_) (by simp)
  have linked : Linked c.next (some p) nodes := (show c.plugins = some p from head) ▸ h.linked
  exact linked.head_mem

/-- The head read before is still in the chain, being open. -/
theorem Inv.lockMessage {p : Option Nat} (h : Inv c nodes) (pc : c.message = .wantLock p)
    (free : c.mutex = none) (opened : ∀ n ∈ p, (c.heap n).closed = false) :
    Inv { c with mutex := some .message, message := .loop p } nodes := by
  have cliOut : c.cli.holds = true ↔ some Thread.message = some .cli := by
    simpa [free] using h.cliHolds
  refine h.moveMessage _ _ (by simp [MessagePc.holds]) cliOut (by simp) (fun n mem => ?_)
  have saved : n ∈ c.message.saved := by
    rw [pc]
    exact mem
  rcases h.saved n saved with inChain | shut
  · exact inChain
  · rw [opened n mem] at shut
    cases shut

/-- Inside the loop the mutex is the message thread's. -/
theorem Inv.walkMessage (h : Inv c nodes) {pc : MessagePc} (inside : c.message.holds = true)
    (holds : pc.holds = true) (saved : pc.saved = none) (standing : ∀ p ∈ pc.accesses, p ∈ nodes) :
    Inv { c with message := pc } nodes := by
  have mine : c.mutex = some .message := h.messageHolds.mp inside
  refine h.moveMessage c.mutex pc ?_ h.cliHolds (fun p eq => ?_) standing
  · simp [holds, mine]
  · rw [saved] at eq
    cases eq

/-- It stays at the plugin it stands at. -/
theorem Inv.stay {p : Nat} (h : Inv c nodes) (stands : p ∈ c.message.accesses) {pc : MessagePc}
    (holds : pc.holds = true) (saved : pc.saved = none) (same : pc.accesses = some p) :
    Inv { c with message := pc } nodes := by
  refine h.walkMessage (accesses_holds stands) holds saved fun n mem => ?_
  rw [same] at mem
  exact Option.some.inj mem ▸ h.standing p stands

theorem Inv.advance {p : Nat} (h : Inv c nodes) (pc : c.message = .advance p) :
    Inv { c with message := .loop (c.next p) } nodes := by
  have stands : p ∈ c.message.accesses := by simp [pc]
  refine h.walkMessage (accesses_holds stands) rfl rfl fun n link => ?_
  exact h.linked.next_mem (h.standing p stands) link

theorem Inv.unlockMessage (h : Inv c nodes) (inside : c.message.holds = true) :
    Inv { c with mutex := none, message := .idle } nodes := by
  have mine : c.mutex = some .message := h.messageHolds.mp inside
  have cliOut : c.cli.holds = true ↔ none = some Thread.cli := by
    simp [h.cliHolds, mine]
  exact h.moveMessage none .idle (by simp [MessagePc.holds]) cliOut (by simp) (by simp)

theorem inv_messageStep {answer : Int} (h : Inv c nodes) (headOpen : HeadOpen c (.message answer))
    (step : messageStep c answer = some c') : Inv c' nodes := by
  unfold messageStep at step
  cases pc : c.message with
  | idle =>
      rw [pc] at step
      cases step
      exact h.readPlugins pc
  | wantLock p =>
      rw [pc] at step
      simp only [Option.ite_none_right_eq_some, Option.some.injEq] at step
      obtain ⟨free, rfl⟩ := step
      refine h.lockMessage pc free fun n mem => headOpen n ?_
      rw [pc]
      exact mem
  | loop p =>
      rw [pc] at step
      cases p with
      | none =>
          cases step
          exact h.unlockMessage (by rw [pc]; rfl)
      | some p =>
          cases step
          have stands : p ∈ c.message.accesses := by simp [pc]
          split
          · exact h.stay stands rfl rfl rfl
          · exact h.stay stands rfl rfl rfl
  | ask p =>
      rw [pc] at step
      have stands : p ∈ c.message.accesses := by simp [pc]
      simp only at step
      split at step <;> cases step
      · exact (h.setPaused p false).stay stands rfl rfl rfl
      · exact h.stay stands rfl rfl rfl
  | process p =>
      rw [pc] at step
      have stands : p ∈ c.message.accesses := by simp [pc]
      simp only at step
      split at step
      · cases step
        exact (h.setPaused p true).stay stands rfl rfl rfl
      · split at step <;> cases step
        · exact h.walkMessage (accesses_holds stands) rfl rfl (by simp)
        · exact h.stay stands rfl rfl rfl
  | advance p =>
      rw [pc] at step
      cases step
      exact h.advance pc
  | unlocking =>
      rw [pc] at step
      cases step
      exact h.unlockMessage (by rw [pc]; rfl)

end MessageThread

/-! ### Steps of the CLI thread -/

section CliThread

variable {c c' : Config} {nodes : List Nat}

/-- The CLI thread goes on, with the mutex in its hand or not. -/
theorem Inv.moveCli (h : Inv c nodes) (mutex : Option Thread) (pc : CliPc)
    (messageHolds : c.message.holds = true ↔ mutex = some .message)
    (cliHolds : pc.holds = true ↔ mutex = some .cli) (removing : pc.removing = c.cli.removing)
    (ok : CliOk c.next c.plugins nodes pc) : Inv { c with mutex := mutex, cli := pc } nodes :=
  { h with
    messageHolds := messageHolds
    cliHolds := cliHolds
    closedOnly := fun n mem shut => removing.trans (h.closedOnly n mem shut)
    removed := fun p eq => h.removed p (removing.symm.trans eq)
    cli := ok }

/-- It goes on on the same side of the mutex. -/
theorem Inv.walkCli (h : Inv c nodes) {pc pc' : CliPc} (stands : c.cli = pc)
    (holds : pc'.holds = pc.holds) (removing : pc'.removing = pc.removing)
    (ok : CliOk c.next c.plugins nodes pc') : Inv { c with cli := pc' } nodes := by
  refine h.moveCli c.mutex pc' h.messageHolds ?_ (removing.trans (by rw [stands])) ok
  rw [holds, ← stands]
  exact h.cliHolds

/-- Where the CLI thread stands, its locals are what `CliOk` says. -/
theorem Inv.cliAt (h : Inv c nodes) {pc : CliPc} (stands : c.cli = pc) :
    CliOk c.next c.plugins nodes pc := stands ▸ h.cli

/-- While the CLI thread holds the mutex, the message thread does not. -/
theorem Inv.messageOut (h : Inv c nodes) (mine : c.mutex = some .cli) :
    ¬ c.message.holds = true := by
  rw [h.messageHolds, mine]
  decide

/-- Outside the removal, every node of the chain is open. -/
theorem Inv.allOpen (h : Inv c nodes) (idle : c.cli.removing = none) :
    ∀ n ∈ nodes, (c.heap n).closed = false := by
  intro n hn
  by_contra closed
  have := h.closedOnly n hn (by simpa using closed)
  rw [idle] at this
  cases this

theorem Inv.startLocating (h : Inv c nodes) (pc : c.cli = .idle) (name : Str) :
    Inv { c with cli := .locating name c.plugins } nodes := by
  refine h.walkCli pc rfl rfl fun n head => ?_
  have linked : Linked c.next (some n) nodes := (show c.plugins = some n from head) ▸ h.linked
  exact linked.head_mem

theorem Inv.locateNext {sought : Str} {p : Nat} (h : Inv c nodes)
    (pc : c.cli = .locating sought (some p)) :
    Inv { c with cli := .locating sought (c.next p) } nodes := by
  have ok := h.cliAt pc
  refine h.walkCli pc rfl rfl fun n link => ?_
  exact h.linked.next_mem (ok p rfl) link

theorem Inv.lockCli {p i : Option Nat} (h : Inv c nodes) (pc : c.cli = .wantLock p i)
    (free : c.mutex = none) : Inv { c with mutex := some .cli, cli := .closing p i } nodes := by
  have messageOut : c.message.holds = true ↔ some Thread.cli = some .message := by
    simpa [free] using h.messageHolds
  have ok := h.cliAt pc
  exact h.moveCli _ _ messageOut (by simp [CliPc.holds]) (by rw [pc]; rfl) ok

/-- From here on the plugin is the one that is closed and in the chain. -/
theorem Inv.closePlugin {p : Nat} {i : Option Nat} (h : Inv c nodes)
    (pc : c.cli = .closing (some p) i) : Inv { c.setClosed p with cli := .isHead p i } nodes := by
  obtain ⟨located, start⟩ := h.cliAt pc
  have holds : c.cli.holds = true := by rw [pc]; rfl
  have opened := h.allOpen (by rw [pc]; rfl)
  exact
    { linked := by
        change Linked (c.setClosed p).next c.plugins nodes
        rw [next_setClosed]
        exact h.linked
      distinct := h.distinct
      messageHolds := h.messageHolds
      cliHolds := ⟨fun _ => h.cliHolds.mp holds, fun _ => rfl⟩
      closedOnly := by
        intro n mem shut
        have closed := (closed_setClosed c p n).symm.trans shut
        rw [opened n mem, Bool.or_false, decide_eq_true_eq] at closed
        rw [closed]
        rfl
      removed := by
        intro n eq
        cases eq
        simp [closed_setClosed]
      saved := by
        intro n eq
        refine (h.saved n eq).imp_right fun shut => ?_
        simp [closed_setClosed, shut]
      standing := h.standing
      cli := ⟨located p rfl, start⟩ }

/-- The scan starts at the head, which is another node. -/
theorem Inv.compareHead {p : Nat} {i : Option Nat} (h : Inv c nodes) (pc : c.cli = .isHead p i) :
    Inv { c with cli := if c.plugins = some p then .readNext p else .scan p i } nodes := by
  obtain ⟨mem, rfl⟩ := h.cliAt pc
  split
  · exact h.walkCli pc rfl rfl ‹_›
  · rename_i notHead
    refine h.walkCli pc rfl rfl ?_
    cases nodes with
    | nil => cases mem
    | cons j rest =>
        obtain ⟨start, -⟩ := h.linked
        have other : p ≠ j := fun eq => notHead (eq ▸ start)
        exact ⟨j, [], rest, start, rfl, (List.mem_cons.mp mem).resolve_left other⟩

/-- The closed node leaves the chain: the message thread does not stand on it. -/
theorem Inv.leave {p : Nat} (h : Inv c nodes) (left : List Nat)
    (removing : c.cli.removing = some p) (gone : ∀ n ∈ nodes, n = p ∨ n ∈ left) :
    (∀ q ∈ c.message.saved, q ∈ left ∨ (c.heap q).closed = true) ∧
      (∀ q ∈ c.message.accesses, q ∈ left) := by
  constructor
  · intro q eq
    rcases h.saved q eq with mem | shut
    · rcases gone q mem with rfl | stays
      · exact .inr (h.removed q removing)
      · exact .inl stays
    · exact .inr shut
  · intro q hq
    have message := h.messageHolds.mp (accesses_holds hq)
    have cli := h.cliHolds.mp (removing_holds removing)
    rw [message] at cli
    cases cli

/-- The node that leaves is the closed one: what stays is open. -/
theorem Inv.stays {p : Nat} (h : Inv c nodes) (removing : c.cli.removing = some p)
    {left : List Nat} (sub : left ⊆ nodes) (without : p ∉ left) {n : Nat} (mem : n ∈ left) :
    (c.heap n).closed = false := by
  by_contra shut
  have closed := h.closedOnly n (sub mem) (by simpa using shut)
  rw [removing] at closed
  exact without (Option.some.inj closed ▸ mem)

theorem Inv.unlinkHead {p : Nat} {x : Option Nat} (h : Inv c nodes) (pc : c.cli = .setHead p x) :
    ∃ rest, Inv { c with plugins := x, cli := .unlocking } rest := by
  obtain ⟨head, rfl⟩ := h.cliAt pc
  have removing : c.cli.removing = some p := by rw [pc]; rfl
  have mine := h.cliHolds.mp (removing_holds removing)
  obtain ⟨rest, rfl, tail⟩ := (head ▸ h.linked).of_some
  obtain ⟨notIn, distinct⟩ := List.nodup_cons.mp h.distinct
  obtain ⟨saved, standing⟩ := h.leave rest removing fun n mem => List.mem_cons.mp mem
  exact ⟨rest,
    { linked := tail
      distinct := distinct
      messageHolds := h.messageHolds
      cliHolds := ⟨fun _ => mine, fun _ => rfl⟩
      closedOnly := by
        intro n mem shut
        rw [h.stays removing (List.subset_cons_self p rest) notIn mem] at shut
        cases shut
      removed := by simp [CliPc.removing]
      saved := saved
      standing := standing
      cli := trivial }⟩

theorem Inv.scanNode {p : Nat} {i : Option Nat} (h : Inv c nodes) (pc : c.cli = .scan p i) :
    ∃ j, i = some j ∧
      Inv { c with cli := if c.next j = some p then .readLink p j else .scanNext p j } nodes := by
  obtain ⟨j, before, after, rfl, rfl, mem⟩ := h.cliAt pc
  refine ⟨j, rfl, ?_⟩
  split
  · rename_i found
    refine h.walkCli pc rfl rfl ?_
    have tail := h.linked.suffix
    rw [found] at tail
    obtain ⟨rest, rfl, -⟩ := tail.of_some
    exact ⟨before, rest, rfl⟩
  · exact h.walkCli pc rfl rfl ⟨⟨before, after, rfl, mem⟩, ‹_›⟩

theorem Inv.scanNext {p i : Nat} (h : Inv c nodes) (pc : c.cli = .scanNext p i) :
    Inv { c with cli := .scan p (c.next i) } nodes := by
  obtain ⟨⟨before, after, rfl, mem⟩, other⟩ := h.cliAt pc
  refine h.walkCli pc rfl rfl ?_
  cases after with
  | nil => cases mem
  | cons m after =>
      obtain ⟨link, -⟩ := h.linked.suffix
      have apart : p ≠ m := fun eq => other (eq ▸ link)
      exact ⟨m, before ++ [i], after, link, by simp, (List.mem_cons.mp mem).resolve_left apart⟩

theorem Inv.unlinkNode {p i : Nat} {x : Option Nat} (h : Inv c nodes)
    (pc : c.cli = .setLink p i x) :
    ∃ left, Inv { c.setNext i x with cli := .unlocking } left := by
  obtain ⟨⟨before, after, rfl⟩, rfl⟩ := h.cliAt pc
  have removing : c.cli.removing = some p := by rw [pc]; rfl
  have mine := h.cliHolds.mp (removing_holds removing)
  have sub : (before ++ i :: after).Sublist (before ++ i :: p :: after) :=
    ((List.sublist_cons_self p after).cons_cons i).append_left before
  have without : p ∉ before ++ i :: after := by
    have once := h.distinct
    simp only [List.nodup_append, List.nodup_cons, List.mem_cons] at once
    simp only [List.mem_append, List.mem_cons]
    grind
  obtain ⟨saved, standing⟩ := h.leave (before ++ i :: after) removing fun n mem => by
    simp only [List.mem_append, List.mem_cons] at mem ⊢
    tauto
  exact ⟨before ++ i :: after,
    { linked := by
        change Linked (c.setNext i (c.next p)).next c.plugins _
        rw [next_setNext]
        exact h.linked.unlink h.distinct
      distinct := h.distinct.sublist sub
      messageHolds := h.messageHolds
      cliHolds := ⟨fun _ => mine, fun _ => rfl⟩
      closedOnly := by
        intro n mem shut
        have shut' := (closed_setNext c i n (c.next p)).symm.trans shut
        rw [h.stays removing sub.subset without mem] at shut'
        cases shut'
      removed := by simp [CliPc.removing]
      saved := fun q eq => (saved q eq).imp_right (closed_setNext c i q _).trans
      standing := standing
      cli := trivial }⟩

theorem Inv.unlockCli (h : Inv c nodes) (pc : c.cli = .unlocking) :
    Inv { c with mutex := none, cli := .idle } nodes := by
  have mine : c.mutex = some .cli := h.cliHolds.mp (by rw [pc]; rfl)
  have messageOut : c.message.holds = true ↔ none = some Thread.message := by
    simpa using h.messageOut mine
  exact h.moveCli none .idle messageOut (by simp [CliPc.holds]) (by rw [pc]; rfl) trivial

theorem inv_cliStep {name : Str} (h : Inv c nodes) (step : cliStep c name = some c') :
    ∃ nodes', Inv c' nodes' := by
  unfold cliStep at step
  cases pc : c.cli with
  | idle =>
      rw [pc] at step
      cases step
      exact ⟨nodes, h.startLocating pc name⟩
  | locating sought p =>
      rw [pc] at step
      cases p with
      | none =>
          cases step
          exact ⟨nodes, h.walkCli pc rfl rfl (by simp [CliOk])⟩
      | some p =>
          simp only at step
          split at step <;> cases step
          · have ok := h.cliAt pc
            exact ⟨nodes, h.walkCli pc rfl rfl ok⟩
          · exact ⟨nodes, h.locateNext pc⟩
  | located p =>
      rw [pc] at step
      cases step
      exact ⟨nodes, h.walkCli pc rfl rfl ⟨h.cliAt pc, rfl⟩⟩
  | wantLock p i =>
      rw [pc] at step
      simp only [Option.ite_none_right_eq_some, Option.some.injEq] at step
      obtain ⟨free, rfl⟩ := step
      exact ⟨nodes, h.lockCli pc free⟩
  | closing p i =>
      rw [pc] at step
      cases p with
      | none => cases step
      | some p =>
          cases step
          exact ⟨nodes, h.closePlugin pc⟩
  | isHead p i =>
      rw [pc] at step
      cases step
      exact ⟨nodes, h.compareHead pc⟩
  | readNext p =>
      rw [pc] at step
      cases step
      exact ⟨nodes, h.walkCli pc rfl rfl ⟨h.cliAt pc, rfl⟩⟩
  | setHead p x =>
      rw [pc] at step
      cases step
      exact h.unlinkHead pc
  | scan p i =>
      rw [pc] at step
      obtain ⟨j, rfl, after⟩ := h.scanNode pc
      cases step
      exact ⟨nodes, after⟩
  | scanNext p i =>
      rw [pc] at step
      cases step
      exact ⟨nodes, h.scanNext pc⟩
  | readLink p i =>
      rw [pc] at step
      cases step
      exact ⟨nodes, h.walkCli pc rfl rfl ⟨h.cliAt pc, rfl⟩⟩
  | setLink p i x =>
      rw [pc] at step
      cases step
      exact h.unlinkNode pc
  | unlocking =>
      rw [pc] at step
      cases step
      exact ⟨nodes, h.unlockCli pc⟩

end CliThread

/-! ### Whole schedules -/

theorem inv_step (c : Config) (action : Action) (c' : Config) (h : ∃ nodes, Inv c nodes)
    (headOpen : HeadOpen c action) (stepped : step c action = some c') :
    ∃ nodes, Inv c' nodes := by
  obtain ⟨nodes, h⟩ := h
  cases action with
  | message answer => exact ⟨nodes, inv_messageStep h headOpen stepped⟩
  | cli name => exact inv_cliStep h stepped

/-- A stale head is used at once. -/
theorem not_neverClosed_of_stale (c : Config) (action : Action) (c' : Config)
    (stale : ¬ HeadOpen c action) (stepped : step c action = some c') : ¬ NeverClosed c' := by
  cases action with
  | cli name => exact absurd trivial stale
  | message answer =>
      simp only [HeadOpen, not_forall] at stale
      obtain ⟨p, saved, shut⟩ := stale
      cases pc : c.message with
      | wantLock head =>
          obtain rfl : head = some p := by simpa [pc] using saved
          simp only [step, messageStep, pc, Option.ite_none_right_eq_some,
            Option.some.injEq] at stepped
          obtain ⟨-, rfl⟩ := stepped
          exact fun never => shut (never p rfl)
      | _ => simp [pc] at saved

/-- **No call into a closed plugin.** Over any schedule of any number of calls,
from any chain, `execute_plugin_chain` never turns to a closed plugin iff each
time it takes the mutex the plugin it had read as head is still open. -/
theorem neverClosed_iff_headOpen {c : Config} {nodes : List Nat} (start : Start c nodes)
    (schedule : List Action) (ran : (Machine.run step c schedule).isSome) :
    Machine.Always step NeverClosed c schedule ↔ Machine.AllSteps step HeadOpen c schedule := by
  obtain ⟨t, ran⟩ := Option.isSome_iff_exists.mp ran
  exact Machine.always_iff_allSteps (A := fun _ _ => True) (fun _ ⟨_, h⟩ => h.neverClosed)
    (fun c action c' h _ => inv_step c action c' h)
    (fun c action c' _ _ => not_neverClosed_of_stale c action c') schedule ⟨nodes, start.inv⟩
    (Machine.allSteps_of_forall (C := fun _ => True) (fun _ _ => trivial) c) ran

/-! Two loaded plugins, the head unloaded between two passes; and one loaded plugin,
unloaded between a pass's read of `plugins` and its lock. -/

def twoLoaded : Config where
  heap n := if n = 0 then ⟨"output_csv.so".toList, some "csv".toList, false, some 1, false⟩
    else ⟨"output_table.so".toList, some "table".toList, false, none, false⟩
  plugins := some 0
  mutex := none
  message := .idle
  cli := .idle

theorem twoLoaded_start : Start twoLoaded [0, 1] where
  linked := ⟨rfl, rfl, rfl⟩
  distinct := by decide
  allOpen := by decide
  mutex := rfl
  message := rfl
  cli := rfl

/-- `unload_plugin_by_name` from its call to its return. -/
def unloadHead : List Action := List.replicate 9 (.cli "csv".toList)

/-- `execute_plugin_chain` from its call to its return, with `n` plugins that take the data. -/
def passOver (n : Nat) : List Action :=
  List.replicate (3 * (n + 1)) (.message PLUGIN_ACCEPT_DATA)

theorem neverClosed_iff_headOpen_twoLoaded :
    (Machine.run step twoLoaded (passOver 2 ++ unloadHead)).map (·.plugins) = some (some 1) ∧
      Machine.Always step NeverClosed twoLoaded (passOver 2 ++ unloadHead ++ passOver 1) :=
  ⟨by decide, (neverClosed_iff_headOpen twoLoaded_start _ (by decide)).mpr (by decide)⟩

def oneLoaded : Config where
  heap _ := ⟨"output_csv.so".toList, some "csv".toList, false, none, false⟩
  plugins := some 0
  mutex := none
  message := .idle
  cli := .idle

theorem oneLoaded_start : Start oneLoaded [0] where
  linked := ⟨rfl, rfl⟩
  distinct := List.nodup_singleton 0
  allOpen _ _ := rfl
  mutex := rfl
  message := rfl
  cli := rfl

/-- The pass reads `plugins`, the plugin is unloaded, the pass takes the mutex. -/
def race : List Action := .message 0 :: unloadHead ++ List.replicate 2 (.message 0)

/-- The next step calls `process_data` of the closed plugin. -/
theorem race_calls_closed : Start oneLoaded [0] ∧ (Machine.run step oneLoaded race).isSome ∧
    ¬ Machine.Always step NeverClosed oneLoaded race ∧
    ∀ t ∈ Machine.run step oneLoaded race, t.message = .process 0 ∧ (t.heap 0).closed = true := by
  have reached : ∀ t ∈ Machine.run step oneLoaded race,
      t.message = .process 0 ∧ (t.heap 0).closed = true := by decide
  have ran : (Machine.run step oneLoaded race).isSome := by decide
  refine ⟨oneLoaded_start, ran, fun always => ?_, reached⟩
  obtain ⟨t, end_⟩ := Option.isSome_iff_exists.mp ran
  obtain ⟨pc, shut⟩ := reached t end_
  have never := always race List.prefix_rfl t end_ 0 (by simp [pc])
  rw [shut] at never
  cases never

end IoMonitor.Listener.Threads
