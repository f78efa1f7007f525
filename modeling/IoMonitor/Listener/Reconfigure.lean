import IoMonitor.Listener.ChainMemory
import IoMonitor.Listener.DomainMask
import IoMonitor.Listener.FilterDomains
import Mathlib.Data.List.Forall2

/-!
Reconfiguring a listener while it runs.

Between the records, plugins are loaded and unloaded, and commands given by name
find their way through the registry to the memory of one filter. The purpose of
all that is a row of stages with a list of domains in force at each filter
(`Pipeline`), and the listener is one: every plugin is passed what the filters in
front of it let through at that time, and `print-mask` answers with the names in
force (`console_refines`).
-/

namespace IoMonitor.Listener

open CString Columns IoMonitor

variable {σ : Type}

/-! ### The listener -/

/-- The listener, and what its plugins have printed. -/
structure Console (σ : Type) where
  listener : ListenerState (BitVec 32 × σ)
  stdout : Str

def Console.start : Console σ := ⟨.start, []⟩

/-- What happens to a running listener. A filter is a `filter_domains.so`; any
other plugin here is an output. A command names a plugin, its operands follow. -/
inductive ConsoleOp (σ : Type) where
  | loadFilter (library : Str) (pluginAlias : Option Str) (config : Str) (state entry : Nat)
      (rest : σ)
  | loadOutput (q : LoadRequest (BitVec 32 × σ))
  | unload (name : Str)
  | record (r : MonitorRecord)
  | command (name : Str) (args : List Str)

/-- `ps->domain_bit_flags` of the plugin with the number. -/
def setFlags (serial : Nat) (flags : BitVec 32) (p : Plugin (BitVec 32 × σ)) :
    Plugin (BitVec 32 × σ) :=
  if p.serial = serial then { p with memory := (flags, p.memory.2) } else p

/-- `run_command` for a name that is not of a built-in command: the
`plugin_command` found is called on the memory registered with it. -/
def runPlugin (name : Str) (args : List Str) (c : Console σ) : Option (Console σ) :=
  match runCommand name c.listener.commands with
  | none => some c -- "Not found"
  | some (.handler _, _) => none
  | some (.plugin entry, state) =>
      -- no code is left of a plugin unloaded
      match c.listener.plugins.find? fun p => p.pluginCommand = some entry ∧ p.state = state with
      | none => none
      | some p =>
          match pluginCommand 33 args ⟨p.memory.1, c.stdout⟩ with
          | .returned () s => some
              { listener := { c.listener with
                  plugins := c.listener.plugins.map (setFlags p.serial s.domainBitFlags) }
                stdout := s.stdout }
          | _ => none

def onListener (op : ChainOp (BitVec 32 × σ)) (c : Console σ) : Option (Console σ) :=
  (commandStep c.listener op).map fun listener => { c with listener }

def consoleStep (c : Console σ) : ConsoleOp σ → Option (Console σ)
  | .loadFilter library pluginAlias config state entry rest =>
      onListener (.load (filterDomainsRequest library pluginAlias config state entry rest)) c
  | .loadOutput q => onListener (.load q) c
  | .unload name => onListener (.unload name) c
  | .record r => onListener (.execute r) c
  | .command name args => runPlugin name args c

/-! ### What it is for -/

/-- A list of domains, and a record of one of them. -/
def listed (domainList : Str) (r : MonitorRecord) : Bool :=
  (runs domainList).any fun token =>
    token = "ALL".toList ∨ nameAt domainsNames r.domType = some token

/-- A loaded plugin: its number, its names, and for a filter the list in force. -/
structure Stage where
  serial : Nat
  names : Names
  domains : Option Str
  deriving DecidableEq

def Stage.passes (r : MonitorRecord) (s : Stage) : Bool := s.domains.all (listed · r)

def Stage.named (name : Str) (s : Stage) : Bool := s.names.1 = name || s.names.2 = some name

/-- The stages that a record comes to, which are those up to the first that stops it. -/
def reached (r : MonitorRecord) : List Stage → List Stage
  | [] => []
  | s :: rest => s :: if s.passes r then reached r rest else []

/-- The answer to `print-mask`: the names listed, in the order of the table. -/
def Stage.maskLine (s : Stage) : Str :=
  match s.domains with
  | none => []
  | some list =>
      "domain_mask:".toList ++ join ',' (domainsNames.filter (runs list).contains) ++ ['\n']

def Stage.relist (name list : Str) (s : Stage) : Stage :=
  if s.names.2 = some name then { s with domains := s.domains.map fun _ => list } else s

structure Pipeline where
  stages : List Stage
  nextSerial : Nat
  /-- Which plugin was passed which record, in order. -/
  passed : List (Nat × MonitorRecord)
  stdout : Str
  deriving DecidableEq

def Pipeline.start : Pipeline := ⟨[], 0, [], []⟩

def Pipeline.add (names : Names) (domains : Option Str) (p : Pipeline) : Pipeline :=
  { p with
    stages := p.stages ++ [⟨p.nextSerial, names, domains⟩]
    nextSerial := p.nextSerial + 1 }

def Pipeline.command (name : Str) (args : List Str) (p : Pipeline) : Pipeline :=
  if args.head? = some "print-mask".toList then
    { p with
      stdout := p.stdout ++ (p.stages.find? (·.names.2 = some name)).elim [] Stage.maskLine }
  else
    match args with
    | command :: list :: _ =>
        if command = "update-mask".toList then
          { p with stages := p.stages.map (Stage.relist name list) }
        else p
    | _ => p

def Pipeline.step (p : Pipeline) : ConsoleOp σ → Pipeline
  | .loadFilter library pluginAlias config _ _ _ => p.add (library, pluginAlias) (some config)
  | .loadOutput q => p.add q.names none
  | .unload name => { p with stages := p.stages.eraseP (·.named name) }
  | .record r => { p with passed := p.passed ++ (reached r p.stages).map fun s => (s.serial, r) }
  | .command name args => p.command name args

/-! ### The answer to `print-mask` -/

/-- The table, position by position. -/
theorem domainsNames_range :
    domainsNames = (List.range' 0 domainsNames.length).map (domainsNames.getD · []) := by
  decide

theorem mem_mask_name {list : Str} (noAll : "ALL".toList ∉ runs list) {i : Nat}
    (inTable : i < domainsNames.length) :
    (domainListToBitMask list).getLsbD i = true ↔ domainsNames.getD i [] ∈ runs list := by
  have entry : domainsNames[i]? = some (domainsNames.getD i []) := by
    rw [List.getD_eq_getElem?_getD, List.getElem?_eq_getElem inTable, Option.getD_some]
  rw [(unionOfTokens list).names noAll]
  constructor
  · rintro ⟨-, token, mem, named⟩
    rw [entry, Option.some.injEq] at named
    exact named ▸ mem
  · intro mem
    exact ⟨inTable, _, mem, entry⟩

/-- Without `ALL` the names printed are those of the table that are listed. -/
theorem maskText_listed {list : Str} (noAll : "ALL".toList ∉ runs list) :
    maskText (BitSet.membersFrom (domainListToBitMask list) 0) =
      join ',' (domainsNames.filter (runs list).contains) := by
  have table : ∀ i ∈ List.range' domainsNames.length (32 - domainsNames.length),
      ¬ (domainListToBitMask list).getLsbD i = true := by
    intro i mem set
    have inTable := (unionOfTokens list).names noAll i |>.mp set
    have behind := (List.mem_range'_1.mp mem).1
    exact absurd inTable.1 (Nat.not_lt.mpr behind)
  have split : List.range' 0 (32 - 0) = List.range' 0 domainsNames.length ++
      List.range' domainsNames.length (32 - domainsNames.length) := by decide
  rw [maskText, BitSet.membersFrom, split, List.filter_append,
    List.filter_eq_nil_iff.mpr table, List.append_nil]
  conv_rhs => rw [domainsNames_range, List.filter_map]
  congr 2
  refine List.filter_congr fun i mem => ?_
  have inTable : i < domainsNames.length := by
    simpa using (List.mem_range'_1.mp mem).2
  rw [Bool.eq_iff_iff, mem_mask_name noAll inTable]
  simp only [Function.comp_apply, List.contains_iff_mem]

/-- What a call of `plugin_command` that returns has done. -/
theorem pluginCommand_cases {fuel : Nat} {args : List Str} {s t : FilterState}
    (ran : pluginCommand fuel args s = .returned () t) :
    (args.head? = some "print-mask".toList ∧ printMask fuel s = .returned () t) ∨
    (∃ list rest, args = "update-mask".toList :: list :: rest ∧
      t = { s with domainBitFlags := domainListToBitMask list }) ∨
    (args.head? ≠ some "print-mask".toList ∧
      (∀ list rest, args ≠ "update-mask".toList :: list :: rest) ∧ t = s) := by
  match args with
  | [] =>
      cases ran
      exact .inr (.inr ⟨by simp, by simp, rfl⟩)
  | [command] =>
      rw [pluginCommand] at ran
      split at ran
      · rename_i print
        exact .inl ⟨congrArg some print, ran⟩
      · rename_i other
        cases ran
        exact .inr (.inr ⟨by simpa using other, by simp, rfl⟩)
  | command :: list :: rest =>
      rw [pluginCommand] at ran
      split at ran
      · rename_i update
        rw [Prog.modify_apply] at ran
        cases ran
        exact .inr (.inl ⟨list, rest, by rw [update], rfl⟩)
      · rename_i notUpdate
        split at ran
        · rename_i print
          exact .inl ⟨congrArg some print, ran⟩
        · rename_i notPrint
          cases ran
          refine .inr (.inr ⟨by simpa using notPrint, ?_, rfl⟩)
          intro list' rest' same
          exact notUpdate (List.cons.inj same).1

/-- A mask that is printed to the end is printed as the names listed. -/
theorem printMask_listed {list stdout : Str} {t : FilterState}
    (ran : printMask 33 ⟨domainListToBitMask list, stdout⟩ = .returned () t) :
    t = ⟨domainListToBitMask list, stdout ++ ("domain_mask:".toList ++
      join ',' (domainsNames.filter (runs list).contains) ++ ['\n'])⟩ := by
  by_cases all : "ALL".toList ∈ runs list
  · have set : (domainListToBitMask list).getLsbD 31 = true := by
      rw [(unionOfTokens list).all all]
      rfl
    exact absurd ran (printMask_outOfTable set (by decide))
  · rw [printMask_inTable (Nat.lt_succ_self 32), maskText_listed all] at ran
    · cases ran
      simp only [List.append_assoc]
    · intro i mem
      exact ((unionOfTokens list).names all i).mp mem |>.1

/-! ### Dispatch -/

theorem load_numbered {q : LoadRequest σ} {l l' : ListenerState σ}
    (h : commandStep l (.load q) = some l') :
    l'.nextSerial = l.nextSerial + 1 ∧
      l'.trace = l.trace ++ [(l.nextSerial, .openPlugin q.openPlugin)] := by
  rw [commandStep, Option.ite_none_right_eq_some, succeeded_eq] at h
  obtain ⟨-, loaded⟩ := h
  unfold loadPlugin at loaded
  split at loaded
  · cases loaded
  · dsimp only at loaded
    split at loaded
    · cases loaded
    · cases loaded
      exact ⟨rfl, rfl⟩

theorem unload_numbered {name : Str} {l l' : ListenerState σ}
    (h : commandStep l (.unload name) = some l') :
    l'.nextSerial = l.nextSerial ∧ ∃ serial, l'.trace = l.trace ++ [(serial, .closePlugin)] := by
  obtain ⟨result, called, done⟩ := Option.bind_eq_some_iff.mp h
  obtain ⟨p, -, rfl⟩ := Option.map_eq_some_iff.mp called
  rw [succeeded_eq] at done
  cases done
  exact ⟨rfl, p.serial, rfl⟩

/-- A plugin that opens is loaded. -/
theorem load_isSome {q : LoadRequest σ} (opens : ChainMemory.Opens q) (kept : q.NamesKept)
    (l : ListenerState σ) : (commandStep l (.load q)).isSome := by
  rw [commandStep, if_pos kept, ChainMemory.loadPlugin_opens opens]
  rfl

/-- A name that some plugin has is unloaded. -/
theorem unload_isSome {name : Str} {l : ListenerState σ} (loaded : ∃ p ∈ l.plugins, p.named name) :
    (commandStep l (.unload name)).isSome := by
  obtain ⟨p, located⟩ := Option.isSome_iff_exists.mp (List.find?_isSome.mpr loaded)
  rw [commandStep, unloadPluginByName, locatePluginByName, located]
  rfl

/-- The command goes by an alias: its name is no library path and no built-in name. -/
def ByAlias (l : ListenerState σ) (name : Str) : Prop :=
  (∀ p ∈ l.plugins, p.pluginLibrary ≠ name) ∧ ∀ c ∈ builtins, c.matches name = false

/-- An alias reaches its plugin if that exports a command, and nothing else does. -/
theorem Registered.runCommand_alias {l : ListenerState σ} (h : Registered l) {name : Str}
    (byAlias : ByAlias l name) :
    (∃ p ∈ l.plugins, ∃ entry, p.pluginAlias = some name ∧ p.pluginCommand = some entry ∧
      runCommand name l.commands = some (.plugin entry, p.state)) ∨
    ((∀ p ∈ l.plugins, p.pluginAlias = some name → p.pluginCommand = none) ∧
      runCommand name l.commands = none) := by
  by_cases loaded : ∃ p ∈ l.plugins, p.pluginAlias = some name ∧ p.pluginCommand.isSome
  · obtain ⟨p, hp, named, exported⟩ := loaded
    obtain ⟨entry, exported⟩ := Option.isSome_iff_exists.mp exported
    exact .inl ⟨p, hp, entry, named, exported, h.coherent.reaches p hp name entry named exported⟩
  · right
    have silent : ∀ p ∈ l.plugins, p.pluginAlias = some name → p.pluginCommand = none := by
      intro p hp named
      by_contra exported
      exact loaded ⟨p, hp, named, Option.isSome_iff_ne_none.mpr exported⟩
    refine ⟨silent, ?_⟩
    rw [runCommand, Option.map_eq_none_iff, List.find?_eq_none]
    intro d hd hit
    rcases List.mem_append.mp (h.registry.mem_iff.mp hd) with hd | hd
    · obtain ⟨q, hq, own⟩ := List.mem_filterMap.mp hd
      obtain ⟨long, short, ⟨entry, exported, -⟩, -⟩ := entry_some own (h.noNul hq).1 (h.noNul hq).2
      have other := byAlias.1 q hq
      have named : q.pluginAlias = some name := by
        rw [Command.matches, long, short] at hit
        cases known : q.pluginAlias with
        | none => simp [known, other] at hit
        | some a => simpa [known, other] using hit
      rw [silent q hq named] at exported
      cases exported
    · rw [byAlias.2 d hd] at hit
      cases hit

/-! ### A plugin and its stage -/

/-- A filter with the mask of the list in force, or an output. -/
def Plugin.Plays (p : Plugin (BitVec 32 × σ)) : Option Str → Prop
  | some list => p.Filtering (domainListToBitMask list) ∧ p.pluginCommand.isSome
  | none => p.Accepting ∧ p.pluginCommand = none

structure Stands (p : Plugin (BitVec 32 × σ)) (s : Stage) : Prop where
  serial : p.serial = s.serial
  names : p.names = s.names
  plays : p.Plays s.domains

theorem Stands.pluginAlias {p : Plugin (BitVec 32 × σ)} {s : Stage} (h : Stands p s) :
    p.pluginAlias = s.names.2 :=
  congrArg Prod.snd h.names

theorem Stands.named {p : Plugin (BitVec 32 × σ)} {s : Stage} (h : Stands p s) (name : Str) :
    p.named name = s.named name := by
  rw [Plugin.named, Stage.named, ← h.names]
  rfl

/-- A stage whose plugin takes commands is a filter. -/
theorem Stands.filtering {p : Plugin (BitVec 32 × σ)} {s : Stage} (h : Stands p s)
    (exported : p.pluginCommand.isSome) :
    ∃ list, s.domains = some list ∧ p.Filtering (domainListToBitMask list) := by
  have plays := h.plays
  cases role : s.domains with
  | none =>
      rw [role] at plays
      rw [plays.2] at exported
      cases exported
  | some list =>
      rw [role] at plays
      exact ⟨list, rfl, plays.1⟩

/-- And one whose plugin takes none is not. -/
theorem Stands.unlisted {p : Plugin (BitVec 32 × σ)} {s : Stage} (h : Stands p s)
    (unexported : p.pluginCommand = none) : s.domains = none := by
  have plays := h.plays
  cases role : s.domains with
  | none => rfl
  | some list =>
      rw [role] at plays
      have exported := plays.2
      rw [unexported] at exported
      cases exported

/-- The mask lets a record pass iff its domain is listed. -/
theorem filterDomains_listed (list : Str) {r : MonitorRecord} {d : DomainType}
    (domain : r.domType = d.code) :
    filterDomains (domainListToBitMask list) r = PLUGIN_DROP_DATA ↔ listed list r = false := by
  have shift : r.domType.toNat = d.ctorIdx := by rw [domain, DomainType.code, Int.toNat_natCast]
  have inTable : d.ctorIdx < domainsNames.length ∧ d.ctorIdx < 32 := by cases d <;> decide
  have entry : domainsNames[d.ctorIdx]? = some d.name := by
    rw [DomainType.name, List.getD_eq_getElem?_getD, List.getElem?_eq_getElem inTable.1,
      Option.getD_some]
  have set : listed list r = true ↔ (domainListToBitMask list).getLsbD d.ctorIdx = true := by
    rw [mem_mask_iff, listed, domain, nameAt_domain, entry]
    simp [inTable.2, or_comm]
  rw [filterDomains, shift, BitVec.and_comm, ← Bool.not_eq_true, set,
    ← BitSet.single_and_eq_zero]
  split
  · rename_i off
    exact iff_of_true rfl off
  · rename_i on
    exact iff_of_false (by decide) on

/-- Which plugin was passed which record. -/
def passedOn (trace : Trace) : List (Nat × MonitorRecord) :=
  trace.filterMap fun
    | (serial, .processData record _) => some (serial, record)
    | _ => none

theorem passedOn_append (s t : Trace) : passedOn (s ++ t) = passedOn s ++ passedOn t :=
  List.filterMap_append

/-- A stage is passed the record, and holds it back as its list says. -/
theorem Stands.visit {p : Plugin (BitVec 32 × σ)} {s : Stage} (h : Stands p s)
    {r : MonitorRecord} {d : DomainType} (domain : r.domType = d.code) :
    Stands (visit r p).1 s ∧
      passedOn ((visit r p).2.1.map (p.serial, ·)) = [(s.serial, r)] ∧
      (visit r p).2.2 = !s.passes r := by
  obtain ⟨serial, names, plays⟩ := h
  have same := Plugin.same_of_identity (visit_identity r p)
  have kept : (Listener.visit r p).1.names = s.names := by
    rw [← names, Plugin.names, Plugin.names, same.1, same.2.1]
  cases role : s.domains with
  | none =>
      rw [role] at plays
      obtain ⟨accepting, calls⟩ := plays.1.visit r
      refine ⟨⟨(visit_serial r p).trans serial, kept, ?_⟩, ?_, ?_⟩
      · rw [role]
        exact ⟨accepting, same.2.2.1.trans plays.2⟩
      · rw [calls, ← serial]
        rfl
      · rw [calls, Stage.passes, role]
        rfl
  | some list =>
      rw [role] at plays
      rw [plays.1.visit]
      refine ⟨⟨serial, names, role ▸ plays⟩, ?_, ?_⟩
      · rw [← serial]
        rfl
      · have dropped := filterDomains_listed list domain
        rw [Stage.passes, role]
        dsimp only [Option.all_some]
        rw [Bool.eq_iff_iff, decide_eq_true_iff, dropped, Bool.not_eq_true']

theorem executePluginChain_stands {r : MonitorRecord} {d : DomainType} (domain : r.domType = d.code)
    {chain : List (Plugin (BitVec 32 × σ))} {stages : List Stage}
    (h : List.Forall₂ Stands chain stages) :
    List.Forall₂ Stands (executePluginChain r chain).1 stages ∧
      passedOn (executePluginChain r chain).2 = (reached r stages).map fun s => (s.serial, r) := by
  induction h with
  | nil => exact ⟨.nil, rfl⟩
  | @cons p s chain stages stands rest ih =>
      obtain ⟨stays, passed, dropped⟩ := stands.visit domain
      rw [executePluginChain, reached]
      rcases visited : visit r p with ⟨p', calls, drops⟩
      rw [visited] at stays passed dropped
      dsimp only at stays passed dropped ⊢
      cases held : s.passes r with
      | false =>
          rw [held, Bool.not_false] at dropped
          rw [if_pos dropped]
          exact ⟨.cons stays rest, passed⟩
      | true =>
          rw [held] at dropped
          rw [if_neg (by simp [dropped]), if_pos rfl, List.map_cons]
          dsimp only
          rw [passedOn_append, passed, ih.2]
          exact ⟨.cons stays ih.1, rfl⟩

/-- Of two lists that stand for each other, the first element that a name picks. -/
theorem forall₂_find? {α β : Type} {R : α → β → Prop} {f : α → Bool} {g : β → Bool}
    (agree : ∀ a b, R a b → f a = g b) {as : List α} {bs : List β} (h : List.Forall₂ R as bs) :
    (as.find? f = none ∧ bs.find? g = none) ∨
      ∃ a b, as.find? f = some a ∧ bs.find? g = some b ∧ R a b := by
  induction h with
  | nil => exact .inl ⟨rfl, rfl⟩
  | @cons a b as bs head rest ih =>
      have same := agree a b head
      cases picked : f a with
      | true =>
          refine .inr ⟨a, b, ?_, ?_, head⟩
          · rw [List.find?_cons_of_pos picked]
          · rw [List.find?_cons_of_pos (same ▸ picked)]
      | false =>
          rw [List.find?_cons_of_neg (by simp [picked]),
            List.find?_cons_of_neg (by simp [← same, picked])]
          exact ih

theorem forall₂_mem {α β : Type} {R : α → β → Prop} {as : List α} {bs : List β}
    (h : List.Forall₂ R as bs) {b : β} (hb : b ∈ bs) : ∃ a ∈ as, R a b := by
  induction h with
  | nil => cases hb
  | @cons a b' as bs head rest ih =>
      rcases List.mem_cons.mp hb with rfl | hb
      · exact ⟨a, List.mem_cons_self, head⟩
      · obtain ⟨a', ha', related⟩ := ih hb
        exact ⟨a', List.mem_cons_of_mem _ ha', related⟩

theorem forall₂_eraseP {α β : Type} {R : α → β → Prop} {f : α → Bool} {g : β → Bool}
    (agree : ∀ a b, R a b → f a = g b) {as : List α} {bs : List β} (h : List.Forall₂ R as bs) :
    List.Forall₂ R (as.eraseP f) (bs.eraseP g) := by
  induction h with
  | nil => exact .nil
  | @cons a b as bs head rest ih =>
      have same := agree a b head
      cases picked : f a with
      | true =>
          rw [List.eraseP_cons_of_pos picked, List.eraseP_cons_of_pos (same ▸ picked)]
          exact rest
      | false =>
          rw [List.eraseP_cons_of_neg (by simp [picked]),
            List.eraseP_cons_of_neg (by simp [← same, picked])]
          exact .cons head ih

/-! ### One step -/

/-- The listener is the row of stages. Two filters have their memory at two addresses. -/
structure Console.Realizes (c : Console σ) (p : Pipeline) : Prop where
  registered : Registered c.listener
  chain : List.Forall₂ Stands c.listener.plugins p.stages
  addresses : ∀ q ∈ c.listener.plugins, ∀ q' ∈ c.listener.plugins, q.pluginCommand.isSome →
    q'.pluginCommand.isSome → q.state = q'.state → q.serial = q'.serial
  nextSerial : c.listener.nextSerial = p.nextSerial
  passed : passedOn c.listener.trace = p.passed
  stdout : c.stdout = p.stdout

/-- The mask of the filter that the name reaches has no bit past the table of names. -/
def InTable (l : ListenerState (BitVec 32 × σ)) (name : Str) : Prop :=
  ∀ p ∈ l.plugins, p.pluginAlias = some name → p.pluginCommand.isSome →
    ∀ i ∈ BitSet.membersFrom p.memory.1 0, i < domainsNames.length

/-- What is asked of a step: names of a load that clash with none and are kept, memory of
its own for a filter, an unload of a plugin that is loaded, which frees its command, and a
command that goes by an alias, where `print-mask` finds no bit past the table. -/
def Careful (c : Console σ) : ConsoleOp σ → Prop
  | .loadFilter library pluginAlias config state entry rest =>
      WellNamed (c.listener.plugins.map Plugin.names ++ [(library, pluginAlias)]) ∧
        (filterDomainsRequest library pluginAlias config state entry rest).NamesKept ∧
        ∀ p ∈ c.listener.plugins, p.pluginCommand.isSome → p.state ≠ state
  | .loadOutput q => WellNamed (c.listener.plugins.map Plugin.names ++ [q.names])
  | .unload name =>
      (∃ p ∈ c.listener.plugins, p.named name) ∧ UnloadsOwn c.listener (.unload name)
  | .record _ => True
  | .command name args => ByAlias c.listener name ∧
      (args.head? = some "print-mask".toList → InTable c.listener name)

instance (names : List Names) : Decidable (WellNamed names) :=
  decidable_of_iff
    ((∀ n ∈ names, nul ∉ n.1 ∧ ∀ a ∈ n.2, nul ∉ a) ∧ (names.filterMap Prod.snd).Nodup ∧
      (∀ a ∈ names.filterMap Prod.snd, ∀ n ∈ names, n.1 ≠ a) ∧
      ∀ a ∈ names.filterMap Prod.snd, ∀ c ∈ builtins, c.matches a = false)
    ⟨fun ⟨cStrings, distinct, notLibrary, notBuiltin⟩ =>
        ⟨cStrings, distinct, notLibrary, notBuiltin⟩,
      fun h => ⟨h.cStrings, h.distinct, h.notLibrary, h.notBuiltin⟩⟩

instance (c : Console σ) (op : ConsoleOp σ) : Decidable (Careful c op) := by
  unfold Careful ByAlias InTable
  cases op <;> infer_instance

/-- Outputs open, accept every record and have no commands; records are of a domain. -/
structure ConsoleOp.Plain (op : ConsoleOp σ) : Prop where
  output : ∀ q, op = .loadOutput q →
    ChainMemory.Opens q ∧ q.Accepts ∧ q.pluginCommand = none
  domain : ∀ r, op = .record r → ∃ d : DomainType, r.domType = d.code

theorem realizes_start : (Console.start (σ := σ)).Realizes Pipeline.start where
  registered := registered_start
  chain := .nil
  addresses := by simp [Console.start, ListenerState.start]
  nextSerial := rfl
  passed := rfl
  stdout := rfl

theorem Console.Realizes.load {c c' : Console σ} {p : Pipeline} (h : c.Realizes p)
    (q : LoadRequest (BitVec 32 × σ)) (domains : Option Str)
    (fresh : NamesFresh c.listener (.load q))
    (own : q.pluginCommand.isSome →
      ∀ r ∈ c.listener.plugins, r.pluginCommand.isSome → r.state ≠ q.state)
    (plays : ∀ serial, (q.node serial).Plays domains) (step : onListener (.load q) c = some c') :
    c'.Realizes (p.add q.names domains) := by
  obtain ⟨listener, loaded, rfl⟩ := Option.map_eq_some_iff.mp step
  obtain ⟨plugins, -, -⟩ := load_succeeded loaded
  obtain ⟨next, trace⟩ := load_numbered loaded
  constructor
  · exact registered_keep _ _ _ h.registered fresh trivial loaded
  · dsimp only
    rw [plugins, Pipeline.add]
    exact List.rel_append h.chain (.cons ⟨h.nextSerial, rfl, plays _⟩ .nil)
  · dsimp only
    rw [plugins]
    have apart : ∀ r ∈ c.listener.plugins, r.pluginCommand.isSome → q.pluginCommand.isSome →
        r.state ≠ q.state := fun r hr exported exports => own exports r hr exported
    intro r hr r' hr' exported exported' same
    rcases List.mem_append.mp hr with hr | hr
    · rcases List.mem_append.mp hr' with hr' | hr'
      · exact h.addresses r hr r' hr' exported exported' same
      · obtain rfl := List.mem_singleton.mp hr'
        exact absurd same (apart r hr exported exported')
    · obtain rfl := List.mem_singleton.mp hr
      rcases List.mem_append.mp hr' with hr' | hr'
      · exact absurd same.symm (apart r' hr' exported' exported)
      · rw [List.mem_singleton.mp hr']
  · dsimp only
    rw [next, h.nextSerial, Pipeline.add]
  · dsimp only
    rw [trace, passedOn_append, h.passed, Pipeline.add]
    exact List.append_nil _
  · exact h.stdout

/-- The first plugin of the name is the one with the number of the located. -/
theorem unlink_located {l : ListenerState σ} (h : Tracks l) {name : Str} {p : Plugin σ}
    (located : locatePluginByName name l.plugins = some p) :
    l.plugins.eraseP (·.named name) = l.plugins.eraseP (·.serial = p.serial) := by
  obtain ⟨before, after, split, named, others⟩ := ChainMemory.exists_named located
  rw [ChainMemory.unlink_named h split, split, List.eraseP_append_right _ fun r hr => by
    simp [others r hr], List.eraseP_cons_of_pos named]

theorem Console.Realizes.unload {c c' : Console σ} {p : Pipeline} (h : c.Realizes p) {name : Str}
    (own : UnloadsOwn c.listener (.unload name)) (step : onListener (.unload name) c = some c') :
    c'.Realizes { p with stages := p.stages.eraseP (·.named name) } := by
  obtain ⟨listener, unloaded, rfl⟩ := Option.map_eq_some_iff.mp step
  obtain ⟨q, located, plugins, -⟩ := unload_succeeded unloaded
  obtain ⟨next, trace⟩ := unload_numbered unloaded
  have unlinked := unlink_located h.registered.tracks located
  have sub : listener.plugins.Sublist c.listener.plugins := plugins ▸ List.eraseP_sublist
  constructor
  · exact registered_keep _ (.unload name) _ h.registered trivial own unloaded
  · dsimp only
    rw [plugins, ← unlinked]
    exact forall₂_eraseP (fun _ _ stands => stands.named name) h.chain
  · intro r hr r' hr'
    exact h.addresses r (sub.subset hr) r' (sub.subset hr')
  · exact next.trans h.nextSerial
  · obtain ⟨serial, trace⟩ := trace
    dsimp only
    rw [trace, passedOn_append, h.passed]
    exact List.append_nil _
  · exact h.stdout

theorem Console.Realizes.record {c c' : Console σ} {p : Pipeline} (h : c.Realizes p)
    {r : MonitorRecord} {d : DomainType} (domain : r.domType = d.code)
    (step : onListener (.execute r) c = some c') :
    c'.Realizes (p.step (.record r : ConsoleOp σ)) := by
  obtain ⟨listener, executed, rfl⟩ := Option.map_eq_some_iff.mp step
  obtain ⟨stands, passed⟩ := executePluginChain_stands domain h.chain
  have registered := registered_keep _ (.execute r) _ h.registered trivial trivial executed
  cases executed
  constructor
  · exact registered
  · exact stands
  · intro q hq q' hq' exported exported' same
    obtain ⟨o, ho, before⟩ := mem_executePluginChain hq
    obtain ⟨o', ho', before'⟩ := mem_executePluginChain hq'
    have serial : o.serial = q.serial := congrArg Prod.fst before
    have serial' : o'.serial = q'.serial := congrArg Prod.fst before'
    obtain ⟨-, -, command, state, -⟩ := Plugin.same_of_identity before
    obtain ⟨-, -, command', state', -⟩ := Plugin.same_of_identity before'
    have numbered := h.addresses o ho o' ho' (command ▸ exported) (command' ▸ exported')
      (state.trans (same.trans state'.symm))
    exact (serial.symm.trans numbered).trans serial'
  · exact h.nextSerial
  · dsimp only
    rw [passedOn_append, h.passed, passed]
    rfl
  · exact h.stdout

/-! ### A command -/

@[simp] theorem setFlags_identity (serial : Nat) (flags : BitVec 32) (p : Plugin (BitVec 32 × σ)) :
    (setFlags serial flags p).identity = p.identity ∧
      (setFlags serial flags p).pluginPaused = p.pluginPaused := by
  unfold setFlags
  split <;> exact ⟨rfl, rfl⟩

/-- Writing a mask changes nothing that the registry or the protocol rests on. -/
theorem Registered.setFlags {l : ListenerState (BitVec 32 × σ)} (h : Registered l) (serial : Nat)
    (flags : BitVec 32) :
    Registered { l with plugins := l.plugins.map (setFlags serial flags) } := by
  have kept : ∀ p ∈ l.plugins.map (Listener.setFlags serial flags), ∃ q ∈ l.plugins,
      q.identity = p.identity ∧ q.pluginPaused = p.pluginPaused := by
    intro p hp
    obtain ⟨q, hq, rfl⟩ := List.mem_map.mp hp
    obtain ⟨identity, paused⟩ := setFlags_identity serial flags q
    exact ⟨q, hq, identity.symm, paused.symm⟩
  have each {α : Type} (f : Plugin (BitVec 32 × σ) → α)
      (same : ∀ p, f (Listener.setFlags serial flags p) = f p) :
      (l.plugins.map (Listener.setFlags serial flags)).map f = l.plugins.map f := by
    rw [List.map_map]
    exact List.map_congr_left fun p _ => same p
  have serials := each Plugin.serial fun p => congrArg Prod.fst (setFlags_identity serial flags p).1
  have names := each Plugin.names fun p => by
    have same := Plugin.same_of_identity (setFlags_identity serial flags p).1
    rw [Plugin.names, Plugin.names, same.1, same.2.1]
  have entries : (l.plugins.map (Listener.setFlags serial flags)).filterMap Plugin.entry =
      l.plugins.filterMap Plugin.entry := by
    rw [List.filterMap_map]
    refine List.filterMap_congr fun p _ => ?_
    exact (Plugin.same_of_identity (setFlags_identity serial flags p).1).2.2.2.2
  refine ⟨⟨?_, ?_, ?_, h.tracks.unborn, ?_⟩, ?_, ?_, ?_⟩
  · exact serials ▸ h.tracks.distinct
  · intro p hp
    obtain ⟨q, hq, identity, -⟩ := kept p hp
    have numbered : q.serial = p.serial := congrArg Prod.fst identity
    exact numbered ▸ h.tracks.below q hq
  · intro p hp
    obtain ⟨q, hq, identity, paused⟩ := kept p hp
    have numbered : q.serial = p.serial := congrArg Prod.fst identity
    have phase : q.phase = p.phase := by rw [Plugin.phase, Plugin.phase, paused]
    exact numbered ▸ phase ▸ h.tracks.chained q hq
  · intro other absent
    refine h.tracks.gone other fun p hp => ?_
    have mem : p.serial ∈ l.plugins.map Plugin.serial := List.mem_map_of_mem hp
    rw [← serials] at mem
    obtain ⟨q, hq, same⟩ := List.mem_map.mp mem
    exact same ▸ absent q hq
  · exact names ▸ h.wellNamed
  · intro p hp exported
    obtain ⟨q, hq, identity, -⟩ := kept p hp
    obtain ⟨-, -, command, -, entry⟩ := Plugin.same_of_identity identity
    exact entry ▸ h.exported q hq (command ▸ exported)
  · exact entries ▸ h.registry

theorem Console.Realizes.only {c : Console σ} {p : Pipeline} (h : c.Realizes p)
    {q r : Plugin (BitVec 32 × σ)} (hq : q ∈ c.listener.plugins) (hr : r ∈ c.listener.plugins)
    (same : r.serial = q.serial) : r = q :=
  List.inj_on_of_nodup_map h.registered.tracks.distinct hr hq same

/-- A command found in the registry is run on the plugin that it was registered for. -/
theorem Console.Realizes.runPlugin_found {c : Console σ} {p : Pipeline} (h : c.Realizes p)
    {q : Plugin (BitVec 32 × σ)} (hq : q ∈ c.listener.plugins) {entry : Nat}
    (exported : q.pluginCommand = some entry) {name : Str}
    (found : runCommand name c.listener.commands = some (.plugin entry, q.state))
    {args : List Str} :
    runPlugin name args c =
      match pluginCommand 33 args ⟨q.memory.1, c.stdout⟩ with
      | .returned () s => some
          { listener := { c.listener with
              plugins := c.listener.plugins.map (setFlags q.serial s.domainBitFlags) }
            stdout := s.stdout }
      | _ => none := by
  have loaded : (c.listener.plugins.find? fun p =>
      p.pluginCommand = some entry ∧ p.state = q.state).isSome :=
    List.find?_isSome.mpr ⟨q, hq, by simp [exported]⟩
  obtain ⟨r, first⟩ := Option.isSome_iff_exists.mp loaded
  have mem := List.mem_of_find?_eq_some first
  obtain ⟨exported', address⟩ : r.pluginCommand = some entry ∧ r.state = q.state := by
    simpa using List.find?_some first
  have same : r = q := by
    refine h.only hq mem (h.addresses r mem q hq ?_ ?_ address)
    · rw [exported']
      rfl
    · rw [exported]
      rfl
  rw [same] at first
  rw [runPlugin, found]
  dsimp only
  rw [first]

/-- After a write the listener is the stages that the plugins now stand for. -/
theorem Console.Realizes.write {c : Console σ} {p : Pipeline} (h : c.Realizes p) (stdout : Str)
    {serial : Nat} {flags : BitVec 32} {stages : List Stage}
    (chain : List.Forall₂ Stands (c.listener.plugins.map (setFlags serial flags)) stages) :
    Console.Realizes
      ⟨{ c.listener with plugins := c.listener.plugins.map (setFlags serial flags) }, stdout⟩
      { p with stages, stdout } := by
  constructor
  · exact h.registered.setFlags serial flags
  · exact chain
  · intro r hr r' hr' exported exported' same
    obtain ⟨o, ho, rfl⟩ := List.mem_map.mp hr
    obtain ⟨o', ho', rfl⟩ := List.mem_map.mp hr'
    have before := (setFlags_identity serial flags o).1
    have before' := (setFlags_identity serial flags o').1
    have number : (setFlags serial flags o).serial = o.serial := congrArg Prod.fst before
    have number' : (setFlags serial flags o').serial = o'.serial := congrArg Prod.fst before'
    obtain ⟨-, -, command, state, -⟩ := Plugin.same_of_identity before
    obtain ⟨-, -, command', state', -⟩ := Plugin.same_of_identity before'
    have numbered := h.addresses o ho o' ho' (command ▸ exported) (command' ▸ exported')
      (state.symm.trans (same.trans state'))
    exact (number.trans numbered).trans number'.symm
  · exact h.nextSerial
  · exact h.passed
  · rfl

/-- Writing back the mask that was there changes nothing. -/
theorem Console.Realizes.setFlags_own {c : Console σ} {p : Pipeline} (h : c.Realizes p)
    {q : Plugin (BitVec 32 × σ)} (hq : q ∈ c.listener.plugins) :
    c.listener.plugins.map (setFlags q.serial q.memory.1) = c.listener.plugins := by
  conv_rhs => rw [← List.map_id c.listener.plugins]
  refine List.map_congr_left fun r hr => ?_
  rw [setFlags]
  split
  · rename_i same
    rw [h.only hq hr same]
    rfl
  · rfl

/-- A new mask in the memory of a filter is a new list at its stage. -/
theorem Console.Realizes.relist {c : Console σ} {p : Pipeline} (h : c.Realizes p) {name : Str}
    {q : Plugin (BitVec 32 × σ)} (hq : q ∈ c.listener.plugins) (named : q.pluginAlias = some name)
    (exported : q.pluginCommand.isSome) (list : Str) :
    List.Forall₂ Stands (c.listener.plugins.map (setFlags q.serial (domainListToBitMask list)))
      (p.stages.map (Stage.relist name list)) := by
  rw [List.forall₂_map_left_iff, List.forall₂_map_right_iff]
  have both := (List.forall₂_and_left _ _).mpr ⟨fun r hr => hr, h.chain⟩
  refine both.imp fun r s within => ?_
  obtain ⟨hr, stands⟩ := within
  by_cases same : r.serial = q.serial
  · obtain rfl := h.only hq hr same
    have alias_ : s.names.2 = some name := stands.pluginAlias.symm.trans named
    rw [setFlags, if_pos rfl, Stage.relist, if_pos alias_]
    obtain ⟨serial, names, plays⟩ := stands
    cases role : s.domains with
    | none =>
        rw [role] at plays
        rw [plays.2] at exported
        cases exported
    | some old =>
        rw [role] at plays
        exact ⟨serial, names, ⟨plays.1.running, rfl, plays.1.filters⟩, exported⟩
  · have other : s.names.2 ≠ some name := by
      intro alias_
      have both := h.registered.alias_unique hr hq (stands.pluginAlias.trans alias_) named
      exact same (both ▸ rfl)
    rw [setFlags, if_neg same, Stage.relist, if_neg other]
    exact stands

theorem Pipeline.command_print {p : Pipeline} {name : Str} {args : List Str}
    (print : args.head? = some "print-mask".toList) :
    p.command name args = { p with
      stdout := p.stdout ++ (p.stages.find? (·.names.2 = some name)).elim [] Stage.maskLine } := by
  unfold Pipeline.command
  rw [if_pos print]

theorem Pipeline.command_update (p : Pipeline) (name list : Str) (rest : List Str) :
    p.command name ("update-mask".toList :: list :: rest) =
      { p with stages := p.stages.map (Stage.relist name list) } := by
  unfold Pipeline.command
  rw [if_neg (by simp)]
  dsimp only
  rw [if_pos rfl]

theorem Pipeline.command_other {p : Pipeline} {name : Str} {args : List Str}
    (noPrint : args.head? ≠ some "print-mask".toList)
    (noUpdate : ∀ list rest, args ≠ "update-mask".toList :: list :: rest) :
    p.command name args = p := by
  unfold Pipeline.command
  rw [if_neg noPrint]
  split
  · rename_i command list rest
    have other : command ≠ "update-mask".toList := by
      rintro rfl
      exact noUpdate list rest rfl
    rw [if_neg other]
  · rfl

/-- Nothing happens to stages without a list. -/
theorem Pipeline.command_silent {p : Pipeline} {name : Str}
    (silent : ∀ s ∈ p.stages, s.names.2 = some name → s.domains = none) (args : List Str) :
    p.command name args = p := by
  have kept : ∀ list, p.stages.map (Stage.relist name list) = p.stages := by
    intro list
    conv_rhs => rw [← List.map_id p.stages]
    refine List.map_congr_left fun s hs => ?_
    rw [Stage.relist]
    split
    · rename_i named
      have output := silent s hs named
      obtain ⟨serial, names, domains⟩ := s
      subst output
      rfl
    · rfl
  unfold Pipeline.command
  split
  · cases found : p.stages.find? (·.names.2 = some name) with
    | none => simp
    | some s =>
        have named : s.names.2 = some name := by simpa using List.find?_some found
        have output := silent s (List.mem_of_find?_eq_some found) named
        simp [Stage.maskLine, output]
  · split
    · rw [kept, ite_self]
    · rfl

/-- A command by alias is the command of the stage. -/
theorem Console.Realizes.command {c c' : Console σ} {p : Pipeline} (h : c.Realizes p) {name : Str}
    {args : List Str} (byAlias : ByAlias c.listener name) (step : runPlugin name args c = some c') :
    c'.Realizes (p.command name args) := by
  obtain ⟨q, hq, entry, named, exported, found⟩ | ⟨silent, notFound⟩ :=
    h.registered.runCommand_alias byAlias
  · rw [h.runPlugin_found hq exported found] at step
    -- the stage that the alias names
    have picked := forall₂_find? (f := fun r => decide (r.pluginAlias = some name))
      (g := fun s : Stage => decide (s.names.2 = some name))
      (fun r s stands => by rw [stands.pluginAlias]) h.chain
    obtain ⟨none_, -⟩ | ⟨r', s, first, stage, stands⟩ := picked
    · exact absurd (decide_eq_true named) (List.find?_eq_none.mp none_ q hq)
    have alias_ : r'.pluginAlias = some name := by simpa using List.find?_some first
    obtain rfl := h.registered.alias_unique (List.mem_of_find?_eq_some first) hq alias_ named
    obtain ⟨list, listing, filtering⟩ := stands.filtering (by rw [exported]; rfl)
    have unwritten : List.Forall₂ Stands (c.listener.plugins.map
        (setFlags r'.serial (domainListToBitMask list))) p.stages := by
      rw [← filtering.mask, h.setFlags_own hq]
      exact h.chain
    split at step
    · rename_i t ran
      cases step
      rw [filtering.mask] at ran
      obtain ⟨print, ran⟩ | ⟨list', rest, update, written⟩ | ⟨noPrint, noUpdate, same⟩ :=
        pluginCommand_cases ran
      · rw [printMask_listed ran, Pipeline.command_print print, stage, ← h.stdout]
        dsimp only [Option.elim]
        rw [Stage.maskLine, listing]
        exact h.write _ unwritten
      · have relisted := h.relist hq named (by rw [exported]; rfl) list'
        rw [written, update, Pipeline.command_update, h.stdout]
        exact h.write p.stdout relisted
      · rw [same, Pipeline.command_other noPrint noUpdate, h.stdout]
        exact h.write p.stdout unwritten
    · cases step
  · rw [runPlugin, notFound] at step
    cases step
    rw [Pipeline.command_silent]
    · exact h
    · intro s hs alias_
      obtain ⟨r, hr, stands⟩ := forall₂_mem h.chain hs
      exact stands.unlisted (silent r hr (stands.pluginAlias.trans alias_))

/-! ### Whole runs -/

theorem Console.Realizes.step {c c' : Console σ} {p : Pipeline} {op : ConsoleOp σ}
    (h : c.Realizes p) (plain : op.Plain) (careful : Careful c op)
    (step : consoleStep c op = some c') : c'.Realizes (p.step op) := by
  cases op with
  | loadFilter library pluginAlias config state entry rest =>
      obtain ⟨fresh, -, own⟩ := careful
      refine h.load (filterDomainsRequest library pluginAlias config state entry rest)
        (some config) fresh ?_ ?_ step
      · intro _ r hr exported
        exact own r hr exported
      · exact fun serial => ⟨⟨rfl, rfl, rfl⟩, rfl⟩
  | loadOutput q =>
      obtain ⟨-, accepts, silent⟩ := plain.output q rfl
      refine h.load q none careful ?_ ?_ step
      · intro exported
        rw [silent] at exported
        cases exported
      · exact fun serial => ⟨⟨rfl, accepts⟩, silent⟩
  | unload name => exact h.unload careful.2 step
  | record r =>
      obtain ⟨d, domain⟩ := plain.domain r rfl
      exact h.record domain step
  | command name args => exact h.command careful.1 step

/-- A command that prints no bit past the table returns. -/
theorem pluginCommand_returns {args : List Str} {s : FilterState}
    (inTable : args.head? = some "print-mask".toList →
      ∀ i, s.domainBitFlags.getLsbD i = true → i < domainsNames.length) :
    ∃ t, pluginCommand 33 args s = .returned () t := by
  unfold pluginCommand
  split
  · exact ⟨s, rfl⟩
  · split
    · rename_i print
      exact ⟨_, printMask_inTable (Nat.lt_succ_self 32) (inTable (congrArg some print))⟩
    · exact ⟨s, rfl⟩
  · split
    · exact ⟨_, rfl⟩
    · split
      · rename_i print
        exact ⟨_, printMask_inTable (Nat.lt_succ_self 32) (inTable (congrArg some print))⟩
      · exact ⟨s, rfl⟩

theorem Console.Realizes.command_isSome {c : Console σ} {p : Pipeline} (h : c.Realizes p)
    {name : Str} {args : List Str} (byAlias : ByAlias c.listener name)
    (inTable : args.head? = some "print-mask".toList → InTable c.listener name) :
    (runPlugin name args c).isSome := by
  obtain ⟨q, hq, entry, named, exported, found⟩ | ⟨-, notFound⟩ :=
    h.registered.runCommand_alias byAlias
  · have bits : args.head? = some "print-mask".toList →
        ∀ i, q.memory.1.getLsbD i = true → i < domainsNames.length := by
      intro print i mem
      exact inTable print q hq named (by rw [exported]; rfl) i
        (BitSet.mem_membersFrom.mpr ⟨Nat.zero_le i, mem⟩)
    obtain ⟨t, ran⟩ := pluginCommand_returns (s := ⟨q.memory.1, c.stdout⟩) bits
    rw [h.runPlugin_found hq exported found, ran]
    rfl
  · rw [runPlugin, notFound]
    rfl

/-- A careful step is taken. -/
theorem Console.Realizes.step_isSome {c : Console σ} {p : Pipeline} {op : ConsoleOp σ}
    (h : c.Realizes p) (plain : op.Plain) (careful : Careful c op) :
    (consoleStep c op).isSome := by
  cases op with
  | loadFilter library pluginAlias config state entry rest =>
      have opens : ChainMemory.Opens
          (filterDomainsRequest library pluginAlias config state entry rest) := by
        refine ⟨rfl, rfl, ?_⟩
        show PLUGIN_OPEN_SUCCESS ≠ PLUGIN_OPEN_FAIL
        decide
      exact Option.isSome_map.trans (load_isSome opens careful.2.1 c.listener)
  | loadOutput q =>
      obtain ⟨opens, -, silent⟩ := plain.output q rfl
      have kept : q.NamesKept := by
        intro entry exported
        rw [silent] at exported
        cases exported
      exact Option.isSome_map.trans (load_isSome opens kept c.listener)
  | unload name => exact Option.isSome_map.trans (unload_isSome careful.1)
  | record r => rfl
  | command name args => exact h.command_isSome careful.1 careful.2

theorem Console.Realizes.run {ops : List (ConsoleOp σ)} {c : Console σ} {p : Pipeline}
    (h : c.Realizes p) (plain : ∀ op ∈ ops, op.Plain)
    (careful : Machine.AllSteps consoleStep Careful c ops) :
    ∃ c', Machine.run consoleStep c ops = some c' ∧
      c'.Realizes (ops.foldl Pipeline.step p) := by
  induction ops generalizing c p with
  | nil => exact ⟨c, rfl, h⟩
  | cons op ops ih =>
      obtain ⟨head, tail⟩ := List.forall_mem_cons.mp plain
      obtain ⟨here, later⟩ := careful
      obtain ⟨next, first⟩ := Option.isSome_iff_exists.mp (h.step_isSome head here)
      obtain ⟨c', rest, realizes⟩ := ih (h.step head here first) tail (later next first)
      rw [Machine.run_cons, first]
      exact ⟨c', rest, realizes⟩

/-- **Reconfiguration.** Every run of careful loads, unloads, records and commands by
alias is taken to its end, the plugins are passed the records that the filters in front of
them let through by the lists then in force, in that order, and `print-mask` answers with
the names in force. -/
theorem console_refines (ops : List (ConsoleOp σ)) (plain : ∀ op ∈ ops, op.Plain)
    (careful : Machine.AllSteps consoleStep Careful .start ops) :
    ∃ c, Machine.run consoleStep .start ops = some c ∧
      passedOn c.listener.trace = (ops.foldl Pipeline.step .start).passed ∧
      c.stdout = (ops.foldl Pipeline.step .start).stdout ∧
      c.listener.plugins.map Plugin.names =
        (ops.foldl Pipeline.step .start).stages.map Stage.names := by
  obtain ⟨c, ran, realizes⟩ := realizes_start.run plain careful
  refine ⟨c, ran, realizes.passed, realizes.stdout, ?_⟩
  have chain := realizes.chain
  generalize c.listener.plugins = plugins, (ops.foldl Pipeline.step .start).stages = stages
    at chain
  induction chain with
  | nil => rfl
  | cons stands _ ih => rw [List.map_cons, List.map_cons, stands.names, ih]

/-! The script of the runtime plugin chain test, with a record in between. -/

def runtimeScript (r : MonitorRecord) : List (ConsoleOp Unit) :=
  let library := "../../plugins/filter_domains.so".toList
  let df1 := "df1".toList
  let df2 := "df2".toList
  [.loadFilter library (some df1) "HTTP".toList 1 7 (),
    .loadFilter library (some df2) "START_STOP".toList 2 7 (),
    .command df2 ["print-mask".toList],
    .command df1 ["print-mask".toList],
    .command df1 ["update-mask".toList, "FILE_OPEN_CLOSE,FILE_WRITE".toList],
    .record r,
    .command df2 ["print-mask".toList],
    .command df1 ["print-mask".toList]]

def startRecord : MonitorRecord :=
  { MonitorRecord.zero with domType := DomainType.startStop.code, opType := OpType.start.code }

theorem console_refines_script : ∃ c : Console Unit,
    Machine.run consoleStep .start (runtimeScript startRecord) = some c ∧
      passedOn c.listener.trace = [(0, startRecord)] ∧
      c.stdout = ["START_STOP", "HTTP", "START_STOP", "FILE_WRITE,FILE_OPEN_CLOSE"].flatMap
        fun names => "domain_mask:".toList ++ names.toList ++ ['\n'] := by
  have plain : ∀ op ∈ runtimeScript startRecord, op.Plain := by
    intro op hop
    constructor
    · intro q same
      subst same
      simp [runtimeScript] at hop
    · intro r same
      subst same
      obtain rfl : r = startRecord := by simpa [runtimeScript] using hop
      exact ⟨.startStop, rfl⟩
  obtain ⟨c, ran, passed, stdout, -⟩ :=
    console_refines (runtimeScript startRecord) plain (by decide +kernel)
  refine ⟨c, ran, ?_, ?_⟩
  · rw [passed]
    rfl
  · rw [stdout]
    decide +kernel

end IoMonitor.Listener
