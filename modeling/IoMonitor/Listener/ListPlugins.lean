import IoMonitor.Lib.CharBuffer
import IoMonitor.Listener.ChainMemory

/-!
`list_plugins`: the chain as an array of strings.

The block of an entry has the bytes of its characters and none for the NUL, which is
therefore written behind it, for every plugin of every chain (`renderEntry_overruns`,
`listsPlugins_iff`).
-/

namespace IoMonitor.Listener.ChainMemory

open CString IoMonitor LinkedList Prog

variable {σ : Type}

/-- `malloc`: at its calls, null or a block of the size asked for. There is no block of
2^63 bytes or more. -/
structure Mallocs where
  malloc : Nat → (size : Nat) → Option (CharBuffer size)
  bounded : ∀ i size, 2 ^ 63 ≤ size → malloc i size = none

/-! ### `count_plugins` and `list_plugins` -/

def countPlugins : Nat → Option Nat → Nat → Prog (Memory σ) Nat
  | 0, _, _ => exhaust
  | _ + 1, none, numPlugins => pure numPlugins
  | fuel + 1, some p, numPlugins => do
      let cell ← read (some p)
      countPlugins fuel cell.next (numPlugins + 1)

/-- What the string of an entry is to be. -/
def entryText (p : Plugin σ) : Str :=
  match p.pluginAlias with
  | none => p.pluginLibrary
  | some name => p.pluginLibrary ++ ':' :: name

/-- `s`, an `int` that becomes a `size_t` for `malloc`. -/
def entrySize (p : Plugin σ) : Nat :=
  match p.pluginAlias with
  | none => (toSize (toInt p.pluginLibrary.length)).toNat
  | some name => (toSize (toInt (p.pluginLibrary.length + (1 + name.length)))).toNat

/-- The body of the loop: the bytes of the block. -/
def renderEntry (malloc : (size : Nat) → Option (CharBuffer size)) (p : Plugin σ) :
    Except Fault Str :=
  match malloc (entrySize p) with
  | none => .error (.outside 0)
  | some block => do
      let block ← block.strcpy 0 p.pluginLibrary
      match p.pluginAlias with
      | none => .ok block.bytes
      | some name => do
          let block ← block.strcpy p.pluginLibrary.length (':' :: name)
          .ok block.bytes

/-- An access that is out of bounds ends the run. -/
def orCrash {α : Type} : Except Fault α → Prog (Memory σ) α
  | .ok a => pure a
  | .error _ => crash

def fillEntries (mallocs : Mallocs) {n : Nat} : Nat → Option Nat → Nat → PointerArray Str n →
    Prog (Memory σ) (PointerArray Str n)
  | 0, _, _, _ => exhaust
  | _ + 1, none, _, result => pure result
  | fuel + 1, some p, numPlugins, result => do
      let cell ← read (some p)
      let block ← orCrash (renderEntry (mallocs.malloc numPlugins) cell.value)
      let result ← orCrash (result.store numPlugins (.object block))
      fillEntries mallocs fuel cell.next (numPlugins + 1) result

/-- `list_plugins`: the cells of the array, unless `calloc` grants none. -/
def listPlugins (mallocs : Mallocs) (granted : Bool) (fuel : Nat) :
    Prog (Memory σ) (Option (List (Pointer Str))) := do
  let p := (← get).plugins
  let numPlugins ← countPlugins fuel p 0
  if granted then do
    let result ← fillEntries mallocs fuel p 0 (.nulls (numPlugins + 1))
    pure (some result.cells)
  else pure none

/-- The cells hold the strings of the plugins, in the order of the chain, and a `NULL`. -/
def Rendered (chain : List (Plugin σ)) (cells : List (Pointer Str)) : Prop :=
  ∃ blocks : List Str, cells = blocks.map .object ++ [.null] ∧
    blocks.map cstr = chain.map entryText

/-- The function returns, and an array that it returns shows the chain. -/
def ListsPlugins (mallocs : Mallocs) (granted : Bool) (m : Memory σ) (chain : List (Plugin σ)) :
    Prop :=
  ∃ result bound, (∀ fuel, bound ≤ fuel →
      listPlugins mallocs granted fuel m = .returned result m) ∧
    ∀ cells ∈ result, Rendered chain cells

/-! ### The blocks -/

/-- An `int` made from a length and passed for a size is no more than the length, or more
than there is. -/
theorem size_of_length (length : Nat) :
    (toSize (toInt length)).toNat ≤ length ∨ 2 ^ 63 ≤ (toSize (toInt length)).toNat := by
  rw [toSize, toInt, Int.bmod]
  split <;> omega

/-- The block has no room for the NUL. -/
theorem entrySize_short (p : Plugin σ) :
    entrySize p ≤ (entryText p).length ∨ 2 ^ 63 ≤ entrySize p := by
  unfold entrySize entryText
  cases p.pluginAlias with
  | none => exact size_of_length _
  | some name =>
      dsimp only
      rw [List.length_append, List.length_cons, Nat.add_comm name.length 1]
      exact_mod_cast size_of_length (p.pluginLibrary.length + (1 + name.length))

/-- Whatever `malloc` answers, the last byte of the entry is out of bounds. -/
theorem renderEntry_overruns (mallocs : Mallocs) (i : Nat) (p : Plugin σ) :
    ∃ fault, renderEntry (mallocs.malloc i) p = .error fault := by
  unfold renderEntry
  cases granted : mallocs.malloc i (entrySize p) with
  | none => exact ⟨_, rfl⟩
  | some block =>
      have short : entrySize p ≤ (entryText p).length := by
        refine (entrySize_short p).resolve_right fun huge => ?_
        rw [mallocs.bounded i _ huge] at granted
        cases granted
      dsimp only
      cases named : p.pluginAlias with
      | none =>
          have text : entryText p = p.pluginLibrary := by simp only [entryText, named]
          rw [text] at short
          have overrun := block.strcpy_outside (s := p.pluginLibrary) (Nat.zero_le _)
            (by rwa [Nat.zero_add])
          exact ⟨.outside (entrySize p), by rw [overrun]; rfl⟩
      | some name =>
          have text : entryText p = p.pluginLibrary ++ ':' :: name := by
            simp only [entryText, named]
          rw [text, List.length_append] at short
          by_cases room : p.pluginLibrary.length < entrySize p
          · obtain ⟨copied, first, -⟩ := block.strcpy_room (i := 0) (s := p.pluginLibrary)
              (by rwa [Nat.zero_add])
            have overrun := copied.strcpy_outside (s := ':' :: name) (Nat.le_of_lt room) short
            refine ⟨.outside (entrySize p), ?_⟩
            rw [first, PointerArray.ok_bind]
            dsimp only
            rw [overrun]
            rfl
          · have overrun := block.strcpy_outside (s := p.pluginLibrary) (Nat.zero_le _)
              (by rw [Nat.zero_add]; exact Nat.le_of_not_lt room)
            exact ⟨.outside (entrySize p), by rw [overrun]; rfl⟩

/-! ### The chain -/

section Chain

variable {m : Memory σ}

theorem countPlugins_eq :
    ∀ {fuel : Nat} {p : Option Nat} {nodes : List (Nat × Plugin σ)} (numPlugins : Nat),
      Holds m.heap p nodes → nodes.length < fuel →
        countPlugins fuel p numPlugins m = .returned (numPlugins + nodes.length) m
  | 0, _, _, _, _, short => absurd short (Nat.not_lt_zero _)
  | fuel + 1, _, [], _, h, _ => by
      obtain rfl := h
      rfl
  | fuel + 1, _, n :: rest, numPlugins, ⟨start, next, cell, tail⟩, short => by
      subst start
      rw [countPlugins, read_bind cell,
        countPlugins_eq (numPlugins + 1) tail (Nat.lt_of_succ_lt_succ short), List.length_cons]
      congr 1
      omega

/-- The first plugin ends the run. -/
theorem listPlugins_crashes (mallocs : Mallocs) {n : Nat × Plugin σ}
    {rest : List (Nat × Plugin σ)} (h : Holds m.heap m.plugins (n :: rest)) {fuel : Nat}
    (enough : (n :: rest).length < fuel) :
    ∃ m', listPlugins mallocs true fuel m = .crashed m' := by
  have counted := countPlugins_eq 0 h enough
  obtain ⟨start, next, cell, tail⟩ := h
  obtain ⟨fuel, rfl⟩ := Nat.exists_eq_add_of_lt enough
  obtain ⟨fault, overrun⟩ := renderEntry_overruns mallocs 0 n.2
  rw [listPlugins, get_bind, bind_of_returned counted, start]
  refine ⟨m, bind_of_crashed ?_⟩
  rw [fillEntries, read_bind cell]
  refine bind_of_crashed ?_
  rw [overrun]
  rfl

/-- A plugin is shown in no array, whatever its names. -/
theorem listsPlugins_overruns (mallocs : Mallocs) {n : Nat × Plugin σ}
    {rest : List (Nat × Plugin σ)} (h : Holds m.heap m.plugins (n :: rest)) :
    ¬ ListsPlugins mallocs true m ((n :: rest).map Prod.snd) := by
  rintro ⟨result, bound, run, -⟩
  obtain ⟨m', crashed⟩ := listPlugins_crashes mallocs h
    (Nat.lt_of_lt_of_le (Nat.lt_succ_self _) (Nat.le_max_right bound _))
  rw [run _ (Nat.le_max_left bound _)] at crashed
  cases crashed

theorem listsPlugins_empty (mallocs : Mallocs) (h : Holds m.heap m.plugins []) :
    ListsPlugins mallocs true m [] := by
  have start : m.plugins = none := h
  refine ⟨some [.null], 1, fun fuel enough => ?_, fun cells returned => ?_⟩
  · obtain ⟨fuel, rfl⟩ := Nat.exists_eq_add_of_le' enough
    rw [listPlugins, get_bind, start]
    rfl
  · obtain rfl := Option.some.inj returned
    exact ⟨[], rfl, rfl⟩

/-- No array, nothing to show. -/
theorem listsPlugins_refused (mallocs : Mallocs) {nodes : List (Nat × Plugin σ)}
    (h : Holds m.heap m.plugins nodes) :
    ListsPlugins mallocs false m (nodes.map Prod.snd) := by
  refine ⟨none, nodes.length + 1, fun fuel enough => ?_, by simp⟩
  rw [listPlugins, get_bind, bind_of_returned (countPlugins_eq 0 h enough)]
  rfl

/-- **The list of plugins.** It is rendered within its blocks iff the chain is empty, or no
array is allocated at all. -/
theorem listsPlugins_iff (mallocs : Mallocs) (granted : Bool)
    {nodes : List (Nat × Plugin σ)} (h : Holds m.heap m.plugins nodes) :
    ListsPlugins mallocs granted m (nodes.map Prod.snd) ↔ nodes = [] ∨ granted = false := by
  cases granted with
  | false => exact ⟨fun _ => .inr rfl, fun _ => listsPlugins_refused mallocs h⟩
  | true =>
      constructor
      · intro lists
        cases nodes with
        | nil => exact .inl rfl
        | cons n rest => exact absurd lists (listsPlugins_overruns mallocs h)
      · intro condition
        obtain rfl := condition.resolve_right Bool.noConfusion
        exact listsPlugins_empty mallocs h

end Chain

/-- Blocks of zeros of any size there can be. -/
def zeroed : Mallocs where
  malloc _ size := if size < 2 ^ 63 then some (.zero size) else none
  bounded _ _ huge := if_neg (Nat.not_lt_of_le huge)

theorem start_holds :
    Holds (Memory.start (σ := Unit)).heap (Memory.start (σ := Unit)).plugins [] :=
  rfl

theorem listsPlugins_iff_start : ListsPlugins zeroed true (Memory.start (σ := Unit)) [] :=
  (listsPlugins_iff zeroed true start_holds).mpr (.inl rfl)

/-- The library `filter_domains.so` with the alias `df1`. -/
theorem df1_overruns_block :
    Holds oneLoaded.heap oneLoaded.plugins [(0, (filterRequest "df1" 1).node 0)] ∧
      ¬ ListsPlugins zeroed true oneLoaded [(filterRequest "df1" 1).node 0] :=
  ⟨oneLoaded_holds, listsPlugins_overruns zeroed oneLoaded_holds⟩

end IoMonitor.Listener.ChainMemory
