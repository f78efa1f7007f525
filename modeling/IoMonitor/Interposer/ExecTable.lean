import IoMonitor.Lib.PointerArray

/-!
`orig_vexecl` and its siblings: an argument list as a vector.

`va_list_to_table` collects as far as the first `NULL` into a block of 4096 bytes,
`sizeof(** result)` being the 1 of `sizeof(void)`: 512 pointers, for at most 510
arguments (`tableHolds_iff`). `orig_vexecle` takes the last object before that `NULL`
for the environment, which stands behind it: it drops an argument, passes it on as
the environment, and searches the path (`origVexecle_eq`, `forwards_iff`).
-/

namespace IoMonitor

/-! ### The table -/

def MAX_ARGS : Nat := 4096

/-- `sizeof` of an expression of type `void`. -/
def SIZEOF_VOID : Nat := 1

def SIZEOF_POINTER : Nat := 8

/-- The pointers that fit in the block that is allocated. -/
def TABLE_SLOTS : Nat := MAX_ARGS * SIZEOF_VOID / SIZEOF_POINTER

variable {α : Type}

/-- The pointers of a call that are still to be read; `none` is `NULL`. -/
abbrev VaList (α : Type) := List (Option α)

abbrev ExecTable (α : Type) := PointerArray α TABLE_SLOTS

/-- The loop of `va_list_to_table` and the `NULL` behind it. A list without a `NULL`
is read past its end. -/
def collectArgs (i : Nat) (result : ExecTable α) : VaList α → Except Fault (ExecTable α)
  | [] => .error (.unset i)
  | none :: _ => result.store i .null
  | some tmp :: args => do collectArgs (i + 1) (← result.store i (.object tmp)) args

def vaListToTable (args : VaList α) : Except Fault (ExecTable α) :=
  collectArgs 1 (.undefined _) args

/-! ### The three helpers -/

/-- The function called in the end. -/
inductive ExecFunction where
  | execv | execvp | execvpe
  deriving DecidableEq

def ExecFunction.SearchesPath : ExecFunction → Prop
  | .execv => False
  | .execvp => True
  | .execvpe => True

/-- The environment of the new program: the caller's, or a vector that is passed. -/
inductive ExecEnv (α : Type) where
  | inherited
  | vector (envp : Option α)
  deriving DecidableEq

/-- A call of one of them, with its vector as far as the `NULL`. -/
structure ExecCall (α : Type) where
  function : ExecFunction
  file : α
  argv : List α
  env : ExecEnv α
  deriving DecidableEq

def origVexecl (path : α) (arg : Option α) (args : VaList α) : Except Fault (ExecCall α) := do
  let argt ← vaListToTable args
  let argt ← argt.store 0 (.passed arg)
  .ok ⟨.execv, path, ← argt.readFrom 0, .inherited⟩

def origVexecle (path : α) (arg : Option α) (args : VaList α) : Except Fault (ExecCall α) := do
  let argt ← vaListToTable args
  let argt ← argt.store 0 (.passed arg)
  -- where the loop over `i` ends
  let i := (← argt.readFrom 0).length
  let envp ← if i ≠ 0 then argt.load (i - 1) else .ok none
  let argt ← argt.store ((i : Int) - 1) .null
  .ok ⟨.execvpe, path, ← argt.readFrom 0, .vector envp⟩

def origVexeclp (path : α) (arg : Option α) (args : VaList α) : Except Fault (ExecCall α) := do
  let argt ← vaListToTable args
  let argt ← argt.store 0 (.passed arg)
  .ok ⟨.execvp, path, ← argt.readFrom 0, .inherited⟩

/-! ### What the table holds -/

theorem collectArgs_room {front : List (Pointer α)} {result : ExecTable α}
    (h : front <+: result.cells) (args : List α) (behind : VaList α)
    (room : front.length + args.length < TABLE_SLOTS) :
    ∃ table, collectArgs front.length result (args.map some ++ none :: behind) = .ok table ∧
      front ++ args.map .object ++ [.null] <+: table.cells := by
  induction args generalizing front result with
  | nil =>
      obtain ⟨table, stored, cells⟩ := PointerArray.store_behind h room .null
      exact ⟨table, stored, by rwa [List.map_nil, List.append_nil]⟩
  | cons arg args ih =>
      rw [List.length_cons] at room
      obtain ⟨next, stored, cells⟩ := PointerArray.store_behind h (by omega) (.object arg)
      obtain ⟨table, collected, cells⟩ := ih cells (by
        rw [List.length_append, List.length_singleton]
        omega)
      refine ⟨table, ?_, by simpa using cells⟩
      rw [List.length_append, List.length_singleton] at collected
      rw [List.map_cons, List.cons_append, collectArgs, stored, PointerArray.ok_bind, collected]

theorem collectArgs_full {front : List (Pointer α)} {result : ExecTable α}
    (h : front <+: result.cells) (args : List α) (behind : VaList α)
    (full : TABLE_SLOTS ≤ front.length + args.length) :
    collectArgs front.length result (args.map some ++ none :: behind) =
      .error (.outside TABLE_SLOTS) := by
  have short : front.length ≤ TABLE_SLOTS := by
    have := h.length_le
    rwa [result.size] at this
  induction args generalizing front result with
  | nil =>
      have last : front.length = TABLE_SLOTS := Nat.le_antisymm short full
      rw [last]
      exact PointerArray.store_outside result (Nat.le_refl _) .null
  | cons arg args ih =>
      rw [List.length_cons] at full
      rw [List.map_cons, List.cons_append, collectArgs]
      rcases Nat.lt_or_eq_of_le short with room | last
      · obtain ⟨next, stored, cells⟩ := PointerArray.store_behind h room (.object arg)
        have rest := ih cells (by
          rw [List.length_append, List.length_singleton]
          omega) (by
          rw [List.length_append, List.length_singleton]
          omega)
        rw [List.length_append, List.length_singleton] at rest
        rw [stored, PointerArray.ok_bind, rest]
      · rw [last, PointerArray.store_outside result (Nat.le_refl _)]
        rfl

/-- The call with the objects `args` behind the first argument. -/
def TableHolds (arg : α) (args : List α) (behind : VaList α) : Prop :=
  ∃ result argt, vaListToTable (args.map some ++ none :: behind) = .ok result ∧
    result.store 0 (.object arg) = .ok argt ∧ argt.Terminated (arg :: args)

/-- Slot 0 of the new table. -/
theorem undefined_first :
    [Pointer.undefined] <+: (PointerArray.undefined TABLE_SLOTS : ExecTable α).cells :=
  ⟨List.replicate 511 .undefined, rfl⟩

theorem tableHolds_of_few (arg : α) {args : List α} (few : args.length ≤ 510)
    (behind : VaList α) : TableHolds arg args behind := by
  obtain ⟨result, collected, cells⟩ := collectArgs_room undefined_first args behind
    (show 1 + args.length < 512 by omega)
  rw [List.append_assoc, List.singleton_append] at cells
  obtain ⟨argt, stored, cells⟩ := PointerArray.store_first cells (.object arg)
  exact ⟨result, argt, collected, stored, cells⟩

/-- **The exec argument table.** All stores are inside the block, and the table holds
the list, iff it has at most 510 arguments. -/
theorem tableHolds_iff (arg : α) (args : List α) (behind : VaList α) :
    TableHolds arg args behind ↔ args.length ≤ 510 := by
  constructor
  · rintro ⟨result, argt, collected, -⟩
    by_contra many
    have overrun := collectArgs_full undefined_first args behind
      (show 512 ≤ 1 + args.length by omega)
    rw [vaListToTable] at collected
    exact absurd (overrun.symm.trans collected) (by simp)
  · exact fun few => tableHolds_of_few arg few behind

/-- 511 arguments are fewer than the 4094 that `max_args` allows for. -/
theorem table_of_511_overruns :
    (List.replicate 511 0).length ≤ MAX_ARGS - 2 ∧ ¬ TableHolds 0 (List.replicate 511 0) [] := by
  rw [List.length_replicate]
  refine ⟨by decide, ?_⟩
  rintro ⟨result, argt, collected, -⟩
  have overrun := collectArgs_full undefined_first (List.replicate 511 0) []
    (by rw [List.length_replicate]; decide)
  rw [vaListToTable] at collected
  exact absurd (overrun.symm.trans collected) (by simp)

/-! ### What is called -/

section Calls

variable (path arg : α) {args : List α} (behind : VaList α)

theorem origVexecl_eq (few : args.length ≤ 510) :
    origVexecl path (some arg) (args.map some ++ none :: behind) =
      .ok ⟨.execv, path, arg :: args, .inherited⟩ := by
  obtain ⟨result, argt, collected, stored, holds⟩ := tableHolds_of_few arg few behind
  have read : argt.readFrom 0 = .ok (arg :: args) := PointerArray.Terminated.readFrom [] holds
  simp only [origVexecl, collected, Pointer.passed, stored, read, PointerArray.ok_bind]

theorem origVexeclp_eq (few : args.length ≤ 510) :
    origVexeclp path (some arg) (args.map some ++ none :: behind) =
      .ok ⟨.execvp, path, arg :: args, .inherited⟩ := by
  obtain ⟨result, argt, collected, stored, holds⟩ := tableHolds_of_few arg few behind
  have read : argt.readFrom 0 = .ok (arg :: args) := PointerArray.Terminated.readFrom [] holds
  simp only [origVexeclp, collected, Pointer.passed, stored, read, PointerArray.ok_bind]

/-- The last object is taken out of the vector, and passed for the environment. -/
theorem origVexecle_eq (few : args.length ≤ 510) :
    origVexecle path (some arg) (args.map some ++ none :: behind) =
      .ok ⟨.execvpe, path, (arg :: args).dropLast,
        .vector (some ((arg :: args).getLast (List.cons_ne_nil arg args)))⟩ := by
  obtain ⟨result, argt, collected, stored, holds⟩ := tableHolds_of_few arg few behind
  have read : argt.readFrom 0 = .ok (arg :: args) := PointerArray.Terminated.readFrom [] holds
  obtain ⟨front, last, split⟩ := (List.eq_nil_or_concat (arg :: args)).resolve_left
    (List.cons_ne_nil arg args)
  rw [List.concat_eq_append] at split
  have length : (arg :: args).length = front.length + 1 := by
    rw [split, List.length_append, List.length_singleton]
  rw [split] at holds
  have taken : argt.load front.length = .ok (some last) :=
    PointerArray.Terminated.load_at front holds
  have room : front.length < TABLE_SLOTS := by
    rw [List.length_cons] at length
    exact show front.length < 512 by omega
  obtain ⟨cut, closed, ends⟩ := (PointerArray.Terminated.starts front holds).store_null room
  have read' : cut.readFrom 0 = .ok front := PointerArray.Terminated.readFrom [] ends
  have index : ((front.length + 1 : Nat) : Int) - 1 = front.length := by omega
  simp only [origVexecle, collected, Pointer.passed, stored, read, length, index, closed, read',
    PointerArray.ok_bind, if_pos (Nat.succ_ne_zero front.length), Nat.add_sub_cancel, taken]
  simp only [split, List.dropLast_concat, List.getLast_append_singleton]

end Calls

/-! ### What is to be called -/

inductive ExecVariant where
  | execl | execlp | execle
  deriving DecidableEq

/-- The helper of a variant. -/
def ExecVariant.orig : ExecVariant → α → Option α → VaList α → Except Fault (ExecCall α)
  | .execl => origVexecl
  | .execlp => origVexeclp
  | .execle => origVexecle

/-- The pointers behind the first argument: for `execle` the environment comes last. -/
def ExecVariant.vaList (args : List α) (envp : Option α) : ExecVariant → VaList α
  | .execle => args.map some ++ [none, envp]
  | _ => args.map some ++ [none]

/-- The call is what the application asked for. -/
structure Forwarded (variant : ExecVariant) (path arg : α) (args : List α) (envp : Option α)
    (call : ExecCall α) : Prop where
  file : call.file = path
  argv : call.argv = arg :: args
  search : call.function.SearchesPath ↔ variant = .execlp
  env : variant = .execle → call.env = .vector envp

def Forwards (variant : ExecVariant) (path arg : α) (args : List α) (envp : Option α) : Prop :=
  ∃ call, variant.orig path (some arg) (variant.vaList args envp) = .ok call ∧
    Forwarded variant path arg args envp call

theorem not_forwards_execle (path arg : α) {args : List α} (few : args.length ≤ 510)
    (envp : Option α) : ¬ Forwards .execle path arg args envp := by
  rintro ⟨call, called, forwarded⟩
  have ended := origVexecle_eq path arg [envp] few
  cases called.symm.trans ended
  have short := congrArg List.length forwarded.argv
  rw [List.length_dropLast, List.length_cons] at short
  omega

/-- **Forwarding of exec calls.** `execl` and `execlp` reach the call that was asked
for with every argument list, and `execle` with none. -/
theorem forwards_iff (variant : ExecVariant) (path arg : α) {args : List α}
    (few : args.length ≤ 500) (envp : Option α) :
    Forwards variant path arg args envp ↔ variant ≠ .execle := by
  have room : args.length ≤ 510 := by omega
  cases variant with
  | execl =>
      refine iff_of_true ⟨_, origVexecl_eq path arg [] room, rfl, rfl, ?_, ?_⟩ (by decide)
      · exact iff_of_false id (by decide)
      · exact fun other => absurd other (by decide)
  | execlp =>
      refine iff_of_true ⟨_, origVexeclp_eq path arg [] room, rfl, rfl, ?_, ?_⟩ (by decide)
      · exact iff_of_true trivial rfl
      · exact fun other => absurd other (by decide)
  | execle => exact iff_of_false (not_forwards_execle path arg room envp) (by decide)

theorem forwards_iff_execlp :
    Forwards .execlp "ls" "ls" ["-l", "/tmp"] none ↔ ExecVariant.execlp ≠ .execle :=
  forwards_iff .execlp "ls" "ls" (by decide) none

/-- `execle("/bin/ls", "ls", "-l", NULL, envp)` runs without its argument, and in the
environment `-l`. -/
theorem execle_not_forwarded :
    origVexecle "/bin/ls" (some "ls") [some "-l", none, some "envp"] =
        .ok ⟨.execvpe, "/bin/ls", ["ls"], .vector (some "-l")⟩ ∧
      ¬ Forwards .execle "/bin/ls" "ls" ["-l"] (some "envp") :=
  ⟨origVexecle_eq "/bin/ls" "ls" [some "envp"] (show ["-l"].length ≤ 510 by decide),
    not_forwards_execle "/bin/ls" "ls" (by decide) (some "envp")⟩

end IoMonitor
