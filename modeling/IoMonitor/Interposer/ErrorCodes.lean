import IoMonitor.Interposer.Wrapper
import IoMonitor.Lib.ErrorReport
import Mathlib.Tactic.FinCases

/-!
The error codes of the wrappers against the contracts of the originals.

A hook takes `errno` where its own test of the result holds. The tests were
written for functions that return -1: `dup` and `readlink` have a result that is
not 0 on success, `fread` one that is never negative, and some functions return
their error number. `error_code_truthful_iff` says where the code recorded is right.
-/

namespace IoMonitor

open CString ErrorReport

/-! ### Contracts -/

def openCloseContracts : List Convention :=
  [.number, .number, .pointer, .pointer, .number, .number, .status, .status]

def readContracts : List Convention :=
  [.number, .number, .number, .number, .number, .itemsRead, .converted, .converted]

def writeContracts : List Convention :=
  [.number, .number, .number, .number, .number, .printed, .printed, .itemsWritten]

def syncContracts : List Convention := [.status, .status, .infallible, .status, .status]

def xattrContracts : List Convention :=
  [.status, .status, .status, .number, .number, .number, .number, .number, .number,
    .status, .status, .status]

def fileSystemContracts : List Convention := [.status, .status, .status]

/-- Of `readdir_r` the error number is the result. -/
def dirMetadataContracts : List Convention :=
  [.pointer, .pointer, .status, .entry, .errorNumber, .infallible, .infallible, .position]

/-- All return 0 or -1, but for `posix_fallocate`. -/
def fileMetadataContracts : List Convention :=
  List.replicate 19 .status ++ [.errorNumber, .status, .status, .status]

def socketContracts : List Convention := [.status, .number, .status]

def dirContracts : List Convention := List.replicate 5 .status

/-- Of `fork` and `kill`: the calls that come after the exec family. -/
def processContracts : List Convention := [.number, .status]

def miscContracts : List Convention := List.replicate 4 .status

def fileDescriptorContracts : List Convention := [.number, .number, .number]

def linkContracts : List Convention := [.status, .status, .number]

def threadContracts : List Convention := List.replicate 7 .errorNumber

/-- The rows outside the exec family, each with the way its function reports errors. -/
def contracts : List (Row × Convention) :=
  openCloseRows.zip openCloseContracts ++ readRows.zip readContracts ++
    writeRows.zip writeContracts ++ syncRows.zip syncContracts ++ xattrRows.zip xattrContracts ++
    fileSystemRows.zip fileSystemContracts ++ dirMetadataRows.zip dirMetadataContracts ++
    fileMetadataRows.zip fileMetadataContracts ++ socketRows.zip socketContracts ++
    dirRows.zip dirContracts ++ (processRows.drop 6).zip processContracts ++
    miscRows.zip miscContracts ++ fileDescriptorRows.zip fileDescriptorContracts ++
    linkRows.zip linkContracts ++ threadRows.zip threadContracts

theorem contracts_rows :
    contracts.map Prod.fst =
      openCloseRows ++ readRows ++ writeRows ++ syncRows ++ xattrRows ++ fileSystemRows ++
        dirMetadataRows ++ fileMetadataRows ++ socketRows ++ dirRows ++ processRows.drop 6 ++
        miscRows ++ fileDescriptorRows ++ linkRows ++ threadRows := rfl

theorem execRows_exec : ∀ row ∈ processRows.take 6, row.isExec = true := by decide +kernel

/-- Every row outside the exec family has its contract. -/
theorem contracts_complete {row : Row} (listed : row ∈ monitoredFunctions)
    (plain : row.isExec = false) : ∃ c, (row, c) ∈ contracts := by
  suffices mem : row ∈ contracts.map Prod.fst by
    obtain ⟨⟨_, c⟩, hp, rfl⟩ := List.mem_map.mp mem
    exact ⟨c, hp⟩
  rw [contracts_rows]
  have process : row ∈ processRows → row ∈ processRows.drop 6 := by
    intro mem
    rw [← List.take_append_drop 6 processRows] at mem
    refine (List.mem_append.mp mem).resolve_left fun exec => ?_
    rw [execRows_exec row exec] at plain
    cases plain
  simp only [monitoredFunctions, List.mem_append] at listed ⊢
  exact listed.imp_left (.imp_left (.imp_left (.imp_left (.imp_right process))))

def Invocation.outcome (inv : Invocation) : Outcome where
  size := inv.size
  nmemb := inv.nmemb
  result := inv.result
  errno := inv.errno

/-! ### What a hook makes of the result -/

/-- The test on which a statement takes `errno`. -/
def HookStmt.test : HookStmt → Option ErrorTest
  | .setError test => some test
  | .openedFile | .openedDir => some .isNull
  | _ => none

namespace Row

def tests (row : Row) : List ErrorTest := row.hook.filterMap HookStmt.test

/-- The error code passed to `record()`. -/
def errorCode (row : Row) (inv : Invocation) : Int :=
  (row.recordCall inv (runHook row inv row.hook inv.locals).1).errorCode

end Row

theorem takeFd_errorCode (l : Locals) (a : Option Answer) :
    (l.takeFd a).1.errorCode = l.errorCode := by
  cases a <;> rfl

theorem HookStmt.run_errorCode (row : Row) (inv : Invocation) (l : Locals) (stmt : HookStmt) :
    (stmt.run row inv l).1.errorCode =
      if stmt.test.any (·.holds row inv) then inv.errno else l.errorCode := by
  cases stmt with
  | setError t =>
      simp only [run, test, Option.any_some]
      by_cases holds : t.holds row inv
      · simp only [holds, if_true]
      · simp only [holds, Bool.false_eq_true, if_false]
  | openedFile | openedDir =>
      simp only [run, test, Option.any_some, ErrorTest.holds, decide_eq_true_eq]
      by_cases null : inv.result = 0
      · simp only [null, if_true]
      · simp only [null, if_false]
        exact takeFd_errorCode _ _
  | filenoStream | dirfdStream => exact takeFd_errorCode _ _
  | realIp =>
      simp only [run]
      split <;> rfl
  | printPidAndSig =>
      simp only [run]
      split <;> rfl
  | checkForHttp | fdResult | countProduct | countSize | countResult | initInChild => rfl

theorem runHook_errorCode (row : Row) (inv : Invocation) (hook : List HookStmt) (l : Locals) :
    (runHook row inv hook l).1.errorCode =
      if (hook.filterMap HookStmt.test).any (·.holds row inv) then inv.errno
      else l.errorCode := by
  induction hook generalizing l with
  | nil => rfl
  | cons stmt rest ih =>
      simp only [runHook, ih, HookStmt.run_errorCode]
      cases test : stmt.test with
      | none => simp [test]
      | some t =>
          by_cases first : t.holds row inv <;>
            simp [test, first]

/-- The code is `errno` where a test of the hook holds, and 0 elsewhere. -/
theorem Row.errorCode_eq (row : Row) (inv : Invocation) :
    row.errorCode inv =
      if row.tests.any (·.holds row inv) then inv.outcome.errno else 0 :=
  runHook_errorCode row inv row.hook inv.locals

/-! ### Where the code is right -/

/-- The condition on an outcome under which tests of the result give the error code
that the convention asks for. -/
def TruthfulWhen : Convention → List ErrorTest → Outcome → Option Int → Prop
  -- without a test, and for a `size_t` that is tested for being negative
  | _, [], _, error => error = none
  | .itemsRead, _, _, error => error = none
  -- the error number is in the result
  | .errorNumber, _, o, error => ∀ e ∈ error, o.errno = e
  -- the tests that hold on a success too
  | .number, [.isNonzero], o, error => error = none → o.result ≠ 0 → o.errno = 0
  | .entry, _, o, error => error = none → o.result = 0 → o.errno = 0
  | .converted, _, o, error => error = none → o.result = EOF → o.errno = 0
  | .itemsWritten, _, o, error => error = none → o.result < o.nmemb → o.errno = 0
  | _, _, _, _ => True

/-- The conventions of the table with the tests that its hooks make. -/
def testedConventions : List (Convention × List ErrorTest) :=
  [(.status, [.isMinusOne]), (.status, [.isNegative]), (.status, [.isNonzero]), (.status, []),
    (.number, [.isMinusOne]), (.number, [.isNegative]), (.number, [.isNonzero]), (.number, []),
    (.pointer, [.isNull]), (.entry, [.isNull]), (.position, []), (.printed, [.isNegative]),
    (.converted, [.isEof]), (.itemsRead, [.isNegative]), (.itemsWritten, [.isBelowNmemb]),
    (.errorNumber, [.isNonzero]), (.infallible, [])]

theorem contracts_tested : ∀ p ∈ contracts, (p.2, p.1.tests) ∈ testedConventions := by
  decide +kernel

/-- Of the results tested for being negative, only that of `fread` cannot be. -/
theorem contracts_unsigned :
    ∀ p ∈ contracts, p.1.tests = [.isNegative] → p.1.isUnsigned = decide (p.2 = .itemsRead) := by
  decide +kernel

section Tests

variable {row : Row} {c : Convention} {tests : List ErrorTest} {inv : Invocation}

/-- After a success, `errno` is taken for an error only where the condition says so. -/
theorem truthfulWhen_success (tested : (c, tests) ∈ testedConventions)
    (unsigned : tests = [.isNegative] → row.isUnsigned = decide (c = .itemsRead))
    (ok : c.Succeeds inv.outcome) :
    (tests.any (·.holds row inv) = true → inv.errno = 0) ↔
      TruthfulWhen c tests inv.outcome none := by
  fin_cases tested <;>
    simp [TruthfulWhen, ErrorTest.holds, Convention.Succeeds, Invocation.outcome, EOF]
      at ok unsigned ⊢
  all_goals grind

/-- A failure is noticed, and its number is in `errno`, only where the condition says so. -/
theorem truthfulWhen_failure (tested : (c, tests) ∈ testedConventions)
    (unsigned : tests = [.isNegative] → row.isUnsigned = decide (c = .itemsRead)) {e : Int}
    (positive : 0 < e) (fails : c.Fails inv.outcome e) :
    (tests.any (·.holds row inv) = true ∧ inv.errno = e) ↔
      TruthfulWhen c tests inv.outcome (some e) := by
  fin_cases tested <;>
    simp [TruthfulWhen, ErrorTest.holds, Convention.Fails, Invocation.outcome, EOF]
      at fails unsigned ⊢
  all_goals grind

end Tests

/-- **Error codes.** For every outcome that the contract of the original allows, the
code recorded is 0 iff the call succeeded, and else the error number it reported, iff
the tests of the hook suit the contract at this outcome. -/
theorem error_code_truthful_iff {row : Row} {c : Convention} (contract : (row, c) ∈ contracts)
    {inv : Invocation} {error : Option Int} (allowed : c.Allows inv.outcome error) :
    Truthful (row.errorCode inv) error ↔ TruthfulWhen c row.tests inv.outcome error := by
  have tested := contracts_tested _ contract
  have unsigned := contracts_unsigned _ contract
  rw [Row.errorCode_eq, truthful_iff allowed]
  cases error with
  | none =>
      rw [← truthfulWhen_success tested unsigned allowed]
      simp [Invocation.outcome]
  | some e =>
      rw [← truthfulWhen_failure tested unsigned allowed.1 allowed.2]
      simp [Invocation.outcome]

/-! A call that fails, and one that succeeds after another has failed. -/

theorem error_code_truthful_iff_open :
    Truthful (openRow.errorCode { Invocation.zero with result := -1, errno := 2 }) (some 2) := by
  have contract : (openRow, Convention.number) ∈ contracts := List.mem_cons_self
  exact (error_code_truthful_iff contract (by decide)).mpr trivial

/-- `dup(3)` returns 4, with the 2 of an earlier failure in `errno`. -/
def dupCall : Invocation := { Invocation.zero with result := 4, errno := 2 }

/-- The new descriptor is taken for a failure. -/
theorem dup_recorded_failed :
    ¬ ∀ p ∈ contracts, ∀ inv error, p.2.Allows (Invocation.outcome inv) error →
      Truthful (p.1.errorCode inv) error := by
  intro truthful
  have listed : (fileDescriptorRows.getD 0 openRow, Convention.number) ∈ contracts :=
    List.mem_append_left _ (List.mem_append_left _ (List.mem_append_right _ List.mem_cons_self))
  have zero := (truthful _ listed dupCall none (by decide)).zero
  revert zero
  decide

end IoMonitor
