import IoMonitor.Interposer.ErrorCodes

/-!
The byte counts of the wrappers that read and write.

The generator passes the variable `count` wherever the text of a row has one:
that is the parameter of `read`, a local of the hook of `fread`, and nothing in
`readv`, whose parameter is `iovcnt`. Only `fprintf` and `fscanf` count by the
result. `bytes_truthful_iff` says for each source of the count where it is the
number of bytes transferred.
-/

namespace IoMonitor

open CString ErrorReport

/-! ### Where the count comes from -/

inductive CountSource where
  | nothing | parameter | product | size | result
  deriving DecidableEq, Repr

def CountSource.value (inv : Invocation) : CountSource → Int
  | nothing => 0
  | parameter => inv.count
  | product => toInt (inv.size * inv.nmemb)
  | size => toInt inv.size
  | result => toInt inv.result

/-- What a statement sets `count` to. -/
def HookStmt.countSource : HookStmt → Option CountSource
  | .countProduct => some .product
  | .countSize => some .size
  | .countResult => some .result
  | _ => none

namespace Row

def countSource (row : Row) : CountSource :=
  ((row.hook.filterMap HookStmt.countSource).getLast?).getD
    (if row.hasCount then .parameter else .nothing)

/-- The byte count passed to `record()`. -/
def bytesTransferred (row : Row) (inv : Invocation) : Int :=
  (row.recordCall inv (runHook row inv row.hook inv.locals).1).bytesTransferred

end Row

theorem takeFd_count (l : Locals) (a : Option Answer) : (l.takeFd a).1.count = l.count := by
  cases a <;> rfl

theorem HookStmt.run_count (row : Row) (inv : Invocation) (l : Locals) (stmt : HookStmt) :
    (stmt.run row inv l).1.count = (stmt.countSource.map (·.value inv)).getD l.count := by
  cases stmt with
  | setError t =>
      simp only [run, countSource]
      split <;> rfl
  | openedFile | openedDir =>
      simp only [run, countSource]
      split
      · rfl
      · exact takeFd_count _ _
  | filenoStream | dirfdStream => exact takeFd_count _ _
  | realIp | printPidAndSig =>
      simp only [run, countSource]
      split <;> rfl
  | checkForHttp | fdResult | countProduct | countSize | countResult | initInChild => rfl

theorem runHook_count (row : Row) (inv : Invocation) (hook : List HookStmt) (l : Locals) :
    (runHook row inv hook l).1.count =
      (((hook.filterMap HookStmt.countSource).getLast?).map (·.value inv)).getD l.count := by
  induction hook generalizing l with
  | nil => rfl
  | cons stmt rest ih =>
      simp only [runHook, ih, HookStmt.run_count]
      cases source : stmt.countSource with
      | none => simp [source]
      | some s =>
          simp only [List.filterMap_cons, source, List.getLast?_cons, Option.map_some,
            Option.getD_some]
          cases (rest.filterMap HookStmt.countSource).getLast? <;> rfl

theorem Row.hasCount_of_source {row : Row} {s : CountSource}
    (last : (row.hook.filterMap HookStmt.countSource).getLast? = some s) : row.hasCount = true := by
  obtain ⟨stmt, hstmt, sets⟩ := List.mem_filterMap.mp (List.mem_of_getLast? last)
  have mentioned : stmt.mentionsCount = true := by
    cases stmt <;> first | rfl | cases sets
  simp only [hasCount, Bool.or_eq_true, List.any_eq_true]
  exact .inl ⟨stmt, hstmt, mentioned⟩

theorem Row.bytesTransferred_eq (row : Row) (inv : Invocation) :
    row.bytesTransferred inv = (row.countSource.value inv).bmod (2 ^ 64) := by
  simp only [bytesTransferred, recordCall, runHook_count, countSource]
  cases last : (row.hook.filterMap HookStmt.countSource).getLast? with
  | some s =>
      rw [if_pos (hasCount_of_source last)]
      rfl
  | none =>
      simp only [Option.map_none, Option.getD_none]
      split <;> rfl

/-! ### The rows that read and write -/

/-- Each with the way its function reports errors. -/
def transfers : List (Row × Convention) :=
  readRows.zip readContracts ++ writeRows.zip writeContracts

/-- The conventions of these rows with the sources of their counts. -/
def countedConventions : List (Convention × CountSource) :=
  [(.number, .parameter), (.number, .nothing), (.itemsRead, .product), (.itemsWritten, .product),
    (.converted, .result), (.printed, .result)]

theorem transfers_counted :
    ∀ p ∈ transfers, (p.2, p.1.countSource) ∈ countedConventions := by
  decide +kernel

/-- The values are of their C types: `size_t`, `ssize_t` and `int`. -/
structure Invocation.Typed (c : Convention) (inv : Invocation) : Prop where
  count : 0 ≤ inv.count ∧ inv.count < 2 ^ 64
  size : 0 ≤ inv.size
  nmemb : 0 ≤ inv.nmemb
  number : c = .number → inv.result < 2 ^ 63
  int : c = .printed ∨ c = .converted → -2 ^ 31 ≤ inv.result ∧ inv.result < 2 ^ 31

/-- The bytes that a successful call has transferred. -/
def transferred (inv : Invocation) : Convention → Int
  | .itemsRead | .itemsWritten => inv.size * inv.result
  | _ => inv.result

/-- The count is the number of bytes transferred, and 0 where the call failed. What
`fscanf` has read it does not say. -/
structure BytesTruthful (c : Convention) (inv : Invocation) (bytes : Int) (error : Option Int) :
    Prop where
  success : error = none → if c = .converted then 0 ≤ bytes else bytes = transferred inv c
  failure : error ≠ none → bytes = 0

/-- The condition on an outcome under which a count from that source is right. -/
def BytesTruthfulWhen (inv : Invocation) : Convention → CountSource → Option Int → Prop
  -- the bytes asked for
  | .number, .parameter, none => inv.result = inv.count
  | .number, .parameter, some _ => inv.count = 0
  -- nothing
  | .number, _, none => inv.result = 0
  | .number, _, some _ => True
  -- the items asked for, as an `int`
  | .itemsRead, _, none | .itemsWritten, _, none =>
      inv.size * inv.result < 2 ^ 31 ∧ 2 ^ 32 ∣ inv.size * (inv.nmemb - inv.result)
  | .itemsRead, _, some _ | .itemsWritten, _, some _ => 2 ^ 32 ∣ inv.size * inv.nmemb
  -- the result, which is negative on a failure
  | .converted, _, none => inv.result ≠ EOF
  | _, _, error => error = none

/-- An `int` is a `ssize_t`. -/
theorem toInt_bmod (x : Int) : (toInt x).bmod (2 ^ 64) = toInt x := by
  have low : -((2 ^ 32 : Nat) / 2) ≤ toInt x := Int.le_bmod (by decide)
  have high : toInt x < ((2 ^ 32 : Nat) + 1) / 2 := Int.bmod_lt (by decide)
  refine (Int.bmod_eq_iff (by decide)).mpr ⟨?_, ?_, ?_⟩
  · omega
  · omega
  · simp

theorem toInt_eq_iff {x y : Int} (nonneg : 0 ≤ y) :
    toInt x = y ↔ y < 2 ^ 31 ∧ 2 ^ 32 ∣ x - y := by
  have modulus : ((2 ^ 32 : Nat) : Int) = 4294967296 := rfl
  rw [toInt, Int.bmod_eq_iff (by decide), modulus]
  omega

theorem result_value {inv : Invocation} (int : -2 ^ 31 ≤ inv.result ∧ inv.result < 2 ^ 31) :
    (CountSource.result.value inv).bmod (2 ^ 64) = inv.result :=
  (toInt_bmod _).trans (toInt_of_int int.1 int.2)

/-- A `size_t` that becomes a `ssize_t`. -/
theorem bmod_eq_iff_of_size {x y : Int} (nonneg : 0 ≤ x) (size : x < 2 ^ 64) (nonneg' : 0 ≤ y)
    (ssize : y < 2 ^ 63) : x.bmod (2 ^ 64) = y ↔ y = x := by
  have modulus : ((2 ^ 64 : Nat) : Int) = 18446744073709551616 := rfl
  rw [Int.bmod_eq_iff (by decide), modulus]
  omega

theorem bytesTruthful_none {c : Convention} {inv : Invocation} {bytes : Int} :
    BytesTruthful c inv bytes none ↔
      if c = .converted then 0 ≤ bytes else bytes = transferred inv c :=
  ⟨fun h => h.success rfl, fun h => ⟨fun _ => h, fun failed => absurd rfl failed⟩⟩

theorem bytesTruthful_some {c : Convention} {inv : Invocation} {bytes e : Int} :
    BytesTruthful c inv bytes (some e) ↔ bytes = 0 :=
  ⟨fun h => h.failure (by simp), fun h => ⟨by simp, fun _ => h⟩⟩

/-- The contracts of the functions that count items. -/
theorem items_nonneg {c : Convention} {o : Outcome} (items : c = .itemsRead ∨ c = .itemsWritten)
    (size : 0 ≤ o.size) (nmemb : 0 ≤ o.nmemb) (ok : c.Succeeds o) : 0 ≤ o.size * o.result := by
  refine Int.mul_nonneg size ?_
  rcases items with rfl | rfl <;> simp only [Convention.Succeeds] at ok <;> split at ok <;> omega

section Outcomes

variable {c : Convention} {source : CountSource} {inv : Invocation}

theorem bytes_success (counted : (c, source) ∈ countedConventions) (typed : inv.Typed c)
    (ok : c.Succeeds inv.outcome) :
    BytesTruthful c inv ((source.value inv).bmod (2 ^ 64)) none ↔
      BytesTruthfulWhen inv c source none := by
  rw [bytesTruthful_none]
  fin_cases counted
  · exact bmod_eq_iff_of_size typed.count.1 typed.count.2 ok (typed.number rfl)
  · simp [CountSource.value, transferred, BytesTruthfulWhen, eq_comm]
  · have nonneg := items_nonneg (.inl rfl) typed.size typed.nmemb ok
    simp only [CountSource.value, toInt_bmod, transferred, BytesTruthfulWhen, Int.mul_sub]
    exact toInt_eq_iff nonneg
  · have nonneg := items_nonneg (.inr rfl) typed.size typed.nmemb ok
    simp only [CountSource.value, toInt_bmod, transferred, BytesTruthfulWhen, Int.mul_sub]
    exact toInt_eq_iff nonneg
  · have ok : 0 ≤ inv.result ∨ inv.result = EOF := ok
    rw [result_value (typed.int (.inr rfl)), if_pos rfl]
    simp only [BytesTruthfulWhen, EOF] at ok ⊢
    omega
  · rw [result_value (typed.int (.inl rfl)), if_neg (by decide)]
    simp [BytesTruthfulWhen, transferred]

theorem bytes_failure (counted : (c, source) ∈ countedConventions) (typed : inv.Typed c) {e : Int}
    (fails : c.Fails inv.outcome e) :
    BytesTruthful c inv ((source.value inv).bmod (2 ^ 64)) (some e) ↔
      BytesTruthfulWhen inv c source (some e) := by
  rw [bytesTruthful_some]
  fin_cases counted
  · simp only [CountSource.value, BytesTruthfulWhen]
    rw [bmod_eq_iff_of_size typed.count.1 typed.count.2 le_rfl (by decide), eq_comm]
  · simp [CountSource.value, BytesTruthfulWhen]
  · simp only [CountSource.value, toInt_bmod, BytesTruthfulWhen]
    simpa using toInt_eq_iff (x := inv.size * inv.nmemb) le_rfl
  · simp only [CountSource.value, toInt_bmod, BytesTruthfulWhen]
    simpa using toInt_eq_iff (x := inv.size * inv.nmemb) le_rfl
  · obtain ⟨result, -⟩ : inv.result = EOF ∧ _ := fails
    rw [result_value (typed.int (.inr rfl)), result]
    simp [BytesTruthfulWhen, EOF]
  · obtain ⟨result, -⟩ : inv.result < 0 ∧ _ := fails
    rw [result_value (typed.int (.inl rfl))]
    simp [BytesTruthfulWhen, result.ne]

end Outcomes

/-- **Byte counts.** For every outcome that the contract of the original allows, the
count recorded is the number of bytes transferred iff the outcome is one that the
source of the count allows for. -/
theorem bytes_truthful_iff {row : Row} {c : Convention} (listed : (row, c) ∈ transfers)
    {inv : Invocation} (typed : inv.Typed c) {error : Option Int}
    (allowed : c.Allows inv.outcome error) :
    BytesTruthful c inv (row.bytesTransferred inv) error ↔
      BytesTruthfulWhen inv c row.countSource error := by
  have counted := transfers_counted _ listed
  rw [Row.bytesTransferred_eq]
  cases error with
  | none => exact bytes_success counted typed allowed
  | some e => exact bytes_failure counted typed allowed.2

/-! A short read, and a `read` that fills its buffer. -/

/-- `read(7, buf, 64)`. -/
def readOf (result : Int) : Invocation := { Invocation.zero with result, fd := 7, count := 64 }

theorem readOf_typed {result : Int} (small : result < 2 ^ 63) :
    (readOf result).Typed .number := by
  constructor
  · simp [readOf]
  · simp [readOf, Invocation.zero]
  · simp [readOf, Invocation.zero]
  · exact fun _ => small
  · rintro (h | h) <;> cases h

theorem bytes_truthful_iff_fullRead :
    BytesTruthful .number (readOf 64) ((readRows.getD 0 writeRow).bytesTransferred (readOf 64))
      none := by
  have listed : (readRows.getD 0 writeRow, Convention.number) ∈ transfers := List.mem_cons_self
  have allowed : Convention.number.Allows (readOf 64).outcome none := by decide
  refine (bytes_truthful_iff listed (readOf_typed (by decide)) allowed).mpr ?_
  have source : (readRows.getD 0 writeRow).countSource = .parameter := by decide
  rw [source]
  rfl

/-- Ten bytes come of the 64 asked for. -/
theorem short_read_counted_full :
    ¬ ∀ p ∈ transfers, ∀ inv error, Invocation.Typed p.2 inv → p.2.Allows inv.outcome error →
      BytesTruthful p.2 inv (p.1.bytesTransferred inv) error := by
  intro truthful
  have counted := (truthful (readRows.getD 0 writeRow, .number) List.mem_cons_self (readOf 10) none
    (readOf_typed (by decide)) (by decide)).success rfl
  revert counted
  decide

end IoMonitor
