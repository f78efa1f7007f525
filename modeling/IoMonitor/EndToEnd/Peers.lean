import IoMonitor.Decimal
import IoMonitor.EndToEnd.EventsCaptured
import IoMonitor.Interposer.Wrapper

/-!
The peers of a program.

`real_ip` prints an IPv4 address and a port for the wrappers of `connect` and `bind`,
which pass it to `record()` as `s1`. The text fits the wrapper's `path[200]`, no copy
on its way cuts it, and it reads back. So from what the queue takes of a run, the
addresses of its calls are read, in order (`peers_read`).
-/

namespace IoMonitor

open CString Columns

/-! ### `real_ip` -/

/-- A `struct sockaddr_in`. `sinPort` is the value that the two bytes have on a
little-endian machine, and `sinAddr` the bytes of the address. -/
structure SockaddrIn where
  sinPort : BitVec 16
  sinAddr : Fin 4 → BitVec 8

/-- Swaps the two bytes. -/
def be16toh (x : BitVec 16) : BitVec 16 := x.extractLsb' 0 8 ++ x.extractLsb' 8 8

/-- `0xff & ip[i]`: a `char` has a sign, which the mask takes off again. -/
def maskedChar (c : BitVec 8) : Nat := (255#32 &&& c.signExtend 32).toNat

/-- The text for `AF_INET`. -/
def realIp (addr : SockaddrIn) : Str :=
  let ip i := decimal (maskedChar (addr.sinAddr i))
  join '.' [ip 0, ip 1, ip 2, ip 3] ++ ':' :: decimal (be16toh addr.sinPort).toNat

/-- What `real_ip` is given, by `sa_family`. -/
def sockAddr : Option SockaddrIn → SockAddr
  | some addr => .inet (realIp addr)
  | none => .otherFamily

/-! ### Reading it -/

/-- The four numbers of an address, and a port. -/
abbrev Endpoint := List Nat × Nat

def SockaddrIn.endpoint (addr : SockaddrIn) : Endpoint :=
  ([0, 1, 2, 3].map fun i => (addr.sinAddr i).toNat, (be16toh addr.sinPort).toNat)

def readNumber (s : Str) : Option Nat :=
  if s ≠ [] ∧ s.all Char.isDigit then some (Nat.ofDigitChars 10 s 0) else none

def readEndpoint (s : Str) : Option Endpoint :=
  match s.splitOn ':' with
  | [address, port] => do
      let numbers ← (address.splitOn '.').mapM readNumber
      let port ← readNumber port
      some (numbers, port)
  | _ => none

theorem maskedChar_eq : ∀ c : BitVec 8, maskedChar c = c.toNat := by decide +kernel

theorem readNumber_decimal (n : Nat) : readNumber (decimal n) = some n := by
  have digits : (Nat.toDigits 10 n).all Char.isDigit := by
    rw [List.all_eq_true]
    intro c mem
    exact Nat.isDigit_of_mem_toDigits (by decide) (by decide) mem
  have nonempty : Nat.toDigits 10 n ≠ [] := by
    rw [← decimal_natCast]
    exact decimal_ne_nil n
  rw [decimal_natCast, readNumber, if_pos ⟨nonempty, digits⟩,
    Nat.ofDigitChars_toDigits (by decide) (by decide)]

theorem notMem_decimal_natCast {c : Char} (other : ¬ c.isDigit) (n : Nat) :
    c ∉ decimal n := by
  rw [decimal_natCast]
  exact fun mem => other (Nat.isDigit_of_mem_toDigits (by decide) (by decide) mem)

/-- Numbers with dots between them. -/
def dotted (ns : List Nat) : Str := join '.' (ns.map fun n : Nat => decimal n)

theorem notMem_dotted {c : Char} (other : ¬ c.isDigit) (ne : c ≠ '.') (ns : List Nat) :
    c ∉ dotted ns := by
  rw [dotted, notMem_join_iff ne]
  intro x mem
  obtain ⟨n, -, rfl⟩ := List.mem_map.mp mem
  exact notMem_decimal_natCast other n

theorem readNumber_dotted {ns : List Nat} (nonempty : ns ≠ []) :
    ((dotted ns).splitOn '.').mapM readNumber = some ns := by
  have noDot : ∀ x ∈ ns.map fun n : Nat => decimal n, '.' ∉ x := by
    intro x mem
    obtain ⟨n, -, rfl⟩ := List.mem_map.mp mem
    exact notMem_decimal_natCast (by decide) n
  rw [dotted, splitOn_join '.' (by simpa only [ne_eq, List.map_eq_nil_iff] using nonempty),
    columns_of_notMem noDot]
  clear nonempty noDot
  induction ns with
  | nil => rfl
  | cons n ns ih =>
      rw [List.map_cons, List.mapM_cons, readNumber_decimal, ih]
      rfl

theorem realIp_eq (addr : SockaddrIn) :
    realIp addr = dotted addr.endpoint.1 ++ ':' :: decimal addr.endpoint.2 := by
  simp only [realIp, maskedChar_eq]
  rfl

/-- The address and the port read back. -/
theorem readEndpoint_realIp (addr : SockaddrIn) :
    readEndpoint (realIp addr) = some addr.endpoint := by
  have address : ':' ∉ dotted addr.endpoint.1 := notMem_dotted (by decide) (by decide) _
  have port : ':' ∉ decimal addr.endpoint.2 := notMem_decimal_natCast (by decide) _
  have numbers : addr.endpoint.1 ≠ [] := List.cons_ne_nil _ _
  rw [realIp_eq, readEndpoint, List.splitOn_append_cons_self,
    List.splitOn_eq_singleton address, List.splitOn_eq_singleton port]
  simp only [List.singleton_append, readNumber_dotted numbers, readNumber_decimal]
  rfl

/-- Three digits for each byte and five for the port. -/
theorem realIp_length (addr : SockaddrIn) : (realIp addr).length ≤ 21 := by
  have digits : ∀ {n k : Nat}, 0 < k → n < 10 ^ k → (decimal n).length ≤ k := by
    intro n k positive small
    rw [decimal_natCast]
    exact (Nat.length_toDigits_le_iff (by decide) positive).mpr small
  have byte : ∀ i, (decimal (addr.sinAddr i).toNat).length ≤ 3 := fun i =>
    digits (by decide) (lt_trans (addr.sinAddr i).isLt (by decide))
  have port : (decimal (be16toh addr.sinPort).toNat).length ≤ 5 :=
    digits (by decide) (lt_trans (be16toh addr.sinPort).isLt (by decide))
  have first := byte 0
  have second := byte 1
  have third := byte 2
  have fourth := byte 3
  simp only [realIp, maskedChar_eq, join_cons_cons, join_singleton, List.length_append,
    List.length_cons]
  omega

theorem realIp_noNul (addr : SockaddrIn) : nul ∉ realIp addr := by
  rw [realIp_eq, List.mem_append, List.mem_cons, not_or, not_or]
  exact ⟨notMem_dotted (by decide) (by decide) _, by decide,
    notMem_decimal_natCast (by decide) _⟩

/-! ### The calls -/

/-- A call of `connect` or of `bind`. -/
structure AddressCall where
  row : Row
  listed : row ∈ socketRows
  printing : .realIp ∈ row.hook
  inv : Invocation
  peer : Option SockaddrIn
  address : inv.address = sockAddr peer

/-- The operations of these two. -/
def addressOps : List OpType := [.connect, .bind]

/-- A call of `record()`: that of a wrapper with an address, or of another one. -/
inductive ProgramCall where
  | address (call : AddressCall)
  | other (c : RecordCall) (defined_ : c.Defined) (operation : c.opType ∉ addressOps)

namespace ProgramCall

def recordCall : ProgramCall → RecordCall
  | address call =>
      call.row.recordCall call.inv (runHook call.row call.inv call.row.hook call.inv.locals).1
  | other c _ _ => c

/-- The address, where there is an IPv4 address. -/
def endpoint : ProgramCall → Option Endpoint
  | address call => call.peer.map SockaddrIn.endpoint
  | other _ _ _ => none

end ProgramCall

/-- What is read of a record. -/
def MonitorRecord.endpoint (r : MonitorRecord) : Option Endpoint :=
  if r.opType ∈ addressOps.map OpType.code then readEndpoint r.s1.chars else none

/-- The hook of both rows leaves the text in `path`. -/
theorem runHook_path (row : Row) (inv : Invocation) {peer : Option SockaddrIn}
    (address : inv.address = sockAddr peer) :
    (runHook row inv [.setError .isMinusOne, .realIp] inv.locals).1.text "path" =
      .str ((peer.map realIp).getD []) := by
  simp only [runHook, HookStmt.run, address]
  cases peer <;> simp [sockAddr, Locals.set]

/-- What the wrapper passes: the text, or the empty string. -/
theorem AddressCall.recordCall_eq (call : AddressCall) :
    (ProgramCall.address call).recordCall.opType ∈ addressOps ∧
      (ProgramCall.address call).recordCall.s1 =
        .str ((call.peer.map realIp).getD []) ∧
      (ProgramCall.address call).recordCall.s2 = .null := by
  obtain ⟨row, listed, printing, inv, peer, address⟩ := call
  simp only [socketRows, List.mem_cons, List.not_mem_nil, or_false] at listed
  rcases listed with rfl | rfl | rfl
  · exact ⟨by simp [ProgramCall.recordCall, Row.recordCall, connectRow, addressOps],
      runHook_path _ _ address, rfl⟩
  · exact absurd printing (by decide)
  · exact ⟨by simp [ProgramCall.recordCall, Row.recordCall, addressOps],
      runHook_path _ _ address, rfl⟩

theorem ProgramCall.defined (c : ProgramCall) : c.recordCall.Defined := by
  cases c with
  | address call =>
      obtain ⟨op, s1, s2⟩ := call.recordCall_eq
      refine ⟨?_, ?_, fun opens => ?_⟩
      · simp [s1, CharPtr.Readable]
      · simp [s2, CharPtr.Readable]
      · rw [opens] at op
        exact absurd op (by decide)
  | other c defined_ operation => exact defined_

theorem mem_addressOps_of_code (o : OpType) (mem : o.code ∈ addressOps.map OpType.code) :
    o ∈ addressOps := by
  revert mem
  cases o <;> decide

/-- An endpoint is read of the record of a call iff it was printed for it. -/
theorem endpoint_built {m : Monitor} {c : ProgramCall} {time : Nat} {pid : Int} {r : MonitorRecord}
    (built : buildRecord m c.recordCall time pid = some r) : r.endpoint = c.endpoint := by
  simp only [buildRecord, Option.bind_eq_bind, Option.bind_eq_some_iff, Option.some.injEq] at built
  obtain ⟨a, first, b, second, rfl⟩ := built
  cases c with
  | address call =>
      obtain ⟨op, s1, -⟩ := call.recordCall_eq
      have copy := (recordField_copyOf (by decide) first).string
      rw [s1] at copy
      rw [MonitorRecord.endpoint, if_pos (List.mem_map_of_mem op)]
      dsimp only
      rw [copy, ProgramCall.endpoint]
      cases call.peer with
      | none => rfl
      | some addr =>
          have short := realIp_length addr
          have whole : (cstr (realIp addr)).take (PATH_MAX - 1) = realIp addr := by
            rw [cstr_of_noNul (realIp_noNul addr), List.take_of_length_le]
            exact short.trans (by decide)
          simp only [CharPtr.string, Option.map_some, Option.getD_some, whole,
            readEndpoint_realIp]
  | other c defined_ operation =>
      rw [MonitorRecord.endpoint, if_neg]
      · rfl
      · intro mem
        exact operation (mem_addressOps_of_code _ mem)

/-! ### A whole run -/

/-- The call as the process makes it. -/
def recorded (c : ProgramCall × Outcomes) : Recorded := (c.1.recordCall, c.2)

/-- **Peers.** In any run over the queue, the calls whose records it takes are some of those
of the program, in order; and of the records taken exactly their addresses and ports are
read, in order. -/
theorem peers_read {env : Environment} (queue : env.messageQueuePath.isSome)
    (small : SmallWindows (initializeMonitor env).windowing) {calls : List (ProgramCall × Outcomes)}
    (clock : ∀ c ∈ calls, 0 < c.2.time ∧ Small c.2.time) {w : World}
    (ran : Machine.run process.step (startWorld (initializeMonitor env)) (calls.map recorded) =
      some w) :
    ∃ taken : List (ProgramCall × Outcomes), taken.Sublist calls ∧
      taken.map recorded =
        (atQueue ((initializeMonitor env).pipeline (calls.map recorded))).filter (·.2.taken) ∧
      w.delivered.filterMap MonitorRecord.endpoint = taken.filterMap (·.1.endpoint) := by
  have defined_ : ∀ c ∈ calls.map recorded, c.1.Defined := by
    intro c hc
    obtain ⟨call, -, rfl⟩ := List.mem_map.mp hc
    exact call.1.defined
  have timed : ∀ c ∈ calls.map recorded, 0 < c.2.time ∧ Small c.2.time := by
    intro c hc
    obtain ⟨call, mem, rfl⟩ := List.mem_map.mp hc
    exact clock call mem
  have delivered := process_law queue small defined_ timed ran
  obtain ⟨taken, sublist, same⟩ := List.sublist_map_iff.mp
    (List.filter_sublist.trans (sent_sublist (initializeMonitor env) (calls.map recorded)))
  refine ⟨taken, sublist, same.symm, ?_⟩
  rw [delivered, arrivals, same, List.map_map, List.filterMap_map]
  refine List.filterMap_congr fun c _ => ?_
  obtain ⟨r, built⟩ := buildRecord_isSome (initializeMonitor env) c.1.defined c.2.time c.2.getpid
  have attempt : attemptOf (initializeMonitor env) .application (recorded c) = ⟨.application, r⟩ :=
    attemptOf_built built
  simp only [Function.comp_apply, attempt]
  exact endpoint_built built

/-! A connection to a name server, behind a call of another kind. -/

def nameServer : SockaddrIn where
  sinPort := 0x3500
  sinAddr i := [192, 168, 0, 1].getD i 0

def connectCall : AddressCall where
  row := connectRow
  listed := List.mem_cons_self
  printing := by decide
  inv := { Invocation.zero with fd := 3, address := sockAddr (some nameServer) }
  peer := some nameServer
  address := rfl

def looksUp : List (ProgramCall × Outcomes) :=
  [(.other readHello readHello_defined (by decide), .success), (.address connectCall, .success)]

theorem peers_read_nameServer : ∃ w, Machine.run process.step
      (startWorld (initializeMonitor (queueEnvironment.monitoring "ALL".toList)))
      (looksUp.map recorded) = some w ∧
    w.delivered.filterMap MonitorRecord.endpoint = [([192, 168, 0, 1], 53)] := by
  obtain ⟨w, ran⟩ : ∃ w, Machine.run process.step
      (startWorld (initializeMonitor (queueEnvironment.monitoring "ALL".toList)))
      (looksUp.map recorded) = some w := ⟨_, rfl⟩
  have small : SmallWindows
      (initializeMonitor (queueEnvironment.monitoring "ALL".toList)).windowing := by
    intro p hp
    cases hp
  have clock : ∀ c ∈ looksUp, 0 < c.2.time ∧ Small c.2.time := by
    intro c hc
    simp only [looksUp, List.mem_cons, List.not_mem_nil, or_false] at hc
    rcases hc with rfl | rfl <;> simp [Outcomes.success, Small]
  obtain ⟨taken, sublist, same, read⟩ := peers_read rfl small clock ran
  have both : taken.length = looksUp.length := by
    have count := congrArg List.length same
    rw [List.length_map] at count
    exact count.trans rfl
  obtain rfl := sublist.eq_of_length both
  exact ⟨w, ran, read.trans rfl⟩

end IoMonitor
