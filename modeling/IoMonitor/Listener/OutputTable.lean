import IoMonitor.Decimal
import IoMonitor.Lib.FixedWidth
import IoMonitor.Lib.LineFilter
import IoMonitor.Lib.Machine
import IoMonitor.Listener.OutputCsv

/-!
The table output plugin.

`process_data` counts its records in a static `ln`: before every fourth one it
prints an empty line, before every sixteenth the header. Header and rows have the
same columns, so of any stream of records that keep to them the table is read back
by the header's columns (`table_law`).
-/

namespace IoMonitor

open CString FixedWidth Floats LineFilter

/-! ### The plugin -/

/-- The widths of both `printf`s. -/
def tableColumns : List Column :=
  [⟨10, .right, 1⟩, ⟨10, .right, 1⟩, ⟨10, .right, 1⟩, ⟨8, .right, 1⟩, ⟨5, .right, 1⟩,
    ⟨20, .right, 2⟩, ⟨20, .left, 1⟩, ⟨3, .right, 1⟩, ⟨5, .right, 1⟩, ⟨8, .right, 1⟩]

def tableLine (fields : List Str) (parm : Str) : Str := format (tableColumns.zip fields) parm

def tableTitles : List Str :=
  ["FACILITY", "DEV", "TS.", "ELAPSED", "PID", "DOMAIN", "OPERATION", "ERR", "FD", "XFER"].map
    String.toList

def headerLine : Str := tableLine tableTitles "PARM".toList

/-- The conversions of the `printf`: ten columns, and the two strings behind them.
`printFloat` is `%.4f`. -/
def tableFields (printFloat : Float32 → Str) (data : MonitorRecord) : Option (List Str × Str) := do
  let domain ← nameAt domainsNames data.domType
  let op ← nameAt opsNames data.opType
  guard (data.facility.Terminated ∧ data.device.Terminated ∧ data.s1.Terminated ∧
    data.s2.Terminated)
  some ([data.facility.chars, data.device.chars, decimal data.timestamp,
    printFloat data.elapsedTime, decimal data.pid, domain, op, decimal data.errorCode,
    decimal data.fd, decimal data.bytesTransferred], data.s1.chars ++ ' ' :: data.s2.chars)

/-- The static `ln`, and what has been printed. -/
structure TableState where
  ln : Nat
  stdout : Str

/-- `process_data`. An `ln` of `INT_MAX` has no next one. -/
def outputTable (printFloat : Float32 → Str) (t : TableState) (data : MonitorRecord) :
    Option TableState := do
  guard (t.ln < 2 ^ 31 - 1)
  let (fields, parm) ← tableFields printFloat data
  let blank := if t.ln &&& 3 = 0 then ['\n'] else []
  let header := if t.ln &&& 15 = 0 then headerLine ++ ['\n'] else []
  some
    { ln := t.ln + 1
      stdout := t.stdout ++ blank ++ header ++ tableLine fields parm ++ ['\n'] }

/-- The rows of a table: its lines without the empty ones and the headers, cut at the
columns. -/
def tableRows (table : Str) : List (List Str × Str) :=
  ((lines [] table).filter fun l => l ≠ [] ∧ l ≠ headerLine).map (read tableColumns)

/-! ### Records that keep to their columns -/

/-- A printable record on one line, with values that fit. -/
structure Tabular (printFloat : Float32 → Str) (r : MonitorRecord) : Prop where
  printable : Printable r
  oneLine : OnOneLine r
  facility : r.facility.chars.length ≤ 10 ∧ ' ' ∉ r.facility.chars.head?
  device : r.device.chars.length ≤ 10 ∧ ' ' ∉ r.device.chars.head?
  timestamp : 0 ≤ r.timestamp ∧ r.timestamp < 10 ^ 10
  elapsed : (printFloat r.elapsedTime).length ≤ 8 ∧ ' ' ∉ printFloat r.elapsedTime ∧
    '\n' ∉ printFloat r.elapsedTime
  pid : 0 ≤ r.pid ∧ r.pid < 10 ^ 5
  errorCode : 0 ≤ r.errorCode ∧ r.errorCode < 10 ^ 3
  fd : -10 ^ 4 < r.fd ∧ r.fd < 10 ^ 5
  bytes : 0 ≤ r.bytesTransferred ∧ r.bytesTransferred < 10 ^ 8

/-- What the row of a record shows. -/
def cells (printFloat : Float32 → Str) (r : MonitorRecord) : List Str × Str :=
  (tableFields printFloat r).getD ([], [])

theorem holds_right {c : Column} {s : Str} (right : c.side = .right) (fits : s.length ≤ c.width)
    (tight : ' ' ∉ s.head?) : c.Holds s where
  fits := fits
  right _ := tight
  left side := by
    rw [right] at side
    cases side

theorem notMem_head? {s : Str} {x : Char} (h : x ∉ s) : x ∉ s.head? :=
  fun mem => h (List.mem_of_mem_head? mem)

/-- A number keeps to a column with enough digits, and one place more for a sign. -/
theorem holds_decimal {c : Column} (right : c.side = .right) {n : Int} {k : Nat}
    (fits : (decimal n).length ≤ k) (width : k ≤ c.width) : c.Holds (decimal n) :=
  holds_right right (fits.trans width) (notMem_head? (notMem_decimal n (by decide)))

theorem length_decimal_nonneg {n : Int} {k : Nat} (digits : 0 < k) (low : 0 ≤ n)
    (high : n < (10 ^ k : Nat)) : (decimal n).length ≤ k := by
  obtain ⟨m, rfl⟩ := Int.eq_ofNat_of_zero_le low
  rw [decimal_natCast]
  exact (Nat.length_toDigits_le_iff (n := m) (show 1 < 10 by decide) digits).mpr (by omega)

/-! ### One row -/

def rowLine (printFloat : Float32 → Str) (r : MonitorRecord) : Str :=
  tableLine (cells printFloat r).1 (cells printFloat r).2

theorem domainName_length : ∀ name ∈ domainsNames, name.length ≤ 20 := by decide

theorem opName_length : ∀ name ∈ opsNames, name.length ≤ 20 := by decide

/-- The values of a tabular record hold in the columns. -/
theorem Tabular.holds {printFloat : Float32 → Str} {r : MonitorRecord} (h : Tabular printFloat r) :
    tableFields printFloat r = some (cells printFloat r) ∧
      (cells printFloat r).1.length = tableColumns.length ∧
      (∀ cell ∈ tableColumns.zip (cells printFloat r).1, cell.1.Holds cell.2) ∧
      (cells printFloat r).1[4]? = some (decimal r.pid) ∧
      ∀ field ∈ (cells printFloat r).2 :: (cells printFloat r).1, '\n' ∉ field := by
  obtain ⟨d, domain⟩ := h.printable.domain
  obtain ⟨o, op⟩ := h.printable.op
  have terminated : r.facility.Terminated ∧ r.device.Terminated ∧ r.s1.Terminated ∧
      r.s2.Terminated :=
    ⟨h.printable.facility, h.printable.device, h.printable.s1, h.printable.s2⟩
  have fields : tableFields printFloat r = some ([r.facility.chars, r.device.chars,
      decimal r.timestamp, printFloat r.elapsedTime, decimal r.pid, d.name, o.name,
      decimal r.errorCode, decimal r.fd, decimal r.bytesTransferred],
      r.s1.chars ++ ' ' :: r.s2.chars) := by
    simp only [tableFields, domain, op, nameAt_domain, nameAt_op, Option.bind_eq_bind,
      Option.bind_some, guard, if_pos terminated]
    rfl
  have shown : cells printFloat r = ([r.facility.chars, r.device.chars,
      decimal r.timestamp, printFloat r.elapsedTime, decimal r.pid, d.name, o.name,
      decimal r.errorCode, decimal r.fd, decimal r.bytesTransferred],
      r.s1.chars ++ ' ' :: r.s2.chars) := by rw [cells, fields, Option.getD_some]
  rw [shown]
  refine ⟨fields, rfl, ?_, rfl, ?_⟩
  · intro cell mem
    simp only [tableColumns, List.zip_cons_cons, List.zip_nil_right, List.mem_cons,
      List.not_mem_nil, or_false] at mem
    rcases mem with rfl | rfl | rfl | rfl | rfl | rfl | rfl | rfl | rfl | rfl
    · exact holds_right rfl h.facility.1 h.facility.2
    · exact holds_right rfl h.device.1 h.device.2
    · exact holds_decimal rfl
        (length_decimal_nonneg (by decide) h.timestamp.1 h.timestamp.2) (Nat.le_refl 10)
    · exact holds_right rfl h.elapsed.1 (notMem_head? h.elapsed.2.1)
    · exact holds_decimal rfl (length_decimal_nonneg (by decide) h.pid.1 h.pid.2) (Nat.le_refl 5)
    · exact holds_right rfl (domainName_length _ d.name_mem)
        (notMem_head? (d.isName.notMem (by decide)))
    · constructor
      · exact opName_length _ o.name_mem
      · intro side
        cases side
      · intro _ mem
        exact o.isName.notMem (by decide) (List.mem_of_getLast? mem)
    · exact holds_decimal rfl
        (length_decimal_nonneg (by decide) h.errorCode.1 h.errorCode.2) (Nat.le_refl 3)
    · refine holds_decimal rfl ?_ (Nat.le_refl 5)
      rcases Int.lt_or_le r.fd 0 with negative | positive
      · exact length_decimal_le (by decide) h.fd.1 (by omega)
      · exact length_decimal_nonneg (by decide) positive h.fd.2
    · exact holds_decimal rfl
        (length_decimal_nonneg (by decide) h.bytes.1 h.bytes.2) (Nat.le_refl 8)
  · have numeric : ∀ n, '\n' ∉ decimal n := fun n => notMem_decimal n (by decide)
    intro field mem
    simp only [List.mem_cons, List.not_mem_nil, or_false] at mem
    rcases mem with rfl | rfl | rfl | rfl | rfl | rfl | rfl | rfl | rfl | rfl | rfl
    · intro newline
      rcases List.mem_append.mp newline with first | second
      · exact h.oneLine.s1 first
      · exact h.oneLine.s2 ((List.mem_cons.mp second).resolve_left (by decide))
    · exact h.oneLine.facility
    · exact h.oneLine.device
    · exact numeric _
    · exact h.elapsed.2.2
    · exact numeric _
    · exact d.isName.notMem (by decide)
    · exact o.isName.notMem (by decide)
    · exact numeric _
    · exact numeric _
    · exact numeric _

theorem headerLine_read : read tableColumns headerLine = (tableTitles, "PARM".toList) := by decide

/-- The row is read back, and is neither an empty line nor a header. -/
theorem Tabular.rowLine {printFloat : Float32 → Str} {r : MonitorRecord} (h : Tabular printFloat r) :
    read tableColumns (rowLine printFloat r) = cells printFloat r ∧
      '\n' ∉ IoMonitor.rowLine printFloat r ∧ IoMonitor.rowLine printFloat r ≠ [] ∧
      IoMonitor.rowLine printFloat r ≠ headerLine := by
  obtain ⟨-, length, holds, pid, oneLine⟩ := h.holds
  have back : read tableColumns (IoMonitor.rowLine printFloat r) = cells printFloat r := by
    have whole := read_format holds (cells printFloat r).2
    rw [List.map_fst_zip (Nat.le_of_eq length.symm), List.map_snd_zip (Nat.le_of_eq length)]
      at whole
    exact whole
  refine ⟨back, ?_, ?_, ?_⟩
  · intro newline
    rcases mem_format (by decide) newline with ⟨cell, mem, within⟩ | behind
    · exact oneLine cell.2 (List.mem_cons_of_mem _ (List.of_mem_zip mem).2) within
    · exact oneLine _ List.mem_cons_self behind
  · intro empty
    rw [empty] at back
    rw [← back] at pid
    exact decimal_ne_nil r.pid (Option.some.inj pid).symm
  · intro header
    rw [header, headerLine_read] at back
    rw [← back] at pid
    have named : "PID".toList = decimal r.pid := Option.some.inj pid
    have letter : 'P' ∈ decimal r.pid := by
      rw [← named]
      exact List.mem_cons_self
    exact notMem_decimal r.pid (by decide) letter

/-! ### The whole table -/

/-- The lines of the records, of which the first is number `n`. -/
def tableFrom (printFloat : Float32 → Str) : Nat → List MonitorRecord → List Str
  | _, [] => []
  | n, r :: rs =>
      (if n % 4 = 0 then [[]] else []) ++ (if n % 16 = 0 then [headerLine] else []) ++
        rowLine printFloat r :: tableFrom printFloat (n + 1) rs

/-- One record puts its lines behind the table. -/
theorem outputTable_step {printFloat : Float32 → Str} {r : MonitorRecord} (h : Tabular printFloat r)
    {t : TableState} (room : t.ln < 2 ^ 31 - 1) :
    outputTable printFloat t r =
      some ⟨t.ln + 1, t.stdout ++ unlines (tableFrom printFloat t.ln [r])⟩ := by
  have fourth : t.ln &&& 3 = t.ln % 4 := Nat.and_two_pow_sub_one_eq_mod t.ln 2
  have sixteenth : t.ln &&& 15 = t.ln % 16 := Nat.and_two_pow_sub_one_eq_mod t.ln 4
  simp only [outputTable, guard, if_pos room, h.holds.1, fourth, sixteenth, tableFrom,
    Option.bind_eq_bind, Option.pure_def, Option.bind_some]
  by_cases blank : t.ln % 4 = 0
  · by_cases header : t.ln % 16 = 0
    · simp [blank, header, rowLine]
    · simp [blank, header, rowLine]
  · have header : t.ln % 16 ≠ 0 := by omega
    simp [blank, header, rowLine]

theorem run_table {printFloat : Float32 → Str} {rs : List MonitorRecord}
    (tabular : ∀ r ∈ rs, Tabular printFloat r) {t : TableState}
    (room : t.ln + rs.length < 2 ^ 31) :
    Machine.run (outputTable printFloat) t rs =
      some ⟨t.ln + rs.length, t.stdout ++ unlines (tableFrom printFloat t.ln rs)⟩ := by
  induction rs generalizing t with
  | nil => simp [tableFrom]
  | cons r rs ih =>
      rw [List.length_cons] at room
      obtain ⟨head, tail⟩ := List.forall_mem_cons.mp tabular
      rw [Machine.run_cons, outputTable_step head (by omega), Option.bind_some,
        ih tail (by dsimp only; omega)]
      have lines_ : unlines (tableFrom printFloat t.ln [r]) ++
          unlines (tableFrom printFloat (t.ln + 1) rs) =
            unlines (tableFrom printFloat t.ln (r :: rs)) := by
        rw [← unlines_append]
        simp [tableFrom]
      rw [Option.some.injEq, TableState.mk.injEq]
      constructor
      · dsimp only
        rw [List.length_cons]
        omega
      · rw [List.append_assoc, lines_]

/-- Every line is a line, and what is neither empty nor a header is a row. -/
theorem tableFrom_rows {printFloat : Float32 → Str} {rs : List MonitorRecord}
    (tabular : ∀ r ∈ rs, Tabular printFloat r) (n : Nat) :
    OneLine (tableFrom printFloat n rs) ∧
      (tableFrom printFloat n rs).filter (fun l => l ≠ [] ∧ l ≠ headerLine) =
        rs.map (rowLine printFloat) := by
  induction rs generalizing n with
  | nil =>
      refine ⟨?_, rfl⟩
      intro l mem
      cases mem
  | cons r rs ih =>
      obtain ⟨head, tail⟩ := List.forall_mem_cons.mp tabular
      obtain ⟨oneLine, rows⟩ := ih tail (n + 1)
      obtain ⟨-, newline, filled, notHeader⟩ := head.rowLine
      rw [tableFrom]
      constructor
      · intro l mem
        rcases List.mem_append.mp mem with mem | mem
        · rcases List.mem_append.mp mem with mem | mem
          · split at mem
            · rw [List.mem_singleton.mp mem]
              exact List.not_mem_nil
            · cases mem
          · split at mem
            · rw [List.mem_singleton.mp mem]
              decide
            · cases mem
        · rcases List.mem_cons.mp mem with rfl | mem
          · exact newline
          · exact oneLine l mem
      · rw [List.filter_append, List.filter_append,
          List.filter_cons_of_pos (by simp [filled, notHeader]), rows, List.map_cons]
        split
        · split <;> simp
        · split <;> simp

/-- How many headers, and how many empty lines. -/
theorem tableFrom_count {printFloat : Float32 → Str} {rs : List MonitorRecord}
    (tabular : ∀ r ∈ rs, Tabular printFloat r) (n : Nat) :
    (tableFrom printFloat n rs).count headerLine + (n + 15) / 16 = (n + rs.length + 15) / 16 ∧
      (tableFrom printFloat n rs).count [] + (n + 3) / 4 = (n + rs.length + 3) / 4 := by
  induction rs generalizing n with
  | nil => simp [tableFrom]
  | cons r rs ih =>
      obtain ⟨head, tail⟩ := List.forall_mem_cons.mp tabular
      obtain ⟨headers, blanks⟩ := ih tail (n + 1)
      obtain ⟨-, -, filled, notHeader⟩ := head.rowLine
      have header : headerLine ≠ [] := by decide
      have row (l : Str) (other : rowLine printFloat r ≠ l) :
          (rowLine printFloat r :: tableFrom printFloat (n + 1) rs).count l =
            (tableFrom printFloat (n + 1) rs).count l := List.count_cons_of_ne other
      rw [tableFrom, List.length_cons, List.count_append, List.count_append, List.count_append,
        List.count_append, row _ notHeader, row _ filled]
      by_cases blank : n % 4 = 0
      · by_cases sixteenth : n % 16 = 0
        · simp only [blank, sixteenth, if_true, List.count_singleton_self,
            List.count_cons_of_ne header, List.count_cons_of_ne header.symm, List.count_nil]
          omega
        · simp only [blank, sixteenth, if_true, if_false, List.count_singleton_self,
            List.count_cons_of_ne header.symm, List.count_nil]
          omega
      · have sixteenth : n % 16 ≠ 0 := by omega
        simp only [blank, sixteenth, if_false, List.count_nil]
        omega

/-- **The table.** Of every stream of records that keep to their columns the table
has a row for each record, in order, from which the header's columns read the values
back; a header stands before every sixteenth row, an empty line before every fourth. -/
theorem table_law {printFloat : Float32 → Str} (rs : List MonitorRecord)
    (tabular : ∀ r ∈ rs, Tabular printFloat r) (room : rs.length < 2 ^ 31) :
    ∃ table, Machine.run (outputTable printFloat) ⟨0, []⟩ rs = some ⟨rs.length, table⟩ ∧
      tableRows table = rs.map (cells printFloat) ∧
      (lines [] table).count headerLine = (rs.length + 15) / 16 ∧
      (lines [] table).count [] = (rs.length + 3) / 4 := by
  obtain ⟨oneLine, rows⟩ := tableFrom_rows tabular 0
  obtain ⟨headers, blanks⟩ := tableFrom_count tabular 0
  refine ⟨unlines (tableFrom printFloat 0 rs), ?_, ?_, ?_, ?_⟩
  · rw [run_table tabular (by dsimp only; omega)]
    simp
  · rw [tableRows, lines_unlines oneLine, rows, List.map_map]
    exact List.map_congr_left fun r hr => (tabular r hr).rowLine.1
  · rw [lines_unlines oneLine]
    omega
  · rw [lines_unlines oneLine]
    omega

/-! Seventeen renames: two headers, five empty lines. -/

theorem renamed_tabular : Tabular (printFixed 4) (renamed "a".toList "b".toList) where
  printable := renamed_printable (by decide) (by decide)
  oneLine := ⟨by decide, by decide, by decide, by decide⟩
  facility := by decide
  device := by decide
  timestamp := by decide
  elapsed := by decide
  pid := by decide
  errorCode := by decide
  fd := by decide
  bytes := by decide

theorem table_law_renames : ∃ table,
    Machine.run (outputTable (printFixed 4)) ⟨0, []⟩
        (List.replicate 17 (renamed "a".toList "b".toList)) = some ⟨17, table⟩ ∧
      tableRows table =
        List.replicate 17 (cells (printFixed 4) (renamed "a".toList "b".toList)) ∧
      (lines [] table).count headerLine = 2 ∧ (lines [] table).count [] = 5 := by
  obtain ⟨table, ran, rows, headers, blanks⟩ :=
    table_law (List.replicate 17 (renamed "a".toList "b".toList))
      (fun r hr => List.eq_of_mem_replicate hr ▸ renamed_tabular) (by decide)
  refine ⟨table, ran, ?_, headers, blanks⟩
  rw [rows, List.map_replicate]

end IoMonitor
