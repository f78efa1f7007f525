import IoMonitor.Lib.Columns
import IoMonitor.Names

/-!
The CSV output plugin.

`process_data` prints twelve fields with commas between them and quotes none of
them. The row is one line with the names in their columns exactly where the
newlines and commas in its strings leave them there (`oneRow_iff`).
-/

namespace IoMonitor

open CString Columns Floats

/-! ### The plugin -/

/-- The twelve conversions of the `printf`. A `%s` needs its NUL; `printFloat` is
`%f`. -/
def csvFields (printFloat : Float32 → Str) (data : MonitorRecord) : Option (List Str) := do
  let domain ← nameAt domainsNames data.domType
  let op ← nameAt opsNames data.opType
  guard (data.facility.Terminated ∧ data.device.Terminated ∧ data.s1.Terminated ∧
    data.s2.Terminated)
  some [data.facility.chars, data.device.chars, decimal data.timestamp,
    printFloat data.elapsedTime, decimal data.pid, domain, op, decimal data.errorCode,
    decimal data.fd, decimal data.bytesTransferred, data.s1.chars, data.s2.chars]

/-- The bytes that `process_data` prints. -/
def outputCsv (printFloat : Float32 → Str) (data : MonitorRecord) : Option Str :=
  (csvFields printFloat data).map fun fields => join ',' fields ++ ['\n']

/-! ### Rows -/

/-- A valid domain and operation, and strings with their NUL. -/
structure Printable (r : MonitorRecord) : Prop where
  domain : ∃ d : DomainType, r.domType = d.code
  op : ∃ o : OpType, r.opType = o.code
  facility : r.facility.Terminated
  device : r.device.Terminated
  s1 : r.s1.Terminated
  s2 : r.s2.Terminated

/-- One line, with the two names in its sixth and seventh column. -/
def OneRow (printFloat : Float32 → Str) (r : MonitorRecord) : Prop :=
  ∃ line, outputCsv printFloat r = some (line ++ ['\n']) ∧ '\n' ∉ line ∧
    (line.splitOn ',')[5]? = nameAt domainsNames r.domType ∧
    (line.splitOn ',')[6]? = nameAt opsNames r.opType

structure SameStrings (a b : MonitorRecord) : Prop where
  facility : a.facility = b.facility
  device : a.device = b.device
  s1 : a.s1 = b.s1
  s2 : a.s2 = b.s2
  domain : nameAt domainsNames a.domType = nameAt domainsNames b.domType
  op : nameAt opsNames a.opType = nameAt opsNames b.opType

/-- The pieces of the two strings in front of the numbers. -/
def leading (r : MonitorRecord) : List Str := columns ',' [r.facility.chars, r.device.chars]

/-- The strings in front have no comma, or happen to spell the names behind their fifth. -/
def NamesInPlace (r : MonitorRecord) (d : DomainType) (o : OpType) : Prop :=
  (',' ∉ r.facility.chars ∧ ',' ∉ r.device.chars) ∨
    Adjacent ',' 4 d.name o.name (r.facility.chars ++ ',' :: r.device.chars)

/-- No string breaks the line. -/
structure OnOneLine (r : MonitorRecord) : Prop where
  facility : '\n' ∉ r.facility.chars
  device : '\n' ∉ r.device.chars
  s1 : '\n' ∉ r.s1.chars
  s2 : '\n' ∉ r.s2.chars

/-- The fields after the facility and the device, up to the last two strings. -/
def middle (printFloat : Float32 → Str) (r : MonitorRecord) (d : DomainType) (o : OpType) :
    List Str :=
  [decimal r.timestamp, printFloat r.elapsedTime, decimal r.pid, d.name, o.name,
    decimal r.errorCode, decimal r.fd, decimal r.bytesTransferred]

def row (printFloat : Float32 → Str) (r : MonitorRecord) (d : DomainType) (o : OpType) : List Str :=
  [r.facility.chars, r.device.chars] ++ (middle printFloat r d o ++ [r.s1.chars, r.s2.chars])

theorem csvFields_of_printable (printFloat : Float32 → Str) {r : MonitorRecord} {d : DomainType}
    {o : OpType} (printable : Printable r) (domain : r.domType = d.code)
    (op : r.opType = o.code) : csvFields printFloat r = some (row printFloat r d o) := by
  have terminated : r.facility.Terminated ∧ r.device.Terminated ∧ r.s1.Terminated ∧
      r.s2.Terminated := ⟨printable.facility, printable.device, printable.s1, printable.s2⟩
  simp only [csvFields, domain, op, nameAt_domain, nameAt_op, Option.bind_eq_bind,
    Option.bind_some, guard, if_pos terminated]
  rfl

/-! ### Numbers and names -/

/-- `%f` prints no comma and no newline. -/
def Clean (printFloat : Float32 → Str) : Prop :=
  ∀ x, ',' ∉ printFloat x ∧ '\n' ∉ printFloat x

theorem middle_clean {printFloat : Float32 → Str} (clean : Clean printFloat) (r : MonitorRecord)
    (d : DomainType) (o : OpType) :
    ∀ field ∈ middle printFloat r d o, ',' ∉ field ∧ '\n' ∉ field := by
  have numeric : ∀ n, ',' ∉ decimal n ∧ '\n' ∉ decimal n := fun n =>
    ⟨notMem_decimal n (by decide), notMem_decimal n (by decide)⟩
  intro field mem
  simp only [middle, List.mem_cons, List.not_mem_nil, or_false] at mem
  rcases mem with rfl | rfl | rfl | rfl | rfl | rfl | rfl | rfl
  · exact numeric _
  · exact clean _
  · exact numeric _
  · exact ⟨d.isName.notMem (by decide), d.isName.notMem (by decide)⟩
  · exact ⟨o.isName.notMem (by decide), o.isName.notMem (by decide)⟩
  · exact numeric _
  · exact numeric _
  · exact numeric _

/-! ### The columns -/

theorem columns_row {printFloat : Float32 → Str} (clean : Clean printFloat) (r : MonitorRecord)
    (d : DomainType) (o : OpType) :
    columns ',' (row printFloat r d o) =
      leading r ++ (middle printFloat r d o ++ columns ',' [r.s1.chars, r.s2.chars]) := by
  have whole : columns ',' (middle printFloat r d o) = middle printFloat r d o :=
    columns_of_notMem fun field mem => (middle_clean clean r d o field mem).1
  rw [row, columns_append, columns_append, whole]
  rfl

theorem length_leading (r : MonitorRecord) :
    (leading r).length = r.facility.chars.count ',' + r.device.chars.count ',' + 2 := by
  simp only [leading, length_columns, List.map_cons, List.map_nil, List.sum_cons, List.sum_nil]
  omega

theorem length_leading_eq_two_iff (r : MonitorRecord) :
    (leading r).length = 2 ↔ ',' ∉ r.facility.chars ∧ ',' ∉ r.device.chars := by
  rw [length_leading, ← List.count_eq_zero, ← List.count_eq_zero]
  omega

/-- Where the sixth and seventh column fall, by the number of pieces in front. -/
theorem names_columns_iff (printFloat : Float32 → Str) (r : MonitorRecord) (d : DomainType)
    (o : OpType) (rest : List Str) :
    ((leading r ++ (middle printFloat r d o ++ rest))[5]? = some d.name ∧
        (leading r ++ (middle printFloat r d o ++ rest))[6]? = some o.name) ↔
      (',' ∉ r.facility.chars ∧ ',' ∉ r.device.chars) ∨
        ((leading r)[5]? = some d.name ∧ (leading r)[6]? = some o.name) := by
  have two := length_leading r
  -- A column after the pieces in front is one of `middle`.
  have after : ∀ i, (leading r).length ≤ i → i - (leading r).length < 8 →
      (leading r ++ (middle printFloat r d o ++ rest))[i]? =
        (middle printFloat r d o)[i - (leading r).length]? := by
    intro i past short
    rw [List.getElem?_append_right past, List.getElem?_append_left short]
  rw [← length_leading_eq_two_iff]
  rcases Nat.lt_or_ge 6 (leading r).length with long | short
  · rw [List.getElem?_append_left (by omega), List.getElem?_append_left long]
    constructor
    · exact .inr
    · rintro (pieces | names)
      · omega
      · exact names
  · have none_ : (leading r)[6]? = none := List.getElem?_eq_none short
    rw [none_, after 6 short (by omega)]
    obtain m | m | m | m | m : (leading r).length = 2 ∨ (leading r).length = 3 ∨
        (leading r).length = 4 ∨ (leading r).length = 5 ∨ (leading r).length = 6 := by omega
    · rw [after 5 (by omega) (by omega), m]
      simp [middle]
    · rw [after 5 (by omega) (by omega), m]
      simp [middle, (d.isName.ne_decimal _).symm]
    · simp [m, middle, (o.isName.ne_decimal _).symm]
    · rw [after 5 (by omega) (by omega), m]
      simp [middle, (d.isName.ne_decimal _).symm]
    · simp [m, middle, (o.isName.ne_decimal _).symm]

theorem onOneLine_iff {printFloat : Float32 → Str} (clean : Clean printFloat) (r : MonitorRecord)
    (d : DomainType) (o : OpType) :
    '\n' ∉ join ',' (row printFloat r d o) ↔ OnOneLine r := by
  rw [mem_join_iff (by decide)]
  constructor
  · intro none_
    constructor
    · exact fun mem => none_ ⟨_, by simp [row], mem⟩
    · exact fun mem => none_ ⟨_, by simp [row], mem⟩
    · exact fun mem => none_ ⟨_, by simp [row], mem⟩
    · exact fun mem => none_ ⟨_, by simp [row], mem⟩
  · rintro ⟨facility, device, s1, s2⟩ ⟨field, mem, newline⟩
    simp only [row, List.mem_append, List.mem_cons, List.not_mem_nil, or_false] at mem
    rcases mem with (rfl | rfl) | mem | rfl | rfl
    · exact facility newline
    · exact device newline
    · exact (middle_clean clean r d o field mem).2 newline
    · exact s1 newline
    · exact s2 newline

theorem namesInPlace_iff (r : MonitorRecord) (d : DomainType) (o : OpType) :
    NamesInPlace r d o ↔ (',' ∉ r.facility.chars ∧ ',' ∉ r.device.chars) ∨
      ((leading r)[5]? = some d.name ∧ (leading r)[6]? = some o.name) := by
  have pieces : (r.facility.chars ++ ',' :: r.device.chars).splitOn ',' = leading r := by
    rw [← join_pair, splitOn_join ',' (by simp), leading]
  rw [NamesInPlace, adjacent_iff (d.isName.notMem (by decide)) (o.isName.notMem (by decide)),
    pieces]

/-- The row has the names in their columns. -/
theorem oneRow_iff {printFloat : Float32 → Str} (clean : Clean printFloat) {r : MonitorRecord}
    (printable : Printable r) {d : DomainType} {o : OpType} (domain : r.domType = d.code)
    (op : r.opType = o.code) : OneRow printFloat r ↔ OnOneLine r ∧ NamesInPlace r d o := by
  have fields := csvFields_of_printable printFloat printable domain op
  have split : (join ',' (row printFloat r d o)).splitOn ',' =
      leading r ++ (middle printFloat r d o ++ columns ',' [r.s1.chars, r.s2.chars]) := by
    rw [splitOn_join ',' (by simp [row]), columns_row clean]
  rw [namesInPlace_iff, ← onOneLine_iff clean r d o, ← names_columns_iff printFloat r d o, ← split]
  unfold OneRow
  rw [outputCsv, fields, domain, op, nameAt_domain, nameAt_op]
  constructor
  · rintro ⟨line, printed, rest⟩
    have same := List.append_cancel_right (Option.some.inj printed)
    rw [same]
    exact rest
  · intro rest
    exact ⟨_, rfl, rest⟩

theorem printFixed_clean : Clean (printFixed 6) := fun x =>
  ⟨notMem_printFixed 6 x (by decide) (by decide), notMem_printFixed 6 x (by decide) (by decide)⟩

/-! The record of a rename. -/

def renamed (oldpath newpath : Str) : MonitorRecord :=
  { MonitorRecord.zero with
    facility := strncpy _ "u".toList
    timestamp := 1500000000
    pid := 4242
    domType := DomainType.misc.code
    opType := OpType.rename.code
    fd := FD_NONE
    s1 := strncpy _ oldpath
    s2 := strncpy _ newpath }

theorem renamed_printable {oldpath newpath : Str} (old : (cstr oldpath).length < PATH_MAX)
    (new : (cstr newpath).length < STR_LEN) : Printable (renamed oldpath newpath) where
  domain := ⟨_, rfl⟩
  op := ⟨_, rfl⟩
  facility := (by decide : (strncpy STR_LEN "u".toList).Terminated)
  device := (by decide : (CharArray.zero DEVICE_LEN).Terminated)
  s1 := ((strncpy_copyOf_iff _).mpr old).terminated
  s2 := ((strncpy_copyOf_iff _).mpr new).terminated

end IoMonitor
