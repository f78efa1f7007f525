import IoMonitor.Listener.DeviceFields
import IoMonitor.Listener.Mounts
import Mathlib.Data.List.Nodup

/-!
The tables that `capture_device_info` fills from the output of `lsblk -P`.

Each line with seven fields sets one entry, so the tables are those of the rows
read, the last row of each mount point counting (`MountTable.ofRows`). A row is
read if it has no space in it and fits the buffer (`decodes_iff`), and a row
without a mount point is one mounted above all paths (`resolves_mounted_iff`).
-/

namespace IoMonitor.Listener

open CString IoMonitor SortedMap

/-- What a row of a device and its mount point sets. -/
def MountTable.record (mounts : MountTable) (row : Str × Str) : MountTable :=
  if row.1 = ['/'] then { mounts with rootFsDev := row.2 } else mounts.set row.1 row.2

/-- The loop body of `capture_device_info`. -/
def captureLine (mounts : MountTable) (path : Str) : MountTable :=
  let (fieldsParsed, dc) := parseDeviceFields path
  if fieldsParsed = 7 then mounts.record (dc.string .mountPoint, dc.string .deviceName) else mounts

/-- `sizeof(path)`. -/
def PATH_SIZE : Nat := 256

/-- `capture_device_info` on the output of `lsblk -P`. -/
def captureDeviceInfo (output : Str) : MountTable :=
  (fgets (PATH_SIZE - 1) [] output).foldl captureLine .empty

/-! ### The tables of a list of rows -/

namespace MountTable

def ofRows (rows : List (Str × Str)) : MountTable := rows.foldl record empty

theorem ofRows_concat (rows : List (Str × Str)) (row : Str × Str) :
    ofRows (rows ++ [row]) = (ofRows rows).record row := by
  simp [ofRows]

/-- Row by row, the entries are those of the rows not mounted at `/`. -/
theorem entries_ofRows (rows : List (Str × Str)) :
    (ofRows rows).entries = ofPairs (rows.filter (·.1 ≠ ['/'])) := by
  induction rows using List.reverseRecOn with
  | nil => rfl
  | append_singleton rows row ih =>
      rw [ofRows_concat, List.filter_append, record]
      by_cases root : row.1 = ['/']
      · simp [root, ih]
      · have kept : [row].filter (·.1 ≠ ['/']) = [row] := by simp [root]
        rw [kept, if_neg root, ofPairs_concat, ← ih]
        rfl

theorem rootFsDev_ofRows (rows : List (Str × Str)) :
    (ofRows rows).rootFsDev = (((rows.filter (·.1 = ['/'])).map Prod.snd).getLast?).getD [] := by
  induction rows using List.reverseRecOn with
  | nil => rfl
  | append_singleton rows row ih =>
      rw [ofRows_concat, List.filter_append, record]
      by_cases root : row.1 = ['/']
      · simp [root]
      · have skipped : [row].filter (·.1 = ['/']) = [] := by simp [root]
        rw [skipped, if_neg root, List.append_nil, ← ih]
        rfl

/-- An entry that is the only one of its mount point is in the table. -/
theorem mem_ofRows {rows : List (Str × Str)} {row : Str × Str} (notRoot : row.1 ≠ ['/'])
    (unique : ∀ other ∈ rows, other.1 = row.1 → other = row) :
    row ∈ (ofRows rows).entries ↔ row ∈ rows := by
  have kept : ∀ other ∈ rows.filter (·.1 ≠ ['/']), other.1 = row.1 → other = row :=
    fun other mem => unique other (List.mem_of_mem_filter mem)
  rw [entries_ofRows, mem_ofPairs_of_unique kept, List.mem_filter]
  simp [notRoot]

theorem mem_of_mem_ofRows {rows : List (Str × Str)} {row : Str × Str}
    (h : row ∈ (ofRows rows).entries) : row ∈ rows := by
  rw [entries_ofRows] at h
  exact List.mem_of_mem_filter (mem_of_mem_ofPairs h)

theorem rootFsDev_of_unique {rows : List (Str × Str)} {dev : Str} (mem : (['/'], dev) ∈ rows)
    (unique : ∀ row ∈ rows, row.1 = ['/'] → row = (['/'], dev)) :
    (ofRows rows).rootFsDev = dev := by
  rw [rootFsDev_ofRows]
  have all : ∀ d ∈ (rows.filter (·.1 = ['/'])).map Prod.snd, d = dev := by
    intro d hd
    obtain ⟨row, hrow, rfl⟩ := List.mem_map.mp hd
    obtain ⟨inRows, root⟩ := List.mem_filter.mp hrow
    rw [unique row inRows (of_decide_eq_true root)]
  have some : dev ∈ (rows.filter (·.1 = ['/'])).map Prod.snd :=
    List.mem_map.mpr ⟨_, List.mem_filter.mpr ⟨mem, by simp⟩, rfl⟩
  obtain ⟨d, last⟩ := Option.ne_none_iff_exists'.mp
    (List.getLast?_eq_none_iff.not.mpr (List.ne_nil_of_mem some))
  rw [last]
  exact all d (List.mem_of_getLast? last)

theorem rootFsDev_of_none {rows : List (Str × Str)} (none : ∀ row ∈ rows, row.1 ≠ ['/']) :
    (ofRows rows).rootFsDev = [] := by
  have empty : rows.filter (·.1 = ['/']) = [] := by
    rw [List.filter_eq_nil_iff]
    intro row mem
    simpa using none row mem
  rw [rootFsDev_ofRows, empty]
  rfl

end MountTable

/-! ### Rows as lines -/

/-- A row of `lsblk` whose values fit the struct. -/
structure LsblkRow extends DeviceRow where
  deviceName_fits : deviceName.length < LEN_DEVICE_NAME
  majMin_fits : majMin.length < LEN_MAJ_MIN
  rm_char : rm.length = 1
  deviceSize_fits : deviceSize.length < LEN_DEVICE_SIZE
  ro_char : ro.length = 1
  deviceType_fits : deviceType.length < LEN_DEVICE_TYPE
  mountPoint_fits : mountPoint.length < LEN_MOUNT_POINT
  noQuote : toDeviceRow.Free '"'
  noNewline : toDeviceRow.Free '\n'
  noNul : toDeviceRow.Free nul

namespace LsblkRow

variable (row : LsblkRow)

def text : Str := lsblkKeys.line row.toDeviceRow

/-- The mount point and the device at it. -/
def mounted : Str × Str := (row.mountPoint, row.deviceName)

/-- The row has no spaces and its line fits the buffer, the newline apart. -/
def Read : Prop := row.toDeviceRow.Free ' ' ∧ row.text.length < PATH_SIZE - 1

instance : Decidable row.Read := by unfold Read; infer_instance

end LsblkRow

/-- The output of `lsblk -P`. -/
def render (rows : List LsblkRow) : Str := rows.flatMap fun row => row.text ++ ['\n']

section Lines

variable {row : LsblkRow} {mounts : MountTable}

theorem LsblkRow.text_noNewline : '\n' ∉ row.text :=
  notMem_line (by decide) (by decide) (by decide) (by decide) row.noNewline

theorem LsblkRow.text_noNul : nul ∉ row.text :=
  notMem_line (by decide) (by decide) (by decide) lsblkKeys_words.noNul row.noNul

theorem LsblkRow.strings : row.toDeviceRow.config.string .mountPoint = row.mountPoint ∧
    row.toDeviceRow.config.string .deviceName = row.deviceName := by
  constructor
  · rw [(DeviceRow.config_string row.noNul .mountPoint).mpr row.mountPoint_fits]
    exact List.take_of_length_le (Nat.le_pred_of_lt row.mountPoint_fits)
  · rw [(DeviceRow.config_string row.noNul .deviceName).mpr row.deviceName_fits]
    exact List.take_of_length_le (Nat.le_pred_of_lt row.deviceName_fits)

theorem captureLine_skips {path : Str} (fields : (parseDeviceFields path).1 ≠ 7) :
    captureLine mounts path = mounts := if_neg fields

/-- A line read whole. -/
theorem captureLine_text {trailing : Str} (ends : trailing = [] ∨ trailing = ['\n']) :
    captureLine mounts (row.text ++ trailing) =
      if row.toDeviceRow.Free ' ' then mounts.record row.mounted else mounts := by
  have plain : ' ' ∉ trailing ∧ '"' ∉ trailing ∧ nul ∉ trailing := by
    rcases ends with rfl | rfl <;> decide
  split
  · rename_i words
    have parsed := parse_line lsblkKeys_words ⟨words, row.noQuote, row.noNul⟩ plain.1 plain.2.1
      plain.2.2
    rw [captureLine, LsblkRow.text, parsed]
    simp only [if_true, LsblkRow.strings, LsblkRow.mounted]
  · rename_i spaced
    exact captureLine_skips (parse_spaced lsblkKeys_words row.noQuote row.noNul spaced plain.1
      plain.2.1 plain.2.2).ne

/-- A text with fewer than two quotes sets nothing. -/
theorem captureLine_few {path : Str} (noNul : nul ∉ path) (few : path.count '"' < 2) :
    captureLine mounts path = mounts := by
  refine captureLine_skips ?_
  rw [parseDeviceFields_fst noNul, fieldsOf_eq_nil few]
  decide

/-- The line up to the value of the last column. -/
def LsblkRow.head (row : LsblkRow) : Str :=
  lsblkKeys.lineTo row.toDeviceRow (lsblkKeys.mountPoint ++ ['=', '"'])

theorem LsblkRow.text_eq : row.text = row.head ++ (row.mountPoint ++ ['"']) := by
  rw [text, head, lineTo_append, DeviceRow.line, asToken]
  simp

theorem LsblkRow.head_length : row.head.length < 158 := by
  have name := row.deviceName_fits
  have majMin := row.majMin_fits
  have size := row.deviceSize_fits
  have type := row.deviceType_fits
  have rm := row.rm_char
  have ro := row.ro_char
  simp only [LEN_DEVICE_NAME, LEN_MAJ_MIN, LEN_DEVICE_SIZE, LEN_DEVICE_TYPE]
    at name majMin size type
  simp [head, DeviceRow.lineTo, DeviceRow.front, Columns.join_cons_cons, Columns.join_singleton,
    asToken, lsblkKeys]
  omega

/-- A line cut before its last quote sets nothing. -/
theorem captureLine_cut (front : Str) (inValue : front <+: row.mountPoint) :
    captureLine mounts (row.head ++ front) = mounts := by
  have whole : row.head ++ front = lsblkKeys.lineTo row.toDeviceRow
      (lsblkKeys.mountPoint ++ ['=', '"'] ++ front) := lineTo_append _
  have mount : row.mountPoint ∈ row.values := by simp [DeviceRow.values]
  have noQuote : front.count '"' = 0 := List.count_eq_zero.mpr fun mem =>
    row.noQuote _ mount (inValue.subset mem)
  have noNul : nul ∉ row.head ++ front := by
    intro mem
    refine row.text_noNul ?_
    rw [LsblkRow.text_eq]
    rcases List.mem_append.mp mem with mem | mem
    · exact List.mem_append_left _ mem
    · exact List.mem_append_right _ (List.mem_append_left _ (inValue.subset mem))
  refine captureLine_skips ?_
  rw [parseDeviceFields_fst noNul, whole, fieldsOf_lineTo lsblkKeys_words row.noQuote,
    fieldsOf_eq_nil, List.append_nil]
  · rw [length_flatMap_found]
    exact (Nat.lt_succ_of_le List.countP_le_length).ne
  · rw [List.count_append, noQuote]
    decide

/-- The buffer holds the line: it is read with its newline, or the newline by itself. -/
theorem capture_short (rest : Str) (fits : row.text.length < PATH_SIZE - 1) :
    (fgets (PATH_SIZE - 1) [] (row.text ++ '\n' :: rest)).foldl captureLine mounts =
      (fgets (PATH_SIZE - 1) [] rest).foldl captureLine
        (if row.toDeviceRow.Free ' ' then mounts.record row.mounted else mounts) := by
  rcases Nat.lt_or_eq_of_le (Nat.succ_le_of_lt fits) with room | full
  · rw [fgets_line row.text_noNewline rest room, List.foldl_cons, captureLine_text (.inr rfl)]
  · have nonempty : row.text ≠ [] := by
      rw [LsblkRow.text_eq]
      simp
    have newline := fgets_line (n := PATH_SIZE - 1) (w := []) (by simp) rest (by decide)
    rw [fgets_full row.text_noNewline nonempty _ full, List.foldl_cons]
    rw [List.nil_append] at newline
    have line := @captureLine_text row mounts [] (.inl rfl)
    rw [List.append_nil] at line
    rw [newline, List.foldl_cons, List.nil_append, captureLine_few (by decide) (by decide), line]

/-- The buffer is full within the mount point. -/
theorem capture_long (rest : Str) (long : ¬ row.text.length < PATH_SIZE - 1) :
    (fgets (PATH_SIZE - 1) [] (row.text ++ '\n' :: rest)).foldl captureLine mounts =
      (fgets (PATH_SIZE - 1) [] rest).foldl captureLine mounts := by
  have head := row.head_length
  have mount := row.mountPoint_fits
  have inRow : row.mountPoint ∈ row.values := by simp [DeviceRow.values]
  obtain ⟨room, full⟩ : ∃ room, row.head.length + room + 1 = PATH_SIZE - 1 :=
    ⟨PATH_SIZE - 1 - row.head.length - 1, by simp only [PATH_SIZE]; omega⟩
  have split : row.text ++ '\n' :: rest = (row.head ++ row.mountPoint.take room) ++
      ((row.mountPoint.drop room ++ ['"']) ++ '\n' :: rest) := by
    rw [LsblkRow.text_eq]
    simp [← List.append_assoc (row.mountPoint.take room)]
  rw [LsblkRow.text_eq, List.length_append, List.length_append, List.length_singleton] at long
  have first : (row.head ++ row.mountPoint.take room).length + 1 = PATH_SIZE - 1 := by
    rw [List.length_append, List.length_take]
    omega
  have second : (row.mountPoint.drop room ++ ['"']).length + 1 < PATH_SIZE - 1 := by
    simp only [LEN_MOUNT_POINT, PATH_SIZE] at mount full ⊢
    rw [List.length_append, List.length_drop, List.length_singleton]
    omega
  have noNewline : ∀ {part : Str}, part.Sublist row.text → '\n' ∉ part :=
    fun sub mem => row.text_noNewline (sub.subset mem)
  have inFirst : (row.head ++ row.mountPoint.take room).Sublist row.text := by
    rw [LsblkRow.text_eq]
    exact ((List.take_sublist _ _).trans (List.sublist_append_left _ _)).append_left _
  have inSecond : (row.mountPoint.drop room ++ ['"']).Sublist row.text := by
    rw [LsblkRow.text_eq]
    exact ((List.drop_sublist _ _).append_right _).trans (List.sublist_append_right _ _)
  have nonempty : row.head ++ row.mountPoint.take room ≠ [] := by
    intro empty
    rw [empty] at first
    cases first
  rw [split, fgets_full (noNewline inFirst) nonempty _ first, List.foldl_cons,
    captureLine_cut _ (List.take_prefix _ _), fgets_line (noNewline inSecond) rest second,
    List.foldl_cons, captureLine_few]
  · simpa [nul] using fun mem => row.text_noNul (inSecond.subset (List.mem_append_left _ mem))
  · have noQuote : '"' ∉ row.mountPoint.drop room := fun mem =>
      row.noQuote _ inRow (List.mem_of_mem_drop mem)
    simp [List.count_eq_zero.mpr noQuote]

/-- What the lines of a row do, those before it done. -/
theorem capture_row (rest : Str) :
    (fgets (PATH_SIZE - 1) [] (row.text ++ '\n' :: rest)).foldl captureLine mounts =
      (fgets (PATH_SIZE - 1) [] rest).foldl captureLine
        (if row.Read then mounts.record row.mounted else mounts) := by
  by_cases fits : row.text.length < PATH_SIZE - 1
  · rw [capture_short rest fits]
    simp [LsblkRow.Read, fits]
  · rw [capture_long rest fits]
    simp [LsblkRow.Read, fits]

end Lines

theorem captureDeviceInfo_render (rows : List LsblkRow) :
    captureDeviceInfo (render rows) =
      .ofRows ((rows.filter (·.Read)).map LsblkRow.mounted) := by
  suffices lines : ∀ mounts, (fgets (PATH_SIZE - 1) [] (render rows)).foldl captureLine mounts =
      ((rows.filter (·.Read)).map LsblkRow.mounted).foldl MountTable.record mounts from
    lines .empty
  induction rows with
  | nil => exact fun _ => rfl
  | cons row rows ih =>
      intro mounts
      have line : render (row :: rows) = row.text ++ '\n' :: render rows := by simp [render]
      rw [line, capture_row, ih]
      by_cases read : row.Read
      · rw [if_pos read, List.filter_cons_of_pos (by simpa using read)]
        rfl
      · rw [if_neg read, List.filter_cons_of_neg (by simpa using read)]

/-! ### Decoding -/

/-- No mount point is listed twice. -/
def Apart (mountPoints : List Str) : Prop := (mountPoints.filter (· ≠ [])).Nodup

instance (mountPoints : List Str) : Decidable (Apart mountPoints) := by
  unfold Apart; infer_instance

theorem Apart.unique {α : Type} {mountPoint : α → Str} {rows : List α}
    (h : Apart (rows.map mountPoint)) {row row' : α} (hrow : row ∈ rows) (hrow' : row' ∈ rows)
    (mounted : mountPoint row ≠ []) (same : mountPoint row' = mountPoint row) : row' = row := by
  rw [Apart, List.filter_map] at h
  refine List.inj_on_of_nodup_map h (List.mem_filter.mpr ⟨hrow', ?_⟩)
    (List.mem_filter.mpr ⟨hrow, ?_⟩) same
  · simpa [same] using mounted
  · simpa using mounted

/-- The tables hold the device of each row with a mount point. -/
structure Decodes (rows : List LsblkRow) (mounts : MountTable) : Prop where
  root : ∀ row ∈ rows, row.mountPoint = ['/'] → mounts.rootFsDev = row.deviceName
  others : ∀ row ∈ rows, row.mountPoint ≠ [] → row.mountPoint ≠ ['/'] →
    row.mounted ∈ mounts.entries

section Decoding

variable {rows : List LsblkRow} {row : LsblkRow}

/-- A row that is read with the mount point of another is that row. -/
theorem read_own (apart : Apart (rows.map (·.mountPoint))) (mem : row ∈ rows)
    (mounted : row.mountPoint ≠ []) :
    ∀ entry ∈ (rows.filter (·.Read)).map LsblkRow.mounted, entry.1 = row.mountPoint →
      row.Read ∧ entry = row.mounted := by
  intro entry hentry same
  obtain ⟨row', hrow', rfl⟩ := List.mem_map.mp hentry
  obtain ⟨inRows, read⟩ := List.mem_filter.mp hrow'
  obtain rfl := apart.unique mem inRows mounted same
  exact ⟨of_decide_eq_true read, rfl⟩

theorem mounted_mem (mem : row ∈ rows) (read : row.Read) :
    row.mounted ∈ (rows.filter (·.Read)).map LsblkRow.mounted :=
  List.mem_map_of_mem (List.mem_filter.mpr ⟨mem, by simpa using read⟩)

theorem root_decoded (apart : Apart (rows.map (·.mountPoint))) (mem : row ∈ rows)
    (root : row.mountPoint = ['/']) :
    (captureDeviceInfo (render rows)).rootFsDev = if row.Read then row.deviceName else [] := by
  have own := read_own apart mem (by simp [root])
  rw [captureDeviceInfo_render]
  rw [root] at own
  split
  · rename_i read
    refine MountTable.rootFsDev_of_unique (root ▸ mounted_mem mem read) fun entry hentry same => ?_
    rw [(own entry hentry same).2, LsblkRow.mounted, root]
  · rename_i lost
    exact MountTable.rootFsDev_of_none fun entry hentry same => lost (own entry hentry same).1

theorem entry_decoded (apart : Apart (rows.map (·.mountPoint))) (mem : row ∈ rows)
    (mounted : row.mountPoint ≠ []) (notRoot : row.mountPoint ≠ ['/']) :
    row.mounted ∈ (captureDeviceInfo (render rows)).entries ↔ row.Read := by
  have own := read_own apart mem mounted
  rw [captureDeviceInfo_render,
    MountTable.mem_ofRows notRoot fun other hother same => (own other hother same).2]
  exact ⟨fun found => (own _ found rfl).1, mounted_mem mem⟩

end Decoding

/-- **Decoding.** The tables filled from a rendered list hold its mounts iff every
mounted row is read: no value of it has a space, and its line has at most 254
characters. A root row that is not read is no loss if its device has no name. -/
theorem decodes_iff (rows : List LsblkRow) (apart : Apart (rows.map (·.mountPoint))) :
    Decodes rows (captureDeviceInfo (render rows)) ↔
      ∀ row ∈ rows, row.mountPoint ≠ [] →
        row.Read ∨ (row.mountPoint = ['/'] ∧ row.deviceName = []) := by
  constructor
  · intro decodes row mem mounted
    by_cases root : row.mountPoint = ['/']
    · by_cases read : row.Read
      · exact .inl read
      · have decoded := decodes.root row mem root
        rw [root_decoded apart mem root, if_neg read] at decoded
        exact .inr ⟨root, decoded.symm⟩
    · exact .inl ((entry_decoded apart mem mounted root).mp (decodes.others row mem mounted root))
  · intro read
    constructor
    · intro row mem root
      rw [root_decoded apart mem root]
      split
      · rfl
      · rename_i lost
        exact ((read row mem (by simp [root])).resolve_left lost).2.symm
    · intro row mem mounted notRoot
      have whole := (read row mem mounted).resolve_right fun root => notRoot root.1
      exact (entry_decoded apart mem mounted notRoot).mpr whole

/-! A home directory, and a disk with a space in its label. -/

theorem free_mountedAt {c : Char} {name mountPoint : Str} (columns : (volume []).Free c)
    (hname : c ∉ name) (hmount : c ∉ mountPoint) :
    DeviceRow.Free c { volume name with mountPoint } := by
  simp only [DeviceRow.Free, DeviceRow.values, DeviceRow.front, List.forall_mem_append,
    List.forall_mem_cons] at columns ⊢
  exact ⟨⟨hname, columns.1.2⟩, hmount, columns.2.2⟩

/-- The device is mounted there. -/
def mountedAt (name mountPoint : Str) (short : name.length < LEN_DEVICE_NAME)
    (fits : mountPoint.length < LEN_MOUNT_POINT)
    (plain : ∀ c ∈ ['"', '\n', nul], c ∉ name ∧ c ∉ mountPoint) : LsblkRow where
  toDeviceRow := { volume name with mountPoint }
  deviceName_fits := short
  majMin_fits := (by decide : (volume []).majMin.length < LEN_MAJ_MIN)
  rm_char := rfl
  deviceSize_fits := (by decide : (volume []).deviceSize.length < LEN_DEVICE_SIZE)
  ro_char := rfl
  deviceType_fits := (by decide : (volume []).deviceType.length < LEN_DEVICE_TYPE)
  mountPoint_fits := fits
  noQuote := free_mountedAt (by decide) (plain '"' (by decide)).1 (plain '"' (by decide)).2
  noNewline := free_mountedAt (by decide) (plain '\n' (by decide)).1 (plain '\n' (by decide)).2
  noNul := free_mountedAt (by decide) (plain nul (by decide)).1 (plain nul (by decide)).2

def volumeRow : LsblkRow :=
  mountedAt "vg-home".toList "/home".toList (by decide) (by decide) (forall_mem_of_all (by decide))

def labelRow : LsblkRow :=
  mountedAt "sdb1".toList "/media/my disk".toList (by decide) (by decide)
    (forall_mem_of_all (by decide))

theorem decodes_iff_volume : Decodes [volumeRow] (captureDeviceInfo (render [volumeRow])) := by
  refine (decodes_iff [volumeRow] (by decide)).mpr fun row mem _ => .inl ?_
  obtain rfl := List.mem_singleton.mp mem
  decide

/-- The disk is not in the table. -/
theorem label_not_decoded : Apart ([labelRow].map (·.mountPoint)) ∧
    ¬ Decodes [labelRow] (captureDeviceInfo (render [labelRow])) := by
  refine ⟨by decide, fun decodes => ?_⟩
  have unread : [labelRow].filter (·.Read) = [] := by
    rw [List.filter_eq_nil_iff]
    intro row mem
    obtain rfl := List.mem_singleton.mp mem
    decide
  have found := decodes.others labelRow List.mem_cons_self (by decide) (by decide)
  rw [captureDeviceInfo_render, unread] at found
  cases found

/-! ### Order and unmounted devices -/

/-- A line of seven words that fits the buffer, under keys of its own. -/
structure LsblkLine extends DeviceRow where
  keys : DeviceRow
  keys_words : keys.Words
  words : toDeviceRow.Words
  noNewline : '\n' ∉ keys.line toDeviceRow
  short : (keys.line toDeviceRow).length < 254

namespace LsblkLine

variable (l : LsblkLine)

def text : Str := l.keys.line l.toDeviceRow

/-- The entry that the line sets. -/
def mounted : Str × Str := (l.mountPoint, l.nameRead)

theorem mountPoint_fits : l.mountPoint.length < LEN_MOUNT_POINT := by
  have inLine : l.mountPoint <:+: l.text := by
    refine List.IsInfix.trans ?_ (Columns.infix_join ' ' (List.mem_append_right _ List.mem_cons_self))
    exact ⟨l.keys.mountPoint ++ ['=', '"'], ['"'], by simp [asToken]⟩
  have short : l.text.length < 254 := l.short
  have length := inLine.length_le
  rw [LEN_MOUNT_POINT]
  omega

theorem captureLine_line (mounts : MountTable) :
    captureLine mounts (l.text ++ ['\n']) = mounts.record l.mounted := by
  have parsed : parseDeviceFields (l.text ++ ['\n']) = (7, l.toDeviceRow.config) :=
    parse_line l.keys_words l.words (by decide) (by decide) (by decide)
  have mountPoint := (DeviceRow.config_string l.words.noNul .mountPoint).mpr l.mountPoint_fits
  have whole : l.mountPoint.take (Member.mountPoint.capacity - 1) = l.mountPoint :=
    List.take_of_length_le (Nat.le_pred_of_lt l.mountPoint_fits)
  rw [captureLine, parsed]
  dsimp only
  rw [if_pos rfl, mountPoint, DeviceRow.config_nameRead l.words.noNul l.mountPoint_fits]
  exact congrArg (fun m => mounts.record (m, l.nameRead)) whole

end LsblkLine

def output (lines : List LsblkLine) : Str := lines.flatMap fun l => l.text ++ ['\n']

theorem captureDeviceInfo_output (lines : List LsblkLine) :
    captureDeviceInfo (output lines) = .ofRows (lines.map LsblkLine.mounted) := by
  suffices run : ∀ mounts, (fgets (PATH_SIZE - 1) [] (output lines)).foldl captureLine mounts =
      (lines.map LsblkLine.mounted).foldl MountTable.record mounts from run .empty
  induction lines with
  | nil => exact fun _ => rfl
  | cons l lines ih =>
      intro mounts
      have line : output (l :: lines) = l.text ++ '\n' :: output lines := by simp [output]
      have noNewline : '\n' ∉ l.text := l.noNewline
      have room : l.text.length + 1 < PATH_SIZE - 1 := Nat.succ_lt_succ l.short
      rw [line, fgets_line noNewline _ room, List.foldl_cons, ih, List.map_cons, List.foldl_cons,
        l.captureLine_line]

/-- The name of a mounted row. -/
def Mounted (lines : List LsblkLine) (dev : Str) : Prop :=
  ∃ l ∈ lines, l.mountPoint ≠ [] ∧ l.deviceName = dev

/-- The name of a mounted row, or none where the path begins with no mount point. -/
def ResolvesTo (lines : List LsblkLine) (path dev : Str) : Prop :=
  Mounted lines dev ∨ (dev = [] ∧ ∀ l ∈ lines, l.mountPoint ≠ [] → ¬ l.mountPoint <+: path)

/-- Every absolute path resolves to a mounted device, whatever the order of the lines. -/
structure ResolvesMounted (lines : List LsblkLine) : Prop where
  mounted : ∀ path, path.head? = some '/' →
    ResolvesTo lines path (pathToDev (captureDeviceInfo (output lines)) path)
  order : ∀ lines', lines.Perm lines' → ∀ path, path.head? = some '/' →
    pathToDev (captureDeviceInfo (output lines')) path =
      pathToDev (captureDeviceInfo (output lines)) path

/-- Some absolute path resolves there: it is `/`, or the path of a mount that begins with no
other mount point. -/
def MountReached (mountPoints : List Str) (mountPoint : Str) : Prop :=
  mountPoint = ['/'] ∨ (mountPoint.head? = some '/' ∧
    ∀ m ∈ mountPoints, m ≠ ['/'] → m <+: mountPoint → m = mountPoint)

/-- An entry without a mount point is found first, for any path. -/
theorem pathToDev_unmounted {mounts : MountTable} {dev : Str} (h : ([], dev) ∈ mounts.entries)
    (path : Str) : pathToDev mounts path = dev :=
  pathToDev_shortest ⟨h, List.nil_prefix, fun _ _ _ => Nat.zero_le _⟩

/-- The last row without a mount point is the one found. -/
theorem ofRows_unmounted_last (rows : List (Str × Str)) (dev path : Str) :
    pathToDev (.ofRows (rows ++ [([], dev)])) path = dev := by
  refine pathToDev_unmounted ?_ path
  rw [MountTable.ofRows_concat, MountTable.record, if_neg (by simp)]
  exact MountTable.mem_set.mpr (.inl rfl)

/-- Rows without a mount point, all of one device. -/
theorem ofRows_unmounted {rows : List (Str × Str)} {dev : Str}
    (some : ∃ row ∈ rows, row.1 = []) (alike : ∀ row ∈ rows, row.1 = [] → row.2 = dev)
    (path : Str) : pathToDev (.ofRows rows) path = dev := by
  obtain ⟨⟨mountPoint, d⟩, mem, rfl⟩ := some
  refine pathToDev_unmounted ?_ path
  refine (MountTable.mem_ofRows (by simp) ?_).mpr (alike _ mem rfl ▸ mem)
  rintro ⟨mountPoint, d'⟩ mem' rfl
  exact congrArg (Prod.mk []) (alike _ mem' rfl)

/-- Each row has its own mount point. -/
def OneEach (rows : List (Str × Str)) : Prop := ∀ r ∈ rows, ∀ r' ∈ rows, r.1 = r'.1 → r = r'

theorem ofRows_perm {rows rows' : List (Str × Str)} (own : OneEach rows)
    (perm : rows.Perm rows') : MountTable.ofRows rows = .ofRows rows' := by
  have entries : (MountTable.ofRows rows).entries = (MountTable.ofRows rows').entries := by
    rw [MountTable.entries_ofRows, MountTable.entries_ofRows]
    exact ofPairs_perm (fun p hp q hq => own p (List.mem_of_mem_filter hp) q
      (List.mem_of_mem_filter hq)) (perm.filter _)
  have root : (MountTable.ofRows rows).rootFsDev = (MountTable.ofRows rows').rootFsDev := by
    by_cases some : ∃ row ∈ rows, row.1 = ['/']
    · obtain ⟨⟨mountPoint, dev⟩, mem, rfl⟩ := some
      rw [MountTable.rootFsDev_of_unique mem fun r hr same => own r hr _ mem same,
        MountTable.rootFsDev_of_unique (perm.mem_iff.mp mem) fun r hr same =>
          own r (perm.mem_iff.mpr hr) _ mem same]
    · simp only [not_exists, not_and] at some
      rw [MountTable.rootFsDev_of_none some,
        MountTable.rootFsDev_of_none fun r hr => some r (perm.mem_iff.mpr hr)]
  exact MountTable.ext entries root

/-- The device found for an absolute path is that of a row some path reaches, or none if no
row's mount point is one. -/
theorem ofRows_finds {rows : List (Str × Str)} (own : OneEach rows) (all : ∀ row ∈ rows, row.1 ≠ [])
    {path : Str} (absolute : path.head? = some '/') :
    (∃ row ∈ rows, MountReached (rows.map Prod.fst) row.1 ∧ row.2 = pathToDev (.ofRows rows) path) ∨
      (pathToDev (.ofRows rows) path = [] ∧ ∀ row ∈ rows, ¬ row.1 <+: path) := by
  have entry : ∀ {row}, row ∈ rows → row.1 ≠ ['/'] → row ∈ (MountTable.ofRows rows).entries :=
    fun mem notRoot =>
      (MountTable.mem_ofRows notRoot fun r hr same => own r hr _ mem same).mpr mem
  by_cases key : ∃ e ∈ (MountTable.ofRows rows).entries, e.1 <+: path
  · obtain ⟨e, mem, here⟩ := key
    obtain ⟨s, shortest⟩ := exists_shortest mem here
    have inRows := MountTable.mem_of_mem_ofRows shortest.1
    refine .inl ⟨s, inRows, .inr ⟨?_, ?_⟩, (pathToDev_shortest shortest).symm⟩
    · obtain ⟨rest, rfl⟩ := shortest.2.1
      rwa [List.head?_append_of_ne_nil _ (all s inRows)] at absolute
    · intro m mem notRoot before
      obtain ⟨row, hrow, rfl⟩ := List.mem_map.mp mem
      have length := shortest.2.2 row (entry hrow notRoot) (before.trans shortest.2.1)
      exact before.eq_of_length (Nat.le_antisymm before.length_le length)
  · rw [pathToDev_noKey fun e mem here => key ⟨e, mem, here⟩]
    by_cases some : ∃ row ∈ rows, row.1 = ['/']
    · obtain ⟨⟨mountPoint, dev⟩, mem, rfl⟩ := some
      exact .inl ⟨_, mem, .inl rfl,
        (MountTable.rootFsDev_of_unique mem fun r hr same => own r hr _ mem same).symm⟩
    · simp only [not_exists, not_and] at some
      exact .inr ⟨MountTable.rootFsDev_of_none some, fun row mem here =>
        key ⟨row, entry mem (some row mem), here⟩⟩

/-- A row that some path reaches is found for its own mount point. -/
theorem ofRows_reached {rows : List (Str × Str)} (own : OneEach rows)
    (all : ∀ row ∈ rows, row.1 ≠ []) {row : Str × Str} (mem : row ∈ rows)
    (reached : MountReached (rows.map Prod.fst) row.1) :
    pathToDev (.ofRows rows) row.1 = row.2 := by
  have inRows : ∀ {e}, e ∈ (MountTable.ofRows rows).entries → e ∈ rows ∧ e.1 ≠ ['/'] := by
    intro e he
    refine ⟨MountTable.mem_of_mem_ofRows he, ?_⟩
    rw [MountTable.entries_ofRows] at he
    simpa using (List.mem_filter.mp (mem_of_mem_ofPairs he)).2
  by_cases root : row.1 = ['/']
  · obtain ⟨mountPoint, dev⟩ := row
    obtain rfl : mountPoint = ['/'] := root
    rw [pathToDev_noKey]
    · exact MountTable.rootFsDev_of_unique mem fun r hr same => own r hr _ mem same
    · intro e he here
      obtain ⟨known, notRoot⟩ := inRows he
      have length := here.length_le
      rcases e with ⟨_ | ⟨c, _ | ⟨_, _⟩⟩, d⟩
      · exact all _ known rfl
      · exact notRoot (here.eq_of_length rfl)
      · simp at length
  · have first := (reached.resolve_left root).2
    refine pathToDev_shortest ⟨(MountTable.mem_ofRows root fun r hr same =>
      own r hr _ mem same).mpr mem, List.prefix_rfl, fun e he here => ?_⟩
    obtain ⟨known, notRoot⟩ := inRows he
    rw [first e.1 (List.mem_map_of_mem known) notRoot here]

section Resolving

variable {lines : List LsblkLine}

theorem oneEach_mounted (apart : Apart (lines.map (·.mountPoint)))
    (all : ∀ l ∈ lines, l.mountPoint ≠ []) : OneEach (lines.map LsblkLine.mounted) := by
  intro r hr r' hr' same
  obtain ⟨l, hl, rfl⟩ := List.mem_map.mp hr
  obtain ⟨l', hl', rfl⟩ := List.mem_map.mp hr'
  rw [apart.unique hl hl' (all l hl) same.symm]

theorem mountPoints_mounted : (lines.map LsblkLine.mounted).map Prod.fst =
    lines.map (·.mountPoint) := List.map_map

/-- With mounted rows only, the table does not depend on their order, and a device found is
that of a row which some path reaches. -/
theorem resolvesMounted_iff_of_all (apart : Apart (lines.map (·.mountPoint)))
    (all : ∀ l ∈ lines, l.mountPoint ≠ []) :
    ResolvesMounted lines ↔
      ∀ l ∈ lines, MountReached (lines.map (·.mountPoint)) l.mountPoint →
        Mounted lines l.nameRead := by
  have own := oneEach_mounted apart all
  have nonempty : ∀ row ∈ lines.map LsblkLine.mounted, row.1 ≠ [] := by
    intro row mem
    obtain ⟨l, hl, rfl⟩ := List.mem_map.mp mem
    exact all l hl
  constructor
  · intro h l hl reached
    have absolute : l.mountPoint.head? = some '/' := by
      rcases reached with root | ⟨absolute, -⟩
      · rw [root]
        rfl
      · exact absolute
    have found := h.mounted l.mountPoint absolute
    rw [captureDeviceInfo_output, show l.mountPoint = l.mounted.1 from rfl,
      ofRows_reached own nonempty (List.mem_map_of_mem hl) (by rwa [mountPoints_mounted])] at found
    rcases found with mounted | ⟨-, noPrefix⟩
    · exact mounted
    · exact absurd List.prefix_rfl (noPrefix l hl (all l hl))
  · intro known
    constructor
    · intro path absolute
      rw [captureDeviceInfo_output]
      rcases ofRows_finds own nonempty absolute with ⟨row, mem, reached, found⟩ | ⟨found, noPrefix⟩
      · obtain ⟨l, hl, rfl⟩ := List.mem_map.mp mem
        rw [← found]
        rw [mountPoints_mounted] at reached
        exact .inl (known l hl reached)
      · exact .inr ⟨found, fun l hl _ => noPrefix l.mounted (List.mem_map_of_mem hl)⟩
    · intro lines' perm path _
      rw [captureDeviceInfo_output, captureDeviceInfo_output, ofRows_perm own (perm.map _)]

/-- All unmounted rows of one device: it is found for every path. -/
theorem pathToDev_alike {dev : Str} (some : ∃ l ∈ lines, l.mountPoint = [])
    (alike : ∀ l ∈ lines, l.mountPoint = [] → l.nameRead = dev) (path : Str) :
    pathToDev (captureDeviceInfo (output lines)) path = dev := by
  rw [captureDeviceInfo_output]
  obtain ⟨l, hl, unmounted⟩ := some
  refine ofRows_unmounted ⟨l.mounted, List.mem_map_of_mem hl, unmounted⟩ ?_ path
  intro row mem
  obtain ⟨l', hl', rfl⟩ := List.mem_map.mp mem
  exact alike l' hl'

/-- Where order does not matter, every unmounted row is found as if it were last. -/
theorem ResolvesMounted.alike (h : ResolvesMounted lines) {l : LsblkLine} (hl : l ∈ lines)
    (unmounted : l.mountPoint = []) :
    l.nameRead = pathToDev (captureDeviceInfo (output lines)) ['/'] := by
  obtain ⟨before, after, rfl⟩ := List.append_of_mem hl
  have moved : (before ++ l :: after).Perm (before ++ after ++ [l]) :=
    List.perm_middle.trans (List.perm_append_singleton l _).symm
  rw [← h.order _ moved ['/'] rfl, captureDeviceInfo_output, List.map_append, List.map_singleton]
  have last : l.mounted = ([], l.nameRead) := by rw [LsblkLine.mounted, unmounted]
  rw [last, ofRows_unmounted_last]

/-- The device of the unmounted rows is the one of a mounted row, or none and no path
is a mount point. -/
theorem ResolvesMounted.known (h : ResolvesMounted lines) {dev : Str}
    (unmounted : ∃ l ∈ lines, l.mountPoint = [])
    (alike : ∀ l ∈ lines, l.mountPoint = [] → l.nameRead = dev) :
    Mounted lines dev ∨ (dev = [] ∧ ∀ l ∈ lines, l.mountPoint.head? ≠ some '/') := by
  by_cases mounted : Mounted lines dev
  · exact .inl mounted
  · right
    have none : ∀ path : Str, path.head? = some '/' → _ := fun path absolute =>
      (pathToDev_alike unmounted alike path ▸ h.mounted path absolute).resolve_left mounted
    refine ⟨(none ['/'] rfl).1, fun l hl absolute => ?_⟩
    have nonempty : l.mountPoint ≠ [] := by
      intro empty
      rw [empty] at absolute
      cases absolute
    exact (none l.mountPoint absolute).2 l hl nonempty List.prefix_rfl

theorem resolvesMounted_of_known {dev : Str} (unmounted : ∃ l ∈ lines, l.mountPoint = [])
    (alike : ∀ l ∈ lines, l.mountPoint = [] → l.nameRead = dev)
    (known : Mounted lines dev ∨ (dev = [] ∧ ∀ l ∈ lines, l.mountPoint.head? ≠ some '/')) :
    ResolvesMounted lines := by
  constructor
  · intro path absolute
    rw [pathToDev_alike unmounted alike]
    rcases known with mounted | ⟨noName, noPath⟩
    · exact .inl mounted
    · refine .inr ⟨noName, fun l hl nonempty here => noPath l hl ?_⟩
      obtain ⟨rest, rfl⟩ := here
      rwa [List.head?_append_of_ne_nil _ nonempty] at absolute
  · intro lines' perm path _
    rw [pathToDev_alike unmounted alike]
    obtain ⟨l, hl, empty⟩ := unmounted
    exact pathToDev_alike ⟨l, perm.mem_iff.mp hl, empty⟩
      (fun l' hl' => alike l' (perm.mem_iff.mpr hl')) path

/-- **Unmounted devices.** Every absolute path resolves to the name of a mounted device, in
any order of the lines, iff all lines are mounted, and those that a path reaches are read
with the name of one; or the lines that are not mounted are all read with one name, which is
that of a mounted one, or is empty with nothing mounted on a path. -/
theorem resolves_mounted_iff (lines : List LsblkLine) (apart : Apart (lines.map (·.mountPoint))) :
    ResolvesMounted lines ↔
      ((∀ l ∈ lines, l.mountPoint ≠ []) ∧
        ∀ l ∈ lines, MountReached (lines.map (·.mountPoint)) l.mountPoint →
          Mounted lines l.nameRead) ∨
      ((∃ l ∈ lines, l.mountPoint = []) ∧
        ∃ dev, (∀ l ∈ lines, l.mountPoint = [] → l.nameRead = dev) ∧
          (Mounted lines dev ∨ (dev = [] ∧ ∀ l ∈ lines, l.mountPoint.head? ≠ some '/'))) := by
  by_cases all : ∀ l ∈ lines, l.mountPoint ≠ []
  · have none_ : ¬ ∃ l ∈ lines, l.mountPoint = [] := fun ⟨l, hl, empty⟩ => all l hl empty
    rw [resolvesMounted_iff_of_all apart all, and_iff_right all, or_iff_left fun h => none_ h.1]
  · have unmounted : ∃ l ∈ lines, l.mountPoint = [] := by simpa using all
    rw [and_iff_right unmounted, or_iff_right fun h => all h.1]
    constructor
    · intro h
      have alike := fun l hl empty => h.alike (l := l) hl empty
      exact ⟨_, alike, h.known unmounted alike⟩
    · rintro ⟨dev, alike, known⟩
      exact resolvesMounted_of_known unmounted alike known

end Resolving

/-! A disk, which is not mounted, and the volume on it. -/

/-- The line of a row that fits. -/
def LsblkRow.asLine (row : LsblkRow) (noSpace : row.toDeviceRow.Free ' ')
    (short : row.text.length < 254) : LsblkLine where
  toDeviceRow := row.toDeviceRow
  keys := lsblkKeys
  keys_words := lsblkKeys_words
  words := ⟨noSpace, row.noQuote, row.noNul⟩
  noNewline := row.text_noNewline
  short := short

def diskRow : LsblkRow :=
  mountedAt "vda".toList [] (by decide) (by decide) (forall_mem_of_all (by decide))

def volumeLine : LsblkLine := volumeRow.asLine (by decide) (by decide)

def diskLine : LsblkLine := diskRow.asLine (by decide) (by decide)

theorem resolves_mounted_iff_volume : ResolvesMounted [volumeLine] := by
  have apart : Apart ([volumeLine].map (·.mountPoint)) := List.nodup_singleton _ |>.filter _
  refine (resolves_mounted_iff [volumeLine] apart).mpr (.inl ⟨fun l mem => ?_, fun l mem _ => ?_⟩)
  · obtain rfl := List.mem_singleton.mp mem
    exact (by decide : "/home".toList ≠ [])
  · obtain rfl := List.mem_singleton.mp mem
    exact ⟨_, mem, (by decide : "/home".toList ≠ []),
      (DeviceRow.nameRead_of_short volumeRow.deviceName_fits).symm⟩

/-- Every file is taken to be on the disk itself. -/
theorem disk_found : Apart ([diskLine, volumeLine].map (·.mountPoint)) ∧
    ¬ ResolvesMounted [diskLine, volumeLine] := by
  constructor
  · exact (by decide : Apart [[], "/home".toList])
  · intro resolves
    have found := resolves.mounted ['/'] rfl
    rw [← resolves.alike List.mem_cons_self (rfl : diskLine.mountPoint = []),
      show diskLine.nameRead = "vda".toList from
        DeviceRow.nameRead_of_short diskRow.deviceName_fits] at found
    rcases found with ⟨l, mem, mounted, same⟩ | ⟨unnamed, -⟩
    · rcases List.mem_cons.mp mem with rfl | mem
      · exact mounted rfl
      · obtain rfl := List.mem_singleton.mp mem
        exact absurd same (by decide : "vg-home".toList ≠ "vda".toList)
    · exact absurd unnamed (by decide)

end IoMonitor.Listener
