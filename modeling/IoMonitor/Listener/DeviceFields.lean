import IoMonitor.Lib.CString
import IoMonitor.Lib.Columns

/-!
One line of `lsblk -P`, and the struct `parse_device_fields` copies it into.

The members of `device_config` lie one behind the other and a copy may fill its
array to the last byte, so a string read from a member can run on into the next
(`no_bleed_iff`).
-/

namespace IoMonitor.Listener

open CString Columns

def LEN_DEVICE_NAME : Nat := 40
def LEN_MAJ_MIN : Nat := 10
def LEN_DEVICE_SIZE : Nat := 10
def LEN_DEVICE_TYPE : Nat := 40
def LEN_MOUNT_POINT : Nat := 256

/-- `struct _device_config`. -/
structure DeviceConfig where
  deviceName : CharArray LEN_DEVICE_NAME
  majMin : CharArray LEN_MAJ_MIN
  rm : Char
  deviceSize : CharArray LEN_DEVICE_SIZE
  ro : Char
  deviceType : CharArray LEN_DEVICE_TYPE
  mountPoint : CharArray LEN_MOUNT_POINT

/-- The members that are arrays. -/
inductive Member where
  | deviceName | majMin | deviceSize | deviceType | mountPoint
  deriving DecidableEq, Repr

def Member.capacity : Member → Nat
  | deviceName => LEN_DEVICE_NAME
  | majMin => LEN_MAJ_MIN
  | deviceSize => LEN_DEVICE_SIZE
  | deviceType => LEN_DEVICE_TYPE
  | mountPoint => LEN_MOUNT_POINT

/-- Where the member starts. No member needs padding. -/
def Member.offset : Member → Nat
  | deviceName => 0
  | majMin => LEN_DEVICE_NAME
  | deviceSize => LEN_DEVICE_NAME + LEN_MAJ_MIN + 1
  | deviceType => LEN_DEVICE_NAME + LEN_MAJ_MIN + 1 + LEN_DEVICE_SIZE + 1
  | mountPoint => LEN_DEVICE_NAME + LEN_MAJ_MIN + 1 + LEN_DEVICE_SIZE + 1 + LEN_DEVICE_TYPE

namespace DeviceConfig

/-- After `memset(dc, 0, sizeof(struct _device_config))`. -/
def zero : DeviceConfig := ⟨.zero _, .zero _, nul, .zero _, nul, .zero _, .zero _⟩

def array (dc : DeviceConfig) : ∀ m : Member, CharArray m.capacity
  | .deviceName => dc.deviceName
  | .majMin => dc.majMin
  | .deviceSize => dc.deviceSize
  | .deviceType => dc.deviceType
  | .mountPoint => dc.mountPoint

def bytes (dc : DeviceConfig) : Str :=
  dc.deviceName.bytes ++ (dc.majMin.bytes ++ dc.rm :: (dc.deviceSize.bytes ++ dc.ro ::
    (dc.deviceType.bytes ++ dc.mountPoint.bytes)))

/-- The C string at the start of the member, as far as the struct goes. -/
def string (dc : DeviceConfig) (m : Member) : Str := cstr (dc.bytes.drop m.offset)

end DeviceConfig

/-! ### Parsing -/

/-- `pos_field_value` and `num_field_chars` of a token, unless the loop skips it. -/
def fieldValue (token : Str) : Option (Str × Nat) := do
  let posEqual ← strchr token '='
  let posOpenQuote ← strchr posEqual.tail '"'
  let posFieldValue := posOpenQuote.tail
  let posCloseQuote ← strchr posFieldValue '"'
  some (posFieldValue, posOpenQuote.length - posCloseQuote.length - 1)

/-- The `switch` on the number of fields before this one. Each array is copied to
once, into zeros. -/
def storeField (dc : DeviceConfig) (j : Nat) (posFieldValue : Str) (numFieldChars : Nat) :
    DeviceConfig :=
  match j with
  | 0 => { dc with deviceName := strncpy _ (posFieldValue.take numFieldChars) }
  | 1 => { dc with majMin := strncpy _ (posFieldValue.take numFieldChars) }
  | 2 => { dc with rm := posFieldValue.headD nul }
  | 3 => { dc with deviceSize := strncpy _ (posFieldValue.take numFieldChars) }
  | 4 => { dc with ro := posFieldValue.headD nul }
  | 5 => { dc with deviceType := strncpy _ (posFieldValue.take numFieldChars) }
  | 6 => { dc with mountPoint := strncpy _ (posFieldValue.take numFieldChars) }
  | _ => dc

/-- The body of the `strtok_r` loop. -/
def parseToken (parsed : Nat × DeviceConfig) (token : Str) : Nat × DeviceConfig :=
  match fieldValue token with
  | none => parsed
  | some (posFieldValue, numFieldChars) =>
      (parsed.1 + 1, storeField parsed.2 parsed.1 posFieldValue numFieldChars)

/-- `parse_device_fields`: the number of fields and `*dc`. -/
def parseDeviceFields (deviceFields : Str) : Nat × DeviceConfig :=
  (strtok [' '] [] (cstr deviceFields)).foldl parseToken (0, .zero)

/-! ### Lines -/

/-- `KEY="value"`. -/
def asToken (key value : Str) : Str := key ++ '=' :: '"' :: (value ++ ['"'])

/-- The columns of a line, or their keys. -/
structure DeviceRow where
  deviceName : Str
  majMin : Str
  rm : Str
  deviceSize : Str
  ro : Str
  deviceType : Str
  mountPoint : Str
  deriving DecidableEq

namespace DeviceRow

/-- The columns before the mount point. -/
def front (row : DeviceRow) : List Str :=
  [row.deviceName, row.majMin, row.rm, row.deviceSize, row.ro, row.deviceType]

def values (row : DeviceRow) : List Str := row.front ++ [row.mountPoint]

/-- The value copied into the member. -/
def value (row : DeviceRow) : Member → Str
  | .deviceName => row.deviceName
  | .majMin => row.majMin
  | .deviceSize => row.deviceSize
  | .deviceType => row.deviceType
  | .mountPoint => row.mountPoint

/-- A line of the first six columns, under the keys, and the text of the last. -/
def lineTo (keys row : DeviceRow) (last : Str) : Str :=
  join ' ' (List.zipWith asToken keys.front row.front ++ [last])

def line (keys row : DeviceRow) : Str := keys.lineTo row (asToken keys.mountPoint row.mountPoint)

/-- The struct the row fits in, with arrays filled as far as they go. -/
def config (row : DeviceRow) : DeviceConfig where
  deviceName := strncpy _ row.deviceName
  majMin := strncpy _ row.majMin
  rm := (row.rm ++ ['"']).headD nul
  deviceSize := strncpy _ row.deviceSize
  ro := (row.ro ++ ['"']).headD nul
  deviceType := strncpy _ row.deviceType
  mountPoint := strncpy _ row.mountPoint

/-- Every value is free of the character. -/
def Free (c : Char) (row : DeviceRow) : Prop := ∀ v ∈ row.values, c ∉ v

instance (c : Char) (row : DeviceRow) : Decidable (row.Free c) := by unfold Free; infer_instance

/-- Words without quotes. -/
structure Words (row : DeviceRow) : Prop where
  noSpace : row.Free ' '
  noQuote : row.Free '"'
  noNul : row.Free nul

end DeviceRow

/-- The keys of `lsblk -P`. -/
def lsblkKeys : DeviceRow where
  deviceName := "NAME".toList
  majMin := "MAJ:MIN".toList
  rm := "RM".toList
  deviceSize := "SIZE".toList
  ro := "RO".toList
  deviceType := "TYPE".toList
  mountPoint := "MOUNTPOINT".toList

theorem lsblkKeys_words : lsblkKeys.Words where
  noSpace := by decide
  noQuote := by decide
  noNul := by decide

/-- Each array reads as its own value, cut to what it has room for. -/
def NoBleed (row : DeviceRow) (dc : DeviceConfig) : Prop :=
  ∀ m, dc.string m = (row.value m).take (m.capacity - 1)

/-! ### Strings in the struct -/

theorem DeviceConfig.drop_offset (dc : DeviceConfig) (m : Member) :
    ∃ behind, dc.bytes.drop m.offset = (dc.array m).bytes ++ behind := by
  have array : ∀ {n : Nat} (a : CharArray n) (k : Nat) (behind : Str),
      (a.bytes ++ behind).drop (n + k) = behind.drop k := by
    intro n a k behind
    rw [← List.drop_drop, List.drop_left' a.bytes_length]
  have char : ∀ (c : Char) (k : Nat) (behind : Str), (c :: behind).drop (1 + k) = behind.drop k := by
    intro c k behind
    rw [Nat.add_comm, List.drop_succ_cons]
  cases m with
  | deviceName => exact ⟨_, rfl⟩
  | majMin => exact ⟨_, array _ 0 _⟩
  | deviceSize =>
      refine ⟨dc.ro :: (dc.deviceType.bytes ++ dc.mountPoint.bytes), ?_⟩
      simp only [bytes, Member.offset, Nat.add_assoc, array]
      exact char _ 0 _
  | deviceType =>
      refine ⟨dc.mountPoint.bytes, ?_⟩
      simp only [bytes, Member.offset, Nat.add_assoc, array, char]
      exact char _ 0 _
  | mountPoint =>
      refine ⟨[], ?_⟩
      simp only [bytes, Member.offset, Nat.add_assoc, array, char, List.append_nil]
      exact array _ 0 _

theorem DeviceConfig.string_eq (dc : DeviceConfig) (m : Member) :
    ∃ behind, dc.string m = if (dc.array m).Terminated then (dc.array m).chars
      else (dc.array m).chars ++ behind := by
  obtain ⟨behind, eq⟩ := dc.drop_offset m
  exact ⟨cstr behind, by rw [string, eq, cstr_bytes_append]⟩

theorem DeviceRow.config_array (row : DeviceRow) (m : Member) :
    row.config.array m = strncpy m.capacity (row.value m) := by
  cases m <;> rfl

theorem DeviceRow.value_mem (row : DeviceRow) (m : Member) : row.value m ∈ row.values := by
  cases m <;> simp [value, values, front]

/-- A string that leaves room for its NUL is read back, and no other is cut. -/
theorem DeviceRow.config_string {row : DeviceRow} (noNul : row.Free nul) (m : Member) :
    row.config.string m = (row.value m).take (m.capacity - 1) ↔
      (row.value m).length < m.capacity := by
  have positive : 0 < m.capacity := by cases m <;> decide
  have chars := strncpy_chars (n := m.capacity) (noNul _ (row.value_mem m))
  obtain ⟨behind, string⟩ := row.config.string_eq m
  simp only [config_array, CharArray.Terminated, chars, List.length_take] at string
  rw [string]
  split
  · rename_i room
    have short : (row.value m).length < m.capacity := by omega
    simp only [short, iff_true]
    rw [List.take_of_length_le (by omega), List.take_of_length_le (by omega)]
  · rename_i full
    have long : ¬ (row.value m).length < m.capacity := by omega
    simp only [long, iff_false]
    intro same
    have := congrArg List.length same
    simp only [List.length_append, List.length_take] at this
    omega

/-- A value that fills its array is cut, and what lies behind follows it. -/
def runOn (n : Nat) (value behind : Str) : Str :=
  if value.length < n then value else value.take n ++ behind

/-- The name that is read: of 40 characters or more the first 40, and then the device numbers,
and so on up to an array that is not full. -/
def DeviceRow.nameRead (row : DeviceRow) : Str :=
  runOn LEN_DEVICE_NAME row.deviceName <| runOn LEN_MAJ_MIN row.majMin <|
    (row.rm ++ ['"']).headD nul :: runOn LEN_DEVICE_SIZE row.deviceSize
      ((row.ro ++ ['"']).headD nul :: runOn LEN_DEVICE_TYPE row.deviceType row.mountPoint)

theorem cstr_strncpy_append {n : Nat} {value : Str} (noNul : nul ∉ value) (behind : Str) :
    cstr ((strncpy n value).bytes ++ behind) = runOn n value (cstr behind) := by
  have chars := strncpy_chars (n := n) noNul
  have length : (strncpy n value).Terminated ↔ min n value.length < n := by
    rw [CharArray.Terminated, chars, List.length_take]
  rw [cstr_bytes_append, runOn]
  by_cases room : value.length < n
  · rw [if_pos (length.mpr (by omega)), if_pos room, chars, List.take_of_length_le room.le]
  · rw [if_neg (fun short => room (by have := length.mp short; omega)), if_neg room, chars]

theorem cstr_cons {c : Char} (h : c ≠ nul) (behind : Str) : cstr (c :: behind) = c :: cstr behind :=
  List.takeWhile_cons_of_pos (by simpa using h)

theorem DeviceRow.config_nameRead {row : DeviceRow} (noNul : row.Free nul)
    (fits : row.mountPoint.length < LEN_MOUNT_POINT) :
    row.config.string .deviceName = row.nameRead := by
  have own : ∀ {n : Nat} (m : Member) (behind : Str),
      cstr ((strncpy n (row.value m)).bytes ++ behind) = runOn n (row.value m) (cstr behind) :=
    fun m behind => cstr_strncpy_append (noNul _ (row.value_mem m)) behind
  have char : ∀ value ∈ row.values, (value ++ ['"']).headD nul ≠ nul := by
    intro value mem
    cases value with
    | nil => decide
    | cons c value => exact fun same => noNul _ mem (same ▸ List.mem_cons_self)
  have last : cstr (strncpy LEN_MOUNT_POINT row.mountPoint).bytes = row.mountPoint := by
    have whole := own (n := LEN_MOUNT_POINT) .mountPoint []
    rw [List.append_nil] at whole
    exact whole.trans (if_pos fits)
  calc row.config.string .deviceName
      = cstr (row.config.deviceName.bytes ++ _) := rfl
    _ = row.nameRead := by
      rw [nameRead, ← last]
      refine (own .deviceName _).trans (congrArg _ ((own .majMin _).trans (congrArg _ ?_)))
      refine (cstr_cons (char _ (by simp [values, front])) _).trans (congrArg _ ?_)
      refine (own .deviceSize _).trans (congrArg _ ?_)
      exact (cstr_cons (char _ (by simp [values, front])) _).trans (congrArg _ (own .deviceType _))

/-- A name that leaves room for its NUL is read as it is. -/
theorem DeviceRow.nameRead_of_short {row : DeviceRow}
    (short : row.deviceName.length < LEN_DEVICE_NAME) : row.nameRead = row.deviceName :=
  if_pos short

/-! ### What one token gives -/

/-- The value ends at the next quote. A key may have an equals sign in it. -/
theorem fieldValue_token {key value : Str} (hkey : '"' ∉ key) (hvalue : '"' ∉ value)
    (trailing : Str) :
    fieldValue (asToken key value ++ trailing) =
      some (value ++ '"' :: trailing, value.length) := by
  have equals : '=' ∈ key ++ ['='] := List.mem_append_right _ List.mem_cons_self
  obtain ⟨front, between, split, first⟩ := List.eq_append_cons_of_mem equals
  have noQuote : '"' ∉ between := by
    intro mem
    have : '"' ∈ key ++ ['='] := split ▸ List.mem_append_right _ (List.mem_cons_of_mem _ mem)
    rcases List.mem_append.mp this with inKey | isEquals
    · exact hkey inKey
    · simp at isEquals
  have token : asToken key value ++ trailing =
      front ++ '=' :: (between ++ '"' :: (value ++ '"' :: trailing)) := by
    calc asToken key value ++ trailing
        = key ++ ['='] ++ '"' :: (value ++ '"' :: trailing) := by simp [asToken]
      _ = _ := by rw [split]; simp
  have length : (value ++ '"' :: trailing).length - trailing.length - 1 = value.length := by
    simp only [List.length_append, List.length_cons]
    omega
  rw [token, fieldValue, strchr_append first]
  simp only [Option.bind_eq_bind, Option.bind_some, List.tail_cons, strchr_append noQuote,
    strchr_append hvalue, List.length_cons, Nat.add_sub_add_right, length]

/-- A token the loop does not skip has two quotes. -/
theorem fieldValue_quotes {token : Str} {found : Str × Nat} (h : fieldValue token = some found) :
    2 ≤ token.count '"' := by
  simp only [fieldValue, Option.bind_eq_bind, Option.bind_eq_some_iff] at h
  obtain ⟨posEqual, equal, posOpenQuote, opens, posCloseQuote, closes, -⟩ := h
  obtain ⟨suffix, rest, rfl⟩ := strchr_some opens
  obtain ⟨behind, rest', rfl⟩ := strchr_some closes
  have inToken : '"' :: rest <:+ token :=
    (suffix.trans (List.tail_suffix _)).trans (strchr_some equal).1
  have second : 1 ≤ rest.count '"' :=
    List.one_le_count_iff.mpr (behind.subset List.mem_cons_self)
  have := inToken.sublist.count_le '"'
  rw [List.count_cons_self] at this
  omega

/-- The loop stores the fields found, one after the other. -/
theorem parseToken_foldl (tokens : List Str) (parsed : Nat × DeviceConfig) :
    tokens.foldl parseToken parsed = (tokens.filterMap fieldValue).foldl
      (fun parsed found => (parsed.1 + 1, storeField parsed.2 parsed.1 found.1 found.2)) parsed := by
  rw [List.foldl_filterMap]
  congr
  funext parsed token
  unfold parseToken
  cases fieldValue token <;> rfl

/-- The fields of a line. -/
def fieldsOf (line : Str) : List (Str × Nat) := (line.splitOn ' ').filterMap fieldValue

/-- Empty pieces, which `strtok_r` leaves out, would be skipped. -/
theorem fieldsOf_eq (line : Str) : (strtok [' '] [] line).filterMap fieldValue = fieldsOf line := by
  have whole : (line.splitOn ' ').modifyHead ([] ++ ·) = line.splitOn ' ' := by
    cases line.splitOn ' ' <;> rfl
  rw [strtok_eq_splitOn, whole, fieldsOf, List.filterMap_filter]
  congr
  funext piece
  by_cases empty : piece = []
  · subst empty
    rfl
  · simp [empty]

theorem parseDeviceFields_eq {line : Str} (noNul : nul ∉ line) :
    parseDeviceFields line = (fieldsOf line).foldl
      (fun parsed found => (parsed.1 + 1, storeField parsed.2 parsed.1 found.1 found.2))
      (0, .zero) := by
  rw [parseDeviceFields, cstr_of_noNul noNul, parseToken_foldl, fieldsOf_eq]

theorem parseDeviceFields_fst {line : Str} (noNul : nul ∉ line) :
    (parseDeviceFields line).1 = (fieldsOf line).length := by
  suffices count : ∀ (fields : List (Str × Nat)) (parsed : Nat × DeviceConfig),
      (fields.foldl (fun parsed found =>
        (parsed.1 + 1, storeField parsed.2 parsed.1 found.1 found.2)) parsed).1 =
        parsed.1 + fields.length by
    rw [parseDeviceFields_eq noNul, count, Nat.zero_add]
  intro fields
  induction fields with
  | nil => exact fun _ => rfl
  | cons field fields ih =>
      intro parsed
      rw [List.foldl_cons, ih, List.length_cons]
      omega

/-! ### What a line gives -/

theorem fieldsOf_append (front rest : Str) :
    fieldsOf (front ++ ' ' :: rest) = fieldsOf front ++ fieldsOf rest := by
  rw [fieldsOf, List.splitOn_append_cons_self, List.filterMap_append]
  rfl

theorem fieldsOf_join {tokens : List Str} (nonempty : tokens ≠ []) :
    fieldsOf (join ' ' tokens) = tokens.flatMap fieldsOf := by
  rw [fieldsOf, splitOn_join ' ' nonempty, columns, List.filterMap_flatMap]
  rfl

/-- Nothing is read from a text with fewer than two quotes. -/
theorem fieldsOf_eq_nil {text : Str} (few : text.count '"' < 2) : fieldsOf text = [] := by
  refine List.filterMap_eq_nil_iff.mpr fun piece mem => ?_
  by_contra found
  obtain ⟨field, found⟩ := Option.ne_none_iff_exists'.mp found
  have inText : piece.count '"' ≤ text.count '"' := by
    rw [← join_splitOn ' ' text]
    exact (sublist_join ' ' mem).count_le '"'
  have := fieldValue_quotes found
  omega

theorem splitOn_token {key value trailing : Str} (hkey : ' ' ∉ key) (hvalue : ' ' ∉ value)
    (htrailing : ' ' ∉ trailing) :
    (asToken key value ++ trailing).splitOn ' ' = [asToken key value ++ trailing] := by
  refine List.splitOn_eq_singleton ?_
  simp [asToken, hkey, hvalue, htrailing]

/-- A value with a space in it is cut, and its quotes fall into different pieces. -/
theorem fieldsOf_token {key value trailing : Str} (keySpace : ' ' ∉ key) (keyQuote : '"' ∉ key)
    (valueQuote : '"' ∉ value) (noSpace : ' ' ∉ trailing) (noQuote : '"' ∉ trailing) :
    fieldsOf (asToken key value ++ trailing) =
      if ' ' ∈ value then [] else [(value ++ '"' :: trailing, value.length)] := by
  split
  · rename_i space
    obtain ⟨front, rest, rfl⟩ := List.append_of_mem space
    obtain ⟨inFront, inRest⟩ : '"' ∉ front ∧ '"' ∉ rest := by simpa using valueQuote
    have cut : asToken key (front ++ ' ' :: rest) ++ trailing =
        (key ++ '=' :: '"' :: front) ++ ' ' :: (rest ++ '"' :: trailing) := by
      simp [asToken]
    rw [cut, fieldsOf_append, fieldsOf_eq_nil, fieldsOf_eq_nil, List.nil_append]
    · simp [List.count_eq_zero.mpr inRest, List.count_eq_zero.mpr noQuote]
    · simp [List.count_eq_zero.mpr inFront, List.count_eq_zero.mpr keyQuote]
  · rename_i whole
    rw [fieldsOf, splitOn_token keySpace whole noSpace, List.filterMap_cons_some
      (fieldValue_token keyQuote valueQuote trailing), List.filterMap_nil]

/-- What `fieldValue` finds of a value, with what follows its closing quote. -/
def found (value trailing : Str) : List (Str × Nat) :=
  if ' ' ∈ value then [] else [(value ++ '"' :: trailing, value.length)]

theorem found_length (value trailing : Str) :
    (found value trailing).length = if ' ' ∉ value then 1 else 0 := by
  unfold found
  split <;> simp_all

theorem length_flatMap_found (values : List Str) :
    (values.flatMap (found · [])).length = values.countP (' ' ∉ ·) := by
  induction values with
  | nil => rfl
  | cons value values ih =>
      rw [List.flatMap_cons, List.length_append, ih, found_length, List.countP_cons, Nat.add_comm]
      simp

section Line

variable {keys row : DeviceRow} {trailing : Str}

theorem lineTo_append (last : Str) :
    keys.lineTo row last ++ trailing = keys.lineTo row (last ++ trailing) := by
  simp [DeviceRow.lineTo, DeviceRow.front, join_cons_cons, join_singleton]

theorem fieldsOf_lineTo (hkeys : keys.Words) (hrow : row.Free '"') (last : Str) :
    fieldsOf (keys.lineTo row last) = row.front.flatMap (found · []) ++ fieldsOf last := by
  have token : ∀ {key value : Str}, key ∈ keys.values → value ∈ row.values →
      fieldsOf (asToken key value) = found value [] := by
    intro key value hkey hvalue
    rw [← List.append_nil (asToken key value)]
    exact fieldsOf_token (hkeys.noSpace _ hkey) (hkeys.noQuote _ hkey) (hrow _ hvalue)
      List.not_mem_nil List.not_mem_nil
  rw [DeviceRow.lineTo, fieldsOf_join (by simp), List.flatMap_append, List.flatMap_singleton]
  simp only [DeviceRow.front, List.zipWith_cons_cons, List.zipWith_nil_left, List.flatMap_cons,
    List.flatMap_nil]
  rw [token, token, token, token, token, token] <;> simp [DeviceRow.values, DeviceRow.front]

theorem fieldsOf_line (hkeys : keys.Words) (hrow : row.Free '"') (noSpace : ' ' ∉ trailing)
    (noQuote : '"' ∉ trailing) : fieldsOf (keys.line row ++ trailing) =
      row.front.flatMap (found · []) ++ found row.mountPoint trailing := by
  have last : ∀ {row : DeviceRow}, row.mountPoint ∈ row.values := by simp [DeviceRow.values]
  rw [DeviceRow.line, lineTo_append, fieldsOf_lineTo hkeys hrow]
  congr 1
  exact fieldsOf_token (hkeys.noSpace _ last) (hkeys.noQuote _ last) (hrow _ last) noSpace noQuote

theorem notMem_lineTo {c : Char} (space : c ≠ ' ') (equals : c ≠ '=') (quote : c ≠ '"')
    (hkeys : keys.Free c) (hrow : row.Free c) {last : Str} (hlast : c ∉ last) :
    c ∉ keys.lineTo row last := by
  rw [DeviceRow.lineTo, notMem_join_iff space, ← List.map_uncurry_zip_eq_zipWith]
  intro token mem
  rcases List.mem_append.mp mem with mem | mem
  · obtain ⟨⟨key, value⟩, pair, rfl⟩ := List.mem_map.mp mem
    obtain ⟨inKeys, inRow⟩ := List.of_mem_zip pair
    simp [asToken, hkeys key (List.mem_append_left _ inKeys),
      hrow value (List.mem_append_left _ inRow), equals, quote]
  · exact List.mem_singleton.mp mem ▸ hlast

theorem notMem_line {c : Char} (space : c ≠ ' ') (equals : c ≠ '=') (quote : c ≠ '"')
    (hkeys : keys.Free c) (hrow : row.Free c) : c ∉ keys.line row := by
  refine notMem_lineTo space equals quote hkeys hrow ?_
  have key := hkeys keys.mountPoint (by simp [DeviceRow.values])
  have value := hrow row.mountPoint (by simp [DeviceRow.values])
  simp [asToken, key, value, equals, quote]

/-- Seven words give the seven members. -/
theorem parse_line (hkeys : keys.Words) (hrow : row.Words) (noSpace : ' ' ∉ trailing)
    (noQuote : '"' ∉ trailing) (noNul : nul ∉ trailing) :
    parseDeviceFields (keys.line row ++ trailing) = (7, row.config) := by
  have clean : nul ∉ keys.line row ++ trailing := by
    have := notMem_line (by decide) (by decide) (by decide) hkeys.noNul hrow.noNul
    simp [this, noNul]
  have whole : ∀ {value trailing : Str}, value ∈ row.values →
      found value trailing = [(value ++ '"' :: trailing, value.length)] :=
    fun mem => if_neg (hrow.noSpace _ mem)
  rw [parseDeviceFields_eq clean, fieldsOf_line hkeys hrow.noQuote noSpace noQuote]
  simp only [DeviceRow.front, List.flatMap_cons, List.flatMap_nil, List.append_nil]
  rw [whole, whole, whole, whole, whole, whole, whole]
  · simp only [List.cons_append, List.nil_append, List.foldl_cons, List.foldl_nil, storeField,
      List.take_left', DeviceRow.config]
  all_goals simp [DeviceRow.values, DeviceRow.front]

/-- A space in any value loses a field. -/
theorem parse_spaced (hkeys : keys.Words) (quotes : row.Free '"') (hrow : row.Free nul)
    (space : ¬ row.Free ' ') (noSpace : ' ' ∉ trailing) (noQuote : '"' ∉ trailing)
    (noNul : nul ∉ trailing) : (parseDeviceFields (keys.line row ++ trailing)).1 < 7 := by
  have clean : nul ∉ keys.line row ++ trailing := by
    have := notMem_line (by decide) (by decide) (by decide) hkeys.noNul hrow
    simp [this, noNul]
  have count : (fieldsOf (keys.line row ++ trailing)).length = row.values.countP (' ' ∉ ·) := by
    rw [fieldsOf_line hkeys quotes noSpace noQuote, List.length_append, length_flatMap_found,
      found_length, DeviceRow.values, List.countP_append, List.countP_singleton]
    simp
  rw [parseDeviceFields_fst clean, count]
  refine lt_of_le_of_ne List.countP_le_length fun all => space ?_
  intro value mem
  exact of_decide_eq_true (List.countP_eq_length.mp all value mem)

end Line

/-- **Members.** A row of words, of any length, is read back from the struct member
by member, each cut to what its array has room for, iff none fills its array. -/
theorem no_bleed_iff {keys row : DeviceRow} (hkeys : keys.Words) (hrow : row.Words) {ending : Str}
    (ends : ending = [] ∨ ending = ['\n']) :
    NoBleed row (parseDeviceFields (keys.line row ++ ending)).2 ↔
      ∀ m, (row.value m).length < m.capacity := by
  have plain : ' ' ∉ ending ∧ '"' ∉ ending ∧ nul ∉ ending := by
    rcases ends with rfl | rfl <;> decide
  rw [parse_line hkeys hrow plain.1 plain.2.1 plain.2.2]
  exact forall_congr' fun m => DeviceRow.config_string hrow.noNul m

/-! A device-mapper name of 40 characters. -/

/-- A logical volume. -/
def volume (name : Str) : DeviceRow where
  deviceName := name
  majMin := "253:0".toList
  rm := "0".toList
  deviceSize := "40G".toList
  ro := "0".toList
  deviceType := "lvm".toList
  mountPoint := "/home".toList

theorem no_bleed_iff_volume :
    NoBleed (volume "vg-home".toList)
      (parseDeviceFields (lsblkKeys.line (volume "vg-home".toList) ++ ['\n'])).2 :=
  (no_bleed_iff lsblkKeys_words ⟨by decide, by decide, by decide⟩ (.inr rfl)).mpr
    fun m => by cases m <;> decide

def longName : Str := List.replicate LEN_DEVICE_NAME 'v'

/-- The name is read with the device numbers behind it. -/
theorem long_name_bleeds : (volume longName).Words ∧
    (parseDeviceFields (lsblkKeys.line (volume longName))).2.string .deviceName =
      longName ++ "253:0".toList ∧
    ¬ NoBleed (volume longName) (parseDeviceFields (lsblkKeys.line (volume longName))).2 := by
  have words : (volume longName).Words := ⟨by decide, by decide, by decide⟩
  have parsed := @parse_line _ _ [] lsblkKeys_words words List.not_mem_nil
    List.not_mem_nil List.not_mem_nil
  rw [List.append_nil] at parsed
  rw [parsed]
  have string : (volume longName).config.string .deviceName = longName ++ "253:0".toList := by
    decide
  refine ⟨words, string, fun noBleed => ?_⟩
  have short := (DeviceRow.config_string words.noNul .deviceName).mp (noBleed .deviceName)
  exact absurd short (by decide)

end IoMonitor.Listener
