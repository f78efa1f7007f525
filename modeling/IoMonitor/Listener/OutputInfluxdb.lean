import IoMonitor.Listener.CopyEscaped
import IoMonitor.Names

/-!
The InfluxDB output plugin.

`process_data` formats a record as a point of the line protocol. It escapes `s1` and
`s2` the way tag values are escaped, puts them in quotes as fields, and does not
escape the other strings. What it posts is one point with the record's names and
numbers iff the strings keep out of the grammar and the text fits its buffer
(`one_point_iff`).
-/

namespace IoMonitor

open CString Columns Floats LineProtocol

/-! ### `process_data` -/

/-- The values of the conversions, in their order; names are printed twice. -/
structure InfluxLine where
  facility : Str
  domain : Str
  op : Str
  device : Str
  hostname : Str
  s1 : Str
  s2 : Str
  timestamp : Str
  elapsedTime : Str
  pid : Str
  errorCode : Str
  fd : Str
  bytesTransferred : Str

/-- `%s=%s`. -/
def assign (key : String) (value : Str) : Str := key.toList ++ '=' :: value

/-- `%s=\"%s\"`. -/
def assignQuoted (key : String) (value : Str) : Str := key.toList ++ '=' :: '"' :: (value ++ ['"'])

namespace InfluxLine

/-- The format. -/
def text (l : InfluxLine) : Str :=
  join ','
      ["iometrics".toList, assign "facility" l.facility, assign "dom_tag" l.domain,
        assign "op_tag" l.op] ++
    ' ' :: join ','
      [assignQuoted "device" l.device, assignQuoted "dom_type" l.domain,
        assignQuoted "hostname" l.hostname, assignQuoted "op_type" l.op, assignQuoted "s1" l.s1,
        assignQuoted "s2" l.s2, assign "timestamp" l.timestamp,
        assign "elapsed_time" l.elapsedTime, assign "pid" l.pid, assign "error_code" l.errorCode,
        assign "fd" l.fd, assign "bytes_transferred" l.bytesTransferred]

/-- `snprintf(postdata, 1024, …)`. -/
def postdata (l : InfluxLine) : Str := l.text.take 1023

end InfluxLine

/-- The values `process_data` formats; a `%s` needs its NUL. `lastCh` is what the two
calls of `copy_escaped_tag_value` find in `last_ch`, and `printFloat` is `%f`. -/
def influxLine (printFloat : Float32 → Str) (lastCh : Char × Char) (data : MonitorRecord) :
    Option InfluxLine := do
  let domain ← nameAt domainsNames data.domType
  let op ← nameAt opsNames data.opType
  guard (data.facility.Terminated ∧ data.hostname.Terminated ∧ data.device.Terminated ∧
    data.s1.Terminated ∧ data.s2.Terminated)
  some
    { facility := data.facility.chars
      domain
      op
      device := orWord "none" data.device.chars
      hostname := data.hostname.chars
      s1 := escapedOrNull PATH_MAX lastCh.1 data.s1.chars
      s2 := escapedOrNull STR_LEN lastCh.2 data.s2.chars
      timestamp := decimal data.timestamp
      elapsedTime := printFloat data.elapsedTime
      pid := decimal data.pid
      errorCode := decimal data.errorCode
      fd := decimal data.fd
      bytesTransferred := decimal data.bytesTransferred }

/-! ### The text as one of strings -/

/-- A name or a number. -/
structure Plain (s : Str) : Prop where
  nonempty : s ≠ []
  plain : ∀ c ∈ s, c ∉ separators

namespace InfluxLine

/-- The names and the numbers of a line are plain. -/
structure Proper (l : InfluxLine) : Prop where
  domain : Plain l.domain
  op : Plain l.op
  timestamp : Plain l.timestamp
  elapsedTime : Plain l.elapsedTime
  pid : Plain l.pid
  errorCode : Plain l.errorCode
  fd : Plain l.fd
  bytesTransferred : Plain l.bytesTransferred

/-- The same names and numbers, with other strings. -/
def filled (l : InfluxLine) (facility device hostname s1 s2 : Str) : InfluxLine :=
  { l with facility, device, hostname, s1, s2 }

/-- A comma, the next key and its equals sign. -/
def upTo (key : String) : Str := ',' :: (key.toList ++ ['='])

/-- From the comma after the facility to the first quote. -/
def toDevice (l : InfluxLine) : Str :=
  ("dom_tag".toList ++ ['=']) ++
    ((l.domain ++ (upTo "op_tag" ++ (l.op ++ ' ' :: "device".toList))) ++ ['='])

/-- The strings after the device, each with what precedes its quote. -/
def strings (l : InfluxLine) : List (Str × Str) :=
  [(upTo "dom_type", l.domain), (upTo "hostname", l.hostname), (upTo "op_type", l.op),
    (upTo "s1", l.s1), (upTo "s2", l.s2)]

/-- The numbers, behind the last quote. -/
def tail (l : InfluxLine) : Str :=
  ',' :: join ','
    [assign "timestamp" l.timestamp, assign "elapsed_time" l.elapsedTime, assign "pid" l.pid,
      assign "error_code" l.errorCode, assign "fd" l.fd,
      assign "bytes_transferred" l.bytesTransferred]

theorem text_eq (l : InfluxLine) :
    l.text = "iometrics".toList ++ (upTo "facility" ++
      (l.facility ++ ',' :: (l.toDevice ++ '"' :: quotedText l.tail l.device l.strings))) := by
  unfold toDevice
  simp only [text, join_cons_cons, join_singleton, tail, strings, quotedText, assign,
    assignQuoted, upTo, List.append_assoc, List.cons_append, List.nil_append]

theorem text_length (l : InfluxLine) :
    l.text.length = 158 + l.facility.length + 2 * l.domain.length + 2 * l.op.length +
      l.device.length + l.hostname.length + l.s1.length + l.s2.length + l.timestamp.length +
      l.elapsedTime.length + l.pid.length + l.errorCode.length + l.fd.length +
      l.bytesTransferred.length := by
  have keys : "iometrics".length + "facility".length + "dom_tag".length + "op_tag".length +
      "device".length + "dom_type".length + "hostname".length + "op_type".length + "s1".length +
      "s2".length + "timestamp".length + "elapsed_time".length + "pid".length +
      "error_code".length + "fd".length + "bytes_transferred".length = 116 := rfl
  simp only [text, join_cons_cons, join_singleton, assign, assignQuoted, List.length_append,
    List.length_cons, List.length_nil, String.length_toList]
  omega

/-! ### Points -/

/-- The text is one point with the names and numbers of the line: no string adds,
removes or changes another tag or field. -/
def IsPoint (l : InfluxLine) (text : Str) : Prop :=
  ∃ p, Parses text [p] ∧ p.measurement.text = "iometrics".toList ∧
    ∃ facility device hostname s1 s2,
      p.tags.map (fun tag => (tag.1.text, tag.2.text)) =
        [("facility".toList, facility), ("dom_tag".toList, l.domain), ("op_tag".toList, l.op)] ∧
      p.fields.map (fun field => (field.1.text, field.2.text)) =
        [("device".toList, '"' :: (device ++ ['"'])),
          ("dom_type".toList, '"' :: (l.domain ++ ['"'])),
          ("hostname".toList, '"' :: (hostname ++ ['"'])),
          ("op_type".toList, '"' :: (l.op ++ ['"'])),
          ("s1".toList, '"' :: (s1 ++ ['"'])),
          ("s2".toList, '"' :: (s2 ++ ['"'])),
          ("timestamp".toList, l.timestamp),
          ("elapsed_time".toList, l.elapsedTime),
          ("pid".toList, l.pid),
          ("error_code".toList, l.errorCode),
          ("fd".toList, l.fd),
          ("bytes_transferred".toList, l.bytesTransferred)]

/-- Such a text has no other reading. -/
theorem IsPoint.only {l : InfluxLine} {text : Str} (h : l.IsPoint text) {points : List Point}
    (some_ : points ≠ []) (parses : Parses text points) : points.length = 1 := by
  obtain ⟨p, one, -⟩ := h
  rw [parses_unique some_ (by simp) parses one, List.length_singleton]

/-- The strings can be read where they stand. -/
structure Clean (l : InfluxLine) : Prop where
  facility : l.facility ≠ [] ∧ (tokenReader keyStops).Reads l.facility
  device : stringReader.Reads l.device
  hostname : stringReader.Reads l.hostname
  s1 : stringReader.Reads l.s1
  s2 : stringReader.Reads l.s2

end InfluxLine

theorem Plain.token {s : Str} (h : Plain s) : (tokenReader keyStops).Reads s := by
  have plain : ∀ c ∈ s, c ∉ keyStops ∧ c ≠ '\\' := by
    intro c mem
    have apart := h.plain c mem
    constructor
    · exact fun stop => apart ((by decide : keyStops ⊆ separators) stop)
    · rintro rfl
      exact apart (by decide)
  exact reads_token_of_plain plain

theorem Plain.string {s : Str} (h : Plain s) : stringReader.Reads s :=
  reads_of_plain (fun mem => h.plain _ mem (by decide)) fun mem => h.plain _ mem (by decide)

def Plain.toToken {s : Str} (h : Plain s) : Token keyStops := ⟨s, h.nonempty, h.token⟩

def Plain.toQuoted {s : Str} (h : Plain s) : Quoted := ⟨s, h.string⟩

def Plain.toBare {s : Str} (h : Plain s) : Bare := ⟨s, h.nonempty, h.plain⟩

namespace InfluxLine

/-- The point of a line with clean strings. -/
def point {l : InfluxLine} (proper : Proper l) (clean : Clean l) : Point where
  measurement := ⟨"iometrics".toList, by decide, by decide⟩
  tags :=
    [(⟨"facility".toList, by decide, by decide⟩, ⟨l.facility, clean.facility.1, clean.facility.2⟩),
      (⟨"dom_tag".toList, by decide, by decide⟩, proper.domain.toToken),
      (⟨"op_tag".toList, by decide, by decide⟩, proper.op.toToken)]
  fields :=
    [(⟨"device".toList, by decide, by decide⟩, .string ⟨l.device, clean.device⟩),
      (⟨"dom_type".toList, by decide, by decide⟩, .string proper.domain.toQuoted),
      (⟨"hostname".toList, by decide, by decide⟩, .string ⟨l.hostname, clean.hostname⟩),
      (⟨"op_type".toList, by decide, by decide⟩, .string proper.op.toQuoted),
      (⟨"s1".toList, by decide, by decide⟩, .string ⟨l.s1, clean.s1⟩),
      (⟨"s2".toList, by decide, by decide⟩, .string ⟨l.s2, clean.s2⟩),
      (⟨"timestamp".toList, by decide, by decide⟩, .bare proper.timestamp.toBare),
      (⟨"elapsed_time".toList, by decide, by decide⟩, .bare proper.elapsedTime.toBare),
      (⟨"pid".toList, by decide, by decide⟩, .bare proper.pid.toBare),
      (⟨"error_code".toList, by decide, by decide⟩, .bare proper.errorCode.toBare),
      (⟨"fd".toList, by decide, by decide⟩, .bare proper.fd.toBare),
      (⟨"bytes_transferred".toList, by decide, by decide⟩, .bare proper.bytesTransferred.toBare)]
  nonempty := by simp

theorem isPoint_of_clean {l : InfluxLine} (proper : Proper l) (clean : Clean l)
    (oneLine : '\n' ∉ l.text) : l.IsPoint l.text := by
  have text : (point proper clean).text = l.text := rfl
  refine ⟨point proper clean, ⟨?_, ?_⟩, rfl, l.facility, l.device, l.hostname, l.s1, l.s2, rfl, rfl⟩
  · rw [List.map_singleton, join_singleton, text]
  · rwa [List.forall_mem_singleton, text]

/-- A point with these names and numbers is the text of other strings that are
clean. -/
theorem IsPoint.exists_clean {l : InfluxLine} {text : Str} (h : l.IsPoint text) :
    ∃ facility device hostname s1 s2, (l.filled facility device hostname s1 s2).Clean ∧
      text = (l.filled facility device hostname s1 s2).text ∧ '\n' ∉ text := by
  obtain ⟨p, ⟨rfl, oneLine⟩, measurement, facility, device, hostname, s1, s2, tags, fields⟩ := h
  refine ⟨facility, device, hostname, s1, s2, ?_, ?_, ?_⟩
  · have quoted : ∀ key s, (key, '"' :: (s ++ ['"'])) ∈
        p.fields.map (fun field => (field.1.text, field.2.text)) → stringReader.Reads s := by
      intro key s mem
      obtain ⟨field, -, same⟩ := List.mem_map.mp mem
      exact FieldValue.reads_of_quoted (Prod.mk.inj same).2
    rw [fields] at quoted
    obtain ⟨tag, -, -, same, -⟩ := List.map_eq_cons_iff.mp tags
    obtain rfl := (Prod.mk.inj same).2
    exact
      { facility := ⟨tag.2.nonempty, tag.2.reads⟩
        device := quoted _ _ List.mem_cons_self
        hostname := quoted "hostname".toList _ (by simp [filled])
        s1 := quoted "s1".toList _ (by simp [filled])
        s2 := quoted "s2".toList _ (by simp [filled]) }
  · have tagTexts : p.tags.map tagText =
        (p.tags.map fun tag => (tag.1.text, tag.2.text)).map fun q => q.1 ++ '=' :: q.2 := by
      rw [List.map_map]
      rfl
    have fieldTexts : p.fields.map fieldText =
        (p.fields.map fun field => (field.1.text, field.2.text)).map
          fun q => q.1 ++ '=' :: q.2 := by
      rw [List.map_map]
      rfl
    rw [List.map_singleton, join_singleton, Point.text, measurement, tagTexts, fieldTexts, tags,
      fields]
    rfl
  · rw [List.map_singleton, join_singleton]
    exact oneLine p List.mem_cons_self

/-! ### Where the strings must be -/

/-- The strings are those of a record. -/
structure Fits (l : InfluxLine) : Prop where
  facility : l.facility.length < STR_LEN
  domain : l.domain.length ≤ 20
  op : l.op.length ≤ 20
  device : l.device.length < DEVICE_LEN
  hostname : l.hostname.length < HOSTNAME_LEN

theorem between_upTo (key : String) (noQuote : '"' ∉ key.toList) : Between (upTo key) := by
  constructor
  · rfl
  · simpa [upTo] using noQuote

theorem between_strings (l : InfluxLine) : ∀ p ∈ l.strings, Between p.1 := by
  intro p mem
  simp only [strings, List.mem_cons, List.not_mem_nil, or_false] at mem
  rcases mem with rfl | rfl | rfl | rfl | rfl
  all_goals exact between_upTo _ (by decide)

theorem reads_strings {l : InfluxLine} (proper : Proper l) (clean : Clean l) :
    ∀ p ∈ l.strings, stringReader.Reads p.2 := by
  intro p mem
  simp only [strings, List.mem_cons, List.not_mem_nil, or_false] at mem
  rcases mem with rfl | rfl | rfl | rfl | rfl
  · exact proper.domain.string
  · exact clean.hostname
  · exact proper.op.string
  · exact clean.s1
  · exact clean.s2

theorem tail_noQuote {l : InfluxLine} (proper : Proper l) : '"' ∉ l.tail := by
  have number : ∀ {key : String} {n : Str}, '"' ∉ key.toList → Plain n → '"' ∉ assign key n := by
    intro key n none_ plain
    rw [assign, List.mem_append, List.mem_cons, not_or, not_or]
    exact ⟨none_, by decide, fun mem => plain.plain '"' mem (by decide)⟩
  rw [tail, List.mem_cons, not_or, mem_join_iff (by decide)]
  refine ⟨by decide, ?_⟩
  rintro ⟨field, mem, quote⟩
  simp only [List.mem_cons, List.not_mem_nil, or_false] at mem
  rcases mem with rfl | rfl | rfl | rfl | rfl | rfl
  · exact number (by decide) proper.timestamp quote
  · exact number (by decide) proper.elapsedTime quote
  · exact number (by decide) proper.pid quote
  · exact number (by decide) proper.errorCode quote
  · exact number (by decide) proper.fd quote
  · exact number (by decide) proper.bytesTransferred quote

theorem tail_comma (l : InfluxLine) : l.tail.head? = some ',' := rfl

theorem toDevice_length (l : InfluxLine) :
    l.toDevice.length = l.domain.length + l.op.length + 24 := by
  have domTag : "dom_tag".toList.length = 7 := rfl
  have opTag : (upTo "op_tag").length = 8 := rfl
  have device : "device".toList.length = 6 := rfl
  unfold toDevice
  simp only [List.length_append, List.length_cons, List.length_nil, domTag, opTag, device]
  omega

theorem toDevice_noQuote {l : InfluxLine} (proper : Proper l) : '"' ∉ l.toDevice := by
  have domTag : '"' ∉ "dom_tag".toList := by decide
  have opTag : '"' ∉ upTo "op_tag" := by decide
  have device : '"' ∉ "device".toList := by decide
  have plain : ∀ {s : Str}, Plain s → '"' ∉ s := fun h mem => h.plain '"' mem (by decide)
  unfold toDevice
  simp only [List.mem_append, List.mem_cons, List.not_mem_nil, or_false, not_or]
  exact ⟨⟨domTag, by decide⟩, ⟨plain proper.domain, opTag, plain proper.op, by decide, device⟩,
    by decide⟩

/-- What is posted of a text whose first part fits. -/
theorem postdata_cut {l : InfluxLine} {u v : Str} (parts : l.text = u ++ v)
    (short : u.length ≤ 1023) : ∃ v', l.postdata = u ++ v' ∧ v = v' ++ l.text.drop 1023 := by
  refine ⟨v.take (1023 - u.length), ?_, ?_⟩
  · rw [postdata, parts, List.take_append, List.take_of_length_le short]
  · rw [parts, List.drop_append, List.drop_eq_nil_of_le short, List.nil_append,
      List.take_append_drop]

/-- What starts with a letter is followed by no comma, cut off or not. -/
theorem head_ne_comma {name v v' rest : Str} (plain : Plain name) (same : name ++ v = v' ++ rest) :
    v'.head? ≠ some ',' := by
  cases v' with
  | nil => simp
  | cons c v' =>
      obtain ⟨d, n, rfl⟩ := List.exists_cons_of_ne_nil plain.nonempty
      have first : d = c := (List.cons.inj same).1
      rintro comma
      obtain rfl : c = ',' := by simpa using comma
      exact plain.plain d List.mem_cons_self (first ▸ by decide)

section Posted

variable {l : InfluxLine} (proper : Proper l) (fits : Fits l)
include proper

theorem filled_proper (facility device hostname s1 s2 : Str) :
    (l.filled facility device hostname s1 s2).Proper := { proper with }

theorem filled_strings {facility device hostname s1 s2 : Str}
    (clean : (l.filled facility device hostname s1 s2).Clean) :
    ∀ p ∈ (l.filled facility device hostname s1 s2).strings,
      Between p.1 ∧ stringReader.Reads p.2 :=
  fun p mem => ⟨between_strings _ p mem, reads_strings (filled_proper proper _ _ _ _ _) clean p mem⟩

include fits

/-- Whatever the strings are, what is posted reaches to the second operation name. -/
theorem postdata_front : ∃ z, z.head? ≠ some ',' ∧
    l.postdata = "iometrics".toList ++ (upTo "facility" ++ (l.facility ++ ',' :: (l.toDevice ++
      '"' :: (l.device ++ '"' :: (upTo "dom_type" ++ '"' :: (l.domain ++
        '"' :: (upTo "hostname" ++ '"' :: (l.hostname ++
          '"' :: (upTo "op_type" ++ '"' :: z))))))))) := by
  have toOp : l.text =
      ("iometrics".toList ++ (upTo "facility" ++ (l.facility ++ ',' :: (l.toDevice ++
        '"' :: (l.device ++ '"' :: (upTo "dom_type" ++ '"' :: (l.domain ++
          '"' :: (upTo "hostname" ++ '"' :: (l.hostname ++
            '"' :: (upTo "op_type" ++ ['"'])))))))))) ++
      quotedText l.tail l.op [(upTo "s1", l.s1), (upTo "s2", l.s2)] := by
    rw [text_eq]
    simp only [List.append_assoc, List.cons_append, List.nil_append]
    rfl
  obtain ⟨z, posted, rest⟩ := postdata_cut toOp (by
    have := fits.facility
    have := fits.device
    have := fits.hostname
    have := toDevice_length l
    have := fits.domain
    have := fits.op
    simp only [List.length_append, List.length_cons, List.length_nil,
      show "iometrics".toList.length = 9 from rfl, show (upTo "facility").length = 10 from rfl,
      show (upTo "dom_type").length = 10 from rfl, show (upTo "hostname").length = 10 from rfl,
      show (upTo "op_type").length = 9 from rfl, STR_LEN, DEVICE_LEN, HOSTNAME_LEN] at *
    omega)
  refine ⟨z, head_ne_comma proper.op rest, ?_⟩
  simpa only [List.append_assoc, List.cons_append, List.nil_append] using posted

/-- So the first two strings are those that are posted. -/
theorem front_unique {facility device hostname s1 s2 : Str}
    (clean : (l.filled facility device hostname s1 s2).Clean)
    (same : l.postdata = (l.filled facility device hostname s1 s2).text) :
    l.facility = facility ∧ l.device = device := by
  have strings := filled_strings proper clean
  have noQuote := tail_noQuote (filled_proper proper facility device hostname s1 s2)
  obtain ⟨z, -, posted⟩ := postdata_front proper fits
  rw [text_eq, posted] at same
  simp only [List.append_cancel_left_eq] at same
  have goesOn : ∀ v, (l.domain ++ v).head? ≠ some ',' := fun v =>
    head_ne_comma proper.domain (List.append_nil (l.domain ++ v)).symm
  have apart : upTo "dom_type" ∉ (l.filled facility device hostname s1 s2).strings.tail.map
      Prod.fst := by
    have keys : upTo "dom_type" ∉ [upTo "hostname", upTo "op_type", upTo "s1", upTo "s2"] := by
      decide
    exact keys
  have first : l.facility = facility :=
    token_first (tail_comma _) noQuote (between_upTo _ (by decide)).noQuote (by decide) (goesOn _)
      clean.facility.2 (by decide) (List.prefix_append _ _)
      ((List.suffix_append _ _).trans (List.suffix_append _ _)) (toDevice_noQuote proper)
      clean.device strings apart same
  subst first
  refine ⟨rfl, ?_⟩
  have later := List.append_cancel_left (List.cons.inj (List.append_cancel_left same)).2
  exact (quoted_first (tail_comma _) noQuote (between_upTo _ (by decide)).noQuote (by decide)
    (goesOn _) clean.device strings apart (List.cons.inj later).2).1

theorem hostname_unique {hostname s1 s2 : Str}
    (clean : (l.filled l.facility l.device hostname s1 s2).Clean)
    (same : l.postdata = (l.filled l.facility l.device hostname s1 s2).text) :
    l.hostname = hostname := by
  have strings := filled_strings proper clean
  have noQuote := tail_noQuote (filled_proper proper l.facility l.device hostname s1 s2)
  obtain ⟨z, goesOn, posted⟩ := postdata_front proper fits
  have whole : (l.filled l.facility l.device hostname s1 s2).text =
      ("iometrics".toList ++ (upTo "facility" ++ (l.facility ++ ',' :: (l.toDevice ++
        '"' :: (l.device ++ '"' :: (upTo "dom_type" ++ '"' :: (l.domain ++
          '"' :: (upTo "hostname" ++ '"' :: quotedText l.tail hostname
            [(upTo "op_type", l.op), (upTo "s1", s1), (upTo "s2", s2)]))))))))  := text_eq _
  rw [whole, posted] at same
  simp only [List.append_cancel_left_eq, List.cons.injEq, true_and] at same
  have apart : upTo "op_type" ∉ [upTo "s1", upTo "s2"] := by decide
  have others : ∀ p ∈ [(upTo "op_type", l.op), (upTo "s1", s1), (upTo "s2", s2)],
      Between p.1 ∧ stringReader.Reads p.2 :=
    fun p mem => strings p (List.mem_cons_of_mem _ (List.mem_cons_of_mem _ mem))
  exact (quoted_first (tail_comma l) noQuote (between_upTo _ (by decide)).noQuote (by decide)
    goesOn clean.hostname others apart same).1

omit proper fits in
/-- The last two strings are escaped, so they end where they are posted to end, and
nothing is cut off. -/
theorem last_unique (escaped1 : Escaped l.s1) (escaped2 : Escaped l.s2) {s1 s2 : Str}
    (clean : (l.filled l.facility l.device l.hostname s1 s2).Clean)
    (same : l.postdata = (l.filled l.facility l.device l.hostname s1 s2).text) :
    s1 = l.s1 ∧ s2 = l.s2 ∧ l.text.length < 1024 := by
  obtain ⟨front, toS1⟩ : ∃ front, ∀ a b, (l.filled l.facility l.device l.hostname a b).text =
      front ++ (a ++ '"' :: (upTo "s2" ++ '"' :: (b ++ '"' :: l.tail))) := by
    refine ⟨"iometrics".toList ++ (upTo "facility" ++ (l.facility ++ ',' :: (l.toDevice ++
      '"' :: (l.device ++ '"' :: (upTo "dom_type" ++ '"' :: (l.domain ++
        '"' :: (upTo "hostname" ++ '"' :: (l.hostname ++ '"' :: (upTo "op_type" ++
          '"' :: (l.op ++ '"' :: (upTo "s1" ++ ['"']))))))))))), fun a b => ?_⟩
    rw [text_eq]
    simp only [List.append_assoc, List.cons_append, List.nil_append]
    rfl
  have self : l.text = _ := toS1 l.s1 l.s2
  have whole : l.postdata ++ l.text.drop 1023 = l.text := List.take_append_drop 1023 l.text
  rw [same, toS1] at whole
  have first := List.append_cancel_left ((List.append_assoc _ _ _).symm.trans (whole.trans self))
  rw [List.append_assoc, List.cons_append] at first
  obtain ⟨rfl, middle⟩ := escaped1.unique clean.s1 rfl first
  rw [List.append_assoc, List.cons_append] at middle
  have second := (List.cons.inj (List.append_cancel_left middle)).2
  rw [List.append_assoc, List.cons_append] at second
  obtain ⟨rfl, last⟩ := escaped2.unique clean.s2 rfl second
  refine ⟨rfl, rfl, ?_⟩
  have short := List.drop_eq_nil_iff.mp (List.append_right_eq_self.mp last)
  omega

end Posted

/-! ### One point -/

/-- The strings can be read where they stand, none breaks the line, and the text
fits its buffer. -/
structure Safe (l : InfluxLine) : Prop where
  facility : (tokenReader keyStops).Reads l.facility ∧ '\n' ∉ l.facility
  device : stringReader.Reads l.device ∧ '\n' ∉ l.device
  hostname : stringReader.Reads l.hostname ∧ '\n' ∉ l.hostname
  s1 : '"' ∉ l.s1
  s2 : '"' ∉ l.s2
  short : l.text.length < 1024

theorem notMem_assign {key : String} {value : Str} {c : Char} (hkey : c ∉ key.toList)
    (ne : c ≠ '=') : c ∉ assign key value ↔ c ∉ value := by
  simp [assign, hkey, ne]

theorem notMem_assignQuoted {key : String} {value : Str} {c : Char} (hkey : c ∉ key.toList)
    (ne : c ≠ '=') (ne' : c ≠ '"') : c ∉ assignQuoted key value ↔ c ∉ value := by
  simp [assignQuoted, hkey, ne, ne']

/-- Only three of the strings can break the line. -/
theorem oneLine_iff {l : InfluxLine} (proper : Proper l) (escaped1 : Escaped l.s1)
    (escaped2 : Escaped l.s2) :
    '\n' ∉ l.text ↔ '\n' ∉ l.facility ∧ '\n' ∉ l.device ∧ '\n' ∉ l.hostname := by
  have plain : ∀ {s : Str}, Plain s → '\n' ∉ s := fun h mem => h.plain '\n' mem (by decide)
  rw [text, List.mem_append, List.mem_cons, not_or, not_or, notMem_join_iff (by decide),
    notMem_join_iff (by decide)]
  simp (disch := decide) only [List.forall_mem_cons, notMem_assign, notMem_assignQuoted]
  constructor
  · rintro ⟨⟨-, facility, -⟩, -, device, -, hostname, -⟩
    exact ⟨facility, device, hostname⟩
  · rintro ⟨facility, device, hostname⟩
    have domain := plain proper.domain
    have op := plain proper.op
    exact ⟨⟨by decide, facility, domain, op, by simp⟩, by decide, device, domain, hostname, op,
      escaped1.noNewline, escaped2.noNewline, plain proper.timestamp, plain proper.elapsedTime,
      plain proper.pid, plain proper.errorCode, plain proper.fd, plain proper.bytesTransferred,
      by simp⟩

theorem isPoint_iff {l : InfluxLine} (proper : Proper l) (fits : Fits l) (escaped1 : Escaped l.s1)
    (escaped2 : Escaped l.s2) (nonempty : l.facility ≠ []) :
    l.IsPoint l.postdata ↔ l.Safe := by
  constructor
  · intro isPoint
    obtain ⟨facility, device, hostname, s1, s2, clean, same, oneLine⟩ := isPoint.exists_clean
    obtain ⟨rfl, rfl⟩ := front_unique proper fits clean same
    obtain rfl := hostname_unique proper fits clean same
    obtain ⟨rfl, rfl, short⟩ := last_unique escaped1 escaped2 clean same
    have whole : l.postdata = l.text := same
    rw [whole, oneLine_iff proper escaped1 escaped2] at oneLine
    exact
      { facility := ⟨clean.facility.2, oneLine.1⟩
        device := ⟨clean.device, oneLine.2.1⟩
        hostname := ⟨clean.hostname, oneLine.2.2⟩
        s1 := escaped1.reads_iff.mp clean.s1
        s2 := escaped2.reads_iff.mp clean.s2
        short }
  · intro safe
    have whole : l.postdata = l.text := List.take_of_length_le (Nat.le_of_lt_succ safe.short)
    rw [whole]
    refine isPoint_of_clean proper ?_ ?_
    · exact
        { facility := ⟨nonempty, safe.facility.1⟩
          device := safe.device.1
          hostname := safe.hostname.1
          s1 := escaped1.reads_iff.mpr safe.s1
          s2 := escaped2.reads_iff.mpr safe.s2 }
    · rw [oneLine_iff proper escaped1 escaped2]
      exact ⟨safe.facility.2, safe.device.2, safe.hostname.2⟩

end InfluxLine

/-! ### Records -/

/-- A valid domain and operation, and strings with their NUL. -/
structure Formattable (r : MonitorRecord) : Prop where
  domain : ∃ d : DomainType, r.domType = d.code
  op : ∃ o : OpType, r.opType = o.code
  facility : r.facility.Terminated
  hostname : r.hostname.Terminated
  device : r.device.Terminated
  s1 : r.s1.Terminated
  s2 : r.s2.Terminated

theorem IsName.plain {s : Str} (name : IsName s) : Plain s where
  nonempty := name.nonempty
  plain c mem separator :=
    have apart : ∀ c ∈ separators, ¬ (c.isUpper ∨ c = '_') := forall_mem_of_all (by decide)
    apart c separator (name.letters c mem)

theorem decimal_plain (n : Int) : Plain (decimal n) where
  nonempty := decimal_ne_nil n
  plain c mem separator :=
    have apart : ∀ c ∈ separators, ¬ (c.isDigit ∨ c = '-') := forall_mem_of_all (by decide)
    apart c separator (mem_decimal mem)

theorem DomainType.name_length (d : DomainType) : d.name.length ≤ 20 :=
  (by decide : ∀ s ∈ domainsNames, s.length ≤ 20) d.name d.name_mem

theorem OpType.name_length (o : OpType) : o.name.length ≤ 20 :=
  (by decide : ∀ s ∈ opsNames, s.length ≤ 20) o.name o.name_mem

/-- The line of a record has plain names and numbers, short strings, and `s1` and
`s2` escaped. -/
theorem influxLine_of_formattable {printFloat : Float32 → Str} (plain : ∀ x, Plain (printFloat x))
    (lastCh : Char × Char) {data : MonitorRecord} (formattable : Formattable data) :
    ∃ l, influxLine printFloat lastCh data = some l ∧ l.Proper ∧ l.Fits ∧ Escaped l.s1 ∧
      Escaped l.s2 ∧ l.facility = data.facility.chars := by
  obtain ⟨⟨d, domain⟩, ⟨o, op⟩, facility, hostname, device, s1, s2⟩ := formattable
  have terminated : data.facility.Terminated ∧ data.hostname.Terminated ∧
      data.device.Terminated ∧ data.s1.Terminated ∧ data.s2.Terminated :=
    ⟨facility, hostname, device, s1, s2⟩
  have shortDevice : (orWord "none" data.device.chars).length < DEVICE_LEN :=
    (orWord_iff (P := fun s => s.length < DEVICE_LEN) (by decide) (by decide) _).mpr device
  simp only [influxLine, domain, op, nameAt_domain, nameAt_op, Option.bind_eq_bind,
    Option.bind_some, guard, if_pos terminated]
  refine ⟨_, rfl, ?_, ?_, escapedOrNull_escaped (by decide) _ _,
    escapedOrNull_escaped (by decide) _ _, rfl⟩
  · exact
      { domain := d.isName.plain
        op := o.isName.plain
        timestamp := decimal_plain _
        elapsedTime := plain _
        pid := decimal_plain _
        errorCode := decimal_plain _
        fd := decimal_plain _
        bytesTransferred := decimal_plain _ }
  · exact
      { facility
        domain := d.name_length
        op := o.name_length
        device := shortDevice
        hostname }

/-- How long the line of a record is. -/
def lineLength (printFloat : Float32 → Str) (lastCh : Char × Char) (r : MonitorRecord) : Nat :=
  158 + r.facility.chars.length + 2 * ((nameAt domainsNames r.domType).getD []).length +
    2 * ((nameAt opsNames r.opType).getD []).length +
    lengthOr "none" r.device.chars.length + r.hostname.chars.length +
    lengthOr "NULL" (escapedLength (copied PATH_MAX lastCh.1 r.s1.chars)) +
    lengthOr "NULL" (escapedLength (copied STR_LEN lastCh.2 r.s2.chars)) +
    (decimal r.timestamp).length + (printFloat r.elapsedTime).length + (decimal r.pid).length +
    (decimal r.errorCode).length + (decimal r.fd).length + (decimal r.bytesTransferred).length

/-- The strings that are not escaped read as what they stand for, nothing copied of
the other two is a quote, and the line has room. -/
structure Harmless (printFloat : Float32 → Str) (lastCh : Char × Char) (r : MonitorRecord) :
    Prop where
  facility : (tokenReader keyStops).Reads r.facility.chars ∧ '\n' ∉ r.facility.chars
  device : stringReader.Reads r.device.chars ∧ '\n' ∉ r.device.chars
  hostname : stringReader.Reads r.hostname.chars ∧ '\n' ∉ r.hostname.chars
  s1 : '"' ∉ copied PATH_MAX lastCh.1 r.s1.chars
  s2 : '"' ∉ copied STR_LEN lastCh.2 r.s2.chars
  short : lineLength printFloat lastCh r < 1024

theorem safe_iff {printFloat : Float32 → Str} {lastCh : Char × Char} {data : MonitorRecord}
    {l : InfluxLine} (formats : influxLine printFloat lastCh data = some l) :
    l.Safe ↔ Harmless printFloat lastCh data := by
  unfold influxLine at formats
  obtain ⟨domain, domainName, formats⟩ := Option.bind_eq_some_iff.mp formats
  obtain ⟨op, opName, formats⟩ := Option.bind_eq_some_iff.mp formats
  obtain ⟨-, -, formats⟩ := Option.bind_eq_some_iff.mp formats
  have device : stringReader.Reads (orWord "none" data.device.chars) ∧
      '\n' ∉ orWord "none" data.device.chars ↔ _ :=
    orWord_iff (P := fun s => stringReader.Reads s ∧ '\n' ∉ s) (by decide) (by decide) _
  have s1 := notMem_escapedOrNull (by decide : 0 < PATH_MAX) lastCh.1 data.s1.chars
  have s2 := notMem_escapedOrNull (by decide : 0 < STR_LEN) lastCh.2 data.s2.chars
  have length : l.text.length = lineLength printFloat lastCh data := by
    rw [← Option.some.inj formats, InfluxLine.text_length]
    dsimp only
    rw [length_orWord, length_escapedOrNull (by decide), length_escapedOrNull (by decide),
      lineLength, domainName, opName]
    rfl
  cases formats
  constructor
  · intro safe
    exact
      { facility := safe.facility
        device := device.mp safe.device
        hostname := safe.hostname
        s1 := s1.mp safe.s1
        s2 := s2.mp safe.s2
        short := length ▸ safe.short }
  · intro harmless
    exact
      { facility := harmless.facility
        device := device.mpr harmless.device
        hostname := harmless.hostname
        s1 := s1.mpr harmless.s1
        s2 := s2.mpr harmless.s2
        short := length ▸ harmless.short }

/-- **One point.** What `process_data` posts for a record is one point with its names
and numbers, whatever its strings hold, iff facility, device and host name read as
what they stand for, nothing copied of `s1` and `s2` is a quote, and the line fits. -/
theorem one_point_iff {printFloat : Float32 → Str} (plain : ∀ x, Plain (printFloat x))
    (lastCh : Char × Char) {data : MonitorRecord} (formattable : Formattable data)
    (nonempty : data.facility.chars ≠ []) :
    (∃ l, influxLine printFloat lastCh data = some l ∧ l.IsPoint l.postdata) ↔
      Harmless printFloat lastCh data := by
  obtain ⟨l, formats, proper, fits, escaped1, escaped2, facility⟩ :=
    influxLine_of_formattable plain lastCh formattable
  have iff := InfluxLine.isPoint_iff proper fits escaped1 escaped2 (facility ▸ nonempty)
  simp only [formats, Option.some.injEq, exists_eq_left', iff, safe_iff formats]

/-! `open("…", O_RDONLY)` by a program on the host `node`. -/

def opened (path : Str) : MonitorRecord :=
  { MonitorRecord.zero with
    facility := strncpy _ "u".toList
    hostname := strncpy _ "node".toList
    timestamp := 1500000000
    pid := 4242
    domType := DomainType.fileOpenClose.code
    opType := OpType.opens.code
    fd := 3
    s1 := strncpy _ path }

theorem opened_formattable {path : Str} (short : (cstr path).length < PATH_MAX) :
    Formattable (opened path) where
  domain := ⟨_, rfl⟩
  op := ⟨_, rfl⟩
  facility := (by decide : (strncpy STR_LEN "u".toList).Terminated)
  hostname := (by decide : (strncpy HOSTNAME_LEN "node".toList).Terminated)
  device := (by decide : (CharArray.zero DEVICE_LEN).Terminated)
  s1 := ((strncpy_copyOf_iff _).mpr short).terminated
  s2 := (by decide : (CharArray.zero STR_LEN).Terminated)

theorem printFixed_plain (x : Float32) : Plain (printFixed 6 x) where
  nonempty := printFixed_ne_nil 6 x
  plain c mem separator := by
    have apart : ∀ c ∈ separators, ¬ c.isDigit ∧ c ∉ "-.infa".toList :=
      forall_mem_of_all (by decide)
    exact notMem_printFixed 6 x (apart c separator).1 (apart c separator).2 mem

theorem opened_facility (path : Str) : (opened path).facility.chars ≠ [] :=
  (by decide : (strncpy STR_LEN "u".toList).chars ≠ [])

/-- Whatever the two calls find in `last_ch`. -/
def noise : Char × Char := (nul, ' ')

theorem one_point_iff_plainPath :
    ∃ l, influxLine (printFixed 6) noise (opened "/tmp/a b,c".toList) = some l ∧
      l.IsPoint l.postdata :=
  (one_point_iff printFixed_plain noise (opened_formattable (by decide))
    (opened_facility _)).mpr
      ⟨⟨by decide, by decide⟩, ⟨by decide, by decide⟩, ⟨by decide, by decide⟩, by decide,
        by decide, by decide +kernel⟩

/-- A path with a quote ends its field. -/
theorem quote_breaks_point :
    ¬ ∀ lastCh data, Formattable data → data.facility.chars ≠ [] →
      ∃ l, influxLine (printFixed 6) lastCh data = some l ∧ l.IsPoint l.postdata := by
  intro always
  have formattable : Formattable (opened "/tmp/a\"b".toList) := opened_formattable (by decide)
  obtain ⟨l, formats, isPoint⟩ := always noise _ formattable (opened_facility _)
  obtain ⟨l', formats', proper, fits, escaped1, escaped2, facility⟩ :=
    influxLine_of_formattable printFixed_plain noise formattable
  obtain rfl := Option.some.inj (formats.symm.trans formats')
  have safe := (InfluxLine.isPoint_iff proper fits escaped1 escaped2
    (facility ▸ opened_facility _)).mp isPoint
  have s1 : l.s1 = "/tmp/a\"b".toList := by
    cases formats
    decide
  exact absurd safe.s1 (s1 ▸ by decide)

end IoMonitor
