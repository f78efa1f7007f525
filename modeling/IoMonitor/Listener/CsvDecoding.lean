import IoMonitor.Listener.OutputCsv

/-!
Which rows of the CSV output can be read back.

Of the twelve fields of a row the eight in the middle hold no comma, and no eight fields in
their neighbourhood read as numbers and names too (`middle_behind`). So a row is that of one
record only, unless its strings leave room for another cut, or hide the numbers and names of
another record (`csv_decodable_iff`).
-/

namespace IoMonitor

open CString Columns Floats

/-! ### What the strings can hide -/

/-- Numbers of the types in the struct. -/
structure NumbersFit (r : MonitorRecord) : Prop where
  timestamp : toInt r.timestamp = r.timestamp
  pid : toInt r.pid = r.pid
  errorCode : toInt r.errorCode = r.errorCode
  fd : toInt r.fd = r.fd
  bytesTransferred : toSize r.bytesTransferred = r.bytesTransferred

/-- What `%f` prints is one clean word, and no integer: it has a point, or is a name. -/
structure Fractional (printFloat : Float32 → Str) : Prop where
  clean : Clean printFloat
  noNul : ∀ x, nul ∉ printFloat x
  marked : ∀ x n, printFloat x ≠ decimal n

/-- Eight fields that read as the numbers and names of a record. -/
def ReadsAsNumbers (printFloat : Float32 → Str) (fields : List Str) : Prop :=
  ∃ r d o, NumbersFit r ∧ fields = middle printFloat r d o

/-- Among the fields are eight such, and what comes before these and behind them can be cut to
fit the strings of a record. -/
def Hides (printFloat : Float32 → Str) (before fields behind : List Str) : Prop :=
  ∃ u numbers v, fields = u ++ (numbers ++ v) ∧ ReadsAsNumbers printFloat numbers ∧
    FitsCut ',' STR_LEN DEVICE_LEN (join ',' (before ++ u)) ∧
    FitsCut ',' PATH_MAX STR_LEN (join ',' (v ++ behind))

/-- The numbers and names but for the byte count. -/
def untilFd (printFloat : Float32 → Str) (r : MonitorRecord) (d : DomainType) (o : OpType) :
    List Str :=
  [decimal r.timestamp, printFloat r.elapsedTime, decimal r.pid, d.name, o.name,
    decimal r.errorCode, decimal r.fd]

/-- The numbers and names but for the timestamp. -/
def sinceElapsed (printFloat : Float32 → Str) (r : MonitorRecord) (d : DomainType) (o : OpType) :
    List Str :=
  [printFloat r.elapsedTime, decimal r.pid, d.name, o.name, decimal r.errorCode, decimal r.fd,
    decimal r.bytesTransferred]

/-- Strings that keep to the line and leave the names in place. No comma in a pair of them is
where another record could cut it, and no numbers and names are hidden in the facility, the
device and the timestamp, or in the byte count and the strings behind it. -/
structure Unambiguous (printFloat : Float32 → Str) (r : MonitorRecord) (d : DomainType)
    (o : OpType) : Prop where
  oneLine : OnOneLine r
  names : NamesInPlace r d o
  front : Tight ',' STR_LEN DEVICE_LEN r.facility.chars r.device.chars
  back : Tight ',' PATH_MAX STR_LEN r.s1.chars r.s2.chars
  before : ¬ Hides printFloat []
    (columns ',' [r.facility.chars, r.device.chars, decimal r.timestamp])
    (sinceElapsed printFloat r d o ++ [r.s1.chars, r.s2.chars])
  behind : ¬ Hides printFloat
    ([r.facility.chars, r.device.chars] ++ untilFd printFloat r d o)
    (columns ',' [decimal r.bytesTransferred, r.s1.chars, r.s2.chars]) []

/-- Hidden numbers and names take eight fields of those they hide in. -/
theorem not_hides {printFloat : Float32 → Str} {fields : List Str} (short : fields.length < 8)
    (before behind : List Str) : ¬ Hides printFloat before fields behind := by
  rintro ⟨u, numbers, v, rfl, ⟨r, d, o, -, rfl⟩, -⟩
  rw [List.length_append, List.length_append] at short
  have eight : (middle printFloat r d o).length = 8 := rfl
  omega

/-- Without commas and newlines in the strings there is nothing to decide. -/
theorem unambiguous_of_plain {printFloat : Float32 → Str} {r : MonitorRecord}
    (oneLine : OnOneLine r) (facility : ',' ∉ r.facility.chars) (device : ',' ∉ r.device.chars)
    (s1 : ',' ∉ r.s1.chars) (s2 : ',' ∉ r.s2.chars) (d : DomainType) (o : OpType) :
    Unambiguous printFloat r d o where
  oneLine := oneLine
  names := .inl ⟨facility, device⟩
  front := tight_of_notMem facility device _ _
  back := tight_of_notMem s1 s2 _ _
  before := by
    rw [columns_of_notMem (by simp [facility, device, notMem_decimal])]
    exact not_hides (by simp) _ _
  behind := by
    rw [columns_of_notMem (by simp [s1, s2, notMem_decimal])]
    exact not_hides (by simp) _ _

/-! ### The middle of a row -/

section Middle

variable {printFloat : Float32 → Str}

/-- Two readings of a row do not overlap by more than a field: a number would be a name, or an
elapsed time an integer. -/
theorem middle_behind (fractional : Fractional printFloat) {front front' back back' : List Str}
    {r r' : MonitorRecord} {d d' : DomainType} {o o' : OpType}
    (same : front' ++ (middle printFloat r' d' o' ++ back') =
      front ++ (middle printFloat r d o ++ back))
    (behind : front.length < front'.length) : front.length + 7 ≤ front'.length := by
  by_contra near
  obtain ⟨shift, long⟩ := Nat.exists_eq_add_of_lt behind
  have field : ∀ i, shift + 1 + i < 8 →
      (middle printFloat r' d' o')[i]? = (middle printFloat r d o)[shift + 1 + i]? := by
    intro i inside
    have left : (front' ++ (middle printFloat r' d' o' ++ back'))[front'.length + i]? =
        (middle printFloat r' d' o')[i]? := by
      rw [List.getElem?_append_right (by omega), Nat.add_sub_cancel_left,
        List.getElem?_append_left (show i < 8 by omega)]
    have right : (front ++ (middle printFloat r d o ++ back))[front'.length + i]? =
        (middle printFloat r d o)[shift + 1 + i]? := by
      rw [List.getElem?_append_right (by omega),
        show front'.length + i - front.length = shift + 1 + i by omega,
        List.getElem?_append_left inside]
    rw [← left, same, right]
  have number : ∀ n, d.name ≠ decimal n := d.isName.ne_decimal
  have number' : ∀ n, o.name ≠ decimal n := o.isName.ne_decimal
  obtain rfl | rfl | rfl | rfl | rfl | rfl : shift = 0 ∨ shift = 1 ∨ shift = 2 ∨ shift = 3 ∨
      shift = 4 ∨ shift = 5 := by omega
  · exact number _ (Option.some.inj (field 2 (by decide))).symm
  · exact number' _ (Option.some.inj (field 2 (by decide))).symm
  · exact number _ (Option.some.inj (field 0 (by decide))).symm
  · exact number' _ (Option.some.inj (field 0 (by decide))).symm
  · exact fractional.marked _ _ (Option.some.inj (field 1 (by decide)))
  · exact fractional.marked _ _ (Option.some.inj (field 1 (by decide)))

theorem row_noNul (fractional : Fractional printFloat) (r : MonitorRecord) (d : DomainType)
    (o : OpType) : ∀ field ∈ row printFloat r d o, nul ∉ field := by
  have number : ∀ n, nul ∉ decimal n := fun n => notMem_decimal n (by decide)
  intro field mem
  simp only [row, middle, List.mem_append, List.mem_cons, List.not_mem_nil, or_false] at mem
  rcases mem with (rfl | rfl) | (rfl | rfl | rfl | rfl | rfl | rfl | rfl | rfl) | rfl | rfl
  · exact r.facility.noNul
  · exact r.device.noNul
  · exact number _
  · exact fractional.noNul _
  · exact number _
  · exact d.isName.notMem (by decide)
  · exact o.isName.notMem (by decide)
  · exact number _
  · exact number _
  · exact number _
  · exact r.s1.noNul
  · exact r.s2.noNul

/-- There is a record for any strings that fit and any numbers and names. -/
theorem exists_record {numbers : MonitorRecord} (fit : NumbersFit numbers) (d : DomainType)
    (o : OpType) {x y z w : Str} (roomX : x.length < STR_LEN) (roomY : y.length < DEVICE_LEN)
    (roomZ : z.length < PATH_MAX) (roomW : w.length < STR_LEN)
    (noNul : ∀ s ∈ [x, y, z, w], nul ∉ s) :
    ∃ b, Printable b ∧ NumbersFit b ∧ b.domType = d.code ∧ b.opType = o.code ∧
      b.facility.chars = x ∧ b.device.chars = y ∧ b.s1.chars = z ∧ b.s2.chars = w ∧
      middle printFloat b d o = middle printFloat numbers d o := by
  simp only [List.forall_mem_cons, List.not_mem_nil, false_implies, implies_true, and_true] at noNul
  obtain ⟨noNulX, noNulY, noNulZ, noNulW⟩ := noNul
  exact ⟨{ numbers with
      facility := ⟨x, roomX.le, noNulX⟩
      device := ⟨y, roomY.le, noNulY⟩
      s1 := ⟨z, roomZ.le, noNulZ⟩
      s2 := ⟨w, roomW.le, noNulW⟩
      domType := d.code
      opType := o.code },
    ⟨⟨d, rfl⟩, ⟨o, rfl⟩, roomX, roomY, roomZ, roomW⟩,
    ⟨fit.timestamp, fit.pid, fit.errorCode, fit.fd, fit.bytesTransferred⟩,
    rfl, rfl, rfl, rfl, rfl, rfl, rfl⟩

/-- Records print the same iff their rows have the same pieces. -/
theorem outputCsv_eq_iff (clean : Clean printFloat) {a b : MonitorRecord} (ha : Printable a)
    (hb : Printable b) {d d' : DomainType} {o o' : OpType} (domain : a.domType = d.code)
    (op : a.opType = o.code) (domain' : b.domType = d'.code) (op' : b.opType = o'.code) :
    outputCsv printFloat a = outputCsv printFloat b ↔
      leading b ++ (middle printFloat b d' o' ++ columns ',' [b.s1.chars, b.s2.chars]) =
        leading a ++ (middle printFloat a d o ++ columns ',' [a.s1.chars, a.s2.chars]) := by
  rw [outputCsv, outputCsv, csvFields_of_printable printFloat ha domain op,
    csvFields_of_printable printFloat hb domain' op', ← columns_row clean, ← columns_row clean]
  simp only [Option.map_some, Option.some.injEq, List.append_cancel_right_eq]
  rw [join_eq_iff ',' (by simp [row]) (by simp [row]), eq_comm]

/-- Numbers and names are hidden in the fields iff a record is read there. -/
theorem hides_iff {before fields behind : List Str} (flat : columns ',' fields = fields)
    (noNul : ∀ s ∈ before ++ (fields ++ behind), nul ∉ s) :
    Hides printFloat before fields behind ↔
      ∃ b d o u v, Printable b ∧ NumbersFit b ∧ b.domType = DomainType.code d ∧
        b.opType = OpType.code o ∧ leading b = columns ',' before ++ u ∧
        fields = u ++ (middle printFloat b d o ++ v) ∧
        columns ',' [b.s1.chars, b.s2.chars] = v ++ columns ',' behind := by
  -- a piece of the fields is one column
  have parts : ∀ {u numbers v : List Str}, fields = u ++ (numbers ++ v) →
      columns ',' u = u ∧ columns ',' v = v := by
    rintro u numbers v rfl
    exact ⟨columns_of_subset flat (by simp), columns_of_subset flat (by simp)⟩
  constructor
  · rintro ⟨u, numbers, v, same, ⟨r, d, o, fit, rfl⟩, ⟨x, y, front, roomX, roomY⟩,
      ⟨z, w, back, roomZ, roomW⟩⟩
    obtain ⟨wholeU, wholeV⟩ := parts same
    rw [same] at noNul
    obtain ⟨noNulX, noNulY⟩ := notMem_of_join_eq (by decide) front fun s mem => noNul s <| by
      simp only [List.mem_append] at mem ⊢
      tauto
    obtain ⟨noNulZ, noNulW⟩ := notMem_of_join_eq (by decide) back fun s mem => noNul s <| by
      simp only [List.mem_append] at mem ⊢
      tauto
    obtain ⟨b, printable, fit', domain, op, facility, device, s1, s2, read⟩ :=
      exists_record fit d o roomX roomY roomZ roomW
        (by simp [noNulX, noNulY, noNulZ, noNulW])
    refine ⟨b, d, o, u, v, printable, fit', domain, op, ?_, ?_, ?_⟩
    · rw [leading, facility, device, (columns_pair_iff ',' _ x y).mpr front, columns_append, wholeU]
    · rw [read, same]
    · rw [s1, s2, (columns_pair_iff ',' _ z w).mpr back, columns_append, wholeV]
  · rintro ⟨b, d, o, u, v, printable, fit, -, -, front, same, back⟩
    obtain ⟨wholeU, wholeV⟩ := parts same
    rw [leading, ← wholeU, ← columns_append, columns_pair_iff] at front
    rw [← wholeV, ← columns_append, columns_pair_iff] at back
    exact ⟨u, _, v, same, ⟨b, d, o, fit, rfl⟩, ⟨_, _, front, printable.facility, printable.device⟩,
      ⟨_, _, back, printable.s1, printable.s2⟩⟩

end Middle

/-! ### The records that print a row -/

/-- The bytes printed tell the strings and the names. -/
def Decodable (printFloat : Float32 → Str) (a : MonitorRecord) : Prop :=
  ∀ b, Printable b → NumbersFit b → outputCsv printFloat a = outputCsv printFloat b →
    SameStrings a b

theorem SameStrings.leading_eq {a b : MonitorRecord} (h : SameStrings a b) :
    leading b = leading a := by
  rw [leading, leading, h.facility, h.device]

section Decoding

variable {printFloat : Float32 → Str} {a : MonitorRecord} {d : DomainType} {o : OpType}

/-- Another cut of a pair of strings is another record with the row. -/
theorem Decodable.tight (clean : Clean printFloat) (ha : Printable a) (fit : NumbersFit a)
    (domain : a.domType = d.code) (op : a.opType = o.code) (h : Decodable printFloat a) :
    Tight ',' STR_LEN DEVICE_LEN a.facility.chars a.device.chars ∧
      Tight ',' PATH_MAX STR_LEN a.s1.chars a.s2.chars := by
  have noNul : ∀ {x y x' y' : Str}, x' ++ ',' :: y' = x ++ ',' :: y → nul ∉ x → nul ∉ y →
      nul ∉ x' ∧ nul ∉ y' := by
    intro x y x' y' text hx hy
    exact notMem_of_join_eq (by decide) ((join_pair ',' x y).trans text.symm) (by simp [hx, hy])
  have cut : ∀ {x y x' y' : Str}, x' ++ ',' :: y' = x ++ ',' :: y →
      columns ',' [x', y'] = columns ',' [x, y] := by
    intro x y x' y' text
    rw [columns_pair_iff, join_pair, text]
  constructor
  · rw [tight_iff ha.facility ha.device]
    intro x y text roomX roomY
    obtain ⟨noNulX, noNulY⟩ := noNul text a.facility.noNul a.device.noNul
    obtain ⟨b, hb, fitB, domainB, opB, facility, device, s1, s2, read⟩ :=
      exists_record fit d o roomX roomY ha.s1 ha.s2
        (by simp [noNulX, noNulY, a.s1.noNul, a.s2.noNul])
    have printed := (outputCsv_eq_iff clean ha hb domain op domainB opB).mpr <| by
      rw [leading, leading, facility, device, s1, s2, cut text, read]
    rw [← facility, (h b hb fitB printed).facility]
  · rw [tight_iff ha.s1 ha.s2]
    intro z w text roomZ roomW
    obtain ⟨noNulZ, noNulW⟩ := noNul text a.s1.noNul a.s2.noNul
    obtain ⟨b, hb, fitB, domainB, opB, facility, device, s1, s2, read⟩ :=
      exists_record fit d o ha.facility ha.device roomZ roomW
        (by simp [noNulZ, noNulW, a.facility.noNul, a.device.noNul])
    have printed := (outputCsv_eq_iff clean ha hb domain op domainB opB).mpr <| by
      rw [leading, leading, facility, device, s1, s2, cut text, read]
    rw [← s1, (h b hb fitB printed).s1]

/-- Of two ways to part a list the second goes further by some members. -/
theorem part_further {xs ys xs' ys' : List Str} (same : xs' ++ ys' = xs ++ ys)
    (further : xs.length ≤ xs'.length) : ∃ u, xs' = xs ++ u ∧ ys = u ++ ys' := by
  obtain ⟨u, rfl⟩ := List.prefix_of_prefix_length_le ⟨ys, same.symm⟩
    (List.prefix_append xs' ys') further
  rw [List.append_assoc, List.append_cancel_left_eq] at same
  exact ⟨u, rfl, same.symm⟩

/-- A record that prints the pieces of the row. -/
structure Reading (printFloat : Float32 → Str) (a : MonitorRecord) (d : DomainType) (o : OpType)
    (b : MonitorRecord) (d' : DomainType) (o' : OpType) : Prop where
  printable : Printable b
  fit : NumbersFit b
  domain : b.domType = d'.code
  op : b.opType = o'.code
  pieces : leading b ++ (middle printFloat b d' o' ++ columns ',' [b.s1.chars, b.s2.chars]) =
    leading a ++ (middle printFloat a d o ++ columns ',' [a.s1.chars, a.s2.chars])

/-- Records with as many pieces in front have the same strings, if these are tight. -/
theorem Reading.sameStrings {b : MonitorRecord} {d' : DomainType} {o' : OpType}
    (h : Reading printFloat a d o b d' o') (ha : Printable a) (domain : a.domType = d.code)
    (op : a.opType = o.code) (front : Tight ',' STR_LEN DEVICE_LEN a.facility.chars a.device.chars)
    (back : Tight ',' PATH_MAX STR_LEN a.s1.chars a.s2.chars)
    (same : (leading b).length = (leading a).length) : SameStrings a b := by
  have cut : ∀ {x y x' y' : Str}, columns ',' [x', y'] = columns ',' [x, y] →
      x' ++ ',' :: y' = x ++ ',' :: y := by
    intro x y x' y' same
    rw [columns_pair_iff, join_pair] at same
    exact same.symm
  obtain ⟨leads, rest⟩ := List.append_inj h.pieces same
  obtain ⟨names, ends⟩ := List.append_inj rest rfl
  have device := cut leads
  have facility := (tight_iff ha.facility ha.device).mp front _ _ device
    h.printable.facility h.printable.device
  have s2 := cut ends
  have s1 := (tight_iff ha.s1 ha.s2).mp back _ _ s2 h.printable.s1 h.printable.s2
  rw [facility, List.append_cancel_left_eq, List.cons.injEq] at device
  rw [s1, List.append_cancel_left_eq, List.cons.injEq] at s2
  simp only [middle, List.cons.injEq] at names
  obtain ⟨-, -, -, domain_, op_, -⟩ := names
  exact
    { facility := CharArray.ext facility.symm
      device := CharArray.ext device.2.symm
      s1 := CharArray.ext s1.symm
      s2 := CharArray.ext s2.2.symm
      domain := by rw [domain, h.domain, nameAt_domain, nameAt_domain, domain_]
      op := by rw [op, h.op, nameAt_op, nameAt_op, op_] }

/-- What is hidden behind the descriptor is a record with more pieces in front. -/
theorem hides_behind_iff (fractional : Fractional printFloat) :
    Hides printFloat ([a.facility.chars, a.device.chars] ++ untilFd printFloat a d o)
        (columns ',' [decimal a.bytesTransferred, a.s1.chars, a.s2.chars]) [] ↔
      ∃ b d' o', Reading printFloat a d o b d' o' ∧
        (leading a).length + 7 ≤ (leading b).length := by
  have noNul := row_noNul fractional a d o
  have front : columns ',' ([a.facility.chars, a.device.chars] ++ untilFd printFloat a d o) =
      leading a ++ untilFd printFloat a d o := by
    rw [columns_append, ← leading, columns_of_notMem fun field mem => ?_]
    exact (middle_clean fractional.clean a d o field (List.mem_append_left [_] mem)).1
  have back : columns ',' [decimal a.bytesTransferred, a.s1.chars, a.s2.chars] =
      decimal a.bytesTransferred :: columns ',' [a.s1.chars, a.s2.chars] := by
    rw [columns_cons, List.splitOn_eq_singleton (notMem_decimal _ (by decide))]
    rfl
  have whole : leading a ++ untilFd printFloat a d o ++
        (decimal a.bytesTransferred :: columns ',' [a.s1.chars, a.s2.chars]) =
      leading a ++ (middle printFloat a d o ++ columns ',' [a.s1.chars, a.s2.chars]) :=
    List.append_assoc _ _ _
  have seven : (untilFd printFloat a d o).length = 7 := rfl
  rw [hides_iff (columns_columns _ _), front, back]
  · constructor
    · rintro ⟨b, d', o', u, v, hb, fit, domain, op, leads, same, ends⟩
      refine ⟨b, d', o', ⟨hb, fit, domain, op, ?_⟩, ?_⟩
      · rw [leads, ends, ← whole, same]
        simp [columns]
      · rw [leads, List.length_append, List.length_append]
        omega
    · rintro ⟨b, d', o', reading, further⟩
      obtain ⟨u, leads, same⟩ := part_further (reading.pieces.trans whole.symm)
        (by rw [List.length_append]; omega)
      exact ⟨b, d', o', u, _, reading.printable, reading.fit, reading.domain, reading.op, leads,
        same, (List.append_nil _).symm⟩
  · intro s mem
    rw [List.append_nil] at mem
    rcases List.mem_append.mp mem with first | piece
    · exact noNul s (List.mem_append_left [_, _, _] first)
    · exact notMem_of_columns (by decide)
        (fun field last => noNul field
          (List.mem_append_right ([_, _] ++ untilFd printFloat a d o) last)) s piece

/-- What is hidden up to the timestamp is one with fewer. -/
theorem hides_before_iff (fractional : Fractional printFloat) :
    Hides printFloat [] (columns ',' [a.facility.chars, a.device.chars, decimal a.timestamp])
        (sinceElapsed printFloat a d o ++ [a.s1.chars, a.s2.chars]) ↔
      ∃ b d' o', Reading printFloat a d o b d' o' ∧
        (leading b).length + 7 ≤ (leading a).length := by
  have noNul := row_noNul fractional a d o
  have front : columns ',' [a.facility.chars, a.device.chars, decimal a.timestamp] =
      leading a ++ [decimal a.timestamp] := by
    rw [leading, columns_cons, columns_cons, columns_cons,
      List.splitOn_eq_singleton (notMem_decimal _ (by decide)), columns_cons, columns_cons]
    simp [columns]
  have back : columns ',' (sinceElapsed printFloat a d o ++ [a.s1.chars, a.s2.chars]) =
      sinceElapsed printFloat a d o ++ columns ',' [a.s1.chars, a.s2.chars] := by
    rw [columns_append, columns_of_notMem fun field mem => ?_]
    exact (middle_clean fractional.clean a d o field (List.mem_cons_of_mem _ mem)).1
  have whole : leading a ++ [decimal a.timestamp] ++
        (sinceElapsed printFloat a d o ++ columns ',' [a.s1.chars, a.s2.chars]) =
      leading a ++ (middle printFloat a d o ++ columns ',' [a.s1.chars, a.s2.chars]) :=
    List.append_assoc _ _ _
  rw [hides_iff (columns_columns _ _), front, back]
  · constructor
    · rintro ⟨b, d', o', u, v, hb, fit, domain, op, leads, same, ends⟩
      refine ⟨b, d', o', ⟨hb, fit, domain, op, ?_⟩, ?_⟩
      · rw [leads, ends, ← whole, same]
        simp [columns]
      · have eight : (middle printFloat b d' o').length = 8 := rfl
        have long := congrArg List.length same
        rw [List.length_append, List.length_singleton, List.length_append, List.length_append]
          at long
        rw [leads, columns, List.flatMap_nil, List.nil_append]
        omega
    · rintro ⟨b, d', o', reading, further⟩
      have eight : (middle printFloat b d' o').length = 8 := rfl
      obtain ⟨v, same, ends⟩ := part_further (whole.trans (reading.pieces.symm.trans
        (List.append_assoc _ _ _).symm)) (by
          rw [List.length_append, List.length_append, List.length_singleton]
          omega)
      exact ⟨b, d', o', leading b, v, reading.printable, reading.fit, reading.domain, reading.op,
        rfl, same.trans (List.append_assoc _ _ _), ends⟩
  · intro s mem
    rcases List.mem_append.mp mem with none_ | mem
    · cases none_
    · rcases List.mem_append.mp mem with piece | last
      · exact notMem_of_columns (by decide)
          (fun field first => noNul field (List.mem_append_left
            (sinceElapsed printFloat a d o ++ [_, _]) first)) s piece
      · exact noNul s (List.mem_append_right [_, _, _] last)

/-- **Decodable rows.** The bytes printed for a record are told from those of every record
with other strings or names, and are one line with the names in their columns, iff the strings
of the record are unambiguous. -/
theorem csv_decodable_iff (fractional : Fractional printFloat) (ha : Printable a)
    (fit : NumbersFit a) (domain : a.domType = d.code) (op : a.opType = o.code) :
    Decodable printFloat a ∧ OneRow printFloat a ↔ Unambiguous printFloat a d o := by
  have clean := fractional.clean
  constructor
  · rintro ⟨decodable, oneRow⟩
    obtain ⟨oneLine, names⟩ := (oneRow_iff clean ha domain op).mp oneRow
    obtain ⟨front, back⟩ := decodable.tight clean ha fit domain op
    have only : ∀ {b d' o'}, Reading printFloat a d o b d' o' →
        (leading b).length = (leading a).length := by
      intro b d' o' reading
      have printed := (outputCsv_eq_iff clean ha reading.printable domain op reading.domain
        reading.op).mpr reading.pieces
      rw [(decodable b reading.printable reading.fit printed).leading_eq]
    refine ⟨oneLine, names, front, back, fun hidden => ?_, fun hidden => ?_⟩
    · obtain ⟨b, d', o', reading, shorter⟩ := (hides_before_iff fractional).mp hidden
      have same := only reading
      omega
    · obtain ⟨b, d', o', reading, longer⟩ := (hides_behind_iff fractional).mp hidden
      have same := only reading
      omega
  · intro unambiguous
    refine ⟨?_, (oneRow_iff clean ha domain op).mpr ⟨unambiguous.oneLine, unambiguous.names⟩⟩
    intro b hb fitB printed
    obtain ⟨d', domain'⟩ := hb.domain
    obtain ⟨o', op'⟩ := hb.op
    have pieces := (outputCsv_eq_iff clean ha hb domain op domain' op').mp printed
    have reading : Reading printFloat a d o b d' o' := ⟨hb, fitB, domain', op', pieces⟩
    rcases Nat.lt_trichotomy (leading b).length (leading a).length with shorter | same | longer
    · have gap := middle_behind fractional pieces.symm shorter
      have hidden := (hides_before_iff fractional).mpr ⟨b, d', o', reading, gap⟩
      exact absurd hidden unambiguous.before
    · exact reading.sameStrings ha domain op unambiguous.front unambiguous.back same
    · have gap := middle_behind fractional pieces longer
      have hidden := (hides_behind_iff fractional).mpr ⟨b, d', o', reading, gap⟩
      exact absurd hidden unambiguous.behind

end Decoding

/-! A rename of `a,b` to `c` prints the row of a rename of `a` to `b,c`. -/

theorem printFixed_fractional : Fractional (printFixed 6) where
  clean := printFixed_clean
  noNul x := notMem_printFixed 6 x (by decide) (by decide)
  marked x n same := by
    obtain ⟨c, mem, mark⟩ := printFixed_marked 6 x
    exact mark (mem_decimal (same ▸ mem))

theorem renamed_fit (oldpath newpath : Str) : NumbersFit (renamed oldpath newpath) :=
  ⟨rfl, rfl, rfl, rfl, rfl⟩

theorem csv_decodable_iff_renamed :
    Decodable (printFixed 6) (renamed "a".toList "b".toList) ∧
      OneRow (printFixed 6) (renamed "a".toList "b".toList) :=
  (csv_decodable_iff printFixed_fractional (renamed_printable (by decide) (by decide))
    (renamed_fit _ _) rfl rfl).mpr
      (unambiguous_of_plain ⟨by decide, by decide, by decide, by decide⟩ (by decide) (by decide)
        (by decide) (by decide) .misc .rename)

theorem recut_same_row :
    ¬ ∀ a b : MonitorRecord, Printable a → Printable b → NumbersFit a → NumbersFit b →
      (outputCsv (printFixed 6) a = outputCsv (printFixed 6) b → SameStrings a b) ∧
        OneRow (printFixed 6) a := by
  intro decodable
  have same := (decodable (renamed "a,b".toList "c".toList) (renamed "a".toList "b,c".toList)
    (renamed_printable (by decide) (by decide)) (renamed_printable (by decide) (by decide))
    (renamed_fit _ _) (renamed_fit _ _)).1 (by decide)
  exact absurd same.s1 (by decide)

end IoMonitor
