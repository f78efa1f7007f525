import IoMonitor.Lib.LineFilter
import IoMonitor.Names

/-!
`enum_to_strings.sh`: the tables of names, made from the headers.

The script knows the line of an enumerator by its comma. It takes a comment with a comma
for one as well, unless the comment starts the line: the entry is the empty string, and
every name behind it is one place off (`Header.aligned_iff`).
-/

namespace IoMonitor

open CString LineFilter

/-! ### The script -/

def slashes : Str := ['/', '/']

def echo (s : Str) : Str := s ++ ['\n']

/-- What the shell passes on as it is: no blank, no backslash and no pattern. -/
def Unexpanded (c : Char) : Prop := c ∉ [' ', '\t', '\n', '\\', '*', '?', '[']

instance : DecidablePred Unexpanded := fun _ => inferInstanceAs (Decidable (¬ _))

/-- `\"$i\",`. -/
def quoted (i : Str) : Str := '"' :: i ++ ['"', ',']

/-- The loop of `read` and `echo`. `i` is what is read of the line. Lines that the shell
changes have no result here. -/
def readEcho : Str → Str → Option Str
  | _, [] => some []
  | i, c :: s =>
      if c = '\n' then (readEcho [] s).map (echo (quoted i) ++ ·)
      else if Unexpanded c then readEcho (i ++ [c]) s
      else none

/-- The file that is generated around the entries. -/
def generated (notice arrayName entries : Str) : Str :=
  notice ++ echo ("static const char* ".toList ++ arrayName ++ "[] = \x7b".toList) ++ entries ++
    echo "\x7d;".toList

/-- The output on `text`. `notice` is `header_generated.txt`. -/
def enumToStrings (notice arrayName text : Str) : Option Str :=
  (readEcho [] (trDelete ' ' (cut '/' (cut ',' (grep (',' ∈ ·)
    (grep (! slashes.isPrefixOf ·) text)))))).map (generated notice arrayName)

/-- The file with an array of `entries`. -/
def arrayText (notice arrayName : Str) (entries : List Str) : Str :=
  generated notice arrayName (unlines (entries.map quoted))

/-! ### The headers -/

structure Identifier where
  chars : Str
  nonempty : chars ≠ []
  word : ∀ c ∈ chars, c.isAlphanum ∨ c = '_'

/-- Any text within a line. -/
structure LineText where
  chars : Str
  oneLine : '\n' ∉ chars
  noNul : nul ∉ chars

/-- What may be behind an enumerator: spaces and a comment. -/
structure Trailing where
  gap : Nat
  text : LineText

inductive PlainLine where
  | comment (indent : Nat) (text : LineText)
  | other (text : LineText) (noComma : ',' ∉ text.chars)

inductive HeaderLine where
  | plain (line : PlainLine)
  | enumerator (indent : Nat) (name : Identifier) (trailing : Option Trailing)

/-- A header in the style of `ops.h` and `domains.h`. -/
structure Header where
  before : List HeaderLine
  indent : Nat
  last : Identifier
  trailing : Option Trailing
  after : List PlainLine

def spaces (n : Nat) : Str := List.replicate n ' '

def Trailing.render (t : Trailing) : Str := spaces t.gap ++ slashes ++ t.text.chars

def PlainLine.render : PlainLine → Str
  | .comment indent text => spaces indent ++ slashes ++ text.chars
  | .other text _ => text.chars

def trailingText (trailing : Option Trailing) : Str := (trailing.map Trailing.render).getD []

def HeaderLine.render : HeaderLine → Str
  | .plain line => line.render
  | .enumerator indent name trailing =>
      spaces indent ++ name.chars ++ ',' :: trailingText trailing

def Header.lines (h : Header) : List Str :=
  h.before.map HeaderLine.render ++
    (spaces h.indent ++ h.last.chars ++ trailingText h.trailing) ::
      h.after.map PlainLine.render

def Header.text (h : Header) : Str := unlines h.lines

def HeaderLine.names : HeaderLine → List Str
  | .plain _ => []
  | .enumerator _ name _ => [name.chars]

/-- The names of the enumerators, in their order. -/
def Header.names (h : Header) : List Str :=
  h.before.flatMap HeaderLine.names ++ [h.last.chars]

/-- A comment behind spaces that has a comma. -/
def PlainLine.Stray : PlainLine → Prop
  | .comment indent text => 0 < indent ∧ ',' ∈ text.chars
  | .other _ _ => False

def HeaderLine.Stray : HeaderLine → Prop
  | .plain line => line.Stray
  | .enumerator _ _ _ => False

/-- The commas of the header are behind enumerators other than the last, or in comments that
start their line. -/
structure Header.NoStray (h : Header) : Prop where
  before : ∀ line ∈ h.before, ¬ line.Stray
  last : ∀ t ∈ h.trailing, ',' ∉ t.text.chars
  after : ∀ line ∈ h.after, ¬ line.Stray

/-- The table has the name of the i-th enumerator at i, up to the last but one, and no
other entry. -/
def Header.Aligned (notice arrayName : Str) (h : Header) : Prop :=
  ∃ entries, enumToStrings notice arrayName h.text = some (arrayText notice arrayName entries) ∧
    entries.length + 1 = h.names.length ∧
      ∀ i, i + 1 < h.names.length → entries[i]? = h.names[i]?

/-! ### The stages -/

/-- A line that both `grep`s pass. -/
def selected (line : Str) : Bool := decide (',' ∈ line) && ! slashes.isPrefixOf line

/-- What the two `cut`s and `tr` leave of a line. -/
def field (line : Str) : Str := trDelete ' ' ((line.takeWhile (· ≠ ',')).takeWhile (· ≠ '/'))

/-- The entries that lines become. -/
def entriesOf (ls : List Str) : List Str := (ls.filter selected).map field

theorem readEcho_line {l : Str} (h : ∀ c ∈ l, Unexpanded c) (i s : Str) :
    readEcho i (l ++ '\n' :: s) = (readEcho [] s).map (echo (quoted (i ++ l)) ++ ·) := by
  induction l generalizing i with
  | nil => rw [List.nil_append, readEcho, if_pos rfl, List.append_nil]
  | cons c l ih =>
      obtain ⟨first, rest⟩ := List.forall_mem_cons.mp h
      have text : c ≠ '\n' := by
        rintro rfl
        exact absurd first (by decide)
      rw [List.cons_append, readEcho, if_neg text, if_pos first, ih rest, List.append_assoc]
      rfl

theorem readEcho_unlines {ls : List Str} (h : ∀ l ∈ ls, ∀ c ∈ l, Unexpanded c) :
    readEcho [] (unlines ls) = some (unlines (ls.map quoted)) := by
  induction ls with
  | nil => rfl
  | cons l ls ih =>
      obtain ⟨first, rest⟩ := List.forall_mem_cons.mp h
      rw [unlines_cons, readEcho_line first, ih rest, List.map_cons, unlines_cons, echo]
      simp

/-- Line by line, the script lists the entries. -/
theorem enumToStrings_unlines (notice arrayName : Str) {ls : List Str} (h : OneLine ls)
    (unexpanded : ∀ e ∈ entriesOf ls, ∀ c ∈ e, Unexpanded c) :
    enumToStrings notice arrayName (unlines ls) =
      some (arrayText notice arrayName (entriesOf ls)) := by
  have filtered := (h.filter (! slashes.isPrefixOf ·)).filter (',' ∈ ·)
  have fields : OneLine (((ls.filter (! slashes.isPrefixOf ·)).filter (',' ∈ ·)).map
      (·.takeWhile (· ≠ ','))) :=
    filtered.map fun _ _ mem => List.takeWhile_subset _ mem
  have staged : trDelete ' ' (cut '/' (cut ',' (grep (',' ∈ ·)
      (grep (! slashes.isPrefixOf ·) (unlines ls))))) = unlines (entriesOf ls) := by
    rw [grep_unlines h, grep_unlines (h.filter _), cut_unlines filtered,
      cut_unlines fields, trDelete_unlines (by decide), List.filter_filter,
      List.map_map, List.map_map]
    rfl
  rw [enumToStrings, staged, readEcho_unlines unexpanded]
  rfl

/-! ### One line -/

theorem Identifier.notMem (name : Identifier) {c : Char} (h : ¬ (c.isAlphanum ∨ c = '_')) :
    c ∉ name.chars := fun mem => h (name.word c mem)

theorem Identifier.unexpanded (name : Identifier) : ∀ c ∈ name.chars, Unexpanded c := by
  have apart : ∀ c ∈ [' ', '\t', '\n', '\\', '*', '?', '['], ¬ (c.isAlphanum ∨ c = '_') :=
    forall_mem_of_all (by decide)
  exact fun c mem special => apart c special (name.word c mem)

theorem spaces_notMem {n : Nat} {c : Char} (h : c ≠ ' ') : c ∉ spaces n :=
  fun mem => h (List.mem_replicate.mp mem).2

/-- The field ends at the first comma or slash. -/
theorem field_stop {w : Str} (noComma : ',' ∉ w) (noSlash : '/' ∉ w) {c : Char}
    (stop : c = ',' ∨ c = '/') (s : Str) : field (w ++ c :: s) = trDelete ' ' w := by
  have comma : ∀ d ∈ w, decide (d ≠ ',') = true :=
    fun d mem => decide_eq_true fun eq => noComma (eq ▸ mem)
  have slash : ∀ d ∈ w, decide (d ≠ '/') = true :=
    fun d mem => decide_eq_true fun eq => noSlash (eq ▸ mem)
  rw [field, List.takeWhile_append_of_pos comma]
  rcases stop with rfl | rfl
  · rw [List.takeWhile_cons_of_neg (by decide), List.append_nil,
      List.takeWhile_eq_self_iff.mpr slash]
  · rw [List.takeWhile_cons_of_pos (by decide), List.takeWhile_append_of_pos slash,
      List.takeWhile_cons_of_neg (by decide), List.append_nil]

theorem not_slashes {w : Str} (nonempty : w ≠ []) (noSlash : '/' ∉ w) (s : Str) :
    slashes.isPrefixOf (w ++ s) = false := by
  obtain ⟨c, w, rfl⟩ := List.exists_cons_of_ne_nil nonempty
  have first : '/' ≠ c := fun eq => noSlash (eq ▸ List.mem_cons_self)
  simp [slashes, List.isPrefixOf, first]

theorem entriesOf_noComma {l : Str} (h : ',' ∉ l) : entriesOf [l] = [] := by
  have dropped : ¬ selected l = true := by
    rw [selected, decide_eq_false h]
    exact Bool.noConfusion
  rw [entriesOf, List.filter_cons_of_neg dropped]
  rfl

/-- A line that has something in front of its first comma or slash is an entry iff it has a
comma. -/
theorem entriesOf_line {w : Str} (nonempty : w ≠ []) (noComma : ',' ∉ w) (noSlash : '/' ∉ w)
    {c : Char} (stop : c = ',' ∨ c = '/') (s : Str) :
    entriesOf [w ++ c :: s] = if ',' ∈ c :: s then [trDelete ' ' w] else [] := by
  have comma : ',' ∈ w ++ c :: s ↔ ',' ∈ c :: s := by
    rw [List.mem_append, or_iff_right noComma]
  by_cases mem : ',' ∈ c :: s
  · have passed : selected (w ++ c :: s) = true := by
      rw [selected, not_slashes nonempty noSlash, decide_eq_true (comma.mpr mem)]
      rfl
    rw [entriesOf, List.filter_cons_of_pos passed, if_pos mem, List.filter_nil, List.map_singleton,
      field_stop noComma noSlash stop]
  · rw [entriesOf_noComma (mt comma.mp mem), if_neg mem]

/-- Of an identifier among spaces, the spaces go. -/
theorem trDelete_identifier (name : Identifier) (indent gap : Nat) :
    trDelete ' ' (spaces indent ++ name.chars ++ spaces gap) = name.chars := by
  have kept : ∀ c ∈ name.chars, decide (c ≠ ' ') = true :=
    fun c mem => decide_eq_true fun eq => name.notMem (by decide) (eq ▸ mem)
  rw [trDelete, List.filter_append, List.filter_append, List.filter_eq_self.mpr kept]
  simp [spaces]

/-- A stray comment is an entry, the empty string. -/
theorem PlainLine.entriesOf_stray {line : PlainLine} (h : line.Stray) :
    entriesOf [line.render] = [[]] := by
  cases line with
  | other text noComma => exact h.elim
  | comment indent text =>
      obtain ⟨behind, comma⟩ := h
      have nonempty : spaces indent ≠ [] :=
        List.ne_nil_of_length_pos (by rwa [spaces, List.length_replicate])
      have entry := entriesOf_line nonempty (spaces_notMem (by decide)) (spaces_notMem (by decide))
        (.inr rfl) ('/' :: text.chars)
      rw [if_pos (List.mem_cons_of_mem _ (List.mem_cons_of_mem _ comma))] at entry
      rw [PlainLine.render, List.append_assoc]
      refine entry.trans ?_
      simp [trDelete, spaces]

theorem PlainLine.entriesOf_plain {line : PlainLine} (h : ¬ line.Stray) :
    entriesOf [line.render] = [] := by
  cases line with
  | other text noComma => exact entriesOf_noComma noComma
  | comment indent text =>
      rcases Nat.eq_zero_or_pos indent with rfl | behind
      · have start : selected (slashes ++ text.chars) = false := by
          simp [selected, slashes, List.isPrefixOf]
        simp [entriesOf, PlainLine.render, spaces, start]
      · refine entriesOf_noComma fun comma => h ⟨behind, ?_⟩
        simpa [PlainLine.render, slashes, spaces] using comma

/-- A name among spaces, and the first comma or slash behind it. -/
theorem entriesOf_name (name : Identifier) (indent gap : Nat) {c : Char} (stop : c = ',' ∨ c = '/')
    (s : Str) :
    entriesOf [spaces indent ++ name.chars ++ spaces gap ++ c :: s] =
      if ',' ∈ c :: s then [name.chars] else [] := by
  have apart : ∀ {d : Char}, d ≠ ' ' → ¬ (d.isAlphanum ∨ d = '_') →
      d ∉ spaces indent ++ name.chars ++ spaces gap := by
    intro d space word mem
    rcases List.mem_append.mp mem with front | behind
    · rcases List.mem_append.mp front with indented | inside
      · exact spaces_notMem space indented
      · exact name.notMem word inside
    · exact spaces_notMem space behind
  have nonempty : spaces indent ++ name.chars ++ spaces gap ≠ [] := by
    simp [name.nonempty]
  rw [entriesOf_line nonempty (apart (by decide) (by decide)) (apart (by decide) (by decide)) stop,
    trDelete_identifier]

theorem HeaderLine.entriesOf_plain {line : HeaderLine} (h : ¬ line.Stray) :
    entriesOf [line.render] = line.names := by
  cases line with
  | plain line => exact PlainLine.entriesOf_plain h
  | enumerator indent name trailing =>
      have entry := entriesOf_name name indent 0 (.inl rfl) (trailingText trailing)
      rw [if_pos List.mem_cons_self] at entry
      rwa [show spaces 0 = [] from rfl, List.append_nil] at entry

/-- The last enumerator is an entry iff there is a comma in its comment. -/
theorem entriesOf_last (h : Header) :
    entriesOf [spaces h.indent ++ h.last.chars ++ trailingText h.trailing] =
      if ∃ t ∈ h.trailing, ',' ∈ t.text.chars then [h.last.chars] else [] := by
  cases h.trailing with
  | none =>
      have noComma : ',' ∉ spaces h.indent ++ h.last.chars := by
        rw [List.mem_append, not_or]
        exact ⟨spaces_notMem (by decide), h.last.notMem (by decide)⟩
      rw [if_neg (by simp), trailingText, Option.map_none, Option.getD_none, List.append_nil]
      exact entriesOf_noComma noComma
  | some t =>
      have entry := entriesOf_name h.last h.indent t.gap (.inr rfl) ('/' :: t.text.chars)
      rw [List.append_assoc] at entry
      simpa [trailingText, Trailing.render, slashes, List.append_assoc] using entry

/-! ### The header -/

theorem entriesOf_append (ls ls' : List Str) :
    entriesOf (ls ++ ls') = entriesOf ls ++ entriesOf ls' := by
  rw [entriesOf, List.filter_append, List.map_append]
  rfl

theorem entriesOf_flatMap {α : Type} (f : α → Str) (lines : List α) :
    entriesOf (lines.map f) = lines.flatMap fun line => entriesOf [f line] := by
  induction lines with
  | nil => rfl
  | cons line lines ih =>
      rw [List.map_cons, ← List.singleton_append, entriesOf_append, ih, List.flatMap_cons]

theorem Header.entriesOf_lines (h : Header) :
    entriesOf h.lines =
      (h.before.flatMap fun line => entriesOf [line.render]) ++
        (if ∃ t ∈ h.trailing, ',' ∈ t.text.chars then [h.last.chars] else []) ++
          h.after.flatMap fun line => entriesOf [line.render] := by
  rw [Header.lines, ← List.singleton_append, ← List.append_assoc, entriesOf_append,
    entriesOf_append, entriesOf_last, entriesOf_flatMap, entriesOf_flatMap]

theorem PlainLine.unexpanded (line : PlainLine) :
    ∀ e ∈ entriesOf [line.render], ∀ c ∈ e, Unexpanded c := by
  intro e mem
  by_cases stray : line.Stray
  · rw [PlainLine.entriesOf_stray stray, List.mem_singleton] at mem
    simp [mem]
  · rw [PlainLine.entriesOf_plain stray] at mem
    cases mem

theorem HeaderLine.names_unexpanded (line : HeaderLine) :
    ∀ e ∈ line.names, ∀ c ∈ e, Unexpanded c := by
  intro e mem
  cases line with
  | plain line => cases mem
  | enumerator indent name trailing =>
      obtain rfl := List.mem_singleton.mp mem
      exact name.unexpanded

theorem HeaderLine.unexpanded (line : HeaderLine) :
    ∀ e ∈ entriesOf [line.render], ∀ c ∈ e, Unexpanded c := by
  cases line with
  | plain line => exact line.unexpanded
  | enumerator indent name trailing =>
      rw [HeaderLine.entriesOf_plain id]
      exact HeaderLine.names_unexpanded _

theorem Header.unexpanded (h : Header) :
    ∀ e ∈ entriesOf h.lines, ∀ c ∈ e, Unexpanded c := by
  intro e mem
  rw [h.entriesOf_lines, List.mem_append, List.mem_append, List.mem_flatMap,
    List.mem_flatMap] at mem
  rcases mem with (⟨line, -, entry⟩ | last) | ⟨line, -, entry⟩
  · exact line.unexpanded e entry
  · split at last
    · obtain rfl := List.mem_singleton.mp last
      exact h.last.unexpanded
    · cases last
  · exact line.unexpanded e entry

theorem trailing_oneLine (trailing : Option Trailing) : '\n' ∉ trailingText trailing := by
  cases trailing with
  | none => exact List.not_mem_nil
  | some t => simp [trailingText, Trailing.render, slashes, spaces, t.text.oneLine]

theorem PlainLine.oneLine (line : PlainLine) : '\n' ∉ line.render := by
  cases line with
  | comment indent text => simp [PlainLine.render, slashes, spaces, text.oneLine]
  | other text noComma => exact text.oneLine

theorem HeaderLine.oneLine (line : HeaderLine) : '\n' ∉ line.render := by
  cases line with
  | plain line => exact line.oneLine
  | enumerator indent name trailing =>
      have name_ : '\n' ∉ name.chars := name.notMem (by decide)
      simp [HeaderLine.render, spaces, name_, trailing_oneLine]

theorem Header.oneLine (h : Header) : OneLine h.lines := by
  intro l mem
  have last : '\n' ∉ h.last.chars := h.last.notMem (by decide)
  rcases List.mem_append.mp mem with before | rest
  · obtain ⟨line, -, rfl⟩ := List.mem_map.mp before
    exact line.oneLine
  · rcases List.mem_cons.mp rest with rfl | after
    · simp [spaces, last, trailing_oneLine]
    · obtain ⟨line, -, rfl⟩ := List.mem_map.mp after
      exact line.oneLine

/-- What the script makes of a header. -/
theorem Header.enumToStrings_eq (h : Header) (notice arrayName : Str) :
    enumToStrings notice arrayName h.text =
      some (arrayText notice arrayName (entriesOf h.lines)) :=
  enumToStrings_unlines notice arrayName h.oneLine h.unexpanded

/-! ### The table -/

theorem quoted_oneLine {entries : List Str} (h : ∀ e ∈ entries, ∀ c ∈ e, Unexpanded c) :
    OneLine (entries.map quoted) := by
  intro l mem newline
  obtain ⟨e, entry, rfl⟩ := List.mem_map.mp mem
  have inside : '\n' ∈ e := by simpa [quoted] using newline
  exact absurd (h e entry _ inside) (by decide)

/-- Different entries make different files. -/
theorem arrayText_inj {notice arrayName : Str} {entries entries' : List Str}
    (h : ∀ e ∈ entries, ∀ c ∈ e, Unexpanded c) (h' : ∀ e ∈ entries', ∀ c ∈ e, Unexpanded c)
    (same : arrayText notice arrayName entries = arrayText notice arrayName entries') :
    entries = entries' := by
  have bodies : unlines (entries.map quoted) = unlines (entries'.map quoted) := by
    simpa only [arrayText, generated, List.append_assoc, List.append_cancel_left_eq,
      List.append_cancel_right_eq] using same
  refine List.map_injective_iff.mpr (fun a b eq => ?_)
    (unlines_inj (quoted_oneLine h) (quoted_oneLine h') bodies)
  simpa [quoted] using eq

theorem Header.aligned_entries {notice arrayName : Str} {h : Header} :
    h.Aligned notice arrayName ↔ entriesOf h.lines = h.before.flatMap HeaderLine.names := by
  have names : h.names = h.before.flatMap HeaderLine.names ++ [h.last.chars] := rfl
  constructor
  · rintro ⟨entries, made, count, at_⟩
    rw [names, List.length_append, List.length_singleton, Nat.add_right_cancel_iff] at count
    have same : entries = h.before.flatMap HeaderLine.names := by
      refine List.ext_getElem? fun i => ?_
      rcases Nat.lt_or_ge i (h.before.flatMap HeaderLine.names).length with inside | behind
      · rw [at_ i (by simpa [names] using inside), names, List.getElem?_append_left inside]
      · rw [List.getElem?_eq_none (count ▸ behind), List.getElem?_eq_none behind]
    rw [h.enumToStrings_eq] at made
    refine (arrayText_inj h.unexpanded (fun e mem => ?_) (Option.some.inj made)).trans same
    rw [same] at mem
    obtain ⟨line, -, name⟩ := List.mem_flatMap.mp mem
    exact line.names_unexpanded e name
  · intro entries
    refine ⟨h.before.flatMap HeaderLine.names, ?_, by simp [names], fun i inside => ?_⟩
    · rw [h.enumToStrings_eq, entries]
    · rw [names, List.length_append, List.length_singleton, Nat.add_lt_add_iff_right] at inside
      rw [names, List.getElem?_append_left inside]

/-- No name is the empty string. -/
theorem HeaderLine.names_nonempty (line : HeaderLine) : [] ∉ line.names := by
  intro mem
  cases line with
  | plain line => cases mem
  | enumerator indent name trailing => exact name.nonempty (List.mem_singleton.mp mem).symm

theorem HeaderLine.entriesOf_stray {line : HeaderLine} (h : line.Stray) :
    entriesOf [line.render] = [[]] := by
  cases line with
  | plain line => exact PlainLine.entriesOf_stray h
  | enumerator indent name trailing => exact h.elim

/-- Without an empty string in the table there is no stray comment. -/
theorem Header.no_stray_comment {h : Header} (empty : [] ∉ entriesOf h.lines) :
    (∀ line ∈ h.before, ¬ line.Stray) ∧ ∀ line ∈ h.after, ¬ line.Stray := by
  rw [h.entriesOf_lines, List.mem_append, List.mem_append, not_or, not_or] at empty
  obtain ⟨⟨before, -⟩, after⟩ := empty
  constructor
  · intro line mem stray
    apply before
    refine List.mem_flatMap.mpr ⟨line, mem, ?_⟩
    rw [HeaderLine.entriesOf_stray stray]
    exact List.mem_cons_self
  · intro line mem stray
    apply after
    refine List.mem_flatMap.mpr ⟨line, mem, ?_⟩
    rw [PlainLine.entriesOf_stray stray]
    exact List.mem_cons_self

theorem Header.entriesOf_no_stray {h : Header} (before : ∀ line ∈ h.before, ¬ line.Stray)
    (after : ∀ line ∈ h.after, ¬ line.Stray) :
    entriesOf h.lines = h.before.flatMap HeaderLine.names ++
      if ∃ t ∈ h.trailing, ',' ∈ t.text.chars then [h.last.chars] else [] := by
  have names : (h.before.flatMap fun line => entriesOf [line.render]) =
      h.before.flatMap HeaderLine.names :=
    List.flatMap_congr fun line mem => HeaderLine.entriesOf_plain (before line mem)
  have nothing : (h.after.flatMap fun line => entriesOf [line.render]) = [] :=
    List.flatMap_eq_nil_iff.mpr fun line mem => PlainLine.entriesOf_plain (after line mem)
  rw [h.entriesOf_lines, names, nothing, List.append_nil]

/-- **The table of names.** It is aligned with its enumeration iff no comment has a stray
comma. -/
theorem Header.aligned_iff (notice arrayName : Str) (h : Header) :
    h.Aligned notice arrayName ↔ h.NoStray := by
  rw [Header.aligned_entries]
  constructor
  · intro entries
    have empty : [] ∉ entriesOf h.lines := by
      rw [entries, List.mem_flatMap]
      rintro ⟨line, -, name⟩
      exact line.names_nonempty name
    obtain ⟨before, after⟩ := Header.no_stray_comment empty
    rw [Header.entriesOf_no_stray before after, List.append_right_eq_self] at entries
    refine ⟨before, fun t mem comma => ?_, after⟩
    rw [if_pos ⟨t, mem, comma⟩] at entries
    cases entries
  · rintro ⟨before, last, after⟩
    have unlisted : ¬ ∃ t ∈ h.trailing, ',' ∈ t.text.chars :=
      fun ⟨t, mem, comma⟩ => last t mem comma
    rw [Header.entriesOf_no_stray before after, if_neg unlisted, List.append_nil]

/-- An enumeration of `LINK` and `END_OPS`, with the comment `// link, unlink` on a line of
its own, indented as the names are. -/
def strayHeader : Header where
  before := [
    .plain (.comment 3 ⟨" link, unlink".toList, by decide, by decide⟩),
    .enumerator 3 ⟨"LINK".toList, by decide, forall_mem_of_all (by decide)⟩ none]
  indent := 3
  last := ⟨"END_OPS".toList, by decide, forall_mem_of_all (by decide)⟩
  trailing := none
  after := []

theorem stray_comment_shifts :
    entriesOf strayHeader.lines = [[], "LINK".toList] ∧
      ¬ strayHeader.Aligned [] "ops_names".toList := by
  have entries : entriesOf strayHeader.lines = [[], "LINK".toList] := by decide
  refine ⟨entries, fun aligned => ?_⟩
  rw [Header.aligned_entries, entries] at aligned
  exact absurd aligned (by decide)

/-! Lines of `domains.h`. -/

example : entriesOf (
    ["// set up some categories to group metrics",
      "typedef enum \x7b",
      "   LINKS,             // 0  (link, unlink)",
      "   THREADS,           // 19",
      "   END_DOMAINS        // keep this one as last"].map String.toList) =
    ["LINKS".toList, "THREADS".toList] := by
  decide +kernel

end IoMonitor
