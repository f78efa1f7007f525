import IoMonitor.EnumToStrings
import IoMonitor.Interposer.Table
import IoMonitor.Lib.ShellWords

/-!
`generate_interposer.sh`: the call that a wrapper makes, from the text of a prototype.

The script has no parser of C. It takes a prototype apart with `cut`, `rev` and
`tr`, and relies on the way the table is written: the asterisk with the type, the
name of a parameter behind the last blank. It quotes nothing, so that a type with an
asterisk is a pattern of the shell. For every prototype written like that whose types match
no file, the wrapper calls the original function of its own name with its own parameters,
in their order (`generated_call`).
-/

namespace IoMonitor

open CString LineFilter Columns ShellWords

/-! ### The script -/

namespace Row

variable (files : List Str) (row : Row)

/-- `PROTOTYPE` is the first column of `echo $LINE`. With it goes what `echo $PROTOTYPE`
prints. -/
def echoed : Row :=
  let PROTOTYPE := (echoWords files row.prototype.toList).takeWhile (· ≠ '|')
  { row with prototype := String.ofList (echoWords files PROTOTYPE) }

/-- What stands for the arguments behind the named ones. -/
def restArgument : Str := if (row.echoed files).isOpen then "mode".toList else "args".toList

end Row

/-! ### Prototypes as the table writes them -/

/-- A word of a type, with its asterisks. -/
structure TypeWord where
  name : Identifier
  stars : Nat

def TypeWord.chars (w : TypeWord) : Str := w.name.chars ++ List.replicate w.stars '*'

/-- A type: words with blanks between. -/
structure TypeText where
  words : List TypeWord
  nonempty : words ≠ []

def TypeText.chars (t : TypeText) : Str := join ' ' (t.words.map TypeWord.chars)

structure Param where
  type : TypeText
  name : Identifier
  isArray : Bool

/-- Only behind a named parameter can there be others. -/
structure Prototype where
  ret : TypeText
  name : Identifier
  params : List Param
  variadic : Bool
  named : variadic → params ≠ []

/-- The name as it is declared. -/
def Param.declared (p : Param) : Str := p.name.chars ++ if p.isArray then ['[', ']'] else []

def Param.text (p : Param) : Str := p.type.chars ++ ' ' :: p.declared

namespace Prototype

def items (p : Prototype) : List Str :=
  p.params.map Param.text ++ if p.variadic then ["...".toList] else []

/-- A blank behind each comma. -/
def spaced : List Str → List Str
  | [] => [[]]
  | item :: items => item :: items.map (' ' :: ·)

def text (p : Prototype) : Str :=
  p.ret.chars ++ ' ' :: p.name.chars ++ '(' :: join ',' (spaced p.items) ++ [')']

/-- The names of the parameters. -/
def names (p : Prototype) : List Str := p.params.map fun q => q.name.chars

/-- The words of the types. -/
def typeWords (p : Prototype) : List TypeWord :=
  p.ret.words ++ p.params.flatMap fun q => q.type.words

/-- In the directory of the script: no bracket or parenthesis in a name, and no file that a
word of a type matches. -/
structure Fits (p : Prototype) (files : List Str) : Prop where
  noParen : ∀ name ∈ files, '(' ∉ name
  noBracket : ∀ name ∈ files, '[' ∉ name
  types : ∀ w ∈ p.typeWords, Unmatched files w.chars

instance (p : Prototype) (files : List Str) : Decidable (p.Fits files) :=
  decidable_of_iff ((∀ name ∈ files, '(' ∉ name) ∧ (∀ name ∈ files, '[' ∉ name) ∧
      ∀ w ∈ p.typeWords, Unmatched files w.chars)
    ⟨fun h => ⟨h.1, h.2.1, h.2.2⟩, fun h => ⟨h.noParen, h.noBracket, h.types⟩⟩

end Prototype

/-! ### What the text is made of -/

theorem TypeWord.plain (w : TypeWord) : ∀ c ∈ w.chars, c.isAlphanum ∨ c = '_' ∨ c = '*' := by
  intro c mem
  rcases List.mem_append.mp mem with name | star
  · exact (w.name.word c name).imp_right .inl
  · exact .inr (.inr (List.eq_of_mem_replicate star))

theorem TypeText.notMem (t : TypeText) {c : Char}
    (h : ¬ (c.isAlphanum ∨ c = '_' ∨ c = '*' ∨ c = ' ')) : c ∉ t.chars := by
  have blank : c ≠ ' ' := fun same => h (.inr (.inr (.inr same)))
  rw [chars, notMem_join_iff blank]
  intro word mem inside
  obtain ⟨w, -, rfl⟩ := List.mem_map.mp mem
  rcases w.plain c inside with letter | other | star
  · exact h (.inl letter)
  · exact h (.inr (.inl other))
  · exact h (.inr (.inr (.inl star)))

theorem Param.declared_notMem (p : Param) {c : Char} (word : ¬ (c.isAlphanum ∨ c = '_'))
    (other : c ≠ '[' ∧ c ≠ ']') : c ∉ p.declared := by
  have brackets : c ∉ if p.isArray then ['[', ']'] else [] := by
    split
    · simp [other]
    · simp
  rw [Param.declared, List.mem_append]
  exact not_or.mpr ⟨p.name.notMem word, brackets⟩

namespace Prototype

end Prototype

/-! ### What the shell leaves as it is -/

section

variable {files : List Str}

/-- What may stand in front of a parameter without a blank between. -/
def Opening (opening : Str) : Prop := opening = [] ∨ '(' ∈ opening ∧ ' ' ∉ opening

theorem TypeText.untouched (t : TypeText) (noParen : ∀ name ∈ files, '(' ∉ name)
    (types : ∀ w ∈ t.words, Unmatched files w.chars) {opening : Str} (opens : Opening opening) :
    Untouched files (opening ++ t.chars) := by
  have word : ∀ w : TypeWord, ' ' ∉ w.chars ∧ w.chars ≠ [] := by
    intro w
    refine ⟨fun mem => ?_, by simp [TypeWord.chars, w.name.nonempty]⟩
    exact absurd (w.plain ' ' mem) (by decide)
  have front : ∀ w ∈ t.words, Untouched files (opening ++ w.chars) := by
    intro w mem
    obtain ⟨noBlank, nonempty⟩ := word w
    rcases opens with rfl | ⟨paren, whole⟩
    · exact untouched_word noBlank nonempty (types w mem)
    · refine untouched_word (by simp [noBlank, whole]) (by simp [nonempty]) ?_
      exact unmatched_of_mem (by decide) (List.mem_append_left _ paren) noParen
  obtain ⟨w, ws, words⟩ := List.exists_cons_of_ne_nil t.nonempty
  rw [words] at types front
  obtain ⟨-, later⟩ := List.forall_mem_cons.mp types
  have rest : ∀ vs : List TypeWord, vs ≠ [] → (∀ v ∈ vs, Unmatched files v.chars) →
      Untouched files (join ' ' (vs.map TypeWord.chars)) := by
    intro vs nonempty unmatched w' mem
    rw [splitOn_join ' ' (by simpa using nonempty), columns_of_notMem] at mem
    · obtain ⟨v, hv, rfl⟩ := List.mem_map.mp mem
      exact ⟨(word v).2, unmatched v hv⟩
    · intro x hx
      obtain ⟨v, -, rfl⟩ := List.mem_map.mp hx
      exact (word v).1
  rw [chars, words, List.map_cons]
  cases ws with
  | nil =>
      rw [List.map_nil, join_singleton]
      exact front w List.mem_cons_self
  | cons v ws =>
      rw [List.map_cons, join_cons_cons, ← List.append_assoc, ← List.map_cons]
      exact (front w List.mem_cons_self).append (rest (v :: ws) (by simp) later)

theorem special_of_word {c : Char} (word : c.isAlphanum ∨ c = '_' ∨ c = '.') :
    special c = false := by
  have apart : ∀ c ∈ ['*', '?', '['], ¬ (c.isAlphanum ∨ c = '_' ∨ c = '.') :=
    forall_mem_of_all (by decide)
  rw [← Bool.not_eq_true]
  intro special_
  refine apart c ?_ word
  simpa [special, or_assoc] using special_

/-- A word without a pattern, with what may stand behind it. -/
theorem unmatched_closed {w closing : Str} (word : ∀ c ∈ w, c.isAlphanum ∨ c = '_' ∨ c = '.')
    (closes : closing ⊆ [',', ')', ';']) : Unmatched files (w ++ closing) := by
  refine unmatched_of_plain (fun c mem => ?_) files
  rcases List.mem_append.mp mem with inside | behind
  · exact special_of_word (word c inside)
  · have plain : ∀ c ∈ [',', ')', ';'], special c = false := forall_mem_of_all (by decide)
    exact plain c (closes behind)

theorem closing_noBlank {closing : Str} (closes : closing ⊆ [',', ')', ';']) : ' ' ∉ closing :=
  fun mem => absurd (closes mem) (by decide)

theorem Param.untouched (q : Param) (noParen : ∀ name ∈ files, '(' ∉ name)
    (noBracket : ∀ name ∈ files, '[' ∉ name) (types : ∀ w ∈ q.type.words, Unmatched files w.chars)
    {opening closing : Str} (opens : Opening opening) (closes : closing ⊆ [',', ')', ';']) :
    Untouched files (opening ++ q.text ++ closing) := by
  have shape : opening ++ q.text ++ closing =
      (opening ++ q.type.chars) ++ ' ' :: (q.declared ++ closing) := by simp [Param.text]
  rw [shape]
  refine (q.type.untouched noParen types opens).append ?_
  refine untouched_word ?_ (by simp [Param.declared, q.name.nonempty]) ?_
  · simp [q.declared_notMem (c := ' ') (by decide) (by decide), closing_noBlank closes]
  · rw [Param.declared]
    split
    · exact unmatched_of_mem (by decide) (by simp) noBracket
    · rw [List.append_nil]
      exact unmatched_closed (fun c mem => (q.name.word c mem).imp_right .inl) closes

theorem dots_untouched (noParen : ∀ name ∈ files, '(' ∉ name) {opening closing : Str}
    (opens : Opening opening) (closes : closing ⊆ [',', ')', ';']) :
    Untouched files (opening ++ "...".toList ++ closing) := by
  have noBlank := closing_noBlank closes
  rcases opens with rfl | ⟨paren, whole⟩
  · refine untouched_word ?_ (by simp) (unmatched_closed (forall_mem_of_all (by decide)) closes)
    rw [List.nil_append, List.mem_append]
    exact not_or.mpr ⟨by decide, noBlank⟩
  · refine untouched_word ?_ (by simp) ?_
    · simp only [List.mem_append, not_or]
      exact ⟨⟨whole, by decide⟩, noBlank⟩
    · exact unmatched_of_mem (by decide) (by simp [paren]) noParen

variable {p : Prototype}

theorem Prototype.Fits.item (fits : p.Fits files) {item : Str} (mem : item ∈ p.items)
    {opening closing : Str} (opens : Opening opening) (closes : closing ⊆ [',', ')', ';']) :
    Untouched files (opening ++ item ++ closing) := by
  rcases List.mem_append.mp mem with param | rest
  · obtain ⟨q, hq, rfl⟩ := List.mem_map.mp param
    refine q.untouched fits.noParen fits.noBracket (fun w hw => fits.types w ?_) opens closes
    exact List.mem_append_right _ (List.mem_flatMap.mpr ⟨q, hq, hw⟩)
  · split at rest
    · rw [List.mem_singleton.mp rest]
      exact dots_untouched fits.noParen opens closes
    · cases rest

end

/-! ### Name and type -/

section

variable {files : List Str} {row : Row} {p : Prototype} (text : row.prototype.toList = p.text)
  (fits : p.Fits files)

include text fits

omit fits

end

/-! ### The arguments -/

section

variable {files : List Str} (row : Row)

end

/-- The lines of the parameters: the parenthesis is on the last one. -/
def closeLast : List Str → List Str
  | [] => [[')']]
  | [line] => [line ++ [')']]
  | line :: line' :: lines => line :: closeLast (line' :: lines)

/-- What the wrapper passes on. -/
def Row.passed (row : Row) (files : List Str) (p : Prototype) : List Str :=
  p.names ++ if p.variadic then [row.restArgument files] else []

section

variable {files : List Str} (row : Row)

variable (files)

end

section

variable {files : List Str} {row : Row} {p : Prototype} (text : row.prototype.toList = p.text)
  (fits : p.Fits files)
include text fits

end

/-! ### The variadic arguments -/

/-- What stands before the last blank. -/
def beforeLastField (s : Str) : Str := s.take (s.length - (lastField ' ' s).length - 1)

def wordOf (s : Str) : Option Identifier :=
  if h : s ≠ [] ∧ s.all fun c => decide (c.isAlphanum ∨ c = '_') then
    some ⟨s, h.1, forall_mem_of_all h.2⟩
  else none

def TypeWord.ofChars (s : Str) : Option TypeWord := do
  let name ← wordOf (s.takeWhile (· ≠ '*'))
  some ⟨name, s.length - name.chars.length⟩

def TypeText.ofChars (s : Str) : Option TypeText := do
  let words ← (s.splitOn ' ').mapM TypeWord.ofChars
  if h : words ≠ [] then some ⟨words, h⟩ else none

def Param.ofChars (s : Str) : Option Param := do
  let type ← TypeText.ofChars (beforeLastField s)
  let name ← wordOf ((lastField ' ' s).takeWhile (· ≠ '['))
  some ⟨type, name, '[' ∈ lastField ' ' s⟩

/-- Takes a prototype apart; that it is the one written is checked afterwards. -/
def Prototype.ofChars (s : Str) : Option Prototype := do
  let front := s.takeWhile (· ≠ '(')
  let ret ← TypeText.ofChars (beforeLastField front)
  let name ← wordOf (lastField ' ' front)
  let items := ((behindFirst '(' s).dropLast.splitOn ',').map stripped
  let variadic := ['.', '.', '.'] ∈ items
  let params ← (items.filter fun item => item ≠ ['.', '.', '.'] ∧ item ≠ []).mapM Param.ofChars
  if h : variadic → params ≠ [] then
    some ⟨ret, name, params, variadic, fun v => h (of_decide_eq_true v)⟩
  else none

/-- The directory of the script, with the files it makes and the library that is built. -/
def scriptDirectory : List Str :=
  ["assign_functions.h", "check_for_http.cpp", "generate_interposer.sh", "intercept_functions.h",
    "io_function_orig_handlers.h", "io_function_types.h", "io_monitor.c", "io_monitor.h",
    "io_monitor.so", "monitored_functions.data"].map String.toList

/-- What these names begin with. -/
def nameFronts : List Str :=
  [['a', 's', 's'], ['c', 'h', 'e'], ['g', 'e', 'n'], ['i', 'n', 't'], ['i', 'o', '_'],
    ['m', 'o', 'n']]

theorem scriptDirectory_fronts : ∀ name ∈ scriptDirectory, name.take 3 ∈ nameFronts := by
  decide +kernel

/-- A word without asterisks, or one that begins as none of the files does. -/
def TypeWord.Apart (w : TypeWord) : Prop :=
  w.stars = 0 ∨ ∀ front ∈ nameFronts, ¬ w.name.chars.take 3 <+: front

instance (w : TypeWord) : Decidable w.Apart := inferInstanceAs (Decidable (_ ∨ _))

theorem TypeWord.Apart.unmatched {w : TypeWord} (h : w.Apart) :
    Unmatched scriptDirectory w.chars := by
  have plain : ∀ c ∈ w.name.chars, special c = false :=
    fun c mem => special_of_word ((w.name.word c mem).imp_right .inl)
  rcases h with bare | apart
  · rw [TypeWord.chars, bare, List.replicate_zero, List.append_nil]
    exact unmatched_of_plain plain _
  · refine unmatched_of_front plain fun name mem begins => ?_
    exact apart _ (scriptDirectory_fronts name mem) (begins.take 3)

theorem scriptDirectory_plain :
    (∀ name ∈ scriptDirectory, '(' ∉ name) ∧ ∀ name ∈ scriptDirectory, '[' ∉ name := by
  decide +kernel

/-- The text is that of a prototype, whose parameters have names of their own, and whose types
match no file. -/
def Prototype.Writes (p : Prototype) (s : Str) : Prop :=
  s = p.text ∧ (∀ w ∈ p.typeWords, w.Apart) ∧ p.names.Nodup ∧
    (p.variadic → ∀ rest ∈ [['m', 'o', 'd', 'e'], ['a', 'r', 'g', 's']], rest ∉ p.names)

instance (p : Prototype) (s : Str) : Decidable (p.Writes s) := by
  unfold Prototype.Writes
  infer_instance

/-- What the call of the original function relies on. -/
def Row.Written (row : Row) : Prop :=
  ∃ p : Prototype, row.prototype.toList = p.text ∧ p.Fits scriptDirectory ∧ p.names.Nodup ∧
    (p.variadic → row.restArgument scriptDirectory ∉ p.names)

theorem written_of_read {row : Row} {s : Str} (same : row.prototype = String.ofList s)
    (read : (Prototype.ofChars s).any fun p => p.Writes s) : row.Written := by
  cases taken : Prototype.ofChars s with
  | none =>
      rw [taken] at read
      cases read
  | some p =>
      rw [taken] at read
      obtain ⟨text, types, distinct, fresh⟩ := of_decide_eq_true (p := p.Writes s) read
      obtain ⟨noParen, noBracket⟩ := scriptDirectory_plain
      have fits : p.Fits scriptDirectory :=
        ⟨noParen, noBracket, fun w mem => (types w mem).unmatched⟩
      refine ⟨p, ?_, fits, distinct, fun variadic => fresh variadic _ ?_⟩
      · rw [same, String.toList_ofList, ← text]
      · unfold Row.restArgument
        split
        · exact List.mem_cons_self
        · exact List.mem_cons_of_mem _ List.mem_cons_self

/-- Every row of the table is written so. -/
theorem monitoredFunctions_written : ∀ row ∈ monitoredFunctions, row.Written := by
  simp only [monitoredFunctions, openRow, open64Row, fopenRow, fopen64Row, creatRow, creat64Row,
    fcloseRow, closeRow, openCloseRows, readRows, writeRow, writeRows, syncRows, xattrRows,
    fileSystemRows, dirMetadataRows, fileMetadataRows, connectRow, socketRow, socketRows, dirRows,
    execlRow, execlpRow, execleRow, execvRow, execvpRow, execvpeRow, processRows, miscRows,
    fileDescriptorRows, linkRows, threadRows, List.forall_mem_cons, List.cons_append,
    List.nil_append]
  and_intros
  all_goals first
    | exact written_of_read rfl (by decide +kernel)
    | exact List.forall_mem_nil _

/-! The row of `open`. -/

/-- A pointer to `int` is the pattern of a file that the script makes. -/
example : echoWords scriptDirectory "f(int a, int* b)".toList =
    "f(int a, intercept_functions.h b)".toList := by decide +kernel

end IoMonitor
