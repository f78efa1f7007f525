import IoMonitor.Lib.Columns
import IoMonitor.Lib.CString

/-!
Text filters that work line by line.

A text that `unlines` builds has the lines it is built of (`lines_unlines`). On such a
text a filter is what it does to each line (`grep_unlines`, `cut_unlines`,
`trDelete_unlines`).
-/

namespace LineFilter

open CString

/-- The lines of a text, without their newlines. `line` is what is read of the first one. -/
def lines : Str → Str → List Str
  | line, [] => if line = [] then [] else [line]
  | line, c :: s => if c = '\n' then line :: lines [] s else lines (line ++ [c]) s

/-- Each line with a newline behind it. -/
def unlines (ls : List Str) : Str := ls.flatMap (· ++ ['\n'])

/-- `grep`: the lines that are `selected`. -/
def grep (selected : Str → Bool) (s : Str) : Str := unlines ((lines [] s).filter selected)

/-- `cut -d d -f 1`. A line without `d` is passed whole. -/
def cut (d : Char) (s : Str) : Str := unlines ((lines [] s).map (·.takeWhile (· ≠ d)))

/-- `cut -d d -f i,j,..`, with the columns counted from 1. -/
def cutColumns (d : Char) (wanted : List Nat) (s : Str) : Str :=
  unlines ((lines [] s).map fun l =>
    if d ∈ l then Columns.join d (wanted.filterMap fun i => (l.splitOn d)[i - 1]?) else l)

/-- `rev | cut -d d -f 1 | rev`, on one line. -/
def lastField (d : Char) (l : Str) : Str := (l.reverse.takeWhile (· ≠ d)).reverse

/-- `cut -d d -f 2-`, on one line. -/
def behindFirst (d : Char) (l : Str) : Str := if d ∈ l then (l.dropWhile (· ≠ d)).tail else l

/-- What `read` leaves of a line. -/
def stripped (l : Str) : Str := ((l.dropWhile (· = ' ')).reverse.dropWhile (· = ' ')).reverse

/-- `tr -d c`. -/
def trDelete (c : Char) (s : Str) : Str := s.filter (· ≠ c)

def OneLine (ls : List Str) : Prop := ∀ l ∈ ls, '\n' ∉ l

theorem OneLine.filter {ls : List Str} (h : OneLine ls) (p : Str → Bool) :
    OneLine (ls.filter p) :=
  fun l mem => h l (List.mem_of_mem_filter mem)

/-- A function that only drops characters keeps each line a line. -/
theorem OneLine.map {ls : List Str} (h : OneLine ls) {f : Str → Str}
    (drops : ∀ l c, c ∈ f l → c ∈ l) : OneLine (ls.map f) := by
  intro l mem newline
  obtain ⟨source, sourceMem, rfl⟩ := List.mem_map.mp mem
  exact h source sourceMem (drops source _ newline)

@[simp] theorem unlines_nil : unlines [] = [] := rfl

@[simp] theorem unlines_cons (l : Str) (ls : List Str) :
    unlines (l :: ls) = l ++ '\n' :: unlines ls := by
  rw [unlines, List.flatMap_cons, List.append_assoc]
  rfl

theorem lines_line {l : Str} (h : '\n' ∉ l) (line s : Str) :
    lines line (l ++ '\n' :: s) = (line ++ l) :: lines [] s := by
  induction l generalizing line with
  | nil => rw [List.nil_append, lines, if_pos rfl, List.append_nil]
  | cons c l ih =>
      obtain ⟨text, rest⟩ := not_or.mp (mt List.mem_cons.mpr h)
      rw [List.cons_append, lines, if_neg (Ne.symm text), ih rest, List.append_assoc]
      rfl

theorem lines_unlines {ls : List Str} (h : OneLine ls) : lines [] (unlines ls) = ls := by
  induction ls with
  | nil => rfl
  | cons l ls ih =>
      obtain ⟨first, rest⟩ := List.forall_mem_cons.mp h
      rw [unlines_cons, lines_line first, ih rest, List.nil_append]

theorem unlines_inj {ls ls' : List Str} (h : OneLine ls) (h' : OneLine ls')
    (same : unlines ls = unlines ls') : ls = ls' := by
  rw [← lines_unlines h, same, lines_unlines h']

theorem grep_unlines {ls : List Str} (h : OneLine ls) (selected : Str → Bool) :
    grep selected (unlines ls) = unlines (ls.filter selected) := by
  rw [grep, lines_unlines h]

theorem cut_unlines {ls : List Str} (h : OneLine ls) (d : Char) :
    cut d (unlines ls) = unlines (ls.map (·.takeWhile (· ≠ d))) := by
  rw [cut, lines_unlines h]

theorem cutColumns_unlines {ls : List Str} (h : OneLine ls) (d : Char) (wanted : List Nat) :
    cutColumns d wanted (unlines ls) = unlines (ls.map fun l =>
      if d ∈ l then Columns.join d (wanted.filterMap fun i => (l.splitOn d)[i - 1]?) else l) := by
  rw [cutColumns, lines_unlines h]

theorem unlines_append (ls ls' : List Str) : unlines (ls ++ ls') = unlines ls ++ unlines ls' :=
  List.flatMap_append

theorem trDelete_unlines {c : Char} (kept : c ≠ '\n') (ls : List Str) :
    trDelete c (unlines ls) = unlines (ls.map (trDelete c)) := by
  induction ls with
  | nil => rfl
  | cons l ls ih =>
      rw [List.map_cons, unlines_cons, unlines_cons, ← ih]
      simp [trDelete, Ne.symm kept]

/-! ### Filters of one line -/

end LineFilter
