import IoMonitor.Lib.CString

/-!
Rows of columns of fixed width, as `printf` prints them.

A field is padded to the width of its column and never cut. A row whose fields
keep to their columns is read back by the columns alone (`read_format`).
-/

namespace FixedWidth

open CString

/-- Where a field stands in its column. -/
inductive Side where
  | left | right
  deriving DecidableEq

/-- `%10s` or `%-10s`, and the blanks up to the next conversion. -/
structure Column where
  width : Nat
  side : Side
  gap : Nat
  deriving DecidableEq

def blanks (n : Nat) : Str := List.replicate n ' '

def Column.pad (c : Column) (s : Str) : Str :=
  match c.side with
  | .right => blanks (c.width - s.length) ++ s
  | .left => s ++ blanks (c.width - s.length)

/-- The columns one after the other, and a text that takes the rest of the line. -/
def format : List (Column × Str) → Str → Str
  | [], rest => rest
  | (c, s) :: cells, rest => c.pad s ++ (blanks c.gap ++ format cells rest)

def Column.trim (c : Column) (s : Str) : Str :=
  match c.side with
  | .right => s.dropWhile (· = ' ')
  | .left => (s.reverse.dropWhile (· = ' ')).reverse

/-- What stands in the columns of a line, and behind them. -/
def read : List Column → Str → List Str × Str
  | [], line => ([], line)
  | c :: columns, line =>
      let (fields, rest) := read columns (line.drop (c.width + c.gap))
      (c.trim (line.take c.width) :: fields, rest)

/-- The field keeps to the column, and has no blank where the padding goes. -/
structure Column.Holds (c : Column) (s : Str) : Prop where
  fits : s.length ≤ c.width
  right : c.side = .right → ' ' ∉ s.head?
  left : c.side = .left → ' ' ∉ s.getLast?

theorem dropWhile_blanks (n : Nat) {s : Str} (h : ' ' ∉ s.head?) :
    (blanks n ++ s).dropWhile (· = ' ') = s := by
  induction n with
  | zero =>
      cases s with
      | nil => rfl
      | cons c s =>
          have other : c ≠ ' ' := by simpa using h
          exact List.dropWhile_cons_of_neg (by simpa using other)
  | succ n ih =>
      rw [blanks, List.replicate_succ, List.cons_append, List.dropWhile_cons_of_pos (by simp)]
      exact ih

theorem Column.length_pad {c : Column} {s : Str} (fits : s.length ≤ c.width) :
    (c.pad s).length = c.width := by
  unfold Column.pad
  split
  · rw [List.length_append, blanks, List.length_replicate]
    omega
  · rw [List.length_append, blanks, List.length_replicate]
    omega

theorem Column.trim_pad {c : Column} {s : Str} (h : c.Holds s) : c.trim (c.pad s) = s := by
  unfold Column.trim Column.pad
  cases side : c.side with
  | right => exact dropWhile_blanks _ (h.right side)
  | left =>
      have turned : ' ' ∉ s.reverse.head? := by
        rw [List.head?_reverse]
        exact h.left side
      dsimp only
      rw [List.reverse_append, blanks, List.reverse_replicate]
      rw [← blanks, dropWhile_blanks _ turned, List.reverse_reverse]

/-- A row is read back. -/
theorem read_format {cells : List (Column × Str)} (h : ∀ cell ∈ cells, cell.1.Holds cell.2)
    (rest : Str) :
    read (cells.map Prod.fst) (format cells rest) = (cells.map Prod.snd, rest) := by
  induction cells with
  | nil => rfl
  | cons cell cells ih =>
      obtain ⟨c, s⟩ := cell
      obtain ⟨head, tail⟩ := List.forall_mem_cons.mp h
      have padded : (c.pad s).length = c.width := Column.length_pad head.fits
      have behind : (c.pad s ++ (blanks c.gap ++ format cells rest)).drop (c.width + c.gap) =
          format cells rest := by
        have gap : (blanks c.gap).length = c.gap := List.length_replicate
        rw [← padded, List.drop_append, List.drop_of_length_le (Nat.le_add_right _ _),
          Nat.add_sub_cancel_left, List.nil_append, List.drop_left' gap]
      rw [List.map_cons, List.map_cons, format, read, behind, ih tail]
      dsimp only
      rw [List.take_left' padded, Column.trim_pad head]

theorem mem_format {cells : List (Column × Str)} {rest : Str} {x : Char} (hx : x ≠ ' ')
    (mem : x ∈ format cells rest) : (∃ cell ∈ cells, x ∈ cell.2) ∨ x ∈ rest := by
  have blank : ∀ n, x ∉ blanks n := by
    intro n within
    exact hx (List.eq_of_mem_replicate within)
  induction cells with
  | nil => exact .inr mem
  | cons cell cells ih =>
      obtain ⟨c, s⟩ := cell
      rw [format, List.mem_append, List.mem_append] at mem
      rcases mem with mem | mem | mem
      · left
        refine ⟨(c, s), List.mem_cons_self, ?_⟩
        unfold Column.pad at mem
        split at mem
        · exact (List.mem_append.mp mem).resolve_left (blank _)
        · exact (List.mem_append.mp mem).resolve_right (blank _)
      · exact absurd mem (blank _)
      · rcases ih mem with ⟨cell, within, found⟩ | found
        · exact .inl ⟨cell, List.mem_cons_of_mem _ within, found⟩
        · exact .inr found

end FixedWidth
