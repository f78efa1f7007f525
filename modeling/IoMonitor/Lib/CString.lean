import Mathlib.Data.List.Infix
import Mathlib.Data.List.TakeWhile

/-!
C strings and fixed `char` arrays.

A `Str` is a C string read as its bytes before the NUL. A `CharArray n` is a
`char[n]` that is only written as a whole (`bzero`, `memset`, `strncpy` over
its full size): its bytes are `chars` and then NULs, so the array is a
NUL-terminated string iff `chars` leaves room for one byte (`Terminated`).
-/

namespace CString

abbrev Str := List Char

def nul : Char := Char.ofNat 0

structure CharArray (n : Nat) where
  chars : Str
  fits : chars.length ≤ n
  noNul : nul ∉ chars
  deriving DecidableEq

/-- A test of each character, to be decided on a given string. -/
theorem forall_mem_of_all {P : Char → Prop} [DecidablePred P] {s : Str}
    (all : s.all fun c => decide (P c)) : ∀ c ∈ s, P c :=
  fun c mem => of_decide_eq_true (List.all_eq_true.mp all c mem)

namespace CharArray

variable {n : Nat}

@[ext] theorem ext {a b : CharArray n} (h : a.chars = b.chars) : a = b := by
  cases a
  cases b
  cases h
  rfl

/-- The bytes of the array. -/
def bytes (a : CharArray n) : Str := a.chars ++ List.replicate (n - a.chars.length) nul

theorem bytes_length (a : CharArray n) : a.bytes.length = n := by
  simp [bytes, Nat.add_sub_cancel' a.fits]

/-- All bytes NUL. -/
def zero (n : Nat) : CharArray n := ⟨[], Nat.zero_le n, by simp⟩

/-- Some byte of the array is NUL. -/
def Terminated (a : CharArray n) : Prop := a.chars.length < n

instance (a : CharArray n) : Decidable a.Terminated := by
  unfold Terminated; infer_instance

/-- Write NUL to the last byte. -/
def closeLast (a : CharArray n) : CharArray n :=
  ⟨a.chars.take (n - 1), (List.length_take_le _ _).trans (Nat.sub_le n 1),
    fun h => a.noNul (List.mem_of_mem_take h)⟩

theorem closeLast_terminated (hn : 0 < n) (a : CharArray n) : a.closeLast.Terminated := by
  unfold Terminated closeLast
  simp
  omega

end CharArray

/-- `strncpy(dst, src, n)` over a whole `char[n]`: at most `n` bytes are copied
and the rest of the array is filled with NULs. -/
def strncpy (n : Nat) (src : Str) : CharArray n where
  chars := (src.takeWhile (· ≠ nul)).take n
  fits := List.length_take_le _ _
  noNul h := by
    have := List.mem_takeWhile_imp (List.mem_of_mem_take h)
    simp at this

theorem takeWhile_eq_self {src : Str} (h : nul ∉ src) : src.takeWhile (· ≠ nul) = src := by
  rw [List.takeWhile_eq_self_iff]
  intro c hc
  simpa using fun eq : c = nul => h (eq ▸ hc)

theorem strncpy_chars {n : Nat} {src : Str} (h : nul ∉ src) :
    (strncpy n src).chars = src.take n := by
  simp only [strncpy, takeWhile_eq_self h]

/-- A string that leaves room for its NUL is copied whole, last byte closed or not. -/
theorem strncpy_closeLast_chars {n : Nat} {src : Str} (h : nul ∉ src) (short : src.length < n) :
    (strncpy n src).closeLast.chars = src := by
  simp only [CharArray.closeLast, strncpy_chars h, List.take_take]
  exact List.take_of_length_le (by omega)

/-- The bytes up to the first NUL. -/
def cstr (src : Str) : Str := src.takeWhile (· ≠ nul)

theorem cstr_of_noNul {src : Str} (h : nul ∉ src) : cstr src = src := takeWhile_eq_self h

/-- A string read from the start of an array ends in it, or runs on into what follows. -/
theorem cstr_bytes_append {n : Nat} (a : CharArray n) (behind : Str) :
    cstr (a.bytes ++ behind) = if a.Terminated then a.chars else a.chars ++ cstr behind := by
  have clean : a.chars.takeWhile (· ≠ nul) = a.chars := takeWhile_eq_self a.noNul
  rw [CharArray.bytes, List.append_assoc, cstr, List.takeWhile_append, clean, if_pos rfl]
  split
  · rename_i terminated
    obtain ⟨k, room⟩ := Nat.exists_eq_add_of_lt terminated
    rw [show n - a.chars.length = k + 1 by omega, List.replicate_succ]
    simp
  · rename_i full
    rw [Nat.sub_eq_zero_of_le (Nat.le_of_not_lt full)]
    rfl

theorem strncpy_chars_cstr (n : Nat) (src : Str) : (strncpy n src).chars = (cstr src).take n := rfl

theorem strncpy_nil (n : Nat) : strncpy n [] = .zero n :=
  CharArray.ext (by simp [strncpy, CharArray.zero])

/-- The array holds a terminated copy of the source, as much of it as fits. -/
structure CharArray.CopyOf {n : Nat} (a : CharArray n) (src : Str) : Prop where
  terminated : a.Terminated
  string : a.chars = (cstr src).take (n - 1)

theorem closeLast_copyOf {n : Nat} (positive : 0 < n) (src : Str) :
    (strncpy n src).closeLast.CopyOf src where
  terminated := CharArray.closeLast_terminated positive _
  string := by
    simp only [CharArray.closeLast, strncpy_chars_cstr, List.take_take]
    rw [Nat.min_eq_left (Nat.sub_le n 1)]

/-- A bare `strncpy` terminates the strings that are short enough. -/
theorem strncpy_copyOf_iff {n : Nat} (src : Str) :
    (strncpy n src).CopyOf src ↔ (cstr src).length < n := by
  constructor
  · rintro ⟨terminated, -⟩
    rw [CharArray.Terminated, strncpy_chars_cstr, List.length_take] at terminated
    omega
  · intro short
    constructor
    · rw [CharArray.Terminated, strncpy_chars_cstr, List.length_take]
      omega
    · rw [strncpy_chars_cstr, List.take_of_length_le (by omega), List.take_of_length_le (by omega)]

theorem zero_copyOf {n : Nat} (positive : 0 < n) : (CharArray.zero n).CopyOf [] where
  terminated := positive
  string := by simp [CharArray.zero, cstr]

/-- `strstr(s, pattern) != NULL`. -/
def strstr (pattern : Str) : Str → Bool
  | [] => pattern.isEmpty
  | c :: rest => pattern.isPrefixOf (c :: rest) || strstr pattern rest

theorem strstr_iff {pattern : Str} : ∀ {s : Str}, strstr pattern s = true ↔ pattern <:+: s
  | [] => by simp [strstr]
  | c :: rest => by
      simp only [strstr, Bool.or_eq_true, List.isPrefixOf_iff_prefix, List.infix_cons_iff,
        strstr_iff (s := rest)]

/-- `strchr(s, c)`: the string from the first `c` on. -/
def strchr (s : Str) (c : Char) : Option Str :=
  match s.dropWhile (· ≠ c) with
  | [] => none
  | found => some found

theorem strchr_append {s t : Str} {c : Char} (h : c ∉ s) :
    strchr (s ++ c :: t) c = some (c :: t) := by
  have skipped : (s ++ c :: t).dropWhile (· ≠ c) = c :: t := by
    rw [List.dropWhile_append_of_pos]
    · simp
    · intro d hd
      simpa using fun eq : d = c => h (eq ▸ hd)
  rw [strchr, skipped]

theorem strchr_some {s t : Str} {c : Char} (h : strchr s c = some t) :
    t <:+ s ∧ ∃ rest, t = c :: rest := by
  unfold strchr at h
  split at h
  · cases h
  · rename_i found
    cases h
    refine ⟨List.dropWhile_suffix _, ?_⟩
    obtain ⟨d, rest, eq⟩ := List.exists_cons_of_ne_nil found
    have stops := List.head_dropWhile_not (· ≠ c) found
    simp only [eq, List.head_cons, decide_eq_false_iff_not, not_not] at stops
    exact ⟨rest, stops ▸ eq⟩

/-- What `strtok_r(rest, delim, &rest)` returns until it returns `NULL`: the
non-empty pieces between delimiters. `token` is the piece being read. -/
def strtok (delim : List Char) : Str → Str → List Str
  | token, [] => if token = [] then [] else [token]
  | token, c :: s =>
      if c ∈ delim then
        if token = [] then strtok delim [] s else token :: strtok delim [] s
      else strtok delim (token ++ [c]) s

theorem strtok_word {delim : List Char} {w : Str} (h : ∀ c ∈ w, c ∉ delim) (token s : Str) :
    strtok delim token (w ++ s) = strtok delim (token ++ w) s := by
  induction w generalizing token with
  | nil => rw [List.nil_append, List.append_nil]
  | cons c w ih =>
      obtain ⟨first, rest⟩ := List.forall_mem_cons.mp h
      rw [List.cons_append, strtok, if_neg first, ih rest, List.append_assoc]
      rfl

theorem strtok_delim {delim : List Char} {token : Str} (nonempty : token ≠ []) {c : Char}
    (h : c ∈ delim) (s : Str) : strtok delim token (c :: s) = token :: strtok delim [] s := by
  rw [strtok, if_pos h, if_neg nonempty]

/-- With one delimiter, the tokens are the non-empty pieces between its occurrences. -/
theorem strtok_eq_splitOn (d : Char) (token s : Str) :
    strtok [d] token s = ((s.splitOn d).modifyHead (token ++ ·)).filter (· ≠ []) := by
  induction s generalizing token with
  | nil =>
      rw [strtok, List.splitOn_nil]
      by_cases empty : token = [] <;> simp [empty]
  | cons c s ih =>
      rw [strtok, List.splitOn_cons_eq_if_modifyHead]
      by_cases delim : c = d
      · have fresh : strtok [d] [] s = (s.splitOn d).filter (· ≠ []) := by
          rw [ih]
          cases s.splitOn d <;> rfl
        by_cases empty : token = [] <;> simp [delim, empty, fresh]
      · simp only [List.mem_singleton, delim, if_false, beq_iff_eq, ih]
        cases s.splitOn d <;> simp

/-- The tokens are the string without its delimiters. -/
theorem strtok_flatten (delim : List Char) (token s : Str) :
    (strtok delim token s).flatten = token ++ s.filter (· ∉ delim) := by
  induction s generalizing token with
  | nil =>
      rw [strtok]
      split
      · rename_i empty
        rw [empty]
        rfl
      · simp
  | cons c s ih =>
      rw [strtok]
      by_cases h : c ∈ delim
      · rw [if_pos h, List.filter_cons_of_neg (by simpa using h)]
        split
        · rename_i empty
          rw [ih, empty]
        · rw [List.flatten_cons, ih, List.nil_append]
      · rw [if_neg h, List.filter_cons_of_pos (by simpa using h), ih, List.append_assoc]
        rfl

theorem strtok_delims_append {delim : List Char} {w : Str} (h : ∀ c ∈ w, c ∈ delim) (s : Str) :
    strtok delim [] (w ++ s) = strtok delim [] s := by
  induction w with
  | nil => rfl
  | cons c w ih =>
      obtain ⟨first, rest⟩ := List.forall_mem_cons.mp h
      rw [List.cons_append, strtok, if_pos first, if_pos rfl, ih rest]

theorem strtok_append_delims {delim : List Char} {w : Str} (h : ∀ c ∈ w, c ∈ delim)
    (token s : Str) : strtok delim token (s ++ w) = strtok delim token s := by
  induction s generalizing token with
  | nil =>
      cases w with
      | nil => rfl
      | cons c w =>
          obtain ⟨first, rest⟩ := List.forall_mem_cons.mp h
          have none : strtok delim [] w = [] := by
            simpa [strtok] using strtok_delims_append rest []
          simp only [List.nil_append, strtok, if_pos first, none]
  | cons c s ih => rw [List.cons_append, strtok, strtok, ih, ih]

theorem strtok_eq_nil_iff {delim : List Char} {s : Str} :
    strtok delim [] s = [] ↔ ∀ c ∈ s, c ∈ delim := by
  constructor
  · intro none c mem
    have chars := strtok_flatten delim [] s
    rw [none] at chars
    by_contra other
    have kept : c ∈ s.filter (· ∉ delim) := List.mem_filter.mpr ⟨mem, by simpa using other⟩
    rw [← List.nil_append (s.filter _), ← chars] at kept
    cases kept
  · intro h
    simpa [strtok] using strtok_delims_append h []

/-- One call of `strtok_r(s, delim, &rest)`: the token and what `rest` points to
afterwards, or `NULL`. -/
def strtokCall (delim : List Char) (s : Str) : Option (Str × Str) :=
  let s := s.dropWhile (· ∈ delim)
  if s = [] then none
  else some (s.takeWhile (· ∉ delim), (s.dropWhile (· ∉ delim)).drop 1)

/-- Each call gives the first of the tokens, and leaves the others. -/
theorem strtok_of_call (delim : List Char) (s : Str) :
    strtok delim [] s = match strtokCall delim s with
      | none => []
      | some (token, rest) => token :: strtok delim [] rest := by
  have skipped : strtok delim [] s = strtok delim [] (s.dropWhile (· ∈ delim)) := by
    have delims : ∀ c ∈ s.takeWhile (· ∈ delim), c ∈ delim :=
      fun c mem => by simpa using List.mem_takeWhile_imp mem
    have passed := strtok_delims_append delims (s.dropWhile (· ∈ delim))
    rwa [List.takeWhile_append_dropWhile] at passed
  rw [skipped, strtokCall]
  by_cases empty : s.dropWhile (· ∈ delim) = []
  · rw [if_pos empty, empty]
    rfl
  · rw [if_neg empty]
    have first := List.head_dropWhile_not (· ∈ delim) empty
    generalize s.dropWhile (· ∈ delim) = text at empty first ⊢
    have word : ∀ c ∈ text.takeWhile (· ∉ delim), c ∉ delim :=
      fun c mem => by simpa using List.mem_takeWhile_imp mem
    have nonempty : text.takeWhile (· ∉ delim) ≠ [] := by
      obtain ⟨c, rest, rfl⟩ := List.exists_cons_of_ne_nil empty
      rw [List.head_cons] at first
      rw [List.takeWhile_cons_of_pos (by simpa using first)]
      exact List.cons_ne_nil _ _
    have split : strtok delim [] text =
        strtok delim (text.takeWhile (· ∉ delim)) (text.dropWhile (· ∉ delim)) := by
      have read := strtok_word word [] (text.dropWhile (· ∉ delim))
      rwa [List.takeWhile_append_dropWhile] at read
    rw [split]
    cases behind : text.dropWhile (· ∉ delim) with
    | nil =>
        rw [strtok, if_neg nonempty]
        rfl
    | cons d rest =>
        have more : text.dropWhile (· ∉ delim) ≠ [] := behind ▸ List.cons_ne_nil d rest
        have stops := List.head_dropWhile_not (· ∉ delim) more
        simp only [behind, List.head_cons, decide_eq_false_iff_not, not_not] at stops
        rw [strtok_delim nonempty stops]
        rfl

theorem strtokCall_length {delim : List Char} {s token rest : Str}
    (call : strtokCall delim s = some (token, rest)) : rest.length < s.length := by
  unfold strtokCall at call
  dsimp only at call
  split at call
  · cases call
  · rename_i some_
    cases call
    obtain ⟨c, text, eq⟩ := List.exists_cons_of_ne_nil some_
    have first := List.head_dropWhile_not (· ∈ delim) some_
    have short := (List.dropWhile_suffix (l := s) (· ∈ delim)).length_le
    simp only [eq, List.head_cons] at first
    rw [eq, List.length_cons] at short
    rw [eq, List.dropWhile_cons_of_pos (by simpa using first), List.length_drop]
    have behind := (List.dropWhile_suffix (l := text) (· ∉ delim)).length_le
    omega

/-- What `fgets(buf, n, f)` reads until it returns `NULL`: a line with its newline,
or as much of it as `n - 1` bytes hold. `line` is what is read so far. -/
def fgets (n : Nat) : Str → Str → List Str
  | line, [] => if line = [] then [] else [line]
  | line, c :: s =>
      if c = '\n' ∨ line.length + 2 = n then (line ++ [c]) :: fgets n [] s
      else fgets n (line ++ [c]) s

theorem fgets_text {n : Nat} {w : Str} (h : '\n' ∉ w) (line s : Str)
    (short : line.length + w.length + 1 < n) :
    fgets n line (w ++ s) = fgets n (line ++ w) s := by
  induction w generalizing line with
  | nil => rw [List.nil_append, List.append_nil]
  | cons c w ih =>
      obtain ⟨first, rest⟩ := not_or.mp (List.mem_cons.not.mp h)
      rw [List.length_cons] at short
      have reads : ¬ (c = '\n' ∨ line.length + 2 = n) := by
        rintro (newline | full)
        · exact first newline.symm
        · omega
      have room : (line ++ [c]).length + w.length + 1 < n := by
        rw [List.length_append, List.length_singleton]
        omega
      rw [List.cons_append, fgets, if_neg reads, ih rest _ room, List.append_assoc]
      rfl

/-- A line that leaves room for its newline and the NUL is read whole. -/
theorem fgets_line {n : Nat} {w : Str} (h : '\n' ∉ w) (s : Str) (short : w.length + 1 < n) :
    fgets n [] (w ++ '\n' :: s) = (w ++ ['\n']) :: fgets n [] s := by
  rw [fgets_text h [] _ (by simpa using short), List.nil_append, fgets, if_pos (.inl rfl)]

/-- A longer line is cut where the buffer is full. -/
theorem fgets_full {n : Nat} {w : Str} (h : '\n' ∉ w) (nonempty : w ≠ []) (s : Str)
    (full : w.length + 1 = n) : fgets n [] (w ++ s) = w :: fgets n [] s := by
  obtain ⟨front, c, eq⟩ := (List.eq_nil_or_concat w).resolve_left nonempty
  rw [List.concat_eq_append] at eq
  subst eq
  rw [List.length_append, List.length_singleton] at full
  rw [List.append_assoc, fgets_text (fun mem => h (List.mem_append_left _ mem)) [] _
    (by rw [List.length_nil]; omega), List.nil_append, List.singleton_append, fgets,
    if_pos (.inr full)]

theorem fgets_lastLine {n : Nat} {w : Str} (h : '\n' ∉ w) (nonempty : w ≠ []) {ending : Str}
    (ends : ending = [] ∨ ending = ['\n']) (short : w.length + 1 < n) :
    fgets n [] (w ++ ending) = [w ++ ending] := by
  rcases ends with rfl | rfl
  · rw [fgets_text h [] [] (by simpa using short), List.nil_append, fgets, if_neg nonempty,
      List.append_nil]
  · rw [fgets_line h [] short]
    rfl

/-- Nothing is lost between the calls of `fgets`. -/
theorem fgets_flatten (n : Nat) (line s : Str) : (fgets n line s).flatten = line ++ s := by
  induction s generalizing line with
  | nil =>
      rw [fgets]
      split
      · rename_i empty
        rw [empty]
        rfl
      · simp
  | cons c s ih =>
      rw [fgets]
      split
      · rw [List.flatten_cons, ih, List.append_assoc]
        rfl
      · rw [ih, List.append_assoc]
        rfl

/-- The lines of a file, each with its newline. `line` is what is read so far. -/
def linesOf : Str → Str → List Str
  | line, [] => if line = [] then [] else [line]
  | line, c :: s =>
      if c = '\n' then (line ++ [c]) :: linesOf [] s else linesOf (line ++ [c]) s

theorem fgets_newline (n : Nat) (line w s : Str) :
    fgets n line (w ++ '\n' :: s) = fgets n line (w ++ ['\n']) ++ fgets n [] s := by
  induction w generalizing line with
  | nil => simp [fgets]
  | cons c w ih =>
      rw [List.cons_append, List.cons_append, fgets, fgets]
      split
      · rw [ih, List.cons_append]
      · exact ih _

/-- `fgets` reads line by line. -/
theorem fgets_linesOf (n : Nat) (line s : Str) :
    (linesOf line s).flatMap (fgets n []) = fgets n [] (line ++ s) := by
  induction s generalizing line with
  | nil =>
      rw [linesOf]
      split
      · rename_i empty
        rw [empty]
        rfl
      · simp
  | cons c s ih =>
      rw [linesOf]
      split
      · rename_i newline
        rw [newline, List.flatMap_cons, ih, List.nil_append, fgets_newline n [] line s]
      · rw [ih, List.append_assoc]
        rfl

/-- The line that is being read is as long as what is read of it. -/
theorem linesOf_longer (line : Str) (c : Char) (s : Str) :
    ∃ l ∈ linesOf line (c :: s), line.length + 1 ≤ l.length := by
  induction s generalizing line c with
  | nil =>
      refine ⟨line ++ [c], ?_, by rw [List.length_append, List.length_singleton]⟩
      rw [linesOf]
      split
      · exact List.mem_cons_self
      · simp [linesOf]
  | cons d s ih =>
      rw [linesOf]
      split
      · exact ⟨line ++ [c], List.mem_cons_self, by rw [List.length_append, List.length_singleton]⟩
      · obtain ⟨l, mem, longer⟩ := ih (line ++ [c]) d
        rw [List.length_append, List.length_singleton] at longer
        exact ⟨l, mem, by omega⟩

/-- Lines that fit are read one by one. -/
theorem fgets_eq_linesOf {n : Nat} {line s : Str} (fit : ∀ l ∈ linesOf line s, l.length < n) :
    fgets n line s = linesOf line s := by
  induction s generalizing line with
  | nil => rfl
  | cons c s ih =>
      rw [linesOf] at fit
      rw [fgets, linesOf]
      by_cases newline : c = '\n'
      · rw [if_pos newline] at fit
        rw [if_pos (.inl newline), if_pos newline, ih fun l mem =>
          fit l (List.mem_cons_of_mem _ mem)]
      · rw [if_neg newline] at fit
        rw [if_neg newline]
        split
        · rename_i full
          have last := full.resolve_left newline
          cases s with
          | nil => simp [fgets, linesOf]
          | cons d s =>
              obtain ⟨l, mem, longer⟩ := linesOf_longer (line ++ [c]) d s
              have short := fit l mem
              rw [List.length_append, List.length_singleton] at longer
              omega
        · exact ih fit

/-- One call of `fgets`: the text it stores and what is left of the file, or nothing
at its end. -/
def fgetsCall (n : Nat) : Str → Str → Option (Str × Str)
  | line, [] => if line = [] then none else some (line, [])
  | line, c :: s =>
      if c = '\n' ∨ line.length + 2 = n then some (line ++ [c], s)
      else fgetsCall n (line ++ [c]) s

theorem fgets_of_call_none {n : Nat} {line s : Str} (call : fgetsCall n line s = none) :
    fgets n line s = [] := by
  induction s generalizing line with
  | nil =>
      rw [fgetsCall] at call
      rw [fgets]
      split at call
      · rename_i empty
        exact if_pos empty
      · cases call
  | cons c s ih =>
      rw [fgetsCall] at call
      rw [fgets]
      split at call
      · cases call
      · rename_i reads
        rw [if_neg reads]
        exact ih call

theorem fgets_of_call {n : Nat} {line s text rest : Str}
    (call : fgetsCall n line s = some (text, rest)) :
    fgets n line s = text :: fgets n [] rest := by
  induction s generalizing line with
  | nil =>
      rw [fgetsCall] at call
      rw [fgets]
      split at call
      · cases call
      · rename_i nonempty
        cases call
        rw [if_neg nonempty]
        rfl
  | cons c s ih =>
      rw [fgetsCall] at call
      rw [fgets]
      split at call
      · rename_i reads
        cases call
        rw [if_pos reads]
      · rename_i reads
        rw [if_neg reads]
        exact ih call

/-- The text leaves room for its NUL. -/
theorem fgetsCall_short {n : Nat} {line s text rest : Str} (room : line.length + 1 < n)
    (call : fgetsCall n line s = some (text, rest)) : text.length < n := by
  induction s generalizing line with
  | nil =>
      rw [fgetsCall] at call
      split at call
      · cases call
      · cases call
        omega
  | cons c s ih =>
      rw [fgetsCall] at call
      split at call
      · cases call
        rw [List.length_append, List.length_singleton]
        exact room
      · rename_i reads
        refine ih ?_ call
        rw [List.length_append, List.length_singleton]
        have notFull := fun full => reads (.inr full)
        omega

end CString
