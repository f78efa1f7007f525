import IoMonitor.Lib.LineProtocol
import IoMonitor.Record

/-!
`copy_escaped_tag_value`, which the InfluxDB plugin calls for `s1` and `s2`.

It copies a part of the string (`copied`) and puts each separator behind a
backslash (`copyEscapedTagValue_eq`), as in a tag value. As a quoted string the
result ends at its first quote (`Escaped.run`), for no quote is escaped.
-/

namespace IoMonitor

open CString LineProtocol

/-! ### `copy_escaped_tag_value` -/

/-- The loop, with `last_ch` and what it has written to `dest`. -/
def copyLoop (destLen : Nat) : Char → Str → Str → Str
  | _, dest, [] => dest
  | lastCh, dest, ch :: src =>
      if (ch = ' ' ∧ lastCh = ' ') ∨ (ch = ',' ∧ lastCh = ',') ∨ (ch = '=' ∧ lastCh = '=') then
        copyLoop destLen lastCh dest src
      else if ch = '\n' then dest
      else if ch = '\\' then copyLoop destLen ch dest src
      else if ch = ' ' ∨ ch = ',' ∨ ch = '=' then
        if dest.length < destLen - 2 then
          if (dest ++ ['\\']).length < destLen - 1 then
            copyLoop destLen ch (dest ++ ['\\'] ++ [ch]) src
          else dest ++ ['\\']
        else dest
      else if dest.length < destLen - 1 then copyLoop destLen ch (dest ++ [ch]) src
      else dest

/-- `lastCh` is what the uninitialised `last_ch` holds. -/
def copyEscapedTagValue (destLen : Nat) (lastCh : Char) (src : Str) : Str :=
  copyLoop destLen lastCh [] src

/-- Each character differs from one of the four, so only the empty string passes. -/
def isAllWhitespace : Str → Bool
  | [] => true
  | ch :: s => if ch ≠ ' ' ∨ ch ≠ '\n' ∨ ch ≠ '\r' ∨ ch ≠ '\t' then false else isAllWhitespace s

/-- `s[0] ? s : word`. -/
def orWord (word : String) (s : Str) : Str := if s = [] then word.toList else s

/-- `s1` or `s2`, or `NULL` when nothing is copied. -/
def escapedOrNull (destLen : Nat) (lastCh : Char) (src : Str) : Str :=
  orWord "NULL" <|
    if src ≠ [] ∧ isAllWhitespace src = false then copyEscapedTagValue destLen lastCh src else []

/-! ### What is copied -/

def specialChars : List Char := [' ', ',', '=']

/-- The text that is copied: up to a newline, without backslashes, and without a
separator that repeats the one before it. -/
def collapsed : Char → Str → Str
  | _, [] => []
  | lastCh, ch :: src =>
      if ch ∈ specialChars ∧ ch = lastCh then collapsed lastCh src
      else if ch = '\n' then []
      else if ch = '\\' then collapsed ch src
      else ch :: collapsed ch src

def escape (ch : Char) : Str := if ch ∈ specialChars then ['\\', ch] else [ch]

/-- As many characters as there is room for with their escapes. -/
def fitting : Nat → Str → Str
  | _, [] => []
  | room, ch :: s =>
      if (escape ch).length ≤ room then ch :: fitting (room - (escape ch).length) s else []

/-- What `copy_escaped_tag_value` copies to a `char[destLen]`. -/
def copied (destLen : Nat) (lastCh : Char) (src : Str) : Str :=
  fitting (destLen - 1) (collapsed lastCh src)

/-- The length with the escapes. -/
def escapedLength (s : Str) : Nat := s.length + s.countP (· ∈ specialChars)

theorem repeats_iff (ch lastCh : Char) :
    ((ch = ' ' ∧ lastCh = ' ') ∨ (ch = ',' ∧ lastCh = ',') ∨ (ch = '=' ∧ lastCh = '=')) ↔
      ch ∈ specialChars ∧ ch = lastCh := by
  simp only [specialChars, List.mem_cons, List.not_mem_nil, or_false]
  constructor
  · rintro (⟨rfl, rfl⟩ | ⟨rfl, rfl⟩ | ⟨rfl, rfl⟩) <;> simp
  · rintro ⟨special, rfl⟩
    simpa using special

/-- The loop copies what is left while there is room. -/
theorem copyLoop_eq {destLen : Nat} (lastCh : Char) {dest : Str} (src : Str) {room : Nat}
    (fits : dest.length + room + 1 = destLen) :
    copyLoop destLen lastCh dest src =
      dest ++ (fitting room (collapsed lastCh src)).flatMap escape := by
  induction src generalizing lastCh dest room with
  | nil => simp [copyLoop, collapsed, fitting]
  | cons ch src ih =>
      unfold copyLoop collapsed
      simp only [repeats_iff]
      by_cases repeats : ch ∈ specialChars ∧ ch = lastCh
      · rw [if_pos repeats, if_pos repeats]
        exact ih lastCh fits
      rw [if_neg repeats, if_neg repeats]
      by_cases newline : ch = '\n'
      · rw [if_pos newline, if_pos newline, fitting, List.flatMap_nil, List.append_nil]
      rw [if_neg newline, if_neg newline]
      by_cases backslash : ch = '\\'
      · rw [if_pos backslash, if_pos backslash]
        exact ih ch fits
      rw [if_neg backslash, if_neg backslash, fitting]
      by_cases special : ch ∈ specialChars
      · have separator : ch = ' ' ∨ ch = ',' ∨ ch = '=' := by simpa [specialChars] using special
        have pair : escape ch = ['\\', ch] := if_pos special
        rw [if_pos separator, pair]
        by_cases has : 2 ≤ room
        · have both : (dest ++ ['\\']).length < destLen - 1 := by
            rw [List.length_append, List.length_singleton]
            omega
          have less : (dest ++ ['\\'] ++ [ch]).length + (room - 2) + 1 = destLen := by
            simp only [List.length_append, List.length_singleton]
            omega
          rw [if_pos (by omega), if_pos both, if_pos (by exact has), List.flatMap_cons, pair,
            ih ch less]
          simp
        · rw [if_neg (by omega), if_neg (by exact has), List.flatMap_nil, List.append_nil]
      · have separator : ¬ (ch = ' ' ∨ ch = ',' ∨ ch = '=') := by
          simpa [specialChars] using special
        have single : escape ch = [ch] := if_neg special
        rw [if_neg separator, single]
        by_cases has : 1 ≤ room
        · have less : (dest ++ [ch]).length + (room - 1) + 1 = destLen := by
            rw [List.length_append, List.length_singleton]
            omega
          rw [if_pos (by omega), if_pos (by exact has), List.flatMap_cons, single, ih ch less]
          simp
        · rw [if_neg (by omega), if_neg (by exact has), List.flatMap_nil, List.append_nil]

theorem copyEscapedTagValue_eq {destLen : Nat} (positive : 0 < destLen) (lastCh : Char)
    (src : Str) :
    copyEscapedTagValue destLen lastCh src = (copied destLen lastCh src).flatMap escape :=
  copyLoop_eq lastCh src (by rw [List.length_nil]; omega)

theorem mem_fitting {room : Nat} {s : Str} {c : Char} (mem : c ∈ fitting room s) : c ∈ s := by
  induction s generalizing room with
  | nil => exact mem
  | cons ch s ih =>
      unfold fitting at mem
      split at mem
      · rcases List.mem_cons.mp mem with rfl | later
        · exact List.mem_cons_self
        · exact List.mem_cons_of_mem ch (ih later)
      · cases mem

theorem mem_collapsed {lastCh : Char} {src : Str} {c : Char} (mem : c ∈ collapsed lastCh src) :
    c ≠ '\\' ∧ c ≠ '\n' := by
  induction src generalizing lastCh with
  | nil => cases mem
  | cons ch src ih =>
      unfold collapsed at mem
      split at mem
      · exact ih mem
      · split at mem
        · cases mem
        · rename_i newline
          split at mem
          · exact ih mem
          · rename_i backslash
            rcases List.mem_cons.mp mem with rfl | later
            · exact ⟨backslash, newline⟩
            · exact ih later

theorem collapsed_sublist (lastCh : Char) (src : Str) :
    (collapsed lastCh src).Sublist src := by
  induction src generalizing lastCh with
  | nil => exact List.Sublist.refl _
  | cons ch src ih =>
      unfold collapsed
      split
      · exact (ih lastCh).cons ch
      split
      · exact List.nil_sublist _
      split
      · exact (ih ch).cons ch
      · exact (ih ch).cons_cons ch

theorem length_escape (s : Str) : (s.flatMap escape).length = escapedLength s := by
  induction s with
  | nil => rfl
  | cons ch s ih =>
      rw [List.flatMap_cons, List.length_append, ih, escapedLength, escapedLength, escape]
      by_cases special : ch ∈ specialChars
      · simp [special]
        omega
      · simp [special]
        omega

theorem mem_escape {s : Str} {c : Char} (h : c ≠ '\\') : c ∈ s.flatMap escape ↔ c ∈ s := by
  rw [List.mem_flatMap]
  constructor
  · rintro ⟨ch, mem, within⟩
    unfold escape at within
    split at within
    · simp only [List.mem_cons, List.not_mem_nil, or_false, h, false_or] at within
      exact within ▸ mem
    · exact List.mem_singleton.mp within ▸ mem
  · intro mem
    refine ⟨c, mem, ?_⟩
    unfold escape
    split <;> simp

theorem isAllWhitespace_cons (ch : Char) (s : Str) : isAllWhitespace (ch :: s) = false := by
  have differs : ch ≠ ' ' ∨ ch ≠ '\n' ∨ ch ≠ '\r' ∨ ch ≠ '\t' := by
    by_cases space : ch = ' '
    · subst space
      decide
    · exact .inl space
  rw [isAllWhitespace, if_pos differs]

/-- What is printed: the copy with its escapes, or `NULL` for an empty one. -/
theorem escapedOrNull_eq {destLen : Nat} (positive : 0 < destLen) (lastCh : Char) (src : Str) :
    escapedOrNull destLen lastCh src =
      orWord "NULL" ((copied destLen lastCh src).flatMap escape) := by
  cases src with
  | nil => rfl
  | cons ch src =>
      have text : ch :: src ≠ [] ∧ isAllWhitespace (ch :: src) = false :=
        ⟨by simp, isAllWhitespace_cons ch src⟩
      rw [escapedOrNull, if_pos text, copyEscapedTagValue_eq positive]

/-- What holds of the empty string and of the word for it holds of both or neither. -/
theorem orWord_iff {P : Str → Prop} {word : String} (nil : P []) (holds : P word.toList) (s : Str) :
    P (orWord word s) ↔ P s := by
  unfold orWord
  split
  · rename_i empty
    rw [empty]
    exact iff_of_true holds nil
  · rfl

/-- The length of a string, or of the word printed for an empty one. -/
def lengthOr (word : String) (n : Nat) : Nat := if n = 0 then word.toList.length else n

theorem length_orWord (word : String) (s : Str) :
    (orWord word s).length = lengthOr word s.length := by
  unfold orWord lengthOr
  simp only [List.length_eq_zero_iff]
  split <;> rfl

theorem notMem_escapedOrNull {destLen : Nat} (positive : 0 < destLen) (lastCh : Char)
    (src : Str) : '"' ∉ escapedOrNull destLen lastCh src ↔ '"' ∉ copied destLen lastCh src := by
  rw [escapedOrNull_eq positive, orWord_iff (P := fun s => '"' ∉ s) (by decide) (by decide),
    mem_escape (by decide)]

theorem length_escapedOrNull {destLen : Nat} (positive : 0 < destLen) (lastCh : Char)
    (src : Str) : (escapedOrNull destLen lastCh src).length =
      lengthOr "NULL" (escapedLength (copied destLen lastCh src)) := by
  rw [escapedOrNull_eq positive, length_orWord, length_escape]

/-! ### What is escaped -/

/-- Each space, comma and equals sign after a backslash, and no other backslash. -/
inductive Escaped : Str → Prop where
  | nil : Escaped []
  | plain {c : Char} {s : Str} : c ∉ [' ', ',', '=', '\\', '\n'] → Escaped s → Escaped (c :: s)
  | pair {c : Char} {s : Str} : c ∈ [' ', ',', '='] → Escaped s → Escaped ('\\' :: c :: s)

theorem escaped_flatMap {s : Str} (plain : ∀ c ∈ s, c ≠ '\\' ∧ c ≠ '\n') :
    Escaped (s.flatMap escape) := by
  induction s with
  | nil => exact .nil
  | cons c s ih =>
      obtain ⟨⟨backslash, newline⟩, others⟩ := List.forall_mem_cons.mp plain
      rw [List.flatMap_cons, escape]
      split
      · rename_i special
        exact .pair special (ih others)
      · rename_i special
        refine .plain ?_ (ih others)
        simp only [specialChars, List.mem_cons, List.not_mem_nil, or_false] at special ⊢
        tauto

theorem escapedOrNull_escaped {destLen : Nat} (positive : 0 < destLen) (lastCh : Char)
    (src : Str) : Escaped (escapedOrNull destLen lastCh src) := by
  have null : Escaped "NULL".toList :=
    .plain (by decide) (.plain (by decide) (.plain (by decide) (.plain (by decide) .nil)))
  rw [escapedOrNull_eq positive, orWord_iff .nil null]
  exact escaped_flatMap fun c mem => mem_collapsed (mem_fitting mem)

namespace Escaped

theorem noNewline {s : Str} (escaped : Escaped s) : '\n' ∉ s := by
  induction escaped with
  | nil => simp
  | plain special _ ih =>
      refine List.not_mem_cons_of_ne_of_not_mem (fun eq => special (eq ▸ by decide)) ih
  | pair special _ ih =>
      refine List.not_mem_cons_of_ne_of_not_mem (by decide)
        (List.not_mem_cons_of_ne_of_not_mem (fun eq => absurd (eq ▸ special) (by decide)) ih)

/-- As a string it ends at its first quote, and never in an escape. -/
theorem run {s : Str} (escaped : Escaped s) :
    stringReader.run false s = if '"' ∈ s then none else some false := by
  induction escaped with
  | nil => rfl
  | @plain c s special escaped ih =>
      have backslash : c ≠ '\\' := by
        rintro rfl
        exact special (by decide)
      by_cases quote : c = '"'
      · subst quote
        rw [Reader.run_stop _ (by rfl), if_pos List.mem_cons_self]
      · rw [Reader.run, if_neg (by simpa [stringReader] using quote)]
        simpa [stringReader, backslash, Ne.symm quote] using ih
  | @pair c s special escaped ih =>
      have quote : c ≠ '"' := fun eq => absurd (eq ▸ special) (by decide)
      rw [Reader.run, if_neg (by simp [stringReader]), Reader.run,
        if_neg (by simp [stringReader])]
      simpa [stringReader, Ne.symm quote] using ih

theorem reads_iff {s : Str} (escaped : Escaped s) : stringReader.Reads s ↔ '"' ∉ s := by
  rw [Reader.Reads, escaped.run]
  split <;> simp_all

/-- No quote stands before a comma. -/
theorem ne_quoteComma {s : Str} (escaped : Escaped s) (a b : Str) : s ≠ a ++ '"' :: ',' :: b := by
  induction escaped generalizing a with
  | nil => simp
  | plain special escaped ih =>
      cases a with
      | nil =>
          intro eq
          obtain ⟨-, rfl⟩ := List.cons.inj eq
          cases escaped with
          | plain comma _ => exact comma (by decide)
      | cons d a => exact fun eq => ih a (List.cons.inj eq).2
  | @pair c s special escaped ih =>
      cases a with
      | nil => exact fun eq => absurd (List.cons.inj eq).1 (by decide)
      | cons d a =>
          cases a with
          | nil =>
              intro eq
              obtain ⟨rfl, -⟩ := List.cons.inj (List.cons.inj eq).2
              exact absurd special (by decide)
          | cons e a => exact fun eq => ih a (List.cons.inj (List.cons.inj eq).2).2

/-- Before a comma an escaped text is read whole or not at all. -/
theorem unique {s t x y : Str} (escaped : Escaped s) (reads : stringReader.Reads t)
    (comma : x.head? = some ',') (same : t ++ '"' :: x = s ++ '"' :: y) : t = s ∧ x = y := by
  rcases divide same with ⟨rfl, -, rest⟩ | ⟨m, rfl, -⟩ | ⟨m, rfl, rest⟩
  · exact ⟨rfl, rest⟩
  · have dangling := (reads_of_escaped reads).1
    rw [escaped.run] at dangling
    split at dangling <;> cases dangling
  · cases m with
    | nil =>
        rw [rest] at comma
        exact absurd comma (by simp)
    | cons c m =>
        rw [rest] at comma
        obtain rfl : c = ',' := by simpa using comma
        exact absurd rfl (escaped.ne_quoteComma t m)

end Escaped

end IoMonitor
