import IoMonitor.Lib.CharBuffer
import IoMonitor.Listener.CopyEscaped

/-!
`copy_escaped_tag_value` on its buffer.

Each write is within `dest`, and what is there at the end is a terminated string in
which the separators and no other characters stand behind backslashes, also where
it is cut off for lack of room (`tag_escaper_wellFormed`).

Where there is room for all of it, it is the text up to a newline without backslashes
and repeated separators, unless `last_ch` happens to hold the separator that the text
starts with: then that one is missing (`tag_escaper_keeps_iff`).
-/

namespace IoMonitor

open CString

variable {n : Nat}

/-- `len_src` as an `int`. -/
def lenSrc (src : Str) : Int := toInt (cstr src).length

/-- The characters at the indices below `len_src`. -/
def readChars (src : Str) : Str := (cstr src).take (lenSrc src).toNat

/-- `dest[dest_index++] = ch` if that leaves room for a NUL, and the rest of the loop. -/
def storeChar (next : Int → CharBuffer n → Except Fault (CharBuffer n)) (ch : Char)
    (destIndex : Int) (dest : CharBuffer n) : Except Fault (CharBuffer n) :=
  if destIndex < n - 1 then do next (destIndex + 1) (← dest.store destIndex ch) else .ok dest

/-- The loop, with `last_ch` and `dest_index`. -/
def storeLoop : Char → Int → CharBuffer n → Str → Except Fault (CharBuffer n)
  | _, _, dest, [] => .ok dest
  | lastCh, destIndex, dest, ch :: src =>
      if (ch = ' ' ∧ lastCh = ' ') ∨ (ch = ',' ∧ lastCh = ',') ∨ (ch = '=' ∧ lastCh = '=') then
        storeLoop lastCh destIndex dest src
      else if ch = '\n' then .ok dest
      else if ch = '\\' then storeLoop ch destIndex dest src
      else if ch = ' ' ∨ ch = ',' ∨ ch = '=' then
        if destIndex < n - 2 then do
          let dest ← dest.store destIndex '\\'
          storeChar (fun destIndex dest => storeLoop ch destIndex dest src) ch (destIndex + 1) dest
        else .ok dest
      else storeChar (fun destIndex dest => storeLoop ch destIndex dest src) ch destIndex dest

/-- `copy_escaped_tag_value(src, dest, n)`. `lastCh` is what the uninitialised `last_ch`
holds. -/
def fillEscapedTagValue (lastCh : Char) (src : Str) (dest : CharBuffer n) :
    Except Fault (CharBuffer n) :=
  storeLoop lastCh 0 (dest.memset nul) (readChars src)

/-! ### The writes -/

/-- The run ends with `text` in the buffer, and room for a NUL. -/
def Leaves (run : Except Fault (CharBuffer n)) (text : Str) : Prop :=
  ∃ out, run = .ok out ∧ out.Holds text ∧ text.length < n

section Writes

variable {buf : CharBuffer n} {dest : Str}

theorem storeChar_leaves (next : Int → CharBuffer n → Except Fault (CharBuffer n))
    (copy : Str → Str) (holds : buf.Holds dest) (room : dest.length < n) (ch : Char)
    (goesOn : ∀ {buf : CharBuffer n} {dest : Str}, buf.Holds dest → dest.length < n →
      Leaves (next dest.length buf) (copy dest)) :
    Leaves (storeChar next ch dest.length buf)
      (if dest.length < n - 1 then copy (dest ++ [ch]) else dest) := by
  rw [storeChar]
  by_cases more : dest.length < n - 1
  · obtain ⟨buf', stored, holds'⟩ := holds.store room ch
    have length : (dest ++ [ch]).length = dest.length + 1 := by simp
    have rest := goesOn holds' (by omega)
    rw [length] at rest
    rw [if_pos (by omega), if_pos more, stored]
    exact rest
  · rw [if_neg (by omega), if_neg more]
    exact ⟨buf, rfl, holds, room⟩

/-- The buffer follows the text that the loop writes. -/
theorem storeLoop_leaves (lastCh : Char) (holds : buf.Holds dest) (room : dest.length < n)
    (src : Str) : Leaves (storeLoop lastCh dest.length buf src) (copyLoop n lastCh dest src) := by
  induction src generalizing lastCh buf dest with
  | nil => exact ⟨buf, rfl, holds, room⟩
  | cons ch src ih =>
      rw [storeLoop, copyLoop]
      split
      · exact ih lastCh holds room
      split
      · exact ⟨buf, rfl, holds, room⟩
      split
      · exact ih ch holds room
      split
      · by_cases pair : dest.length < n - 2
        · obtain ⟨buf', stored, holds'⟩ := holds.store room '\\'
          have length : (dest ++ ['\\']).length = dest.length + 1 := by simp
          have rest := storeChar_leaves (fun i dest => storeLoop ch i dest src)
            (copyLoop n ch · src) holds' (by omega) ch (ih ch)
          rw [length] at rest
          rw [if_pos (by omega), if_pos pair, stored, length]
          exact rest
        · rw [if_neg (by omega), if_neg pair]
          exact ⟨buf, rfl, holds, room⟩
      · exact storeChar_leaves _ (copyLoop n ch · src) holds room ch (ih ch)

end Writes

/-- What is copied has no NUL. -/
theorem noNul_copied (lastCh : Char) (src : Str) :
    nul ∉ (copied n lastCh (readChars src)).flatMap escape := by
  rw [mem_escape (by decide)]
  intro mem
  have within : nul ∈ cstr src :=
    List.mem_of_mem_take ((collapsed_sublist _ _).subset (mem_fitting mem))
  exact absurd (List.mem_takeWhile_imp within) (by simp)

/-- No write is outside `dest`, and it holds what is copied, with its escapes. -/
theorem fillEscapedTagValue_eq (positive : 0 < n) (lastCh : Char) (src : Str)
    (dest : CharBuffer n) : ∃ out, fillEscapedTagValue lastCh src dest = .ok out ∧
      out.Terminated ∧ out.string = (copied n lastCh (readChars src)).flatMap escape := by
  obtain ⟨out, filled, holds, short⟩ :=
    storeLoop_leaves lastCh dest.memset_holds positive (readChars src)
  refine ⟨out, filled, holds.terminated short, ?_⟩
  have text := copyEscapedTagValue_eq positive lastCh (readChars src)
  rw [copyEscapedTagValue] at text
  rw [text] at holds
  exact holds.string (noNul_copied lastCh src)

/-! ### A token -/

/-- Backslashes stand before separators, and separators behind backslashes. -/
structure TagToken (s : Str) : Prop where
  noNewline : '\n' ∉ s
  escaped : ∀ before c after, s = before ++ c :: after → c ∈ specialChars →
    before.getLast? = some '\\'
  escapes : ∀ before after, s = before ++ '\\' :: after → ∃ c ∈ specialChars, after.head? = some c

theorem Escaped.split {s : Str} (h : Escaped s) {before after : Str} {c : Char}
    (eq : s = before ++ c :: after) :
    (c ∈ specialChars → before.getLast? = some '\\') ∧
      (c = '\\' → ∃ d ∈ specialChars, after.head? = some d) := by
  induction h generalizing before with
  | nil => simp at eq
  | @plain d s ordinary _ ih =>
      cases before with
      | nil =>
          obtain ⟨rfl, -⟩ := List.cons.inj eq
          constructor
          · exact fun special => absurd (List.mem_append_left ['\\', '\n'] special) ordinary
          · rintro rfl
            exact absurd (by decide) ordinary
      | cons e before =>
          obtain ⟨behind, next⟩ := ih (List.cons.inj eq).2
          refine ⟨fun special => ?_, next⟩
          rw [List.getLast?_cons, behind special]
          rfl
  | @pair d s separator _ ih =>
      cases before with
      | nil =>
          obtain ⟨rfl, rfl⟩ := List.cons.inj eq
          exact ⟨fun special => absurd special (by decide), fun _ => ⟨d, separator, rfl⟩⟩
      | cons e before =>
          obtain ⟨rfl, tail⟩ := List.cons.inj eq
          cases before with
          | nil =>
              obtain ⟨rfl, -⟩ := List.cons.inj tail
              refine ⟨fun _ => rfl, ?_⟩
              rintro rfl
              exact absurd separator (by decide)
          | cons f before =>
              obtain ⟨behind, next⟩ := ih (List.cons.inj tail).2
              refine ⟨fun special => ?_, next⟩
              rw [List.getLast?_cons, List.getLast?_cons, behind special]
              rfl

theorem Escaped.tagToken {s : Str} (h : Escaped s) : TagToken s where
  noNewline := h.noNewline
  escaped _ _ _ eq special := (h.split eq).1 special
  escapes _ _ eq := (h.split eq).2 rfl

/-- **The token.** Whatever `last_ch` holds and wherever `dest` ends, the writes are
within it and leave a terminated token. -/
theorem tag_escaper_wellFormed (positive : 0 < n) (lastCh : Char) (src : Str)
    (dest : CharBuffer n) : ∃ out, fillEscapedTagValue lastCh src dest = .ok out ∧
      out.Terminated ∧ TagToken out.string := by
  obtain ⟨out, filled, terminated, text⟩ := fillEscapedTagValue_eq positive lastCh src dest
  refine ⟨out, filled, terminated, ?_⟩
  rw [text]
  exact (escaped_flatMap fun c mem => mem_collapsed (mem_fitting mem)).tagToken

/-- The last separator does not fit with its backslash. -/
theorem tag_escaper_wellFormed_cut : ∃ out,
    fillEscapedTagValue 'x' "a b,c".toList ⟨List.replicate 6 '?', rfl⟩ = .ok out ∧
      out.Terminated ∧ TagToken out.string :=
  tag_escaper_wellFormed (by decide) _ _ _

/-! ### The text of a token -/

/-- The escaping backslashes are removed. -/
def unescaped : Str → Str
  | [] => []
  | [c] => [c]
  | c :: d :: s =>
      if c = '\\' ∧ d ∈ specialChars then d :: unescaped s else c :: unescaped (d :: s)

theorem unescaped_cons {c : Char} (plain : c ≠ '\\') (s : Str) :
    unescaped (c :: s) = c :: unescaped s := by
  cases s with
  | nil => rfl
  | cons d s => rw [unescaped, if_neg fun both => plain both.1]

theorem unescaped_flatMap_escape {s : Str} (plain : ∀ c ∈ s, c ≠ '\\') :
    unescaped (s.flatMap escape) = s := by
  induction s with
  | nil => rfl
  | cons c s ih =>
      obtain ⟨plain, others⟩ := List.forall_mem_cons.mp plain
      rw [List.flatMap_cons, escape]
      split
      · rename_i special
        rw [List.cons_append, List.singleton_append, unescaped, if_pos ⟨rfl, special⟩, ih others]
      · rw [List.singleton_append, unescaped_cons plain, ih others]

/-- The line without its backslashes, and without separators that follow the same
character. `before` is the character before the line. -/
def kept : Option Char → Str → Str
  | _, [] => []
  | before, ch :: line =>
      if ch = '\\' ∨ (ch ∈ specialChars ∧ before = some ch) then kept (some ch) line
      else ch :: kept (some ch) line

/-- What is kept of the first line. -/
def keptText (src : Str) : Str := kept none (src.takeWhile (· ≠ '\n'))

/-- The loop copies what is kept behind the character that `last_ch` holds. -/
theorem collapsed_eq_kept (lastCh : Char) (src : Str) :
    collapsed lastCh src = kept (some lastCh) (src.takeWhile (· ≠ '\n')) := by
  induction src generalizing lastCh with
  | nil => rfl
  | cons ch src ih =>
      rw [collapsed]
      by_cases newline : ch = '\n'
      · have ordinary : ¬ (ch ∈ specialChars ∧ ch = lastCh) := by
          rintro ⟨special, -⟩
          rw [newline] at special
          exact absurd special (by decide)
        rw [if_neg ordinary, if_pos newline, List.takeWhile_cons_of_neg (by simpa using newline)]
        rfl
      rw [List.takeWhile_cons_of_pos (by simpa using newline), kept]
      by_cases repeats : ch ∈ specialChars ∧ ch = lastCh
      · obtain ⟨special, rfl⟩ := repeats
        rw [if_pos ⟨special, rfl⟩, if_pos (.inr ⟨special, rfl⟩), ih]
      rw [if_neg repeats, if_neg newline]
      by_cases backslash : ch = '\\'
      · rw [if_pos backslash, if_pos (.inl backslash), ih]
      · have keeps : ¬ (ch = '\\' ∨ ch ∈ specialChars ∧ some lastCh = some ch) := by
          rintro (eq | ⟨special, eq⟩)
          · exact backslash eq
          · exact repeats ⟨special, (Option.some.inj eq).symm⟩
        rw [if_neg backslash, if_neg keeps, ih]

/-- `last_ch` holds the separator that the text starts with. -/
def StartsWithLast (lastCh : Char) (src : Str) : Prop :=
  lastCh ∈ specialChars ∧ src.head? = some lastCh

instance (lastCh : Char) (src : Str) : Decidable (StartsWithLast lastCh src) :=
  inferInstanceAs (Decidable (_ ∧ _))

theorem kept_some_of_ne {lastCh : Char} {line : Str} (h : ¬ StartsWithLast lastCh line) :
    kept (some lastCh) line = kept none line := by
  cases line with
  | nil => rfl
  | cons ch line =>
      have first : ch ∈ specialChars → some lastCh ≠ some ch := by
        intro special eq
        cases eq
        exact h ⟨special, rfl⟩
      rw [kept, kept]
      by_cases backslash : ch = '\\'
      · rw [if_pos (.inl backslash), if_pos (.inl backslash)]
      · rw [if_neg fun drop => drop.elim backslash fun both => first both.1 both.2,
          if_neg fun drop => drop.elim backslash fun both => (Option.some_ne_none ch) both.2.symm]

theorem kept_append (before : Option Char) (line more : Str) :
    ∃ behind, kept before (line ++ more) = kept before line ++ kept behind more := by
  induction line generalizing before with
  | nil => exact ⟨before, rfl⟩
  | cons ch line ih =>
      obtain ⟨behind, eq⟩ := ih (some ch)
      refine ⟨behind, ?_⟩
      rw [List.cons_append, kept, kept, eq]
      split
      · rfl
      · rfl

/-- More text behind the source adds to what is kept. -/
theorem keptText_mono {s t : Str} (h : s <+: t) : keptText s <+: keptText t := by
  obtain ⟨more, rfl⟩ := h
  rw [keptText, keptText, List.takeWhile_append]
  split
  · rename_i whole
    have line : s.takeWhile (· ≠ '\n') = s := (List.takeWhile_prefix _).eq_of_length whole
    obtain ⟨behind, eq⟩ := kept_append none s (more.takeWhile (· ≠ '\n'))
    rw [line, eq]
    exact List.prefix_append _ _
  · exact List.prefix_refl _

/-- A first character is kept. -/
theorem keptText_cons {c : Char} (newline : c ≠ '\n') (backslash : c ≠ '\\') (s : Str) :
    keptText (c :: s) = c :: kept (some c) (s.takeWhile (· ≠ '\n')) := by
  have first : ¬ (c = '\\' ∨ c ∈ specialChars ∧ (none : Option Char) = some c) := by
    rintro (eq | ⟨-, eq⟩)
    · exact backslash eq
    · cases eq
  rw [keptText, List.takeWhile_cons_of_pos (by simpa using newline), kept, if_neg first]

theorem ne_of_special {c : Char} (special : c ∈ specialChars) : c ≠ '\n' ∧ c ≠ '\\' := by
  constructor
  · rintro rfl
    exact absurd special (by decide)
  · rintro rfl
    exact absurd special (by decide)

theorem StartsWithLast.mono {lastCh : Char} {s t : Str} (h : StartsWithLast lastCh s)
    (pre : s <+: t) : StartsWithLast lastCh t := by
  obtain ⟨more, rfl⟩ := pre
  obtain ⟨special, first⟩ := h
  exact ⟨special, by rw [List.head?_append, first]; rfl⟩

/-- Without its first separator a text is shorter. -/
theorem StartsWithLast.length_collapsed_lt {lastCh : Char} {s t : Str}
    (h : StartsWithLast lastCh t) (pre : s <+: t) :
    (collapsed lastCh s).length < (keptText t).length := by
  obtain ⟨special, first⟩ := h
  obtain ⟨newline, backslash⟩ := ne_of_special special
  cases s with
  | nil =>
      obtain ⟨rest, rfl⟩ := List.head?_eq_some_iff.mp first
      rw [keptText_cons newline backslash]
      exact Nat.zero_lt_succ _
  | cons c s =>
      obtain rfl : c = lastCh := by
        obtain ⟨more, rfl⟩ := pre
        exact Option.some.inj first
      have length := (keptText_mono pre).length_le
      rw [keptText_cons newline backslash, List.length_cons] at length
      rw [collapsed, if_pos ⟨special, rfl⟩, collapsed_eq_kept]
      exact length

theorem collapsed_eq_keptText {lastCh : Char} {src : Str} (h : ¬ StartsWithLast lastCh src) :
    collapsed lastCh src = keptText src := by
  rw [collapsed_eq_kept, keptText]
  exact kept_some_of_ne fun starts => h (starts.mono (List.takeWhile_prefix _))

theorem fitting_eq_self {room : Nat} {s : Str} (fits : (s.flatMap escape).length ≤ room) :
    fitting room s = s := by
  induction s generalizing room with
  | nil => rfl
  | cons c s ih =>
      rw [List.flatMap_cons, List.length_append] at fits
      rw [fitting, if_pos (by omega), ih (by omega)]

/-- `dest` has room for all that is copied, with its escapes. -/
def Untruncated (n : Nat) (lastCh : Char) (src : Str) : Prop :=
  escapedLength (collapsed lastCh (readChars src)) < n

instance (n : Nat) (lastCh : Char) (src : Str) : Decidable (Untruncated n lastCh src) :=
  inferInstanceAs (Decidable (_ < _))

/-- Without its escapes the token is the text that is to be kept, and so has its first
character. -/
def KeepsText (lastCh : Char) (src : Str) (dest : CharBuffer n) : Prop :=
  ∃ out, fillEscapedTagValue lastCh src dest = .ok out ∧
    unescaped out.string = keptText (cstr src) ∧
    ∀ c, (cstr src).head? = some c → c ≠ '\\' → c ≠ '\n' →
      (unescaped out.string).head? = some c

theorem unescaped_fill {lastCh : Char} {src : Str} (enough : Untruncated n lastCh src)
    (dest : CharBuffer n) : ∃ out, fillEscapedTagValue lastCh src dest = .ok out ∧
      unescaped out.string = collapsed lastCh (readChars src) := by
  have positive : 0 < n := Nat.zero_lt_of_lt enough
  obtain ⟨out, filled, -, text⟩ := fillEscapedTagValue_eq positive lastCh src dest
  have whole : copied n lastCh (readChars src) = collapsed lastCh (readChars src) := by
    refine fitting_eq_self ?_
    rw [length_escape]
    exact Nat.le_sub_one_of_lt enough
  refine ⟨out, filled, ?_⟩
  rw [text, whole]
  exact unescaped_flatMap_escape fun c mem => (mem_collapsed mem).1

/-- **What is kept.** Where there is room for the token it has the text of the source
iff `last_ch` does not hold a separator that the source starts with, and the
characters that an `int` counts have all that is to be kept. -/
theorem tag_escaper_keeps_iff {lastCh : Char} {src : Str} (enough : Untruncated n lastCh src)
    (dest : CharBuffer n) : KeepsText lastCh src dest ↔
      ¬ StartsWithLast lastCh (cstr src) ∧ keptText (readChars src) = keptText (cstr src) := by
  have read : readChars src <+: cstr src := List.take_prefix _ _
  obtain ⟨out, filled, text⟩ := unescaped_fill enough dest
  have keeps : KeepsText lastCh src dest ↔
      collapsed lastCh (readChars src) = keptText (cstr src) := by
    constructor
    · rintro ⟨out', filled', same, -⟩
      cases filled.symm.trans filled'
      exact text.symm.trans same
    · intro same
      refine ⟨out, filled, text.trans same, fun c first backslash newline => ?_⟩
      obtain ⟨rest, eq⟩ := List.head?_eq_some_iff.mp first
      rw [text, same, eq, keptText_cons newline backslash]
      rfl
  rw [keeps]
  by_cases starts : StartsWithLast lastCh (cstr src)
  · refine iff_of_false (fun same => ?_) fun both => both.1 starts
    have shorter := starts.length_collapsed_lt read
    rw [same] at shorter
    exact Nat.lt_irrefl _ shorter
  · rw [and_iff_right starts, collapsed_eq_keptText fun h => starts (h.mono read)]

theorem tag_escaper_keeps_iff_words :
    KeepsText 'x' "a  b\\,c\nd".toList (⟨List.replicate 16 '?', rfl⟩ : CharBuffer 16) ↔
      ¬ StartsWithLast 'x' (cstr "a  b\\,c\nd".toList) ∧
        keptText (readChars "a  b\\,c\nd".toList) = keptText (cstr "a  b\\,c\nd".toList) :=
  tag_escaper_keeps_iff (by decide) _

/-- `last_ch` happens to hold a space, and the space before the name is lost. -/
theorem tag_escaper_drops_first : ¬ ∀ (n : Nat) (lastCh : Char) (src : Str) (dest : CharBuffer n),
    Untruncated n lastCh src → KeepsText lastCh src dest := by
  intro keeps
  obtain ⟨out, filled, same, -⟩ := keeps 16 ' ' " a".toList ⟨List.replicate 16 '?', rfl⟩ (by decide)
  have run : fillEscapedTagValue ' ' " a".toList
      (⟨List.replicate 16 '?', rfl⟩ : CharBuffer 16) =
      .ok ⟨'a' :: List.replicate 15 nul, rfl⟩ := by rfl
  rw [run] at filled
  cases filled
  exact absurd same (by decide)

end IoMonitor
