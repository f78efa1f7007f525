import IoMonitor.Lib.CharBuffer
import IoMonitor.Lib.Columns
import IoMonitor.Lib.Prog
import IoMonitor.Record

/-!
The command line that `init` reads for its first record.

The file holds the arguments, each with its NUL. The loop that puts spaces for the
NULs counts down from the last but one byte to the second; the first byte is none of
them, and a count that starts below 2 is past its end before the test.
-/

namespace IoMonitor

open CString Columns

/-- How `read` of `/proc/<pid>/cmdline` ends: with an error, with no bytes, or with
those of the arguments. -/
inductive CmdlineRead where
  | failed
  | nothing
  | arguments (arg : Str) (args : List Str)

/-- The contents of the file. -/
def cmdlineBytes (args : List Str) : Str := args.flatMap (· ++ [nul])

/-- The bytes that are stored in `cmdline`. -/
def CmdlineRead.content : CmdlineRead → Str
  | .failed => []
  | .nothing => []
  | .arguments arg args => (cmdlineBytes (arg :: args)).take PATH_MAX

/-- `len`. -/
def CmdlineRead.len : CmdlineRead → Int
  | .failed => -1
  | .nothing => 0
  | read@(.arguments _ _) => read.content.length

abbrev Cmdline := CharBuffer PATH_MAX

/-- Code over `cmdline`, with the indices that the loop accesses. -/
abbrev InitCode := Traced Int Cmdline

/-- An access that is out of bounds ends the run. -/
def checked (f : Cmdline → Except Fault Cmdline) : InitCode Unit :=
  Traced.lift fun b =>
    match f b with
    | .ok b' => .returned () b'
    | .error _ => .crashed b

/-- `if (!cmdline[len]) cmdline[len] = ' '` -/
def blankNul (b : Cmdline) (len : Int) : Except Fault Cmdline := do
  let c ← b.load len
  if c = nul then b.store len ' ' else .ok b

/-- `while (--len) …` -/
def rewriteLoop : Nat → Int → InitCode Unit
  | 0, _ => Traced.lift Prog.exhaust
  | fuel + 1, len =>
      let len := len - 1
      if len ≠ 0 then do
        Traced.event len
        checked (blankNul · len)
        rewriteLoop fuel len
      else pure ()

/-- The text for a command line that is empty. -/
def noPath : Str := "could not determine path".toList

/-- `init`, from the read to the end of the loop. -/
def readCmdline (fuel : Nat) (read : CmdlineRead) : InitCode Unit := do
  checked (·.write 0 read.content)
  if read.len ≠ 0 then rewriteLoop fuel (read.len - 1)
  else checked (·.strcpy 0 noPath)

/-- The arguments with single spaces between them, where all of them fit. -/
def CmdlineRead.Shown (b : Cmdline) : CmdlineRead → Prop
  | .arguments arg args =>
      (cmdlineBytes (arg :: args)).length ≤ PATH_MAX → b.string = join ' ' (arg :: args)
  | _ => True

/-- With fuel enough, the accesses of the run and where it ends. -/
def RunEnds (b : Cmdline) (read : CmdlineRead) (touched : List Int) (b' : Cmdline) : Prop :=
  ∃ bound, ∀ fuel, bound ≤ fuel → readCmdline fuel read b = (touched, .returned () b')

/-- The loop ends, stays within what was read, and leaves the command line. -/
def Captured (b : Cmdline) (read : CmdlineRead) : Prop :=
  ∃ touched b', RunEnds b read touched b' ∧ (∀ i ∈ touched, 0 ≤ i ∧ i < read.len) ∧ read.Shown b'

/-- The arguments are strings. -/
def CmdlineRead.Strings : CmdlineRead → Prop
  | .arguments arg args => ∀ s ∈ arg :: args, nul ∉ s
  | _ => True

/-- There is no error, and no empty first argument in front of a command line that fits. -/
def CmdlineRead.Capturable : CmdlineRead → Prop
  | .failed => False
  | .nothing => True
  | .arguments arg args => (cmdlineBytes (arg :: args)).length ≤ PATH_MAX → arg ≠ []

/-! ### The loop -/

theorem checked_ok {f : Cmdline → Except Fault Cmdline} {b b' : Cmdline} (h : f b = .ok b') :
    checked f b = ([], .returned () b') := by
  simp only [checked, Traced.lift, h]

theorem checked_error {f : Cmdline → Except Fault Cmdline} {b : Cmdline} {fault : Fault}
    (h : f b = .error fault) : checked f b = ([], .crashed b) := by
  simp only [checked, Traced.lift, h]

/-- What the loop makes of a byte. -/
def blank (c : Char) : Char := if c = nul then ' ' else c

theorem blankNul_at {b : Cmdline} {front behind : Str} {c : Char}
    (h : b.bytes = front ++ c :: behind) :
    ∃ b', blankNul b front.length = .ok b' ∧ b'.bytes = front ++ blank c :: behind := by
  have loaded : b.load front.length = .ok c := CharBuffer.load_inside (by rw [h]; simp)
  unfold blankNul
  rw [loaded, PointerArray.ok_bind, blank]
  split
  · have room : front.length < PATH_MAX := by
      rw [← b.size, h]
      simp
    obtain ⟨b', stored, bytes⟩ := b.store_inside room ' '
    refine ⟨b', stored, ?_⟩
    rw [bytes, h, List.set_append_right _ _ (Nat.le_refl _), Nat.sub_self, List.set_cons_zero]
  · exact ⟨b, rfl, h⟩

/-- Started at least one byte behind the first, the loop ends, and has put spaces for the
NULs in between. -/
theorem rewriteLoop_returned {b : Cmdline} {c : Char} {mid behind : Str}
    (h : b.bytes = c :: mid ++ behind) :
    ∃ touched b', (∀ fuel, mid.length < fuel →
        rewriteLoop fuel (mid.length + 1) b = (touched, .returned () b')) ∧
      (∀ i ∈ touched, 0 ≤ i ∧ i ≤ mid.length) ∧ b'.bytes = c :: mid.map blank ++ behind := by
  induction mid using List.reverseRecOn generalizing b behind with
  | nil =>
      refine ⟨[], b, fun fuel enough => ?_, by simp, h⟩
      obtain ⟨fuel, rfl⟩ := Nat.exists_eq_add_of_lt enough
      simp [rewriteLoop]
  | append_singleton mid d ih =>
      have split : b.bytes = (c :: mid) ++ d :: behind := by simpa using h
      obtain ⟨next, blanked, bytes⟩ := blankNul_at split
      rw [List.length_cons] at blanked
      obtain ⟨touched, b', rest, inside, bytes⟩ := ih bytes
      rw [List.length_append, List.length_singleton]
      refine ⟨((mid.length + 1 : Nat) : Int) :: touched, b', ?_, ?_, by simpa using bytes⟩
      · intro fuel enough
        obtain ⟨fuel, rfl⟩ := Nat.exists_eq_add_of_lt enough
        have count : ((mid.length + 1 : Nat) : Int) + 1 - 1 = (mid.length + 1 : Nat) := by omega
        rw [rewriteLoop]
        simp only [count]
        rw [if_pos (by omega), Traced.event_bind, Traced.bind_of_returned (checked_ok blanked),
          Int.natCast_add, Int.natCast_one, rest (mid.length + 1 + fuel) (by omega)]
        rfl
      · intro i mem
        rcases List.mem_cons.mp mem with rfl | mem
        · omega
        · obtain ⟨low, high⟩ := inside i mem
          omega

/-- Started before that, it is out of bounds at once. -/
theorem rewriteLoop_negative {len : Int} (low : len < 1) (fuel : Nat) (b : Cmdline) :
    ∀ b', (rewriteLoop fuel len b).2 ≠ .returned () b' := by
  intro b'
  cases fuel with
  | zero =>
      intro ended
      cases ended
  | succ fuel =>
      have negative : len - 1 < 0 := by omega
      have crashes : blankNul b (len - 1) = .error (.outside (len - 1)) := by
        rw [blankNul, CharBuffer.load_negative b negative]
        rfl
      rw [rewriteLoop, if_pos (by omega), Traced.event_bind,
        Traced.bind_of_crashed (checked_error crashes)]
      intro ended
      cases ended

/-! ### The command line -/

theorem content_length (read : CmdlineRead) : read.content.length ≤ PATH_MAX := by
  cases read with
  | failed => exact Nat.zero_le _
  | nothing => exact Nat.zero_le _
  | arguments arg args => exact List.length_take_le _ _

/-- What is read is at the start of the buffer. -/
theorem content_written (read : CmdlineRead) (b : Cmdline) :
    ∃ b', b.write 0 read.content = .ok b' ∧ ∃ behind, b'.bytes = read.content ++ behind := by
  have fits : 0 + read.content.length ≤ PATH_MAX := by
    rw [Nat.zero_add]
    exact content_length read
  obtain ⟨b', written, bytes⟩ := b.write_room fits
  exact ⟨b', written, _, bytes⟩

/-- Two bytes or more are read and rewritten, all but the first and the last. -/
theorem readCmdline_ends {read : CmdlineRead} {c last : Char} {mid : Str}
    (content : read.content = c :: mid ++ [last]) (len : read.len = read.content.length)
    (b : Cmdline) :
    ∃ touched b', RunEnds b read touched b' ∧ (∀ i ∈ touched, 0 ≤ i ∧ i < read.len) ∧
      ∃ behind, b'.bytes = c :: mid.map blank ++ last :: behind := by
  obtain ⟨stored, written, behind, bytes⟩ := content_written read b
  rw [content, List.append_assoc, List.singleton_append] at bytes
  obtain ⟨touched, b', ended, inside, bytes⟩ := rewriteLoop_returned bytes
  have count : read.len = (mid.length + 1 : Int) + 1 := by
    rw [len, content, List.length_append, List.length_cons, List.length_singleton]
    omega
  refine ⟨touched, b', ⟨mid.length + 1, fun fuel enough => ?_⟩, ?_, behind, bytes⟩
  · rw [readCmdline, Traced.bind_of_returned (checked_ok written), if_pos (by omega), count,
      Int.add_sub_cancel, ended fuel enough]
    rfl
  · intro i mem
    obtain ⟨low, high⟩ := inside i mem
    omega

/-- A read of fewer bytes, but for none, is not survived. -/
theorem not_captured_of_short {read : CmdlineRead} (short : read.len < 2)
    (some_ : read.len ≠ 0) (b : Cmdline) : ¬ Captured b read := by
  rintro ⟨touched, b', ⟨bound, ended⟩, -⟩
  obtain ⟨stored, written, -⟩ := content_written read b
  have ended := congrArg Prod.snd (ended bound (Nat.le_refl _))
  rw [readCmdline, Traced.bind_of_returned (checked_ok written), if_pos some_] at ended
  exact rewriteLoop_negative (by omega) bound stored b' ended

/-- The run ends in one way. -/
theorem RunEnds.unique {b b₁ b₂ : Cmdline} {read : CmdlineRead} {touched₁ touched₂ : List Int}
    (h₁ : RunEnds b read touched₁ b₁) (h₂ : RunEnds b read touched₂ b₂) : b₁ = b₂ := by
  obtain ⟨bound₁, ends₁⟩ := h₁
  obtain ⟨bound₂, ends₂⟩ := h₂
  have same := (ends₁ _ (Nat.le_max_left bound₁ bound₂)).symm.trans
    (ends₂ _ (Nat.le_max_right bound₁ bound₂))
  cases same
  rfl

theorem cmdlineBytes_cons (arg : Str) (args : List Str) :
    cmdlineBytes (arg :: args) = join nul (arg :: args) ++ [nul] :=
  (join_append_sep nul (List.cons_ne_nil arg args)).symm

theorem blank_of_ne {c : Char} (h : c ≠ nul) : blank c = c := if_neg h

theorem nul_notMem_blank (s : Str) : nul ∉ s.map blank := by
  intro mem
  obtain ⟨c, -, eq⟩ := List.mem_map.mp mem
  unfold blank at eq
  split at eq
  · exact absurd eq (by decide)
  · rename_i other
    exact other eq

/-- The separators are blanked, and nothing else. -/
theorem join_blank {args : List Str} (strings : ∀ s ∈ args, nul ∉ s) :
    (join nul args).map blank = join ' ' args := by
  have same : ∀ {s : Str}, nul ∉ s → s.map blank = s := by
    intro s noNul
    refine (List.map_congr_left fun c mem => ?_).trans (List.map_id s)
    exact blank_of_ne fun eq => noNul (eq ▸ mem)
  induction args with
  | nil => rfl
  | cons arg args ih =>
      obtain ⟨head, tail⟩ := List.forall_mem_cons.mp strings
      cases args with
      | nil => rw [join_singleton, join_singleton, same head]
      | cons next args =>
          rw [join_cons_cons, join_cons_cons, List.map_append, List.map_cons, ih tail, same head]
          rfl

theorem string_of_blanked {b : Cmdline} {c last : Char} {mid behind : Str} (ends : last = nul)
    (bytes : b.bytes = c :: mid.map blank ++ last :: behind) :
    b.string = if c = nul then [] else c :: mid.map blank := by
  subst ends
  rw [CharBuffer.string, bytes, CharBuffer.cstr_append_nul]
  split
  · rename_i first
    rw [first]
    rfl
  · rename_i first
    refine cstr_of_noNul fun mem => ?_
    rcases List.mem_cons.mp mem with eq | mem
    · exact first eq.symm
    · exact nul_notMem_blank mid mem

/-- The first byte is a NUL iff the first argument is empty. -/
theorem join_first {arg : Str} {args : List Str} (noNul : nul ∉ arg) {c : Char} {mid : Str}
    (joined : join nul (arg :: args) = c :: mid) : c = nul ↔ arg = [] := by
  cases arg with
  | nil =>
      refine iff_of_true ?_ rfl
      cases args with
      | nil => cases joined
      | cons next args =>
          rw [join_cons_cons] at joined
          exact (List.cons.inj joined).1.symm
  | cons d arg =>
      have same : d = c := by
        cases args with
        | nil =>
            rw [join_singleton] at joined
            exact (List.cons.inj joined).1
        | cons next args =>
            rw [join_cons_cons] at joined
            exact (List.cons.inj joined).1
      refine iff_of_false ?_ (List.cons_ne_nil d arg)
      rintro rfl
      exact noNul (same ▸ List.mem_cons_self)

theorem captured_nothing (b : Cmdline) : Captured b .nothing := by
  obtain ⟨b', copied, -⟩ := b.strcpy_room (i := 0) (s := noPath) (by decide)
  refine ⟨[], b', ⟨0, fun fuel _ => ?_⟩, by simp, trivial⟩
  have first : checked (·.write 0 CmdlineRead.nothing.content) b = ([], .returned () b) :=
    checked_ok rfl
  have second : checked (·.strcpy 0 noPath) b = ([], .returned () b') := checked_ok copied
  rw [readCmdline, Traced.bind_of_returned first, if_neg (by decide), second]
  rfl

/-- A command line that fits. -/
theorem captured_fitting (b : Cmdline) {arg : Str} {args : List Str}
    (strings : ∀ s ∈ arg :: args, nul ∉ s)
    (fits : (cmdlineBytes (arg :: args)).length ≤ PATH_MAX) :
    Captured b (.arguments arg args) ↔ arg ≠ [] := by
  have content : (CmdlineRead.arguments arg args).content = join nul (arg :: args) ++ [nul] := by
    rw [← cmdlineBytes_cons]
    exact List.take_of_length_le fits
  cases joined : join nul (arg :: args) with
  | nil =>
      have len : (CmdlineRead.arguments arg args).len = 1 := by
        change ((CmdlineRead.arguments arg args).content.length : Int) = 1
        rw [content, joined]
        rfl
      refine iff_of_false (not_captured_of_short (by omega) (by omega) b) ?_
      intro some_
      have sub := sublist_join nul (List.mem_cons_self (a := arg) (l := args))
      rw [joined] at sub
      exact some_ (List.sublist_nil.mp sub)
  | cons c mid =>
      rw [joined] at content
      obtain ⟨touched, b', ends, inside, behind, bytes⟩ := readCmdline_ends content rfl b
      have string := string_of_blanked rfl bytes
      have wanted : join ' ' (arg :: args) = blank c :: mid.map blank := by
        rw [← join_blank strings, joined, List.map_cons]
      have first := join_first (strings arg List.mem_cons_self) joined
      constructor
      · rintro ⟨touched', b'', ends', -, shown⟩ empty
        cases ends.unique ends'
        have same := shown fits
        rw [string, if_pos (first.mpr empty), wanted] at same
        cases same
      · intro some_
        have notNul : c ≠ nul := fun eq => some_ (first.mp eq)
        refine ⟨touched, b', ends, inside, fun _ => ?_⟩
        rw [string, if_neg notNul, wanted, blank_of_ne notNul]

/-- One that does not fit fills the buffer. -/
theorem captured_long (b : Cmdline) {arg : Str} {args : List Str}
    (long : PATH_MAX < (cmdlineBytes (arg :: args)).length) :
    Captured b (.arguments arg args) := by
  have full : (CmdlineRead.arguments arg args).content.length = PATH_MAX :=
    List.length_take_of_le (Nat.le_of_lt long)
  obtain ⟨c, tail, content⟩ := List.exists_cons_of_length_pos (show 0 <
    (CmdlineRead.arguments arg args).content.length by rw [full]; decide)
  obtain ⟨mid, last, rfl⟩ : ∃ mid last, tail = mid ++ [last] := by
    rcases List.eq_nil_or_concat tail with rfl | ⟨mid, last, rfl⟩
    · rw [content, List.length_singleton] at full
      exact absurd full (by decide)
    · exact ⟨mid, last, List.concat_eq_append⟩
  obtain ⟨touched, b', ends, inside, -⟩ := readCmdline_ends content rfl b
  exact ⟨touched, b', ends, inside, fun fits => absurd long (Nat.not_lt_of_le fits)⟩

/-- **The command line at start-up.** It is captured iff it can be read and, where it
fits, does not start with an empty argument. -/
theorem captured_iff (b : Cmdline) {read : CmdlineRead} (strings : read.Strings) :
    Captured b read ↔ read.Capturable := by
  cases read with
  | failed => exact iff_of_false (not_captured_of_short (by decide) (by decide) b) id
  | nothing => exact iff_of_true (captured_nothing b) trivial
  | arguments arg args =>
      by_cases fits : (cmdlineBytes (arg :: args)).length ≤ PATH_MAX
      · rw [captured_fitting b strings fits]
        exact ⟨fun some_ _ => some_, fun some_ => some_ fits⟩
      · exact iff_of_true (captured_long b (Nat.lt_of_not_le fits)) fun h => absurd h fits

theorem captured_iff_sleep :
    Captured (.zero _) (.arguments "sleep".toList ["10".toList]) ↔
      (CmdlineRead.arguments "sleep".toList ["10".toList]).Capturable := by
  have strings : (CmdlineRead.arguments "sleep".toList ["10".toList]).Strings := by
    intro s mem
    rcases List.mem_pair.mp mem with rfl | rfl <;> decide
  exact captured_iff (.zero _) strings

/-- A file that cannot be read: the loop starts at index -3. -/
theorem unreadable_not_captured : ¬ Captured (.zero _) .failed :=
  not_captured_of_short (by decide) (by decide) (.zero _)

end IoMonitor
