import IoMonitor.Lib.CharBuffer
import IoMonitor.Record

/-!
`thread_loop` of the CLI plugin, which hands the lines of its input to the listener.

It does not ask `fgets` whether it has read a line. At the end of the input the
buffer stays as it is and is handed over once more, for as long as the loop runs
(`threadLoop_strings`).
-/

namespace IoMonitor.Listener

open CString

/-- `fgets(buf, n, stdin)`: the buffer afterwards and the rest of the input. -/
def fgetsInto {n : Nat} (buf : CharBuffer n) (stdin : Str) : Except Fault (CharBuffer n × Str) :=
  match fgetsCall n [] stdin with
  | none => .ok (buf, stdin)
  | some (text, rest) => do .ok (← buf.strcpy 0 text, rest)

/-- The buffers that `thread_loop` passes to `command_function` until it reads
`kill_thread` as set, after that many turns. -/
def threadLoop (buf : CharBuffer PATH_MAX) (stdin : Str) :
    Nat → Except Fault (List (CharBuffer PATH_MAX))
  | 0 => .ok []
  | turns + 1 => do
      let (buf, stdin) ← fgetsInto buf stdin
      .ok (buf :: (← threadLoop buf stdin turns))

theorem fgetsInto_line (buf : CharBuffer PATH_MAX) {stdin text rest : Str}
    (call : fgetsCall PATH_MAX [] stdin = some (text, rest)) :
    ∃ buf', fgetsInto buf stdin = .ok (buf', rest) ∧ buf'.string = cstr text := by
  have short := fgetsCall_short (by decide) call
  obtain ⟨buf', copied, bytes⟩ := buf.strcpy_room (i := 0) (s := text) (by omega)
  refine ⟨buf', ?_, ?_⟩
  · rw [fgetsInto, call]
    simp only [copied, PointerArray.ok_bind]
  · rw [CharBuffer.string, bytes, List.take_zero, List.nil_append, CharBuffer.cstr_append_nul]

/-- The strings handed over are the lines read, and then the last of them again. -/
theorem threadLoop_strings (turns : Nat) (buf : CharBuffer PATH_MAX) (stdin : Str) :
    ∃ buffers, threadLoop buf stdin turns = .ok buffers ∧
      buffers.map CharBuffer.string =
        ((fgets PATH_MAX [] stdin).map cstr).take turns ++
          List.replicate (turns - (fgets PATH_MAX [] stdin).length)
            (((fgets PATH_MAX [] stdin).map cstr).getLast?.getD buf.string) := by
  induction turns generalizing buf stdin with
  | zero => exact ⟨[], rfl, by simp⟩
  | succ turns ih =>
      cases call : fgetsCall PATH_MAX [] stdin with
      | none =>
          have same : fgetsInto buf stdin = .ok (buf, stdin) := by rw [fgetsInto, call]
          obtain ⟨buffers, later, strings⟩ := ih buf stdin
          rw [fgets_of_call_none call] at strings ⊢
          refine ⟨buf :: buffers, ?_, ?_⟩
          · simp only [threadLoop, same, later, PointerArray.ok_bind]
          · simpa [List.replicate_succ] using strings
      | some read =>
          obtain ⟨text, rest⟩ := read
          obtain ⟨buf', next, string⟩ := fgetsInto_line buf call
          obtain ⟨buffers, later, strings⟩ := ih buf' rest
          rw [fgets_of_call call]
          refine ⟨buf' :: buffers, ?_, ?_⟩
          · simp only [threadLoop, next, later, PointerArray.ok_bind]
          · rw [List.map_cons, List.map_cons, strings, string, List.take_succ_cons,
              List.getLast?_cons, Option.getD_some, List.length_cons, Nat.add_sub_add_right,
              List.cons_append]

/-- No line is handed over twice, and nothing at the end of the input. -/
def ExecutesLines (buf : CharBuffer PATH_MAX) (stdin : Str) (turns : Nat) : Prop :=
  ∃ buffers, threadLoop buf stdin turns = .ok buffers ∧
    buffers.map CharBuffer.string <+: (linesOf [] stdin).map cstr

/-- **The command loop.** On lines that fit in the buffer, each is handed over once and
nothing else iff the loop takes no more turns than there are lines. -/
theorem executesLines_iff (buf : CharBuffer PATH_MAX) {stdin : Str}
    (fit : ∀ line ∈ linesOf [] stdin, line.length < PATH_MAX) (turns : Nat) :
    ExecutesLines buf stdin turns ↔ turns ≤ (linesOf [] stdin).length := by
  obtain ⟨buffers, ran, strings⟩ := threadLoop_strings turns buf stdin
  rw [fgets_eq_linesOf fit] at strings
  constructor
  · rintro ⟨buffers', ran', lines⟩
    cases ran.symm.trans ran'
    have short := lines.length_le
    rw [strings, List.length_append, List.length_take, List.length_replicate,
      List.length_map] at short
    omega
  · intro few
    refine ⟨buffers, ran, ?_⟩
    rw [strings, Nat.sub_eq_zero_of_le few, List.replicate_zero, List.append_nil]
    exact List.take_prefix _ _

theorem executesLines_iff_two :
    ExecutesLines (.zero _) "l\nq\n".toList 2 ↔ 2 ≤ (linesOf [] "l\nq\n".toList).length :=
  executesLines_iff (.zero _) (by decide) 2

/-- After its one line the loop lists the plugins again. -/
theorem line_executed_again :
    ∃ buffers, threadLoop (.zero _) "l\n".toList 2 = .ok buffers ∧
      buffers.map CharBuffer.string = ["l\n".toList, "l\n".toList] ∧
      ¬ ExecutesLines (.zero _) "l\n".toList 2 := by
  obtain ⟨buffers, ran, strings⟩ := threadLoop_strings 2 (.zero _) "l\n".toList
  have reads : fgets PATH_MAX [] "l\n".toList = ["l\n".toList] := by decide
  rw [reads] at strings
  refine ⟨buffers, ran, strings, ?_⟩
  rintro ⟨buffers', ran', lines⟩
  cases ran.symm.trans ran'
  have short := lines.length_le
  rw [strings] at short
  exact absurd short (by decide)

end IoMonitor.Listener
