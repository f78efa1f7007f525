import IoMonitor.Lib.CString
import IoMonitor.Lib.PointerArray

/-!
A `char[n]` that is read and written byte by byte, with checked accesses.

After `memset(b, 0, n)` such a buffer holds the text that is written from its start
on, and NULs (`Holds`): it stays a terminated string while that text is shorter than `n`.
A run of bytes is written iff it fits (`write_room`, `write_outside`).
-/

namespace CString

structure CharBuffer (n : Nat) where
  bytes : Str
  size : bytes.length = n

namespace CharBuffer

variable {n : Nat}

/-- All bytes NUL. -/
def zero (n : Nat) : CharBuffer n := ⟨List.replicate n nul, List.length_replicate⟩

/-- `b[i] = c`. -/
def store (b : CharBuffer n) (i : Int) (c : Char) : Except Fault (CharBuffer n) :=
  if 0 ≤ i ∧ i.toNat < n then .ok ⟨b.bytes.set i.toNat c, List.length_set.trans b.size⟩
  else .error (.outside i)

/-- `b[i]`. -/
def load (b : CharBuffer n) (i : Int) : Except Fault Char :=
  match b.bytes[i.toNat]? with
  | some c => if 0 ≤ i then .ok c else .error (.outside i)
  | none => .error (.outside i)

/-- The bytes of `text`, from `b[i]` on. -/
def write (b : CharBuffer n) (i : Nat) : Str → Except Fault (CharBuffer n)
  | [] => .ok b
  | c :: text => do write (← b.store i c) (i + 1) text

/-- `strcpy(b + i, s)`. -/
def strcpy (b : CharBuffer n) (i : Nat) (s : Str) : Except Fault (CharBuffer n) :=
  b.write i (s ++ [nul])

/-- `memset(b, c, n)`. -/
def memset (c : Char) (_ : CharBuffer n) : CharBuffer n :=
  ⟨List.replicate n c, List.length_replicate⟩

/-- What is read from the start of the buffer. -/
def string (b : CharBuffer n) : Str := cstr b.bytes

def Terminated (b : CharBuffer n) : Prop := nul ∈ b.bytes

/-- The buffer holds `text` and then NULs. -/
def Holds (b : CharBuffer n) (text : Str) : Prop :=
  b.bytes = text ++ List.replicate (n - text.length) nul

theorem memset_holds (b : CharBuffer n) : (b.memset nul).Holds [] := rfl

/-- The first NUL is overwritten. -/
theorem Holds.store {b : CharBuffer n} {text : Str} (h : b.Holds text) (room : text.length < n)
    (c : Char) : ∃ b', b.store text.length c = .ok b' ∧ b'.Holds (text ++ [c]) := by
  refine ⟨_, if_pos ⟨Int.natCast_nonneg _, room⟩, ?_⟩
  obtain ⟨k, left⟩ := Nat.exists_eq_add_of_lt room
  rw [Holds, List.length_append, List.length_singleton, show n - (text.length + 1) = k by omega]
  change b.bytes.set text.length c = _
  rw [show b.bytes = _ from h, show n - text.length = k + 1 by omega,
    List.set_append_right _ _ (Nat.le_refl _), Nat.sub_self, List.replicate_succ,
    List.set_cons_zero, List.append_assoc, List.singleton_append]

theorem Holds.terminated {b : CharBuffer n} {text : Str} (h : b.Holds text)
    (short : text.length < n) : b.Terminated := by
  rw [Terminated, show b.bytes = _ from h]
  refine List.mem_append_right _ (List.mem_replicate.mpr ⟨?_, rfl⟩)
  omega

theorem Holds.string {b : CharBuffer n} {text : Str} (h : b.Holds text) (noNul : nul ∉ text) :
    b.string = text := by
  have clean : ∀ c ∈ text, decide (c ≠ nul) = true :=
    fun c mem => decide_eq_true fun eq => noNul (eq ▸ mem)
  rw [CharBuffer.string, show b.bytes = _ from h, cstr, List.takeWhile_append_of_pos clean]
  cases n - text.length <;> simp [List.replicate_succ]

/-! ### Runs of bytes -/

theorem load_inside {b : CharBuffer n} {i : Nat} {c : Char} (at_ : b.bytes[i]? = some c) :
    b.load i = .ok c := by
  rw [load, Int.toNat_natCast, at_]
  exact if_pos (Int.natCast_nonneg i)

theorem load_negative (b : CharBuffer n) {i : Int} (negative : i < 0) :
    b.load i = .error (.outside i) := by
  have outside : ¬ 0 ≤ i := Int.not_le.mpr negative
  unfold load
  split
  · exact if_neg outside
  · rfl

theorem store_inside (b : CharBuffer n) {i : Nat} (room : i < n) (c : Char) :
    ∃ b', b.store i c = .ok b' ∧ b'.bytes = b.bytes.set i c :=
  ⟨_, if_pos ⟨Int.natCast_nonneg _, room⟩, rfl⟩

theorem store_outside (b : CharBuffer n) {i : Nat} (outside : n ≤ i) (c : Char) :
    b.store i c = .error (.outside i) :=
  if_neg fun inside => Nat.not_lt_of_le outside inside.2

/-- As many bytes as are written are replaced, and all others stay. -/
theorem write_over {b : CharBuffer n} {front replaced behind text : Str}
    (h : b.bytes = front ++ replaced ++ behind) (same : replaced.length = text.length) :
    ∃ b', b.write front.length text = .ok b' ∧ b'.bytes = front ++ text ++ behind := by
  induction text generalizing b front replaced with
  | nil =>
      obtain rfl := List.length_eq_zero_iff.mp same
      exact ⟨b, rfl, h⟩
  | cons c text ih =>
      obtain ⟨d, replaced, rfl⟩ := List.exists_cons_of_length_eq_add_one same
      have room : front.length < n := by
        rw [← b.size, h]
        simp
      obtain ⟨next, stored, bytes⟩ := b.store_inside room c
      rw [h, List.append_assoc, List.set_append_right _ _ (Nat.le_refl _), Nat.sub_self,
        List.cons_append, List.set_cons_zero, ← List.singleton_append, ← List.append_assoc,
        ← List.append_assoc] at bytes
      obtain ⟨b', written, all⟩ := ih bytes (Nat.succ.inj same)
      rw [List.length_append, List.length_singleton] at written
      refine ⟨b', ?_, by simpa using all⟩
      rw [write, stored, PointerArray.ok_bind, written]

theorem write_room (b : CharBuffer n) {i : Nat} {text : Str} (room : i + text.length ≤ n) :
    ∃ b', b.write i text = .ok b' ∧
      b'.bytes = b.bytes.take i ++ text ++ b.bytes.drop (i + text.length) := by
  have size := b.size
  have split : b.bytes = b.bytes.take i ++ (b.bytes.drop i).take text.length ++
      b.bytes.drop (i + text.length) := by
    rw [List.append_assoc, ← List.drop_drop, List.take_append_drop, List.take_append_drop]
  have before : (b.bytes.take i).length = i := by
    rw [List.length_take]
    omega
  have replaced : ((b.bytes.drop i).take text.length).length = text.length := by
    rw [List.length_take, List.length_drop]
    omega
  have written := write_over split replaced
  rwa [before] at written

/-- The first byte behind the buffer is the fault. -/
theorem write_outside (b : CharBuffer n) {i : Nat} {text : Str} (start : i ≤ n)
    (overrun : n < i + text.length) : b.write i text = .error (.outside n) := by
  induction text generalizing b i with
  | nil => exact absurd overrun (Nat.not_lt_of_le start)
  | cons c text ih =>
      rw [List.length_cons] at overrun
      rw [write]
      rcases Nat.lt_or_eq_of_le start with room | last
      · obtain ⟨next, stored, -⟩ := b.store_inside room c
        rw [stored, PointerArray.ok_bind]
        exact ih _ room (by omega)
      · rw [last, store_outside b (Nat.le_refl _)]
        rfl

/-- A string ends at the NUL behind it, or before. -/
theorem cstr_append_nul (s behind : Str) : cstr (s ++ nul :: behind) = cstr s := by
  induction s with
  | nil => rfl
  | cons c s ih =>
      rw [List.cons_append, cstr, cstr, List.takeWhile_cons, List.takeWhile_cons]
      split
      · exact congrArg (c :: ·) ih
      · rfl

theorem strcpy_room (b : CharBuffer n) {i : Nat} {s : Str} (room : i + s.length < n) :
    ∃ b', b.strcpy i s = .ok b' ∧
      b'.bytes = b.bytes.take i ++ s ++ nul :: b.bytes.drop (i + s.length + 1) := by
  have whole : i + (s ++ [nul]).length ≤ n := by
    rw [List.length_append, List.length_singleton]
    omega
  obtain ⟨b', written, bytes⟩ := b.write_room whole
  refine ⟨b', written, ?_⟩
  rw [bytes, List.length_append, List.length_singleton]
  simp [Nat.add_assoc]

/-- What is in front of the string and behind its NUL stays. -/
theorem strcpy_frame (b : CharBuffer n) {i : Nat} {s : Str} (room : i + s.length < n) :
    ∃ b', b.strcpy i s = .ok b' ∧ b'.bytes.take i = b.bytes.take i ∧
      s ++ [nul] <+: b'.bytes.drop i ∧
      ∀ j, i + s.length < j → b'.bytes.drop j = b.bytes.drop j := by
  obtain ⟨b', copied, bytes⟩ := b.strcpy_room room
  have size := b.size
  have before : (b.bytes.take i).length = i := by
    rw [List.length_take]
    omega
  rw [← List.singleton_append, List.append_assoc, ← List.append_assoc s] at bytes
  refine ⟨b', copied, ?_, ?_, fun j behind => ?_⟩
  · rw [bytes, List.take_left' before]
  · rw [bytes, List.drop_left' before]
    exact List.prefix_append _ _
  · have written : (b.bytes.take i ++ (s ++ [nul])).length = i + s.length + 1 := by
      rw [List.length_append, List.length_append, List.length_singleton, before]
      omega
    obtain ⟨k, rfl⟩ := Nat.exists_eq_add_of_le (Nat.succ_le_of_lt behind)
    rw [bytes, ← List.append_assoc, Nat.succ_eq_add_one, ← List.drop_drop,
      List.drop_left' written, List.drop_drop]

theorem strcpy_outside (b : CharBuffer n) {i : Nat} {s : Str} (start : i ≤ n)
    (overrun : n ≤ i + s.length) : b.strcpy i s = .error (.outside n) :=
  write_outside b start (by rw [List.length_append, List.length_singleton]; omega)

end CharBuffer

end CString
