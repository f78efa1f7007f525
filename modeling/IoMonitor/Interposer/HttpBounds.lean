import IoMonitor.Interposer.HttpLines
import IoMonitor.Lib.Prog

/-!
The accesses of `check_for_http`.

The loop with its index, over memory that goes on behind the count. It ends, and
stores within its buffers, on all bytes; it reads past the count where a carriage
return ends it, and what is used behind it was stored unless the first line is empty
or a response has no number (`own_accesses_iff`).
-/

namespace IoMonitor

open CString Prog

/-- A byte read or stored, and whether what is used behind the loop was stored. -/
inductive Access where
  | readBuf (i : Nat)
  | writeBuffer1 (j : Nat)
  | writeBuffer2 (j : Nat)
  | useBuffer1 (stored : Bool)
  | useRespCode (stored : Bool)
  deriving DecidableEq

def Access.Fine (count : Nat) : Access → Prop
  | .readBuf i => i < count
  | .writeBuffer1 j => j < PATH_MAX
  | .writeBuffer2 j => j < STR_LEN
  | .useBuffer1 stored => stored = true
  | .useRespCode stored => stored = true

abbrev ScanProg (α : Type) := Traced Access Unit α

section Accesses

variable (buf : Nat → Char) (count : Nat)

/-- `buf[i]`. -/
def byteAt (i : Nat) : ScanProg Char := do
  Traced.event (.readBuf i)
  pure (buf i)

/-- The byte and, if the line is not given up, the NUL behind it. -/
def storeIn (write : Nat → Access) (size : Nat) (line : Str) (c : Char) :
    ScanProg (Option Str) := do
  Traced.event (write line.length)
  if (line ++ [c]).length ≥ size then pure none
  else do
    Traced.event (write (line ++ [c]).length)
    pure (some (line ++ [c]))

def storeByte (c : Char) : Scan → ScanProg (Option Scan)
  | .first buffer1 => do pure ((← storeIn .writeBuffer1 PATH_MAX buffer1 c).map .first)
  | .second buffer1 buffer2 => do
      pure ((← storeIn .writeBuffer2 STR_LEN buffer2 c).map (.second buffer1))

/-- `i<count && buf[i+1] == '\n'`. -/
def feedBehind (i : Nat) : ScanProg Bool :=
  if i < count then do pure (decide ((← byteAt buf (i + 1)) = '\n')) else pure false

/-- `buf[i]` is stored, and the loop goes on. -/
def storeNext (next : Scan → ScanProg (Option Str)) (i : Nat) (scan : Scan) :
    ScanProg (Option Str) := do
  match ← storeByte (← byteAt buf i) scan with
  | none => pure none
  | some scan => next scan

/-- At a carriage return: the second one ends the loop, behind the first one the line
feed is stored. -/
def lineBreak (next : Scan → ScanProg (Option Str)) (i : Nat) (scan : Scan) :
    ScanProg (Option Str) := do
  if ← feedBehind buf count i then
    match scan with
    | .second buffer1 _ => pure (some buffer1)
    | .first buffer1 => storeNext buf next (i + 1) (.second buffer1 [])
  else pure none

/-- The loop, with `buffer1` where it comes to its end. -/
def accessLoop : Nat → Nat → Scan → ScanProg (Option Str)
  | 0, _, _ => Traced.lift exhaust
  | fuel + 1, i, scan =>
      if i = count then pure (some scan.buffer1)
      else do
        if (← byteAt buf i) = nul then pure none
        else if (← byteAt buf i) = '\r' then
          lineBreak buf count (accessLoop fuel (i + 2)) i scan
        else storeNext buf (accessLoop fuel (i + 1)) i scan

/-- A line that `sscanf` is to scan. -/
def isResponse (line : Str) : Bool :=
  strstr "HTTP".toList line && !isRequest line && "HTTP/1".toList.isPrefixOf line

/-- `check_for_http`. An empty `buffer1` was never stored to. -/
def httpAccesses (stale : Stale) (fuel : Nat) : ScanProg Unit := do
  match ← accessLoop buf count fuel 0 (.first []) with
  | none => pure ()
  | some buffer1 => do
      Traced.event (.useBuffer1 (buffer1 ≠ []))
      if isResponse (stale.line buffer1) then
        Traced.event (.useRespCode (sscanf (stale.line buffer1)).2.isSome)
      else pure ()

/-- The loop ends, each access is of the buffers or of the bytes counted, and what is
used was stored. -/
def OwnAccesses (stale : Stale) : Prop :=
  ∀ fuel, PATH_MAX + STR_LEN < fuel → ∃ trace,
    httpAccesses buf count stale fuel () = (trace, .returned () ()) ∧ ∀ a ∈ trace, a.Fine count

/-- The bytes counted. -/
def counted : Str := (List.range count).map buf

end Accesses

/-! ### By lines -/

/-- A carriage return that is reached ends the count. -/
def LooksBehind (bytes : Str) : Prop :=
  (lineOf bytes).length < PATH_MAX ∧ (behindLine bytes = ['\r'] ∨
    ∃ rest, behindLine bytes = '\r' :: '\n' :: rest ∧
      (['\n'] ++ lineOf rest).length < STR_LEN ∧ behindLine rest = ['\r'])

/-- The loop comes to its end, with the first line. -/
def FirstLinePasses (bytes : Str) : Prop :=
  (lineOf bytes).length < PATH_MAX ∧ (behindLine bytes = [] ∨
    ∃ rest, behindLine bytes = '\r' :: '\n' :: rest ∧ SecondLinePasses ['\n'] rest [])

/-! ### The loop on the bytes counted -/

section Loop

variable {buf : Nat → Char} {count : Nat}

theorem byteAt_bind {α : Type} (i : Nat) (f : Char → ScanProg α) :
    (byteAt buf i >>= f) () = (.readBuf i :: (f (buf i) ()).1, (f (buf i) ()).2) := rfl

theorem feedBehind_bind {α : Type} {i : Nat} (inside : i < count) (f : Bool → ScanProg α) :
    (feedBehind buf count i >>= f) () =
      (.readBuf (i + 1) :: (f (decide (buf (i + 1) = '\n')) ()).1,
        (f (decide (buf (i + 1) = '\n')) ()).2) := by
  rw [feedBehind, if_pos inside]
  rfl

/-- How many turns there can be. -/
def Scan.turns : Scan → Nat
  | first buffer1 => PATH_MAX - buffer1.length + STR_LEN
  | second _ buffer2 => STR_LEN - buffer2.length

theorem Scan.store_hasRoom {c : Char} {scan scan' : Scan} (room : scan.HasRoom)
    (stored : scan.store c = some scan') : scan'.HasRoom ∧ scan'.turns < scan.turns := by
  cases scan with
  | first buffer1 =>
      obtain ⟨short, rfl⟩ := store_first stored
      refine ⟨short, ?_⟩
      rw [turns, turns]
      rw [List.length_append, List.length_singleton] at short ⊢
      omega
  | second buffer1 buffer2 =>
      rw [store] at stored
      split at stored
      · cases stored
      · rename_i short
        cases stored
        refine ⟨Nat.lt_of_not_le short, ?_⟩
        rw [turns, turns]
        rw [List.length_append, List.length_singleton] at short ⊢
        omega

/-- A byte is stored within its buffer. -/
theorem storeIn_eq (write : Nat → Access) {size : Nat} {line : Str}
    (fine : ∀ j < size, (write j).Fine count) (room : line.length < size) (c : Char) :
    ∃ events, (∀ e ∈ events, e.Fine count) ∧ storeIn write size line c () = (events,
      .returned (if (line ++ [c]).length ≥ size then none else some (line ++ [c])) ()) := by
  rw [storeIn]
  by_cases full : (line ++ [c]).length ≥ size
  · refine ⟨[write line.length], List.forall_mem_singleton.mpr (fine _ room), ?_⟩
    rw [if_pos full, if_pos full]
    rfl
  · refine ⟨[write line.length, write (line ++ [c]).length], ?_, ?_⟩
    · intro e mem
      rcases List.mem_pair.mp mem with rfl | rfl
      · exact fine _ room
      · exact fine _ (Nat.lt_of_not_le full)
    · rw [if_neg full, if_neg full]
      rfl

theorem storeByte_bind {α : Type} (count : Nat) {scan : Scan} (room : scan.HasRoom) (c : Char)
    (f : Option Scan → ScanProg α) :
    ∃ events, (∀ e ∈ events, e.Fine count) ∧ (storeByte c scan >>= f) () =
      (events ++ (f (scan.store c) ()).1, (f (scan.store c) ()).2) := by
  suffices stores : ∃ events, (∀ e ∈ events, e.Fine count) ∧
      storeByte c scan () = (events, .returned (scan.store c) ()) by
    obtain ⟨events, fine, stored⟩ := stores
    exact ⟨events, fine, Traced.bind_of_returned stored f⟩
  cases scan with
  | first buffer1 =>
      obtain ⟨events, fine, stored⟩ := storeIn_eq .writeBuffer1 (fun _ h => h) room c
      refine ⟨events, fine, ?_⟩
      rw [storeByte, Traced.bind_of_returned stored, Scan.store]
      split <;> simp
  | second buffer1 buffer2 =>
      obtain ⟨events, fine, stored⟩ := storeIn_eq .writeBuffer2 (fun _ h => h) room c
      refine ⟨events, fine, ?_⟩
      rw [storeByte, Traced.bind_of_returned stored, Scan.store]
      split <;> simp

/-- A run does as the scan of the bytes counted does, and reads past them where that
scan lacks a byte. -/
def Agrees (count : Nat) (run : List Access × Exit Unit (Option Str)) : Scanned → Prop
  | .starved _ _ _ => ∃ a ∈ run.1, ¬ a.Fine count
  | .returned => (∀ a ∈ run.1, a.Fine count) ∧ run.2 = .returned none ()
  | .finished line => (∀ a ∈ run.1, a.Fine count) ∧ run.2 = .returned (some line) ()

theorem Agrees.append {events : List Access} {run : List Access × Exit Unit (Option Str)}
    {scanned : Scanned} (fine : ∀ e ∈ events, e.Fine count) (h : Agrees count run scanned) :
    Agrees count (events ++ run.1, run.2) scanned := by
  cases scanned with
  | starved left scan rest =>
      obtain ⟨a, mem, outside⟩ := h
      exact ⟨a, List.mem_append_right _ mem, outside⟩
  | returned => exact ⟨List.forall_mem_append.mpr ⟨fine, h.1⟩, h.2⟩
  | finished line => exact ⟨List.forall_mem_append.mpr ⟨fine, h.1⟩, h.2⟩

theorem Agrees.read {i : Nat} {run : List Access × Exit Unit (Option Str)} {scanned : Scanned}
    (inside : i < count) (h : Agrees count run scanned) :
    Agrees count (.readBuf i :: run.1, run.2) scanned := by
  have fine : ∀ e ∈ [Access.readBuf i], e.Fine count := List.forall_mem_singleton.mpr inside
  exact Agrees.append fine h

theorem storeNext_agrees {next : Scan → ScanProg (Option Str)} {i : Nat} {scan : Scan}
    {scanned : Scanned} (inside : i < count) (room : scan.HasRoom)
    (full : scan.store (buf i) = none → scanned = .returned)
    (stored : ∀ scan', scan.store (buf i) = some scan' → Agrees count (next scan' ()) scanned) :
    Agrees count (storeNext buf next i scan ()) scanned := by
  rw [storeNext, byteAt_bind]
  refine Agrees.read inside ?_
  obtain ⟨events, fine, stores⟩ := storeByte_bind count room (buf i) _
  rw [stores]
  refine Agrees.append fine ?_
  cases store : scan.store (buf i) with
  | none =>
      rw [full store]
      exact ⟨by simp, rfl⟩
  | some scan' => exact stored scan' store

theorem lineBreak_agrees {next : Scan → ScanProg (Option Str)} {i n : Nat} {scan : Scan}
    (at_ : i + (n + 1) = count)
    (goesOn : ∀ buffer1 m, i + 2 + m = count → scan = .first buffer1 →
      Agrees count (next (.second buffer1 ['\n']) ())
        (scanLoop m (.second buffer1 ['\n']) ((List.range' (i + 2) m).map buf))) :
    Agrees count (lineBreak buf count next i scan ())
      (scanLoop (n + 1) scan ('\r' :: (List.range' (i + 1) n).map buf)) := by
  rw [lineBreak.eq_def, feedBehind_bind (by omega)]
  cases n with
  | zero =>
      rw [List.range'_zero, List.map_nil, scanLoop_cr _ (by omega)]
      refine ⟨_, List.mem_cons_self, ?_⟩
      simp only [Access.Fine]
      omega
  | succ n =>
      rw [List.range'_succ, List.map_cons]
      refine Agrees.read (by omega) ?_
      by_cases feed : buf (i + 1) = '\n'
      · rw [decide_eq_true feed, if_pos rfl, feed]
        cases scan with
        | second buffer1 buffer2 =>
            rw [scanLoop_crlf_second _ (by omega)]
            exact ⟨by simp, rfl⟩
        | first buffer1 =>
            rw [scanLoop_crlf_first _ (by omega)]
            have room : (Scan.second buffer1 []).HasRoom := by
              show ([] : Str).length < STR_LEN
              decide
            refine storeNext_agrees (by omega) room (fun full => ?_) fun scan' stored => ?_
            · rw [feed] at full
              cases full
            · rw [feed] at stored
              cases stored
              have on := goesOn buffer1 n (by omega) rfl
              rwa [show ((n + 1 : Nat) + 1 : Int) - 2 = n by omega]
      · rw [decide_eq_false feed, if_neg Bool.false_ne_true, scanLoop_cr_other _ _ (by omega) feed]
        exact ⟨by simp, rfl⟩

/-- The two scans go together turn by turn. -/
theorem accessLoop_agrees {fuel i n : Nat} {scan : Scan} (at_ : i + n = count)
    (room : scan.HasRoom) (enough : scan.turns < fuel) :
    Agrees count (accessLoop buf count fuel i scan ())
      (scanLoop n scan ((List.range' i n).map buf)) := by
  induction fuel generalizing i n scan with
  | zero => exact absurd enough (Nat.not_lt_zero _)
  | succ fuel ih =>
      rw [accessLoop]
      cases n with
      | zero =>
          rw [if_pos (by omega), Int.natCast_zero, scanLoop_zero]
          exact ⟨by simp, rfl⟩
      | succ n =>
          have inside : i < count := by omega
          have left : ((n + 1 : Nat) : Int) ≠ 0 := by omega
          rw [if_neg (by omega), List.range'_succ, List.map_cons, byteAt_bind]
          refine Agrees.read inside ?_
          rcases text_cases (buf i) with isNul | isCr | text
          · rw [if_pos isNul, isNul, scanLoop_nul _ _ left]
            exact ⟨by simp, rfl⟩
          · have notNul : buf i ≠ nul := isCr ▸ by decide
            rw [if_neg notNul, byteAt_bind]
            refine Agrees.read inside ?_
            rw [if_pos isCr, isCr]
            refine lineBreak_agrees at_ fun buffer1 m end_ first => ih end_ ?_ ?_
            · show ['\n'].length < STR_LEN
              decide
            · subst first
              have size : STR_LEN = 256 := rfl
              have before : (Scan.first buffer1).turns = PATH_MAX - buffer1.length + STR_LEN := rfl
              have after : (Scan.second buffer1 ['\n']).turns = STR_LEN - 1 := rfl
              omega
          · obtain ⟨notNul, notCr⟩ := isText_iff.mp text
            rw [if_neg notNul, byteAt_bind]
            refine Agrees.read inside ?_
            rw [if_neg notCr, scanLoop_text _ _ left notNul notCr]
            refine storeNext_agrees inside room (fun full => ?_) fun scan' stored => ?_
            · rw [full]
            · obtain ⟨room', fewer⟩ := Scan.store_hasRoom room stored
              have on := ih (i := i + 1) (n := n) (by omega) room' (by omega)
              rw [stored]
              dsimp only
              rwa [show ((n + 1 : Nat) : Int) - 1 = n by omega]

end Loop

/-! ### The whole call -/

/-- How the scan of a whole buffer ends. -/
theorem scanLoop_bytes (bytes : Str) :
    ((scanLoop bytes.length (.first []) bytes).Starves ↔ LooksBehind bytes) ∧
      ∀ line, scanLoop bytes.length (.first []) bytes = .finished line ↔
        line = lineOf bytes ∧ FirstLinePasses bytes := by
  have room : (Scan.first []).HasRoom := by decide
  have line := scanLoop_lineOf room bytes []
  rw [List.append_nil, List.append_nil, Scan.append, List.nil_append] at line
  rw [line, LooksBehind, FirstLinePasses]
  by_cases fits : (lineOf bytes).length < PATH_MAX
  · rw [if_pos (show (Scan.first (lineOf bytes)).HasRoom from fits), and_iff_right fits,
      and_iff_right fits]
    rcases behindLine_cases bytes with ended | ⟨more, isNul⟩ | ⟨more, isCr⟩
    · rw [ended, List.length_nil, Int.natCast_zero, scanLoop_zero]
      simp [Scanned.Starves, Scan.buffer1, eq_comm]
    · rw [isNul, scanLoop_nul _ _ (Int.ne_of_gt (left_pos _ _))]
      simp [Scanned.Starves, nul]
    · rw [isCr]
      cases more with
      | nil =>
          rw [scanLoop_cr _ (left_pos _ _)]
          simp [Scanned.Starves]
      | cons d more =>
          by_cases feed : d = '\n'
          · subst feed
            have left : (('\r' :: '\n' :: more).length : Int) - 2 = more.length := by
              simp only [List.length_cons]
              omega
            rw [scanLoop_crlf_first _ (left_pos _ _), left]
            obtain ⟨starves, ends⟩ := scanLoop_second_ends (hasRoom_feed (lineOf bytes)) more []
            rw [List.append_nil] at starves ends
            have lone : behindLine more ++ [] = ['\r'] ∧ behindLine more ≠ [] ↔
                behindLine more = ['\r'] := by
              rw [List.append_nil]
              exact and_iff_left_of_imp fun eq => eq ▸ List.cons_ne_nil _ _
            rw [starves, lone]
            constructor
            · simp
            · intro out
              rw [ends out]
              simp
          · rw [scanLoop_cr_other _ _ (left_pos _ _) feed]
            simp [Scanned.Starves, feed]
  · rw [if_neg (show ¬ (Scan.first (lineOf bytes)).HasRoom from fits)]
    refine ⟨iff_of_false id fun both => fits both.1, fun out => iff_of_false Scanned.noConfusion ?_⟩
    exact fun both => fits both.2.1

section Call

variable {buf : Nat → Char} {count : Nat} {stale : Stale} {fuel : Nat}

theorem httpAccesses_none {trace : List Access}
    (loop : accessLoop buf count fuel 0 (.first []) () = (trace, .returned none ())) :
    httpAccesses buf count stale fuel () = (trace, .returned () ()) := by
  rw [httpAccesses, Traced.bind_of_returned loop]
  exact Prod.ext (List.append_nil trace) rfl

theorem httpAccesses_some {trace : List Access} {line : Str}
    (loop : accessLoop buf count fuel 0 (.first []) () = (trace, .returned (some line) ())) :
    httpAccesses buf count stale fuel () = (trace ++ .useBuffer1 (line ≠ []) ::
      (if isResponse (stale.line line) then
        [.useRespCode (sscanf (stale.line line)).2.isSome] else []), .returned () ()) := by
  rw [httpAccesses, Traced.bind_of_returned loop]
  dsimp only
  rw [Traced.event_bind]
  split
  · rfl
  · rfl

theorem mem_httpAccesses {a : Access}
    (mem : a ∈ (accessLoop buf count fuel 0 (.first []) ()).1) :
    a ∈ (httpAccesses buf count stale fuel ()).1 :=
  Traced.mem_bind mem _

/-- What is used behind the loop. -/
theorem used_fine_iff (count : Nat) (stale : Stale) (line : Str) :
    (∀ a ∈ Access.useBuffer1 (line ≠ []) :: (if isResponse (stale.line line) then
      [.useRespCode (sscanf (stale.line line)).2.isSome] else []), a.Fine count) ↔
      line ≠ [] ∧ (isResponse line → (sscanf line).2.isSome) := by
  rw [List.forall_mem_cons]
  by_cases empty : line = []
  · refine iff_of_false (fun fine => ?_) fun both => both.1 empty
    have stored : decide (line ≠ []) = true := fine.1
    exact of_decide_eq_true stored empty
  · rw [Stale.line, if_neg empty]
    refine and_congr decide_eq_true_iff ?_
    split
    · rename_i response
      rw [List.forall_mem_singleton, forall_prop_of_true response]
      exact Iff.rfl
    · rename_i noResponse
      exact iff_of_true (List.forall_mem_nil _) fun response => absurd response noResponse

theorem counted_eq (buf : Nat → Char) (count : Nat) :
    (List.range' 0 count).map buf = counted buf count := by
  rw [counted, List.range_eq_range']

theorem accessLoop_counted (buf : Nat → Char) (count : Nat) (enough : PATH_MAX + STR_LEN < fuel) :
    Agrees count (accessLoop buf count fuel 0 (.first []) ())
      (scanLoop (counted buf count).length (.first []) (counted buf count)) := by
  have agrees : Agrees count (accessLoop buf count fuel 0 (.first []) ())
      (scanLoop count (.first []) ((List.range' 0 count).map buf)) :=
    accessLoop_agrees (Nat.zero_add count) (by decide) enough
  rw [counted_eq] at agrees
  rwa [show (counted buf count).length = count by simp [counted]]

/-- **The accesses.** `check_for_http` reads and uses only what it owns iff no carriage
return that it comes to ends the count, and a first line that is scanned to its end
has a byte and, as a response, a number. -/
theorem own_accesses_iff (buf : Nat → Char) (count : Nat) (stale : Stale) :
    OwnAccesses buf count stale ↔ ¬ LooksBehind (counted buf count) ∧
      (FirstLinePasses (counted buf count) → lineOf (counted buf count) ≠ [] ∧
        (isResponse (lineOf (counted buf count)) →
          (sscanf (lineOf (counted buf count))).2.isSome)) := by
  have loop := fun fuel (enough : PATH_MAX + STR_LEN < fuel) =>
    accessLoop_counted buf count enough
  obtain ⟨starves, finishes⟩ := scanLoop_bytes (counted buf count)
  generalize counted buf count = bytes at *
  cases ended : scanLoop bytes.length (.first []) bytes with
  | starved left scan rest =>
      simp only [ended] at loop starves
      refine iff_of_false (fun owns => ?_) fun both => both.1 (starves.mp trivial)
      obtain ⟨trace, ran, fine⟩ := owns _ (Nat.lt_succ_self _)
      obtain ⟨a, mem, outside⟩ := loop _ (Nat.lt_succ_self _)
      have mem : a ∈ (httpAccesses buf count stale (PATH_MAX + STR_LEN).succ ()).1 :=
        mem_httpAccesses mem
      rw [ran] at mem
      exact outside (fine a mem)
  | returned =>
      simp only [ended] at loop starves finishes
      refine iff_of_true (fun fuel enough => ?_) ⟨starves.mpr, fun passes => ?_⟩
      · obtain ⟨fine, out⟩ := loop fuel enough
        exact ⟨_, httpAccesses_none (Prod.ext rfl out), fine⟩
      · cases (finishes (lineOf bytes)).mpr ⟨rfl, passes⟩
  | finished line =>
      simp only [ended] at loop starves
      obtain ⟨rfl, passes⟩ := (finishes line).mp ended
      have noLook : ¬ LooksBehind bytes := starves.mpr
      rw [and_iff_right noLook, forall_prop_of_true passes,
        ← used_fine_iff count stale]
      constructor
      · intro owns
        obtain ⟨trace, ran, fine⟩ := owns _ (Nat.lt_succ_self _)
        obtain ⟨_, out⟩ := loop _ (Nat.lt_succ_self _)
        rw [httpAccesses_some (Prod.ext rfl out)] at ran
        cases ran
        exact fun a mem => fine a (List.mem_append_right _ mem)
      · intro used fuel enough
        obtain ⟨fine, out⟩ := loop fuel enough
        exact ⟨_, httpAccesses_some (Prod.ext rfl out), List.forall_mem_append.mpr ⟨fine, used⟩⟩

/-- One byte counted, a carriage return: the byte behind it is read. -/
theorem lone_return_looks_behind : ¬ ∀ buf count stale, OwnAccesses buf count stale := by
  intro owns
  obtain ⟨trace, ran, fine⟩ := owns (fun _ => '\r') 1 noStale _ (Nat.lt_succ_self _)
  have reads : httpAccesses (fun _ => '\r') 1 noStale (PATH_MAX + STR_LEN).succ () =
      ([.readBuf 0, .readBuf 0, .readBuf 1], .returned () ()) := rfl
  rw [reads] at ran
  cases ran
  have inside : 1 < 1 := fine (.readBuf 1) (by simp)
  exact absurd inside (Nat.lt_irrefl 1)

end Call

end IoMonitor
