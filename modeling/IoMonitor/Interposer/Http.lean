import IoMonitor.Interposer.Wrapper

/-!
`check_for_http`: what it reads and what it finds.

The hook of `read` and `recv` passes the requested count, not the result, so the
scan runs on past the bytes that were read. It reports what those bytes alone
determine iff they end the scan, or no continuation within the count completes a
line that is reported (`http_transferred_iff`).
-/

namespace IoMonitor

open CString

/-! ### The scan -/

/-- `line` and the lines so far: `buffer1` is the first one, `buffer2` the second. -/
inductive Scan where
  | first (buffer1 : Str)
  | second (buffer1 buffer2 : Str)
  deriving DecidableEq, Repr

/-- A byte goes to the end of the current line; a line that fills its buffer is
given up. -/
def Scan.store (c : Char) : Scan → Option Scan
  | first buffer1 =>
      if (buffer1 ++ [c]).length ≥ PATH_MAX then none else some (first (buffer1 ++ [c]))
  | second buffer1 buffer2 =>
      if (buffer2 ++ [c]).length ≥ STR_LEN then none else some (second buffer1 (buffer2 ++ [c]))

def Scan.buffer1 : Scan → Str
  | first buffer1 => buffer1
  | second buffer1 _ => buffer1

/-- How the loop ends: at a byte past the readable ones (`rest` are those it looked
at last), at a `return`, or behind the loop with a first line. -/
inductive Scanned where
  | starved (left : Int) (scan : Scan) (rest : Str)
  | returned
  | finished (buffer1 : Str)
  deriving DecidableEq, Repr

/-- The loop over `buf`. `left` is `count - i`, which a line break across the end of
the buffer takes below zero: `i != count` then holds on. -/
def scanLoop (left : Int) (scan : Scan) : Str → Scanned
  | [] => if left = 0 then .finished scan.buffer1 else .starved left scan []
  | c :: rest =>
      if left = 0 then .finished scan.buffer1
      else if c = nul then .returned
      else if c = '\r' then
        -- `i<count` does not hold below zero
        if left < 0 then .returned
        else
          match rest with
          | [] => .starved left scan [c]
          | d :: rest =>
              if d = '\n' then
                match scan with
                | .second buffer1 _ => .finished buffer1
                | .first buffer1 =>
                    match (Scan.second buffer1 []).store d with
                    | some scan => scanLoop (left - 2) scan rest
                    | none => .returned
              else .returned
      else
        match scan.store c with
        | some scan => scanLoop (left - 1) scan rest
        | none => .returned

/-! ### The first line -/

def isSpace (c : Char) : Bool := c ∈ [' ', '\t', '\n', Char.ofNat 11, Char.ofNat 12, '\r']

def ERANGE : Int := 34

/-- A `%d`: the number and what follows it. -/
def scanInt (s : Str) : Option (Int × Str) :=
  let s := s.dropWhile isSpace
  let unsigned := if s.head? = some '-' ∨ s.head? = some '+' then s.tail else s
  let digits := unsigned.takeWhile Char.isDigit
  if digits = [] then none
  else
    let value : Int := digits.foldl (fun n c => 10 * n + (c.toNat - '0'.toNat)) 0
    some (if s.head? = some '-' then -value else value, unsigned.dropWhile Char.isDigit)

/-- `sscanf(line, "%s %d %s", …)`: its answer and the number it stores. A number that
is no `long` is cut off there and sets `errno`; `int` takes the low bits. -/
def sscanf (line : Str) : Answer × Option Int :=
  let rest := (line.dropWhile isSpace).dropWhile (!isSpace ·)
  match scanInt rest with
  | none => (.value 1, none)
  | some (n, rest) =>
      let long := max (-2 ^ 63) (min n (2 ^ 63 - 1))
      (if n ≠ long then .failed ERANGE
        else .value (if rest.dropWhile isSpace = [] then 2 else 3), some (toInt long))

/-- What the stack holds in place of `buffer1` and `resp_code` before anything is
stored there. -/
structure Stale where
  buffer1 : Str
  respCode : Int

def isRequest (line : Str) : Bool :=
  ["GET ", "PUT ", "HEAD ", "POST ", "DELETE "].any fun verb => verb.toList.isPrefixOf line

/-- `check_for_http` behind its loop. Without a first byte `resp_proto` has no room
for what `sscanf` finds. -/
def classify (stale : Stale) (buffer1 : Str) : HttpScan :=
  let line := if buffer1 = [] then stale.buffer1 else buffer1
  if strstr "HTTP".toList line then
    if isRequest line then .request line
    else if "HTTP/1".toList.isPrefixOf line then
      if buffer1 = [] then .unreadable
      else
        let respCode := (sscanf line).2.getD stale.respCode
        .response line (sscanf line).1 (100 ≤ respCode ∧ respCode < 1000)
    else .nothing
  else .nothing

def Scanned.http (stale : Stale) : Scanned → HttpScan
  | starved _ _ _ => .unreadable
  | returned => .nothing
  | finished buffer1 => classify stale buffer1

/-- `check_for_http(…, buf, count, …)`, with the readable bytes from `buf` on. -/
def checkForHttp (stale : Stale) (buf : Str) (count : Int) : HttpScan :=
  (scanLoop count (.first []) buf).http stale

/-! ### One turn of the loop -/

theorem scanLoop_zero (scan : Scan) (buf : Str) : scanLoop 0 scan buf = .finished scan.buffer1 := by
  cases buf with
  | nil => exact if_pos rfl
  | cons c buf => rw [scanLoop.eq_def]; exact if_pos rfl

section Turn

variable {left : Int} (scan : Scan) (buf : Str)

theorem scanLoop_nil (inside : left ≠ 0) : scanLoop left scan [] = .starved left scan [] := by
  exact if_neg inside

theorem scanLoop_nul (inside : left ≠ 0) : scanLoop left scan (nul :: buf) = .returned := by
  rw [scanLoop.eq_def]
  simp [inside]

theorem scanLoop_cr_below (below : left < 0) : scanLoop left scan ('\r' :: buf) = .returned := by
  have inside : left ≠ 0 := by omega
  rw [scanLoop.eq_def]
  simp [inside, below, show '\r' ≠ nul by decide]

/-- Behind a carriage return the byte after it decides. -/
theorem scanLoop_return (inside : 0 < left) :
    scanLoop left scan ('\r' :: buf) =
      match buf with
      | [] => .starved left scan ['\r']
      | d :: rest =>
          if d = '\n' then
            match scan with
            | .second buffer1 _ => .finished buffer1
            | .first buffer1 => scanLoop (left - 2) (.second buffer1 ['\n']) rest
          else .returned := by
  rw [scanLoop.eq_def]
  simp only [show left ≠ 0 by omega, show ¬ left < 0 by omega, show '\r' ≠ nul by decide,
    if_false, if_true]
  cases buf with
  | nil => rfl
  | cons d rest =>
      by_cases feed : d = '\n'
      · subst feed
        cases scan <;> rfl
      · simp only [feed, if_false]

theorem scanLoop_cr (inside : 0 < left) :
    scanLoop left scan ['\r'] = .starved left scan ['\r'] := by
  rw [scanLoop_return scan _ inside]

theorem scanLoop_cr_other (inside : 0 < left) {d : Char} (ne : d ≠ '\n') :
    scanLoop left scan ('\r' :: d :: buf) = .returned := by
  rw [scanLoop_return scan _ inside]
  exact if_neg ne

theorem scanLoop_crlf_second (inside : 0 < left) (buffer1 buffer2 : Str) :
    scanLoop left (.second buffer1 buffer2) ('\r' :: '\n' :: buf) = .finished buffer1 := by
  rw [scanLoop_return _ _ inside]
  exact if_pos rfl

theorem scanLoop_crlf_first (inside : 0 < left) (buffer1 : Str) :
    scanLoop left (.first buffer1) ('\r' :: '\n' :: buf) =
      scanLoop (left - 2) (.second buffer1 ['\n']) buf := by
  rw [scanLoop_return _ _ inside]
  exact if_pos rfl

theorem scanLoop_text (inside : left ≠ 0) {c : Char} (notNul : c ≠ nul) (notCr : c ≠ '\r') :
    scanLoop left scan (c :: buf) =
      match scan.store c with
      | some scan => scanLoop (left - 1) scan buf
      | none => .returned := by
  rw [scanLoop.eq_def]
  simp [inside, notNul, notCr]

end Turn

/-! ### More bytes -/

/-- The scan goes on where it had no byte. -/
def Scanned.resume (bytes : Str) : Scanned → Scanned
  | starved left scan rest => scanLoop left scan (rest ++ bytes)
  | returned => returned
  | finished buffer1 => finished buffer1

theorem scanLoop_append (left : Int) (scan : Scan) (buf more : Str) :
    scanLoop left scan (buf ++ more) = (scanLoop left scan buf).resume more := by
  induction left, scan, buf using scanLoop.induct with
  | case1 scan | case3 scan => rw [scanLoop_zero, scanLoop_zero, Scanned.resume]
  | case2 left scan inside => rw [scanLoop_nil scan inside, Scanned.resume]
  | case4 left scan buf inside =>
      rw [List.cons_append, scanLoop_nul scan _ inside, scanLoop_nul scan _ inside, Scanned.resume]
  | case5 left scan buf inside below =>
      rw [List.cons_append, scanLoop_cr_below scan _ below, scanLoop_cr_below scan _ below,
        Scanned.resume]
  | case6 left scan inside above =>
      rw [scanLoop_cr scan (by omega), Scanned.resume]
  | case7 left inside above buf buffer1 buffer2 =>
      rw [List.cons_append, List.cons_append, scanLoop_crlf_second _ (by omega),
        scanLoop_crlf_second _ (by omega), Scanned.resume]
  | case8 left inside above buf buffer1 scan _ stored ih =>
      cases stored
      rw [List.cons_append, List.cons_append, scanLoop_crlf_first _ (by omega),
        scanLoop_crlf_first _ (by omega)]
      exact ih
  | case9 left inside above buf buffer1 _ full => cases full
  | case10 left scan inside above d buf other =>
      rw [List.cons_append, List.cons_append, scanLoop_cr_other scan _ (by omega) other,
        scanLoop_cr_other scan _ (by omega) other, Scanned.resume]
  | case11 left scan c buf inside notNul notCr scan' stored ih =>
      rw [List.cons_append, scanLoop_text scan _ inside notNul notCr,
        scanLoop_text scan _ inside notNul notCr, stored]
      exact ih
  | case12 left scan c buf inside notNul notCr full =>
      rw [List.cons_append, scanLoop_text scan _ inside notNul notCr,
        scanLoop_text scan _ inside notNul notCr, full]
      rfl

/-! ### How a scan ends -/

/-- `buffer1` has room for a NUL. -/
def Scan.Fits (scan : Scan) : Prop := scan.buffer1.length < PATH_MAX

theorem Scan.store_first {c : Char} {buffer1 : Str} {scan : Scan}
    (stored : (first buffer1).store c = some scan) :
    (buffer1 ++ [c]).length < PATH_MAX ∧ scan = first (buffer1 ++ [c]) := by
  rw [store] at stored
  split at stored
  · cases stored
  · cases stored
    exact ⟨Nat.lt_of_not_le ‹_›, rfl⟩

theorem Scan.store_second {c : Char} {buffer1 buffer2 : Str} {scan : Scan}
    (stored : (second buffer1 buffer2).store c = some scan) :
    scan = second buffer1 (buffer2 ++ [c]) := by
  rw [store] at stored
  split at stored
  · cases stored
  · cases stored
    rfl

theorem Scan.store_fits {c : Char} {scan scan' : Scan} (fits : scan.Fits)
    (stored : scan.store c = some scan') : scan'.Fits := by
  cases scan with
  | first buffer1 =>
      obtain ⟨short, rfl⟩ := store_first stored
      exact short
  | second buffer1 buffer2 =>
      obtain rfl := store_second stored
      exact fits

/-- How a scan over some bytes ends, turn by turn. -/
inductive Ends : Int → Scan → Scanned → Prop where
  | zero (scan : Scan) : Ends 0 scan (.finished scan.buffer1)
  | noByte {left : Int} (scan : Scan) : left ≠ 0 → Ends left scan (.starved left scan [])
  | noLineFeed {left : Int} (scan : Scan) : 0 < left → Ends left scan (.starved left scan ['\r'])
  | returned (left : Int) (scan : Scan) : Ends left scan .returned
  | secondBreak {left : Int} (buffer1 buffer2 : Str) : 0 < left →
      Ends left (.second buffer1 buffer2) (.finished buffer1)
  | firstBreak {left : Int} {buffer1 : Str} {out : Scanned} : 0 < left →
      Ends (left - 2) (.second buffer1 ['\n']) out → Ends left (.first buffer1) out
  | text {left : Int} {scan scan' : Scan} {c : Char} {out : Scanned} : left ≠ 0 → c ≠ nul →
      c ≠ '\r' → scan.store c = some scan' → Ends (left - 1) scan' out → Ends left scan out

theorem scanLoop_ends (left : Int) (scan : Scan) (buf : Str) :
    Ends left scan (scanLoop left scan buf) := by
  induction left, scan, buf using scanLoop.induct with
  | case1 scan | case3 scan =>
      rw [scanLoop_zero]
      exact .zero scan
  | case2 left scan inside =>
      rw [scanLoop_nil scan inside]
      exact .noByte scan inside
  | case4 left scan buf inside =>
      rw [scanLoop_nul scan _ inside]
      exact .returned left scan
  | case5 left scan buf inside below =>
      rw [scanLoop_cr_below scan _ below]
      exact .returned left scan
  | case6 left scan inside above =>
      have positive : 0 < left := by omega
      rw [scanLoop_cr scan positive]
      exact .noLineFeed scan positive
  | case7 left inside above buf buffer1 buffer2 =>
      have positive : 0 < left := by omega
      rw [scanLoop_crlf_second _ positive]
      exact .secondBreak buffer1 buffer2 positive
  | case8 left inside above buf buffer1 scan _ stored ih =>
      have positive : 0 < left := by omega
      cases stored
      rw [scanLoop_crlf_first _ positive]
      exact .firstBreak positive ih
  | case9 left inside above buf buffer1 _ full => cases full
  | case10 left scan inside above d buf other =>
      rw [scanLoop_cr_other scan _ (by omega) other]
      exact .returned left scan
  | case11 left scan c buf inside notNul notCr scan' stored ih =>
      rw [scanLoop_text scan _ inside notNul notCr, stored]
      exact .text inside notNul notCr stored ih
  | case12 left scan c buf inside notNul notCr full =>
      rw [scanLoop_text scan _ inside notNul notCr, full]
      exact .returned left scan

/-- A scan lacks a byte inside the count, or the one after a `\r`. -/
theorem scanLoop_starved {left left' : Int} {scan scan' : Scan} {buf rest : Str}
    (fits : scan.Fits) (ended : scanLoop left scan buf = .starved left' scan' rest) :
    scan'.Fits ∧ ((rest = [] ∧ left' ≠ 0) ∨ (rest = ['\r'] ∧ 0 < left')) := by
  have ends := ended ▸ scanLoop_ends left scan buf
  clear ended
  generalize ending : Scanned.starved left' scan' rest = out at ends
  induction ends with
  | zero | returned | secondBreak => cases ending
  | noByte scan inside =>
      cases ending
      exact ⟨fits, .inl ⟨rfl, inside⟩⟩
  | noLineFeed scan positive =>
      cases ending
      exact ⟨fits, .inr ⟨rfl, positive⟩⟩
  | firstBreak _ _ ih => exact ih fits ending
  | text _ _ _ stored _ ih => exact ih (Scan.store_fits fits stored) ending

/-- The first lines that a scan can finish with: the one it has, or the one it is
reading with more bytes, up to the end of the count or to a line break in it. -/
def CanFinish (left : Int) (line : Str) : Scan → Str → Prop
  | .first buffer1, [] =>
      ∃ more, line = buffer1 ++ more ∧ nul ∉ more ∧ '\r' ∉ more ∧ line.length < PATH_MAX ∧
        (more.length = left ∨ more.length + 2 ≤ left)
  | .first buffer1, _ :: _ => line = buffer1 ∧ 2 ≤ left
  | .second buffer1 _, _ => line = buffer1 ∧ 0 ≤ left

theorem scanLoop_finished {left : Int} {scan : Scan} {buf line : Str} (fits : scan.Fits)
    (ended : scanLoop left scan buf = .finished line) : CanFinish left line scan [] := by
  have ends := ended ▸ scanLoop_ends left scan buf
  clear ended
  generalize ending : Scanned.finished line = out at ends
  induction ends with
  | returned | noByte | noLineFeed => cases ending
  | zero scan =>
      cases ending
      cases scan with
      | first buffer1 => exact ⟨[], by simp [Scan.buffer1], by simp, by simp, fits, .inl rfl⟩
      | second buffer1 buffer2 => exact ⟨rfl, Int.le_refl 0⟩
  | secondBreak buffer1 buffer2 positive =>
      cases ending
      exact ⟨rfl, Int.le_of_lt positive⟩
  | firstBreak positive _ ih =>
      obtain ⟨rfl, room⟩ := ih fits ending
      exact ⟨[], by simp, by simp, by simp, fits, .inr (by simp; omega)⟩
  | @text left scan scan' c out inside notNul notCr stored _ ih =>
      have later := ih (Scan.store_fits fits stored) ending
      cases scan with
      | first buffer1 =>
          obtain ⟨-, rfl⟩ := Scan.store_first stored
          obtain ⟨more, rfl, noNul, noCr, short, room⟩ := later
          refine ⟨c :: more, by simp, ?_, ?_, short, ?_⟩
          · exact List.not_mem_cons_of_ne_of_not_mem (Ne.symm notNul) noNul
          · exact List.not_mem_cons_of_ne_of_not_mem (Ne.symm notCr) noCr
          · rw [List.length_cons]
            push_cast
            omega
      | second buffer1 buffer2 =>
          obtain rfl := Scan.store_second stored
          obtain ⟨rfl, room⟩ := later
          exact ⟨rfl, by omega⟩

/-- Bytes of the first line are stored while the count lasts. -/
theorem scanLoop_firstLine {left : Int} {buffer1 more : Str} (noNul : nul ∉ more)
    (noCr : '\r' ∉ more) (short : (buffer1 ++ more).length < PATH_MAX)
    (room : (more.length : Int) ≤ left) (buf : Str) :
    scanLoop left (.first buffer1) (more ++ buf) =
      scanLoop (left - more.length) (.first (buffer1 ++ more)) buf := by
  induction more generalizing left buffer1 with
  | nil => simp
  | cons c more ih =>
      rw [List.length_cons] at room
      push_cast at room
      rw [List.append_cons] at short
      have notNul : c ≠ nul := fun eq => noNul (eq ▸ List.mem_cons_self)
      have notCr : c ≠ '\r' := fun eq => noCr (eq ▸ List.mem_cons_self)
      have stored : (Scan.first buffer1).store c = some (.first (buffer1 ++ [c])) := by
        rw [List.length_append] at short
        exact if_neg (by omega)
      rw [List.cons_append, scanLoop_text _ _ (by omega) notNul notCr, stored]
      refine (ih (List.not_mem_of_not_mem_cons noNul) (List.not_mem_of_not_mem_cons noCr) short
        (by omega)).trans ?_
      rw [List.length_cons, ← List.append_cons]
      push_cast
      rw [show left - 1 - (more.length : Int) = left - (more.length + 1) by omega]

theorem scanLoop_secondBreak {left : Int} (room : 0 ≤ left) (buffer1 buffer2 buf : Str) :
    scanLoop left (.second buffer1 buffer2) ('\r' :: '\n' :: buf) = .finished buffer1 := by
  rcases Int.lt_or_eq_of_le room with positive | rfl
  · exact scanLoop_crlf_second _ positive _ _
  · exact scanLoop_zero _ _

/-- Where a scan lacks a byte, `CanFinish` lists what it can finish with. -/
theorem canFinish_iff {left : Int} {scan : Scan} {rest line : Str} (fits : scan.Fits)
    (lacks : (rest = [] ∧ left ≠ 0) ∨ (rest = ['\r'] ∧ 0 < left)) (n : Nat) :
    CanFinish left line scan rest ↔
      ∃ more, n ≤ more.length ∧ scanLoop left scan (rest ++ more) = .finished line := by
  have padded : ∀ front : Str, n ≤ (front ++ List.replicate n nul).length := by
    intro front
    rw [List.length_append, List.length_replicate]
    omega
  constructor
  · intro finishes
    rcases lacks with ⟨rfl, inside⟩ | ⟨rfl, positive⟩
    · cases scan with
      | first buffer1 =>
          obtain ⟨more, rfl, noNul, noCr, short, room⟩ := finishes
          rcases room with whole | broken
          · refine ⟨more ++ List.replicate n nul, padded more, ?_⟩
            rw [List.nil_append, scanLoop_firstLine noNul noCr short (by omega), whole,
              Int.sub_self]
            exact scanLoop_zero _ _
          · refine ⟨(more ++ ['\r', '\n', '\r', '\n']) ++ List.replicate n nul, padded _, ?_⟩
            rw [List.nil_append, List.append_assoc,
              scanLoop_firstLine noNul noCr short (by omega)]
            exact (scanLoop_crlf_first _ (by omega) _).trans (scanLoop_secondBreak (by omega) _ _ _)
      | second buffer1 buffer2 =>
          obtain ⟨rfl, room⟩ := finishes
          exact ⟨['\r', '\n'] ++ List.replicate n nul, padded _, scanLoop_secondBreak room _ _ _⟩
    · refine ⟨['\n', '\r', '\n'] ++ List.replicate n nul, padded _, ?_⟩
      cases scan with
      | first buffer1 =>
          obtain ⟨rfl, room⟩ := finishes
          exact (scanLoop_crlf_first _ positive _).trans (scanLoop_secondBreak (by omega) _ _ _)
      | second buffer1 buffer2 =>
          obtain ⟨rfl, room⟩ := finishes
          exact scanLoop_crlf_second _ positive _ _
  · rintro ⟨more, -, ended⟩
    rcases lacks with ⟨rfl, inside⟩ | ⟨rfl, positive⟩
    · exact scanLoop_finished fits ended
    · cases more with
      | nil =>
          rw [List.append_nil, scanLoop_cr _ positive] at ended
          cases ended
      | cons d more =>
          rw [List.singleton_append] at ended
          by_cases feed : d = '\n'
          · subst feed
            cases scan with
            | first buffer1 =>
                have fits' : (Scan.second buffer1 ['\n']).Fits := fits
                rw [scanLoop_crlf_first _ positive] at ended
                obtain ⟨rfl, room⟩ := scanLoop_finished fits' ended
                exact ⟨rfl, by omega⟩
            | second buffer1 buffer2 =>
                rw [scanLoop_crlf_second _ positive] at ended
                cases ended
                exact ⟨rfl, by omega⟩
          · rw [scanLoop_cr_other _ _ positive feed] at ended
            cases ended

/-- A NUL ends the scan. -/
theorem scanLoop_lacks_nul {left : Int} {scan : Scan} {rest : Str}
    (lacks : (rest = [] ∧ left ≠ 0) ∨ (rest = ['\r'] ∧ 0 < left)) (more : Str) :
    scanLoop left scan (rest ++ nul :: more) = .returned := by
  rcases lacks with ⟨rfl, inside⟩ | ⟨rfl, positive⟩
  · exact scanLoop_nul _ _ inside
  · exact scanLoop_cr_other _ _ positive (by decide)

/-! ### What the wrappers record -/

def HttpScan.reports : HttpScan → Bool
  | .request _ => true
  | .response _ _ reported => reported
  | .unreadable | .nothing => false

def Action.httpRecord : Action → Option RecordCall
  | .emit 0 call => some call
  | _ => none

/-- The records that `check_for_http` makes for a wrapper. -/
def Row.httpRecords (row : Row) (inv : Invocation) : List RecordCall :=
  (row.actions inv).filterMap Action.httpRecord

/-- The call with these bytes at `buf`. -/
def Invocation.holding (inv : Invocation) (stale : Stale) (buf : Str) : Invocation :=
  { inv with http := checkForHttp stale buf inv.count }

/-- `read` and `recv`. -/
def httpReaders : List Row := readRows.take 2

theorem httpRecords_reader {row : Row} (reader : row ∈ httpReaders) (inv : Invocation) :
    row.httpRecords inv = (httpActions inv inv.fd .fileRead).filterMap Action.httpRecord := by
  rcases List.mem_pair.mp reader with rfl | rfl
  · simp only [Row.httpRecords, Row.actions, runHook, HookStmt.run]
    split <;> simp [Invocation.locals, Action.httpRecord]
  · simp only [Row.httpRecords, Row.actions, runHook, HookStmt.run]
    split <;> simp [Invocation.locals, Action.httpRecord]

theorem httpRecords_eq_nil_iff {row : Row} (reader : row ∈ httpReaders) (inv : Invocation) :
    row.httpRecords inv = [] ↔ inv.http.reports = false := by
  rw [httpRecords_reader reader, httpActions]
  cases inv.http with
  | unreadable | nothing | request line => simp [HttpScan.reports, Action.httpRecord]
  | response line sscanf reported =>
      cases reported <;> simp [HttpScan.reports, Action.httpRecord]

/-- The bytes at a `buf` of `count` bytes, of which the call read the first ones. -/
structure Invocation.Reads (inv : Invocation) (data buf : Str) : Prop where
  read : buf.take inv.result.toNat = data
  room : inv.count ≤ buf.length

/-- The bytes read end the scan, or no line it can still finish with is reported. -/
def DecidedBy (stale : Stale) (count result : Int) (data : Str) : Prop :=
  match scanLoop count (.first []) data with
  | .starved left scan rest =>
      ∀ line, CanFinish left line scan rest → (classify stale line).reports = false
  | .returned => True
  | .finished line => result ≤ 0 → (classify stale line).reports = false

/-- Buffers that agree on the bytes read give the same records, and a read of
nothing gives none. -/
structure OnlyTransferred (row : Row) (stale : Stale) (inv : Invocation) (data : Str) : Prop where
  agree : 0 ≤ inv.result → ∀ buf₁ buf₂, inv.Reads data buf₁ → inv.Reads data buf₂ →
    row.httpRecords (inv.holding stale buf₁) = row.httpRecords (inv.holding stale buf₂)
  nothing : inv.result ≤ 0 → ∀ buf, inv.Reads data buf →
    row.httpRecords (inv.holding stale buf) = []

theorem Invocation.Reads.exists_append {inv : Invocation} {data buf : Str}
    (reads : inv.Reads data buf) : ∃ more, data ++ more = buf :=
  ⟨buf.drop inv.result.toNat, by rw [← reads.read, List.take_append_drop]⟩

theorem Invocation.reads_append {inv : Invocation} {data more : Str}
    (read : data.length = inv.result.toNat) (long : inv.count.toNat ≤ more.length) :
    inv.Reads data (data ++ more) := by
  constructor
  · rw [← read, List.take_left]
  · rw [List.length_append]
    omega

/-- Where the bytes read leave the scan without a byte, no buffer is recorded iff no
line can finish it that is reported. -/
theorem starved_silent_iff {left : Int} {scan : Scan} {rest : Str} (fits : scan.Fits)
    (lacks : (rest = [] ∧ left ≠ 0) ∨ (rest = ['\r'] ∧ 0 < left)) (stale : Stale) (n : Nat) :
    (∀ more, n ≤ more.length →
        ((scanLoop left scan (rest ++ more)).http stale).reports = false) ↔
      ∀ line, CanFinish left line scan rest → (classify stale line).reports = false := by
  constructor
  · intro silent line finishes
    obtain ⟨more, long, ended⟩ := (canFinish_iff fits lacks n).mp finishes
    have quiet := silent more long
    rwa [ended] at quiet
  · intro unreported more long
    cases ended : scanLoop left scan (rest ++ more) with
    | starved | returned => rfl
    | finished line => exact unreported line ((canFinish_iff fits lacks n).mpr ⟨more, long, ended⟩)

/-- **Only transferred data.** What `read` and `recv` record depends on the bytes read
alone iff these decide the scan. -/
theorem http_transferred_iff {row : Row} (reader : row ∈ httpReaders) (stale : Stale)
    (inv : Invocation) {data : Str} (read : data.length = inv.result.toNat) :
    OnlyTransferred row stale inv data ↔ DecidedBy stale inv.count inv.result data := by
  have silent : ∀ more, row.httpRecords (inv.holding stale (data ++ more)) = [] ↔
      (((scanLoop inv.count (.first []) data).resume more).http stale).reports = false := by
    intro more
    rw [← scanLoop_append]
    exact httpRecords_eq_nil_iff reader _
  -- A scan that reports nothing, whatever follows the bytes read.
  have quiet : (∀ more, row.httpRecords (inv.holding stale (data ++ more)) = []) →
      OnlyTransferred row stale inv data := by
    intro none_
    constructor
    · rintro - buf₁ buf₂ reads₁ reads₂
      obtain ⟨more₁, rfl⟩ := reads₁.exists_append
      obtain ⟨more₂, rfl⟩ := reads₂.exists_append
      rw [none_, none_]
    · rintro - buf reads
      obtain ⟨more, rfl⟩ := reads.exists_append
      exact none_ more
  unfold DecidedBy
  cases ended : scanLoop inv.count (.first []) data with
  | starved left scan rest =>
      rw [ended] at silent
      obtain ⟨fits, lacks⟩ := scanLoop_starved (by unfold Scan.Fits; decide) ended
      constructor
      · intro only
        refine (starved_silent_iff fits lacks stale inv.count.toNat).mp fun more long => ?_
        rw [← Scanned.resume, ← silent]
        rcases Int.le_total inv.result 0 with nothing | some_
        · exact only.nothing nothing _ (Invocation.reads_append read long)
        · -- against a buffer that ends the scan at once
          have blank : inv.count.toNat ≤ (nul :: List.replicate inv.count.toNat nul).length := by
            simp
          rw [only.agree some_ _ _ (Invocation.reads_append read long)
            (Invocation.reads_append read blank), silent,
            Scanned.resume, scanLoop_lacks_nul lacks]
          rfl
      · intro unreported
        refine quiet fun more => (silent more).mpr ?_
        exact (starved_silent_iff fits lacks stale 0).mpr unreported more (Nat.zero_le _)
  | returned =>
      rw [ended] at silent
      exact ⟨fun _ => trivial, fun _ => quiet fun more => (silent more).mpr rfl⟩
  | finished line =>
      rw [ended] at silent
      constructor
      · intro only nothing
        have long : inv.count.toNat ≤ (List.replicate inv.count.toNat nul).length := by simp
        exact (silent _).mp (only.nothing nothing _ (Invocation.reads_append read long))
      · intro unreported
        constructor
        · rintro - buf₁ buf₂ reads₁ reads₂
          obtain ⟨more₁, rfl⟩ := reads₁.exists_append
          obtain ⟨more₂, rfl⟩ := reads₂.exists_append
          have same : ∀ more, inv.holding stale (data ++ more) = inv.holding stale data := by
            intro more
            rw [Invocation.holding, Invocation.holding, checkForHttp, checkForHttp, scanLoop_append,
              ended]
            rfl
          rw [same, same]
        · rintro nothing buf reads
          obtain ⟨more, rfl⟩ := reads.exists_append
          exact (silent more).mpr (unreported nothing)

/-! A server that reads each request into the same buffer, and what the buffer holds
when the connection is closed. -/

def lastRequest : Str := "GET / HTTP/1.1\r\nHost: a\r\n\r\n".toList

def noStale : Stale := ⟨[], 0⟩

/-- `read(7, buf, 27)`. -/
def readCall (result : Int) : Invocation :=
  { Invocation.zero with result, fd := 7, count := 27 }

def readRow : Row := readRows.getD 0 writeRow

theorem readRow_reader : readRow ∈ httpReaders := List.mem_cons_self

theorem scanLoop_lastRequest :
    scanLoop 27 (.first []) lastRequest = .finished "GET / HTTP/1.1".toList := by
  decide +kernel

theorem http_transferred_iff_request :
    OnlyTransferred readRow noStale (readCall 27) lastRequest :=
  (http_transferred_iff readRow_reader noStale (readCall 27) rfl).mpr (by
    have ended : scanLoop (readCall 27).count (.first []) lastRequest = _ := scanLoop_lastRequest
    rw [DecidedBy, ended]
    intro nothing
    exact absurd nothing (by decide))

theorem request_reported :
    ((Scanned.finished "GET / HTTP/1.1".toList).http noStale).reports = true := by
  decide +kernel

/-- At the end of the file the request is recorded again. -/
theorem http_endOfFile_recorded :
    ¬ ∀ row ∈ httpReaders, ∀ stale inv data, data.length = inv.result.toNat →
      inv.result ≤ inv.count → OnlyTransferred row stale inv data := by
  intro only
  have quiet := (only readRow readRow_reader noStale (readCall 0) [] rfl (by decide)).nothing
    (by decide) lastRequest ⟨rfl, by decide⟩
  have ended : scanLoop (readCall 0).count (.first []) lastRequest = _ := scanLoop_lastRequest
  rw [httpRecords_eq_nil_iff readRow_reader, Invocation.holding, checkForHttp, ended,
    request_reported] at quiet
  cases quiet

end IoMonitor
