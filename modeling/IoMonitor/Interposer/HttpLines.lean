import IoMonitor.Interposer.Http

/-!
`check_for_http` by lines.

The scan comes to its end iff the first line fits in `buffer1`, the second with its
newline in `buffer2`, and each ends with the count or in a line break. So a header
line that is too long, or the start of a body, keeps a start line from being
recorded (`start_line_iff`); and the status of a response is scanned and not passed
on (`response_status_lost`).
-/

namespace IoMonitor

open CString

def isText (c : Char) : Bool := c ≠ nul ∧ c ≠ '\r'

/-- The bytes before the first NUL or carriage return, and the others. -/
def lineOf (bytes : Str) : Str := bytes.takeWhile isText

def behindLine (bytes : Str) : Str := bytes.dropWhile isText

/-- From `rest` on the second line fits and ends with the count, or in a line break.
`behind` follows the bytes that are counted. -/
def SecondLinePasses (buffer2 rest behind : Str) : Prop :=
  (buffer2 ++ lineOf rest).length < STR_LEN ∧
    (behindLine rest = [] ∨ ['\r', '\n'] <+: behindLine rest ++ behind)

theorem isText_iff {c : Char} : isText c ↔ c ≠ nul ∧ c ≠ '\r' := decide_eq_true_iff

/-- A character is text, a NUL or a carriage return. -/
theorem text_cases (c : Char) : c = nul ∨ c = '\r' ∨ isText c := by
  by_cases isNul : c = nul
  · exact .inl isNul
  by_cases isCr : c = '\r'
  · exact .inr (.inl isCr)
  · exact .inr (.inr (isText_iff.mpr ⟨isNul, isCr⟩))

theorem lineOf_append_behindLine (bytes : Str) : lineOf bytes ++ behindLine bytes = bytes :=
  List.takeWhile_append_dropWhile

theorem isText_of_mem_lineOf (bytes : Str) : ∀ c ∈ lineOf bytes, isText c :=
  fun _ => List.mem_takeWhile_imp

theorem behindLine_cases (bytes : Str) :
    behindLine bytes = [] ∨ (∃ rest, behindLine bytes = nul :: rest) ∨
      ∃ rest, behindLine bytes = '\r' :: rest := by
  cases ended : behindLine bytes with
  | nil => exact .inl rfl
  | cons c rest =>
      have stop : ¬ isText c := by
        have head := List.head?_dropWhile_not isText bytes
        rw [show bytes.dropWhile isText = c :: rest from ended] at head
        simpa using head
      rcases text_cases c with rfl | rfl | text
      · exact .inr (.inl ⟨rest, rfl⟩)
      · exact .inr (.inr ⟨rest, rfl⟩)
      · exact absurd text stop

/-! ### The scan of a line -/

/-- The line being read has room. -/
def Scan.HasRoom : Scan → Prop
  | first buffer1 => buffer1.length < PATH_MAX
  | second _ buffer2 => buffer2.length < STR_LEN

instance (scan : Scan) : Decidable scan.HasRoom :=
  match scan with
  | .first buffer1 => inferInstanceAs (Decidable (buffer1.length < PATH_MAX))
  | .second _ buffer2 => inferInstanceAs (Decidable (buffer2.length < STR_LEN))

def Scan.append (text : Str) : Scan → Scan
  | first buffer1 => first (buffer1 ++ text)
  | second buffer1 buffer2 => second buffer1 (buffer2 ++ text)

theorem Scan.append_nil (scan : Scan) : scan.append [] = scan := by
  cases scan <;> simp [append]

theorem Scan.append_cons (scan : Scan) (c : Char) (text : Str) :
    scan.append (c :: text) = (scan.append [c]).append text := by
  cases scan <;> simp [append]

theorem Scan.store_eq (scan : Scan) (c : Char) :
    scan.store c = if (scan.append [c]).HasRoom then some (scan.append [c]) else none := by
  cases scan with
  | first buffer1 =>
      by_cases room : (buffer1 ++ [c]).length < PATH_MAX
      · rw [store, if_neg (Nat.not_le_of_lt room)]
        exact (if_pos room).symm
      · rw [store, if_pos (Nat.le_of_not_lt room)]
        exact (if_neg room).symm
  | second buffer1 buffer2 =>
      by_cases room : (buffer2 ++ [c]).length < STR_LEN
      · rw [store, if_neg (Nat.not_le_of_lt room)]
        exact (if_pos room).symm
      · rw [store, if_pos (Nat.le_of_not_lt room)]
        exact (if_neg room).symm

theorem Scan.HasRoom.of_append {scan : Scan} {text : Str} (room : (scan.append text).HasRoom) :
    scan.HasRoom := by
  cases scan with
  | first buffer1 =>
      rw [append, HasRoom, List.length_append] at room
      exact Nat.lt_of_le_of_lt (Nat.le_add_right _ _) room
  | second buffer1 buffer2 =>
      rw [append, HasRoom, List.length_append] at room
      exact Nat.lt_of_le_of_lt (Nat.le_add_right _ _) room

/-- Text is stored while there is room. -/
theorem scanLoop_line {left : Int} {scan : Scan} (room : scan.HasRoom) {text : Str}
    (plain : ∀ c ∈ text, isText c) (inside : text.length ≤ left) (buf : Str) :
    scanLoop left scan (text ++ buf) =
      if (scan.append text).HasRoom then scanLoop (left - text.length) (scan.append text) buf
      else .returned := by
  induction text generalizing left scan with
  | nil =>
      rw [Scan.append_nil, if_pos room]
      simp
  | cons c text ih =>
      obtain ⟨first, others⟩ := List.forall_mem_cons.mp plain
      obtain ⟨notNul, notCr⟩ := isText_iff.mp first
      rw [List.length_cons] at inside ⊢
      push_cast at inside ⊢
      rw [List.cons_append, scanLoop_text _ _ (by omega) notNul notCr, Scan.store_eq,
        Scan.append_cons scan c text]
      by_cases stored : (scan.append [c]).HasRoom
      · rw [if_pos stored]
        dsimp only
        rw [ih stored others (by omega),
          show left - 1 - (text.length : Int) = left - (text.length + 1) by omega]
      · rw [if_neg stored, if_neg fun both => stored both.of_append]

/-- The scan takes a line, and then looks at what ends it. -/
theorem scanLoop_lineOf {scan : Scan} (room : scan.HasRoom) (bytes behind : Str) :
    scanLoop bytes.length scan (bytes ++ behind) =
      if (scan.append (lineOf bytes)).HasRoom then
        scanLoop (behindLine bytes).length (scan.append (lineOf bytes)) (behindLine bytes ++ behind)
      else .returned := by
  have length := congrArg List.length (lineOf_append_behindLine bytes)
  rw [List.length_append] at length
  have line := scanLoop_line room (isText_of_mem_lineOf bytes)
    (show ((lineOf bytes).length : Int) ≤ bytes.length by omega) (behindLine bytes ++ behind)
  rw [← List.append_assoc, lineOf_append_behindLine] at line
  rw [line, show (bytes.length : Int) - (lineOf bytes).length = (behindLine bytes).length by omega]

theorem left_pos (c : Char) (rest : Str) : 0 < ((c :: rest).length : Int) := by
  rw [List.length_cons]
  omega

/-- The second line starts with its line feed. -/
theorem hasRoom_feed (buffer1 : Str) : (Scan.second buffer1 ['\n']).HasRoom :=
  show ['\n'].length < STR_LEN by decide

def Scanned.Starves : Scanned → Prop
  | starved _ _ _ => True
  | returned => False
  | finished _ => False

/-- A second line lacks a byte where a carriage return is the last one, and ends where
it passes. -/
theorem scanLoop_second_ends {buffer1 buffer2 : Str} (room : (Scan.second buffer1 buffer2).HasRoom)
    (rest behind : Str) :
    ((scanLoop rest.length (.second buffer1 buffer2) (rest ++ behind)).Starves ↔
      (buffer2 ++ lineOf rest).length < STR_LEN ∧ behindLine rest ++ behind = ['\r'] ∧
        behindLine rest ≠ []) ∧
    ∀ line, scanLoop rest.length (.second buffer1 buffer2) (rest ++ behind) = .finished line ↔
      line = buffer1 ∧ SecondLinePasses buffer2 rest behind := by
  rw [scanLoop_lineOf room]
  by_cases fits : (buffer2 ++ lineOf rest).length < STR_LEN
  · rw [if_pos (show ((Scan.second buffer1 buffer2).append (lineOf rest)).HasRoom from fits)]
    simp only [SecondLinePasses, fits, true_and, Scan.append]
    rcases behindLine_cases rest with ended | ⟨more, isNul⟩ | ⟨more, isCr⟩
    · rw [ended, List.length_nil, Int.natCast_zero, scanLoop_zero]
      simp [Scanned.Starves, Scan.buffer1, eq_comm]
    · rw [isNul, List.cons_append, scanLoop_nul _ _ (Int.ne_of_gt (left_pos _ _))]
      simp [Scanned.Starves, nul]
    · rw [isCr, List.cons_append]
      cases more ++ behind with
      | nil =>
          rw [scanLoop_cr _ (left_pos _ _)]
          simp [Scanned.Starves]
      | cons d tail =>
          by_cases feed : d = '\n'
          · subst feed
            rw [scanLoop_crlf_second _ (left_pos _ _)]
            simp [Scanned.Starves, eq_comm]
          · rw [scanLoop_cr_other _ _ (left_pos _ _) feed]
            simp [Scanned.Starves, Ne.symm feed]
  · rw [if_neg (show ¬ ((Scan.second buffer1 buffer2).append (lineOf rest)).HasRoom from fits)]
    refine ⟨iff_of_false id fun both => fits both.1, fun line => ?_⟩
    exact iff_of_false Scanned.noConfusion fun both => fits both.2.1

/-- Behind a first line the scan comes to its end iff the second line passes. -/
theorem scanLoop_startLine {line : Str} (noNul : nul ∉ line) (noCr : '\r' ∉ line)
    (short : line.length < PATH_MAX) (rest behind : Str) (out : Str) :
    scanLoop (line.length + 2 + rest.length) (.first [])
        (line ++ '\r' :: '\n' :: (rest ++ behind)) = .finished out ↔
      out = line ∧ SecondLinePasses ['\n'] rest behind := by
  rw [scanLoop_firstLine noNul noCr (by simpa using short) (by omega), List.nil_append,
    show ((line.length : Int) + 2 + rest.length) - line.length = rest.length + 2 by omega,
    scanLoop_crlf_first _ (by omega),
    show ((rest.length : Int) + 2) - 2 = rest.length by omega]
  exact (scanLoop_second_ends (hasRoom_feed line) rest behind).2 out

/-! ### The record of a start line -/

/-- The records of `check_for_http(dom, fd, …)`, called by a wrapper. -/
def httpEmitted (inv : Invocation) (fd : Int) (dom : DomainType) (scan : HttpScan) :
    List RecordCall :=
  (httpActions { inv with http := scan } fd dom).filterMap Action.httpRecord

/-- The string at `buffer1` behind the loop. -/
def Stale.line (stale : Stale) (line : Str) : Str := if line = [] then stale.buffer1 else line

def httpOp (dom : DomainType) (line : Str) : OpType :=
  if isRequest line then if dom = .fileWrite then .httpReqSend else .httpReqRecv
  else if dom = .fileWrite then .httpRespSend else .httpRespRecv

/-- What is recorded is one start line, with error code 0. -/
theorem httpEmitted_classify (inv : Invocation) (fd : Int) (dom : DomainType) (stale : Stale)
    (line : Str) : httpEmitted inv fd dom (classify stale line) =
      if (classify stale line).reports then
        [httpCall inv fd (httpOp dom (stale.line line)) (stale.line line)]
      else [] := by
  have held : (if line = [] then stale.buffer1 else line) = stale.line line := rfl
  rw [classify, held]
  dsimp only
  split
  · split
    · rename_i request
      rw [httpOp, if_pos request]
      rfl
    · rename_i response
      rw [httpOp, if_neg response]
      split
      · split
        · rfl
        · unfold httpEmitted httpActions HttpScan.reports
          dsimp only
          split
          · rfl
          · rfl
      · rfl
  · rfl

/-- `check_for_http` on a start line with `rest` behind it, to the end of the count,
and `behind` after that. -/
def scanStartLine (stale : Stale) (line rest behind : Str) : HttpScan :=
  checkForHttp stale (line ++ '\r' :: '\n' :: (rest ++ behind)) (line.length + 2 + rest.length)

/-- The second line passes and the start line is one that is recorded. -/
def Reports (stale : Stale) (line rest behind : Str) : Prop :=
  SecondLinePasses ['\n'] rest behind ∧ (classify stale line).reports

/-- A line that the first line of a buffer can be. -/
structure StartLine (line : Str) : Prop where
  noNul : nul ∉ line
  noCr : '\r' ∉ line
  short : line.length < PATH_MAX

section Emitted

variable (inv : Invocation) (fd : Int) (dom : DomainType) (stale : Stale) {line : Str}

theorem httpEmitted_reports {rest behind : Str} (start : StartLine line)
    (reports : Reports stale line rest behind) :
    httpEmitted inv fd dom (scanStartLine stale line rest behind) =
      [httpCall inv fd (httpOp dom (stale.line line)) (stale.line line)] := by
  have ends := scanLoop_startLine start.noNul start.noCr start.short rest behind line
  rw [scanStartLine, checkForHttp, ends.mpr ⟨rfl, reports.1⟩, Scanned.http, httpEmitted_classify,
    if_pos reports.2]

theorem httpEmitted_silent {rest behind : Str} (start : StartLine line)
    (silent : ¬ Reports stale line rest behind) :
    httpEmitted inv fd dom (scanStartLine stale line rest behind) = [] := by
  have ends := scanLoop_startLine start.noNul start.noCr start.short rest behind
  rw [scanStartLine, checkForHttp]
  cases ended : scanLoop (line.length + 2 + rest.length) (.first [])
      (line ++ '\r' :: '\n' :: (rest ++ behind)) with
  | starved left scan rest => rfl
  | returned => rfl
  | finished out =>
      obtain ⟨rfl, passes⟩ := (ends out).mp ended
      rw [Scanned.http, httpEmitted_classify, if_neg fun reports => silent ⟨passes, reports⟩]

/-- **The start line.** Two buffers with one start line give the same record, or none,
iff it is reported for both or for neither; and as the same, where it is empty and
`buffer1` is left as it was. -/
theorem start_line_iff (start : StartLine line) (stale₁ stale₂ : Stale)
    (rest₁ behind₁ rest₂ behind₂ : Str) :
    httpEmitted inv fd dom (scanStartLine stale₁ line rest₁ behind₁) =
        httpEmitted inv fd dom (scanStartLine stale₂ line rest₂ behind₂) ↔
      (Reports stale₁ line rest₁ behind₁ ↔ Reports stale₂ line rest₂ behind₂) ∧
        (Reports stale₁ line rest₁ behind₁ → stale₁.line line = stale₂.line line) := by
  by_cases first : Reports stale₁ line rest₁ behind₁
  · rw [httpEmitted_reports inv fd dom stale₁ start first]
    by_cases second : Reports stale₂ line rest₂ behind₂
    · rw [httpEmitted_reports inv fd dom stale₂ start second]
      constructor
      · intro same
        have s1 := congrArg RecordCall.s1 (List.head_eq_of_cons_eq same)
        exact ⟨iff_of_true first second, fun _ => CharPtr.str.inj s1⟩
      · rintro ⟨-, same⟩
        rw [same first]
    · rw [httpEmitted_silent inv fd dom stale₂ start second]
      exact iff_of_false (List.cons_ne_nil _ _) fun both => second (both.1.mp first)
  · rw [httpEmitted_silent inv fd dom stale₁ start first]
    by_cases second : Reports stale₂ line rest₂ behind₂
    · rw [httpEmitted_reports inv fd dom stale₂ start second]
      exact iff_of_false (List.cons_ne_nil _ _).symm fun both => first (both.1.mpr second)
    · rw [httpEmitted_silent inv fd dom stale₂ start second]
      exact iff_of_true rfl ⟨iff_of_false first second, fun reports => absurd reports first⟩

end Emitted

/-- A request. -/
def requestLine : Str := "GET / HTTP/1.1".toList

theorem requestLine_start : StartLine requestLine := ⟨by decide, by decide, by decide⟩

theorem start_line_iff_request :
    httpEmitted Invocation.zero 7 .fileRead (scanStartLine noStale requestLine [] []) =
        httpEmitted Invocation.zero 7 .fileRead (scanStartLine noStale requestLine ['\r', '\n'] []) ↔
      (Reports noStale requestLine [] [] ↔ Reports noStale requestLine ['\r', '\n'] []) ∧
        (Reports noStale requestLine [] [] →
          noStale.line requestLine = noStale.line requestLine) :=
  start_line_iff Invocation.zero 7 .fileRead requestLine_start noStale noStale _ _ _ _

/-- A first header of 255 bytes hides the request. -/
theorem long_header_hides_request : ¬ ∀ inv fd dom line, StartLine line →
    ∀ stale₁ stale₂ rest₁ behind₁ rest₂ behind₂,
      httpEmitted inv fd dom (scanStartLine stale₁ line rest₁ behind₁) =
        httpEmitted inv fd dom (scanStartLine stale₂ line rest₂ behind₂) := by
  intro same
  have reported : (classify noStale requestLine).reports := request_reported
  have header : lineOf (List.replicate 255 'a') = List.replicate 255 'a' := by
    refine List.takeWhile_eq_self_iff.mpr fun c mem => ?_
    obtain rfl := List.eq_of_mem_replicate mem
    decide
  have alone : Reports noStale requestLine [] [] := ⟨⟨by decide, .inl rfl⟩, reported⟩
  have hidden : ¬ Reports noStale requestLine (List.replicate 255 'a') [] := by
    intro reports
    have short := reports.1.1
    rw [header, List.length_append, List.length_replicate] at short
    exact absurd short (by decide)
  have both := same Invocation.zero 7 .fileRead requestLine requestLine_start noStale noStale
    [] [] (List.replicate 255 'a') []
  rw [httpEmitted_reports _ _ _ _ requestLine_start alone,
    httpEmitted_silent _ _ _ _ requestLine_start hidden] at both
  cases both

/-! ### The status of a response -/

/-- The value of decimal digits. -/
def digitsValue (digits : Str) : Int :=
  digits.foldl (fun n c => 10 * n + (c.toNat - '0'.toNat)) 0

/-- `HTTP/1.`, the minor version, the status and the reason. -/
def responseLine (minor digits reason : Str) : Str :=
  "HTTP/1.".toList ++ minor ++ ' ' :: (digits ++ ' ' :: reason)

/-- A status line. -/
structure StatusLine (minor digits reason : Str) : Prop where
  word : ∀ c ∈ minor, isSpace c = false
  number : ∀ c ∈ digits, c.isDigit
  range : 100 ≤ digitsValue digits ∧ digitsValue digits ≤ 999
  start : StartLine (responseLine minor digits reason)

theorem isSpace_of_isDigit {c : Char} (digit : c.isDigit) : isSpace c = false := by
  refine Bool.eq_false_iff.mpr fun space => ?_
  have mem : c ∈ [' ', '\t', '\n', Char.ofNat 11, Char.ofNat 12, '\r'] := of_decide_eq_true space
  simp only [List.mem_cons, List.not_mem_nil, or_false] at mem
  rcases mem with rfl | rfl | rfl | rfl | rfl | rfl <;> exact absurd digit (by decide)

theorem scanInt_digits {digits reason : Str} (number : ∀ c ∈ digits, c.isDigit)
    (nonempty : digits ≠ []) :
    scanInt (' ' :: (digits ++ ' ' :: reason)) = some (digitsValue digits, ' ' :: reason) := by
  obtain ⟨d, ds, rfl⟩ := List.exists_cons_of_ne_nil nonempty
  have digit := number d List.mem_cons_self
  have skipped : (' ' :: (d :: ds ++ ' ' :: reason)).dropWhile isSpace =
      d :: ds ++ ' ' :: reason := by
    rw [List.dropWhile_cons_of_pos (by decide), List.cons_append,
      List.dropWhile_cons_of_neg (by simp [isSpace_of_isDigit digit])]
  have unsigned : ¬ ((d :: ds ++ ' ' :: reason).head? = some '-' ∨
      (d :: ds ++ ' ' :: reason).head? = some '+') := by
    rw [List.cons_append, List.head?_cons]
    rintro (sign | sign)
    · cases sign
      exact absurd digit (by decide)
    · cases sign
      exact absurd digit (by decide)
  have digits : (d :: ds ++ ' ' :: reason).takeWhile Char.isDigit = d :: ds := by
    rw [List.takeWhile_append_of_pos number, List.takeWhile_cons_of_neg (by decide),
      List.append_nil]
  have behind : (d :: ds ++ ' ' :: reason).dropWhile Char.isDigit = ' ' :: reason := by
    rw [List.dropWhile_append_of_pos number, List.dropWhile_cons_of_neg (by decide)]
  rw [scanInt]
  simp only [skipped, if_neg unsigned, digits, behind, if_neg (List.cons_ne_nil d ds),
    if_neg fun sign => unsigned (.inl sign)]
  rfl

theorem responseLine_cons (minor digits reason : Str) :
    responseLine minor digits reason =
      'H' :: 'T' :: 'T' :: 'P' :: '/' :: '1' :: '.' ::
        (minor ++ ' ' :: (digits ++ ' ' :: reason)) := by
  have chars : "HTTP/1.".toList = ['H', 'T', 'T', 'P', '/', '1', '.'] := by decide
  unfold responseLine
  rw [chars]
  simp only [List.cons_append, List.nil_append]

theorem sscanf_responseLine {minor digits reason : Str} (status : StatusLine minor digits reason) :
    (sscanf (responseLine minor digits reason)).2 = some (digitsValue digits) := by
  obtain ⟨low, high⟩ := status.range
  have nonempty : digits ≠ [] := by
    rintro rfl
    exact absurd low (by decide)
  have rest : ((responseLine minor digits reason).dropWhile isSpace).dropWhile (!isSpace ·) =
      ' ' :: (digits ++ ' ' :: reason) := by
    have version : ∀ c ∈ 'H' :: 'T' :: 'T' :: 'P' :: '/' :: '1' :: '.' :: minor, !isSpace c := by
      simp only [List.forall_mem_cons]
      exact ⟨by decide, by decide, by decide, by decide, by decide, by decide, by decide,
        fun c mem => by simp [status.word c mem]⟩
    rw [responseLine_cons, List.dropWhile_cons_of_neg (by decide)]
    exact (List.dropWhile_append_of_pos version).trans (List.dropWhile_cons_of_neg (by decide))
  have long : max (-2 ^ 63) (min (digitsValue digits) (2 ^ 63 - 1)) = digitsValue digits := by
    omega
  rw [sscanf, rest, scanInt_digits status.number nonempty]
  dsimp only
  rw [long, toInt, Int.bmod_eq_of_le (by omega) (by omega)]

theorem responseLine_prefix (minor digits reason : Str) :
    "HTTP/1".toList.isPrefixOf (responseLine minor digits reason) = true := by
  have chars : "HTTP/1".toList = ['H', 'T', 'T', 'P', '/', '1'] := by decide
  rw [responseLine_cons, chars]
  simp

theorem isRequest_responseLine (minor digits reason : Str) :
    isRequest (responseLine minor digits reason) = false := by
  have verbs : ["GET ", "PUT ", "HEAD ", "POST ", "DELETE "].map String.toList =
    [['G', 'E', 'T', ' '], ['P', 'U', 'T', ' '], ['H', 'E', 'A', 'D', ' '],
      ['P', 'O', 'S', 'T', ' '], ['D', 'E', 'L', 'E', 'T', 'E', ' ']] := by decide
  have asked : isRequest (responseLine minor digits reason) =
      (["GET ", "PUT ", "HEAD ", "POST ", "DELETE "].map String.toList).any
        (·.isPrefixOf (responseLine minor digits reason)) := by
    rw [List.any_map]
    rfl
  rw [asked, verbs, responseLine_cons]
  simp [List.isPrefixOf]

theorem classify_responseLine (stale : Stale) {minor digits reason : Str}
    (status : StatusLine minor digits reason) :
    (classify stale (responseLine minor digits reason)).reports := by
  obtain ⟨low, high⟩ := status.range
  have nonempty : responseLine minor digits reason ≠ [] := by
    rw [responseLine_cons]
    exact List.cons_ne_nil _ _
  have http : strstr "HTTP".toList (responseLine minor digits reason) = true := by
    have chars : "HTTP".toList = ['H', 'T', 'T', 'P'] := by decide
    rw [strstr_iff, responseLine_cons, chars]
    exact List.IsPrefix.isInfix ⟨_, rfl⟩
  rw [classify, if_neg nonempty]
  simp only [http, if_true, isRequest_responseLine, Bool.false_eq_true, if_false,
    responseLine_prefix, nonempty, sscanf_responseLine status, Option.getD_some]
  refine decide_eq_true ⟨low, by omega⟩

theorem httpEmitted_responseLine (inv : Invocation) (fd : Int) (dom : DomainType) (stale : Stale)
    {minor digits reason : Str} (status : StatusLine minor digits reason) (bytes behind : Str) :
    httpEmitted inv fd dom (scanStartLine stale (responseLine minor digits reason)
        ('\r' :: '\n' :: bytes) behind) =
      [httpCall inv fd (if dom = .fileWrite then .httpRespSend else .httpRespRecv)
        (responseLine minor digits reason)] := by
  have nonempty : responseLine minor digits reason ≠ [] := by
    rw [responseLine_cons]
    exact List.cons_ne_nil _ _
  have passes : SecondLinePasses ['\n'] ('\r' :: '\n' :: bytes) behind := by
    rw [SecondLinePasses, lineOf, behindLine, List.takeWhile_cons_of_neg (by decide),
      List.dropWhile_cons_of_neg (by decide)]
    exact ⟨by decide, .inr ⟨bytes ++ behind, rfl⟩⟩
  rw [httpEmitted_reports inv fd dom stale status.start
    ⟨passes, classify_responseLine stale status⟩, Stale.line, if_neg nonempty, httpOp,
    isRequest_responseLine, if_neg Bool.false_ne_true]

/-- One record, of the response and with its status. -/
def RecordsStatus (dom : DomainType) (line : Str) (status : Int) (records : List RecordCall) :
    Prop :=
  ∃ call, records = [call] ∧
    call.opType = (if dom = .fileWrite then .httpRespSend else .httpRespRecv) ∧
    call.s1 = .str line ∧ call.errorCode = status

/-- **The status of a response.** A response is recorded once, with its operation and
its start line, and never with its status: the error code is 0. -/
theorem response_status_lost (inv : Invocation) (fd : Int) (dom : DomainType) (stale : Stale)
    {minor digits reason : Str} (status : StatusLine minor digits reason) (bytes behind : Str) :
    RecordsStatus dom (responseLine minor digits reason) 0 (httpEmitted inv fd dom
        (scanStartLine stale (responseLine minor digits reason) ('\r' :: '\n' :: bytes) behind)) ∧
      ¬ RecordsStatus dom (responseLine minor digits reason) (digitsValue digits)
        (httpEmitted inv fd dom (scanStartLine stale (responseLine minor digits reason)
          ('\r' :: '\n' :: bytes) behind)) := by
  rw [httpEmitted_responseLine inv fd dom stale status]
  constructor
  · exact ⟨_, rfl, rfl, rfl, rfl⟩
  · rintro ⟨call, only, -, -, code⟩
    obtain rfl := List.singleton_inj.mp only
    have zero : 0 = digitsValue digits := code
    have low := status.range.1
    omega

theorem notFound_status : StatusLine "1".toList "404".toList "Not Found".toList :=
  ⟨forall_mem_of_all (by decide), forall_mem_of_all (by decide), by decide,
    by decide, by decide, by decide⟩

theorem response_status_lost_notFound :
    RecordsStatus .fileRead (responseLine "1".toList "404".toList "Not Found".toList) 0
        (httpEmitted Invocation.zero 7 .fileRead (scanStartLine noStale
          (responseLine "1".toList "404".toList "Not Found".toList) ['\r', '\n'] [])) ∧
      ¬ RecordsStatus .fileRead (responseLine "1".toList "404".toList "Not Found".toList)
        (digitsValue "404".toList) (httpEmitted Invocation.zero 7 .fileRead (scanStartLine noStale
          (responseLine "1".toList "404".toList "Not Found".toList) ['\r', '\n'] [])) :=
  response_status_lost Invocation.zero 7 .fileRead noStale notFound_status [] []

/-- A `404` is recorded with error code 0. -/
theorem notFound_recorded_as_zero : ¬ ∀ inv fd dom stale minor digits reason,
    StatusLine minor digits reason → ∀ bytes behind,
      RecordsStatus dom (responseLine minor digits reason) (digitsValue digits)
        (httpEmitted inv fd dom (scanStartLine stale (responseLine minor digits reason)
          ('\r' :: '\n' :: bytes) behind)) := by
  intro recorded
  obtain ⟨call, only, -, -, code⟩ := recorded Invocation.zero 7 .fileRead noStale _ _ _
    notFound_status [] []
  rw [httpEmitted_responseLine Invocation.zero 7 .fileRead noStale notFound_status] at only
  obtain rfl := List.singleton_inj.mp only
  exact absurd code (by decide)

end IoMonitor
