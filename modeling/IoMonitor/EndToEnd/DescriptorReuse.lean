import IoMonitor.EndToEnd
import Mathlib.Data.List.Nodup

/-!
Threads that close and open.

A wrapper makes its call first and sends its record afterwards, and nothing ties
the two together. So while one thread is between closing a descriptor and
sending the `CLOSE`, another may be handed the same number by `fopen` and send
its `OPEN` first; the late `CLOSE` then erases the entry of an open file
(`reused_descriptor_lost`). Where no record of an older call on the descriptor
comes after the `OPEN`, the entry stands (`reopened_known`).
-/

namespace IoMonitor

open CString Listener

/-! ### The process -/

/-- A call that the kernel has carried out, the `start`-th one; its wrapper has
yet to send the record, or has sent it. -/
structure Started where
  call : FileCall
  start : Nat

/-- The `fopen` that each open descriptor is from. -/
abbrev Openers := Int → Option Started

/-- A call of `fopen` on `path`. -/
def FileCall.Fopen (c : FileCall) (path : Str) : Prop :=
  c.row = fopenRow ∧ (c.inv.text "mode").Readable ∧ nul ∉ path

/-- It returns a stream on `fd`. -/
def FileCall.Succeeds (c : FileCall) (path : Str) : Prop :=
  c.inv.result ≠ 0 ∧ c.inv.fileno = some (.value c.fd) ∧ 0 ≤ c.fd ∧ path ≠ [] ∧
    path.length < PATH_MAX

/-- It returns `NULL`. -/
def FileCall.Fails (c : FileCall) : Prop := c.inv.result = 0 ∧ c.fd = FD_NONE

instance (c : FileCall) (path : Str) : Decidable (c.Fopen path) := by
  unfold FileCall.Fopen CharPtr.Readable; infer_instance

instance (c : FileCall) (path : Str) : Decidable (c.Succeeds path) := by
  unfold FileCall.Succeeds; infer_instance

instance (c : FileCall) : Decidable c.Fails := by unfold FileCall.Fails; infer_instance

/-- The kernel's part of a call. `close` frees the descriptor also where it
reports an error, and `fopen` may be handed any number that is free. -/
def Started.perform (p : Started) (files : Openers) : Option Openers :=
  let c := p.call
  if c.row = closeRow then
    if c.fd = c.inv.fd then some (Function.update files c.fd none) else none
  else
    match c.inv.text c.row.s1 with
    | .str path =>
        if ¬ c.Fopen path then none
        else if c.Fails then some files
        else if c.Succeeds path ∧ files c.fd = none then
          some (Function.update files c.fd (some p))
        else none
    | _ => none

/-- What the threads share: the library, the descriptors, the calls whose record
is not sent yet, by their threads, and those whose record is, in order. -/
structure Shared where
  world : World
  files : Openers
  inFlight : List (Nat × Started)
  sent : List Started
  clock : Nat

/-- The two steps of a wrapper. -/
inductive WrapperStep where
  | call (thread : Nat) (c : FileCall)
  | send (thread : Nat)

def Shared.step (s : Shared) : WrapperStep → Option Shared
  | .call thread c =>
      if thread ∈ s.inFlight.map Prod.fst then none
      else
        let p : Started := ⟨c, s.clock⟩
        (p.perform s.files).map fun files =>
          { s with files, inFlight := (thread, p) :: s.inFlight, clock := s.clock + 1 }
  | .send thread =>
      match s.inFlight.find? (·.1 = thread) with
      | none => none
      | some (_, p) =>
          match handleCall p.call.env 0 p.call.row p.call.inv s.world with
          | .returned _ w =>
              some
                { s with
                  world := w
                  inFlight := s.inFlight.filter (·.1 ≠ thread)
                  sent := s.sent ++ [p] }
          | _ => none

/-- The queue takes the message of a send. -/
def Shared.Takes (s : Shared) : WrapperStep → Prop
  | .call _ _ => True
  | .send thread => ∀ e ∈ s.inFlight, e.1 = thread →
      HandedOver s.world.monitor (e.2.call.env.outcomes [1])

instance (s : Shared) (m : WrapperStep) : Decidable (s.Takes m) := by
  cases m <;> unfold Shared.Takes <;> infer_instance

/-- Before the first call. -/
def Shared.start (w : World) : Shared := ⟨w, fun _ => none, [], [], 0⟩

/-- The listener's table, once it has processed the queue. -/
def Shared.table (mounts : MountTable) (hostname : Str) (s : Shared) : FdTable :=
  (inputLoop mounts hostname noFiles s.world.delivered).1

/-- The table knows every descriptor that is from an `fopen`. -/
def Shared.KnowsOpeners (mounts : MountTable) (hostname : Str) (s : Shared) : Prop :=
  ∀ fd opener path, s.files fd = some opener → opener.call.inv.text "path" = .str path →
    s.table mounts hostname fd = some (pathToDev mounts path)

/-- No record of an older call on the descriptor was sent after the opener's. -/
def Shared.InOrder (s : Shared) (fd : Int) (opener : Started) : Prop :=
  ∀ before after, s.sent = before ++ opener :: after →
    ∀ q ∈ after, q.call.fd = fd → opener.start ≤ q.start

/-! ### What a record does to the table -/

/-- The entry the record of a call sets or erases, for descriptors that are not
standard streams. -/
def Started.effect (mounts : MountTable) (p : Started) : Option (Int × Option Str) :=
  if p.call.row = closeRow then some (p.call.fd, none)
  else
    match p.call.inv.text p.call.row.s1 with
    | .str path =>
        if p.call.inv.result ≠ 0 ∧ path ≠ ['.'] ∧ path ≠ ['.', '.'] then
          some (p.call.fd, some (pathToDev mounts path))
        else none
    | _ => none

/-- The calls the kernel may carry out. -/
inductive FileCall.Genuine (c : FileCall) : Prop where
  | close (row : c.row = closeRow) (fd : c.fd = c.inv.fd)
  | fails (path : Str) (s1 : c.inv.text c.row.s1 = .str path) (fopen : c.Fopen path)
      (fails : c.Fails)
  | opens (path : Str) (s1 : c.inv.text c.row.s1 = .str path) (fopen : c.Fopen path)
      (success : c.Succeeds path)

/-- What the kernel's part does to the descriptors. -/
theorem Started.perform_cases {p : Started} {files files' : Openers}
    (h : p.perform files = some files') :
    p.call.Genuine ∧
      ((files' = Function.update files p.call.fd none) ∨ (p.call.Fails ∧ files' = files) ∨
        ∃ path, p.call.inv.text p.call.row.s1 = .str path ∧ p.call.Fopen path ∧
          p.call.Succeeds path ∧ files' = Function.update files p.call.fd (some p)) := by
  unfold Started.perform at h
  dsimp only at h
  split at h
  · rename_i row
    split at h
    · rename_i fd
      cases h
      exact ⟨.close row fd, .inl rfl⟩
    · cases h
  · split at h
    · rename_i path s1
      split at h
      · cases h
      · rename_i fopen
        have fopen := not_not.mp fopen
        split at h
        · rename_i fails
          cases h
          exact ⟨.fails path s1 fopen fails, .inr (.inl ⟨fails, rfl⟩)⟩
        · split at h
          · rename_i success
            cases h
            exact ⟨.opens path s1 fopen success.1,
              .inr (.inr ⟨path, s1, fopen, success.1, rfl⟩)⟩
          · cases h
    · cases h

/-! ### One record -/

theorem update_fd {mounts : MountTable} {r : MonitorRecord} {entry : Int × Option Str}
    (h : update mounts r = some entry) : entry.1 = r.fd := by
  unfold update at h
  split at h
  · cases h
  · split at h
    · split at h
      · cases h
        rfl
      · cases h
    · split at h
      · cases h
        rfl
      · cases h

/-- Elsewhere than at its own descriptor a record changes nothing. -/
theorem apply_update_ne {mounts : MountTable} {r : MonitorRecord} {fd : Int} (ne : r.fd ≠ fd)
    (t : FdTable) : KeyedStore.apply (update mounts) t r fd = t fd := by
  apply KeyedStore.apply_of_not_touches
  unfold KeyedStore.touches
  cases h : update mounts r with
  | none => rfl
  | some entry =>
      obtain ⟨k, v⟩ := entry
      rw [← update_fd h] at ne
      exact decide_eq_false ne

/-- The wrapper makes this one record. -/
structure FileCall.Emits (c : FileCall) (rc : RecordCall) : Prop where
  plain : c.row.isExec = false
  runs : ∀ emit w, runActions emit (c.row.actions c.inv) w = (emit 1 rc >>= fun _ => pure ()) w
  valid : rc.Valid

/-- The record is dropped by the filters, or is the one sent. -/
def RecordCall.SentAs (m : Monitor) (rc : RecordCall) (rs : List MonitorRecord) : Prop :=
  if rc.isStdio || rc.opensDot then rs = []
  else ∃ r timestamp pid, rs = [r] ∧ buildRecord m rc timestamp pid = some r

theorem FileCall.Emits.sends {c : FileCall} {rc : RecordCall} (h : c.Emits rc) {w : World}
    (settings : Unfiltered w.monitor) (takes : HandedOver w.monitor (c.env.outcomes [1])) :
    ∃ w' rs, handleCall c.env 0 c.row c.inv w = .returned c.inv.result w' ∧
      Unfiltered w'.monitor ∧ w'.delivered = w.delivered ++ rs ∧ rc.SentAs w.monitor rs := by
  unfold RecordCall.SentAs
  by_cases dropped : (rc.isStdio || rc.opensDot) = true
  · have verdict := recordFilters_unfiltered settings h.valid.defined (c.env.outcomes [1]).time
    rw [if_pos dropped] at verdict
    have ran : recordAt c.env 0 [1] .application rc { w with errno := c.inv.errno } = _ :=
      record_ignored verdict
    refine ⟨_, [], handleCall_emits h.plain h.runs ran, settings, by simp, ?_⟩
    rw [if_pos dropped]
  · obtain ⟨stdio, dot⟩ : rc.isStdio = false ∧ rc.opensDot = false := by simpa using dropped
    obtain ⟨w', r, ran, delivered, built, monitor⟩ := recordAt_delivered 0 .application
      (w := { w with errno := c.inv.errno }) settings h.valid stdio dot takes
    refine ⟨w', [r], handleCall_emits h.plain h.runs ran, settings.congr monitor, delivered, ?_⟩
    rw [if_neg dropped]
    exact ⟨r, _, _, rfl, built⟩

/-- What a send does to the table, at descriptors that are not standard streams. -/
def Started.Reports (p : Started) (rs : List MonitorRecord) : Prop :=
  ∀ mounts t fd, 3 ≤ fd → KeyedStore.replay (update mounts) t rs fd =
    KeyedStore.apply (Started.effect mounts) t p fd

/-- The record of a standard stream, or of none, is not seen. -/
theorem RecordCall.SentAs.unseen {rc : RecordCall} {m : Monitor} {rs : List MonitorRecord}
    (sent : rc.SentAs m rs) (low : rc.fd < 3) {key : Int} (high : 3 ≤ key) (mounts : MountTable)
    (t : FdTable) : KeyedStore.replay (update mounts) t rs key = t key := by
  unfold RecordCall.SentAs at sent
  split at sent
  · rw [sent]
    rfl
  · obtain ⟨r, _, _, rfl, built⟩ := sent
    rw [KeyedStore.replay_cons, KeyedStore.replay_nil]
    refine apply_update_ne ?_ t
    rw [(buildRecord_fields built).1]
    omega

theorem Started.reports_close {p : Started} (row : p.call.row = closeRow)
    {rc : RecordCall} (records : p.call.Records none rc) {m : Monitor} {rs : List MonitorRecord}
    (sent : rc.SentAs m rs) : p.Reports rs := by
  have effect : ∀ mounts, p.effect mounts = some (p.call.fd, none) := by
    intro mounts
    rw [Started.effect, if_pos row]
  have carries : p.call.row ∈ carriers := by rw [row]; decide
  have fd := records.fd
  rw [if_pos carries] at fd
  intro mounts t key high
  rw [KeyedStore.apply, effect]
  dsimp only
  by_cases low : p.call.fd < 3
  · rw [Function.update_of_ne (by omega)]
    exact sent.unseen (fd ▸ low) high mounts t
  · unfold RecordCall.SentAs at sent
    have visible : (rc.isStdio || rc.opensDot) = false := by
      simp [RecordCall.isStdio, RecordCall.opensDot, records.closes rfl, fd]
      omega
    rw [visible] at sent
    obtain ⟨r, _, _, rfl, built⟩ := sent
    rw [KeyedStore.replay_cons, KeyedStore.replay_nil, KeyedStore.apply,
      records.update mounts (by omega) (fun _ h => by cases h) built, if_pos carries]
    rfl

theorem Started.reports_open {p : Started} {path : Str}
    (s1 : p.call.inv.text p.call.row.s1 = .str path) (fopen : p.call.Fopen path)
    (success : p.call.Succeeds path) {rc : RecordCall} (records : p.call.Records (some path) rc)
    {m : Monitor} {rs : List MonitorRecord} (sent : rc.SentAs m rs) : p.Reports rs := by
  unfold RecordCall.SentAs at sent
  obtain ⟨row, mode, noNul⟩ := fopen
  obtain ⟨stream, fileno, natural, nonempty, short⟩ := success
  have carries : p.call.row ∈ carriers := by rw [row]; decide
  have notClose : p.call.row ≠ closeRow := by rw [row]; decide
  obtain ⟨op, first⟩ := records.opens path rfl
  have fd := records.fd
  rw [if_pos carries] at fd
  have dots : ¬ rc.opensDot = true ↔ path ≠ ['.'] ∧ path ≠ ['.', '.'] := by
    simp [RecordCall.opensDot, op, first]
  have effect : ∀ mounts, p.effect mounts =
      if rc.opensDot then none
      else some (p.call.fd, some (pathToDev mounts path)) := by
    intro mounts
    rw [Started.effect, if_neg notClose, s1]
    dsimp only
    by_cases dot : rc.opensDot = true
    · rw [if_pos dot, if_neg fun h => dots.mpr h.2 dot]
    · rw [if_neg dot, if_pos ⟨stream, dots.mp dot⟩]
  have stdio : rc.isStdio = true ↔ p.call.fd < 3 := by
    simp [RecordCall.isStdio, fd, records.domain]
    omega
  intro mounts t key high
  rw [KeyedStore.apply, effect]
  by_cases dot : rc.opensDot = true
  · rw [if_pos (by simp [dot])] at sent
    rw [if_pos dot, sent]
    rfl
  · rw [if_neg dot]
    dsimp only
    by_cases low : p.call.fd < 3
    · rw [if_pos (by simp [stdio.mpr low])] at sent
      rw [sent, Function.update_of_ne (by omega)]
      rfl
    · have visible : ¬ (rc.isStdio || rc.opensDot) = true := by simp [dot, stdio, low]
      rw [if_neg visible] at sent
      obtain ⟨r, _, _, rfl, built⟩ := sent
      have opens : ∀ q, some path = some q → p.call.Opens q := by
        rintro q ⟨⟩
        refine ⟨by omega, nonempty, (dots.mp dot).1, (dots.mp dot).2, noNul, short, ?_⟩
        rw [if_pos (by rw [row]; decide)]
        exact ⟨stream, fileno, mode⟩
      rw [KeyedStore.replay_cons, KeyedStore.replay_nil, KeyedStore.apply,
        records.update mounts (by omega) opens built, if_pos carries]
      rfl

theorem Started.reports_fails {p : Started} (row : p.call.row = fopenRow)
    (fails : p.call.Fails) {rc : RecordCall} (fd : rc.fd = FD_NONE) {m : Monitor}
    {rs : List MonitorRecord} (sent : rc.SentAs m rs) : p.Reports rs := by
  have notClose : p.call.row ≠ closeRow := by rw [row]; decide
  have effect : ∀ mounts, p.effect mounts = none := by
    intro mounts
    rw [Started.effect, if_neg notClose]
    split <;> simp [fails.1]
  intro mounts t key high
  rw [KeyedStore.apply, effect]
  exact sent.unseen (fd ▸ by decide) high mounts t

/-- The record of a failed `fopen`. -/
theorem FileCall.emits_fails {c : FileCall} {path : Str} (s1 : c.inv.text c.row.s1 = .str path)
    (fopen : c.Fopen path) (fails : c.Fails) : ∃ rc, c.Emits rc ∧ rc.fd = FD_NONE := by
  obtain ⟨row, mode, -⟩ := fopen
  obtain ⟨null, -⟩ := fails
  have open_ : c.row ∈ openFamily := by rw [row]; decide
  obtain ⟨plain, domain, op, named, hasFd, shape⟩ := openFamily_shape c.row open_
  rw [if_pos (by rw [row]; decide)] at shape
  obtain ⟨hook, s2⟩ := shape
  let l : Locals := { c.inv.locals with errorCode := c.inv.errno, fd := FD_NONE }
  have actions : c.row.actions c.inv = [.emit 1 (c.row.recordCall c.inv l)] := by
    simp [Row.actions, hook, runHook, HookStmt.run, null, l]
  have first : (c.row.recordCall c.inv l).s1 = .str path := by
    simpa [Row.recordCall, Row.argument, named, l, Invocation.locals] using s1
  have second : (c.row.recordCall c.inv l).s2.Readable := by
    simpa [Row.recordCall, Row.argument, s2, l, Invocation.locals] using mode
  refine ⟨c.row.recordCall c.inv l, ⟨plain, fun emit w => by rw [actions]; rfl, ?_, second, ?_⟩, ?_⟩
  · simp [first, CharPtr.Readable]
  · exact fun _ => ⟨domain, path, first⟩
  · simp [Row.recordCall, l]

/-- A send, by what is known of the record. -/
theorem Started.sends_of_emits {p : Started} {rc : RecordCall} (emits : p.call.Emits rc) {w : World}
    (settings : Unfiltered w.monitor) (takes : HandedOver w.monitor (p.call.env.outcomes [1]))
    (reports : ∀ {rs}, rc.SentAs w.monitor rs → p.Reports rs) :
    ∃ w' rs, handleCall p.call.env 0 p.call.row p.call.inv w = .returned p.call.inv.result w' ∧
      Unfiltered w'.monitor ∧ w'.delivered = w.delivered ++ rs ∧ p.Reports rs := by
  obtain ⟨w', rs, handled, settings, delivered, sent⟩ := emits.sends settings takes
  exact ⟨w', rs, handled, settings, delivered, reports sent⟩

theorem Started.sends {p : Started} (genuine : p.call.Genuine) {w : World}
    (settings : Unfiltered w.monitor) (takes : HandedOver w.monitor (p.call.env.outcomes [1])) :
    ∃ w' rs, handleCall p.call.env 0 p.call.row p.call.inv w = .returned p.call.inv.result w' ∧
      Unfiltered w'.monitor ∧ w'.delivered = w.delivered ++ rs ∧ p.Reports rs := by
  cases genuine with
  | close row fd =>
      have close_ : p.call.row ∈ closeFamily := by rw [row]; decide
      obtain ⟨rc, records⟩ := FileCall.records_close close_ fun _ => fd.symm
      have emits : p.call.Emits rc :=
        ⟨(closeFamily_shape p.call.row close_).1, records.runs, records.valid⟩
      exact Started.sends_of_emits emits settings takes (Started.reports_close row records)
  | fails path s1 fopen fails =>
      obtain ⟨rc, emits, fd⟩ := FileCall.emits_fails s1 fopen fails
      exact Started.sends_of_emits emits settings takes (Started.reports_fails fopen.1 fails fd)
  | opens path s1 fopen success =>
      have open_ : p.call.row ∈ openFamily := by rw [fopen.1]; decide
      obtain ⟨rc, records⟩ := FileCall.records_stream (by rw [fopen.1]; decide) s1 fopen.2.1
        success.1 success.2.1
      have emits : p.call.Emits rc :=
        ⟨(openFamily_shape p.call.row open_).1, records.runs, records.valid⟩
      exact Started.sends_of_emits emits settings takes
        (Started.reports_open s1 fopen success records)

/-! ### Whole runs -/

/-- The call has been carried out. -/
def Shared.Begun (s : Shared) (p : Started) : Prop :=
  p ∈ s.inFlight.map Prod.snd ∨ p ∈ s.sent

/-- The descriptor is from this call of `fopen`, and no later call has its
number. -/
structure Shared.Opened (s : Shared) (fd : Int) (o : Started) : Prop where
  begun : s.Begun o
  number : o.call.fd = fd
  natural : 0 ≤ fd
  row : o.call.row = fopenRow
  stream : o.call.inv.result ≠ 0
  newest : ∀ q, s.Begun q → q.call.fd = fd → q.start ≤ o.start

/-- What every run keeps. -/
structure Shared.Inv (mounts : MountTable) (s : Shared) : Prop where
  settings : Unfiltered s.world.monitor
  threads : (s.inFlight.map Prod.fst).Nodup
  genuine : ∀ p, s.Begun p → p.call.Genuine
  past : ∀ p, s.Begun p → p.start < s.clock
  unique : ∀ p q, s.Begun p → s.Begun q → p.start = q.start → p = q
  opener : ∀ fd o, s.files fd = some o → s.Opened fd o
  table : ∀ t fd, 3 ≤ fd → KeyedStore.replay (update mounts) t s.world.delivered fd =
    KeyedStore.replay (Started.effect mounts) t s.sent fd

theorem Shared.inv_call {mounts : MountTable} {s s' : Shared} {thread : Nat} {c : FileCall}
    (h : s.Inv mounts) (step : s.step (.call thread c) = some s') : s'.Inv mounts := by
  unfold Shared.step at step
  dsimp only at step
  split at step
  · cases step
  · rename_i free
    obtain ⟨files, performed, rfl⟩ := Option.map_eq_some_iff.mp step
    obtain ⟨genuine, change⟩ := Started.perform_cases performed
    let p : Started := ⟨c, s.clock⟩
    have begun : ∀ q, Shared.Begun
        { s with files, inFlight := (thread, p) :: s.inFlight, clock := s.clock + 1 } q ↔
          q = p ∨ s.Begun q := by
      intro q
      simp [Shared.Begun, or_assoc]
    have others : ∀ fd o, c.fd ≠ fd → s.files fd = some o → Shared.Opened
        { s with files, inFlight := (thread, p) :: s.inFlight, clock := s.clock + 1 } fd o := by
      intro fd o ne held
      have opened := h.opener fd o held
      refine { opened with
        begun := (begun o).mpr (.inr opened.begun)
        newest := fun q hq same => ?_ }
      rcases (begun q).mp hq with rfl | old
      · exact absurd same ne
      · exact opened.newest q old same
    refine ⟨h.settings, List.nodup_cons.mpr ⟨free, h.threads⟩, fun q => ?_, fun q => ?_,
      fun q q' => ?_, fun fd o held => ?_, h.table⟩
    · rw [begun]
      rintro (rfl | old)
      · exact genuine
      · exact h.genuine q old
    · rw [begun]
      rintro (rfl | old)
      · exact Nat.lt_succ_self s.clock
      · exact (h.past q old).trans (Nat.lt_succ_self s.clock)
    · rw [begun, begun]
      rintro (rfl | old) (rfl | old') same
      · rfl
      · exact absurd same (h.past q' old').ne'
      · exact absurd same (h.past q old).ne
      · exact h.unique q q' old old' same
    · rcases change with closed | ⟨fails, same⟩ | ⟨path, s1, fopen, success, opened⟩
      · dsimp only at held
        rw [closed] at held
        by_cases own : c.fd = fd
        · rw [← own, Function.update_self] at held
          cases held
        · rw [Function.update_of_ne (Ne.symm own)] at held
          exact others fd o own held
      · dsimp only at held
        rw [same] at held
        refine others fd o (fun own => ?_) held
        have natural := (h.opener fd o held).natural
        have none_ : c.fd = -1 := fails.2
        omega
      · dsimp only at held
        rw [opened] at held
        by_cases own : c.fd = fd
        · rw [← own, Function.update_self] at held
          cases held
          refine ⟨(begun p).mpr (.inl rfl), own, own ▸ success.2.2.1, fopen.1, success.1, ?_⟩
          intro q hq _
          rcases (begun q).mp hq with rfl | old
          · exact le_rfl
          · exact (h.past q old).le
        · rw [Function.update_of_ne (Ne.symm own)] at held
          exact others fd o own held

theorem Shared.inv_send {mounts : MountTable} {s s' : Shared} {thread : Nat}
    (h : s.Inv mounts) (takes : s.Takes (.send thread)) (step : s.step (.send thread) = some s') :
    s'.Inv mounts := by
  unfold Shared.step at step
  dsimp only at step
  split at step
  · cases step
  · rename_i e p found
    have mem := List.mem_of_find?_eq_some found
    have own : e = thread := by simpa using List.find?_some found
    have pending : s.Begun p := .inl (List.mem_map.mpr ⟨(e, p), mem, rfl⟩)
    obtain ⟨w', rs, handled, settings, delivered, reports⟩ :=
      Started.sends (h.genuine p pending) h.settings (takes (e, p) mem own)
    rw [handled] at step
    cases step
    have begun : ∀ q, Shared.Begun
        { s with
          world := w', inFlight := s.inFlight.filter (·.1 ≠ thread), sent := s.sent ++ [p] } q ↔
        s.Begun q := by
      intro q
      constructor
      · rintro (waiting | sent)
        · obtain ⟨e', he', rfl⟩ := List.mem_map.mp waiting
          exact .inl (List.mem_map.mpr ⟨e', List.mem_of_mem_filter he', rfl⟩)
        · rcases List.mem_append.mp sent with old | new
          · exact .inr old
          · rw [List.mem_singleton.mp new]
            exact pending
      · rintro (waiting | sent)
        · obtain ⟨e', he', rfl⟩ := List.mem_map.mp waiting
          by_cases same : e'.1 = thread
          · obtain rfl := List.inj_on_of_nodup_map h.threads he' mem (same.trans own.symm)
            exact .inr (List.mem_append_right _ (List.mem_singleton_self _))
          · exact .inl (List.mem_map.mpr ⟨e', List.mem_filter.mpr ⟨he', by simpa using same⟩, rfl⟩)
        · exact .inr (List.mem_append_left _ sent)
    refine ⟨settings, h.threads.sublist (List.filter_sublist.map _), fun q hq => ?_, fun q hq => ?_,
      fun q q' hq hq' => ?_, fun fd o held => ?_, fun t fd high => ?_⟩
    · exact h.genuine q ((begun q).mp hq)
    · exact h.past q ((begun q).mp hq)
    · exact h.unique q q' ((begun q).mp hq) ((begun q').mp hq')
    · have opened := h.opener fd o held
      exact { opened with
        begun := (begun o).mpr opened.begun
        newest := fun q hq => opened.newest q ((begun q).mp hq) }
    · dsimp only
      rw [delivered, KeyedStore.replay_append, reports mounts _ fd high,
        KeyedStore.replay_append, KeyedStore.replay_cons, KeyedStore.replay_nil]
      exact KeyedStore.apply_congr p (h.table t fd high)

theorem Shared.inv_step {mounts : MountTable} (s : Shared) (m : WrapperStep) (s' : Shared)
    (h : s.Inv mounts) (takes : s.Takes m) (step : s.step m = some s') : s'.Inv mounts := by
  cases m with
  | call thread c => exact Shared.inv_call h step
  | send thread => exact Shared.inv_send h takes step

theorem Shared.inv_start (mounts : MountTable) {w : World} (settings : Unfiltered w.monitor)
    (empty : w.delivered = []) : (Shared.start w).Inv mounts where
  settings := settings
  threads := .nil
  genuine := by simp [Shared.Begun, Shared.start]
  past := by simp [Shared.Begun, Shared.start]
  unique := by simp [Shared.Begun, Shared.start]
  opener := by simp [Shared.start]
  table t fd _ := by rw [Shared.start, empty]; rfl

theorem Started.fd_of_touches {mounts : MountTable} {fd : Int} {p : Started}
    (h : KeyedStore.touches (Started.effect mounts) fd p = true) : p.call.fd = fd := by
  obtain ⟨v, effect⟩ := KeyedStore.touches_iff.mp h
  unfold Started.effect at effect
  split at effect
  · cases effect
    rfl
  · split at effect
    · split at effect
      · cases effect
        rfl
      · cases effect
    · cases effect

/-- The entry of an opener that nothing overtook. -/
theorem Shared.Inv.entry {mounts : MountTable} {s : Shared} (h : s.Inv mounts)
    (finished : s.inFlight = []) {fd : Int} {opener : Started} (held : s.files fd = some opener)
    {path : Str} (opens : opener.call.inv.text "path" = .str path)
    (noDot : path ≠ ['.'] ∧ path ≠ ['.', '.']) (inOrder : s.InOrder fd opener) (t : FdTable) :
    KeyedStore.replay (Started.effect mounts) t s.sent fd = some (pathToDev mounts path) := by
  have opened := h.opener fd opener held
  have sent : opener ∈ s.sent := by simpa [Shared.Begun, finished] using opened.begun
  have effect : opener.effect mounts = some (fd, some (pathToDev mounts path)) := by
    have notClose : opener.call.row ≠ closeRow := by rw [opened.row]; decide
    have s1 : opener.call.inv.text opener.call.row.s1 = .str path := by
      rw [opened.row]
      exact opens
    rw [Started.effect, if_neg notClose, s1]
    dsimp only
    rw [if_pos ⟨opened.stream, noDot⟩, opened.number]
  have touched : KeyedStore.touches (Started.effect mounts) fd opener = true :=
    KeyedStore.touches_iff.mpr ⟨_, effect⟩
  rw [KeyedStore.replay_eq_last]
  cases last : KeyedStore.lastTouch (Started.effect mounts) fd s.sent with
  | none =>
      rw [KeyedStore.lastTouch_eq_none.mp last opener sent] at touched
      cases touched
  | some q =>
      obtain ⟨before, after, split, touch, quiet⟩ := KeyedStore.lastTouch_eq_some last
      suffices same : q = opener by
        rw [same]
        simp [KeyedStore.apply, effect]
      have touching : q ∈ s.sent := by
        rw [split]
        exact List.mem_append_right _ (List.mem_cons_self ..)
      have newest := opened.newest q (.inr touching) (Started.fd_of_touches touch)
      rw [split] at sent
      rcases List.mem_append.mp sent with earlier | rest
      · -- sent before `q`, which is then not older
        obtain ⟨first, middle, rfl⟩ := List.append_of_mem earlier
        have notOlder := inOrder first (middle ++ q :: after) (by rw [split]; simp) q (by simp)
          (Started.fd_of_touches touch)
        exact h.unique q opener (.inr touching) opened.begun (by omega)
      · rcases List.mem_cons.mp rest with same | later
        · exact same.symm
        · rw [quiet opener later] at touched
          cases touched

/-- **Reused descriptors.** Once every wrapper has finished and the queue is
processed, a descriptor that is from an `fopen` is known with the device of the
path, provided its record passes the filters and no record of an older call on
the descriptor was sent after it. -/
theorem reopened_known (mounts : MountTable) (hostname : Str) {w : World}
    (settings : Unfiltered w.monitor) (empty : w.delivered = []) (steps : List WrapperStep)
    {t : Shared} (takes : Machine.AllSteps Shared.step Shared.Takes (.start w) steps)
    (run : Machine.run Shared.step (.start w) steps = some t) (finished : t.inFlight = [])
    {fd : Int} {opener : Started} {path : Str} (held : t.files fd = some opener)
    (opens : opener.call.inv.text "path" = .str path) (high : 3 ≤ fd)
    (noDot : path ≠ ['.'] ∧ path ≠ ['.', '.']) (inOrder : t.InOrder fd opener) :
    t.table mounts hostname fd = some (pathToDev mounts path) := by
  have always := Machine.always_of_allSteps Shared.inv_step steps
    (Shared.inv_start mounts settings empty) takes
  have inv := always steps List.prefix_rfl t run
  rw [Shared.table, inputLoop_table, inv.table noFiles fd high]
  exact inv.entry finished held opens noDot inOrder noFiles

/-! Thread 1 closes descriptor 3, thread 2 is handed it. -/

/-- `CLOSE` is sent first. -/
def closeThenOpen : List WrapperStep :=
  [.call 1 fopenCall, .send 1, .call 1 closeCall, .send 1, .call 2 fopenCall, .send 2]

/-- `OPEN` is sent first. -/
def openOvertakes : List WrapperStep :=
  [.call 1 fopenCall, .send 1, .call 1 closeCall, .call 2 fopenCall, .send 2, .send 1]

/-- Nothing is overtaken where the records are sent in the order of the calls. -/
theorem Shared.inOrder_of_sorted {s : Shared} (sorted : (s.sent.map Started.start).Pairwise (· ≤ ·))
    (fd : Int) (opener : Started) : s.InOrder fd opener := by
  intro before after split q hq _
  rw [split, List.map_append, List.map_cons] at sorted
  exact (List.pairwise_cons.mp (List.pairwise_append.mp sorted).2.1).1 q.start
    (List.mem_map.mpr ⟨q, hq, rfl⟩)

theorem reopened_known_closeThenOpen :
    ∃ t, Machine.run Shared.step (.start allDomains) closeThenOpen = some t ∧
      t.table noMounts [] 3 = some "vda".toList := by
  obtain ⟨t, run⟩ : ∃ t, Machine.run Shared.step (.start allDomains) closeThenOpen = some t :=
    Option.isSome_iff_exists.mp (by decide +kernel)
  have takes : Machine.AllSteps Shared.step Shared.Takes (.start allDomains) closeThenOpen := by
    decide +kernel
  have facts : ∀ t ∈ Machine.run Shared.step (.start allDomains) closeThenOpen,
      t.inFlight.length = 0 ∧ t.sent.map Started.start = [0, 1, 2] ∧ (t.files 3).isSome ∧
        ∀ o ∈ t.files 3, o.call.inv.text "path" = .str "/a/x".toList := by
    decide +kernel
  obtain ⟨finished, order, isOpen, path⟩ := facts t run
  obtain ⟨opener, held⟩ := Option.isSome_iff_exists.mp isOpen
  exact ⟨t, run, reopened_known noMounts [] allDomains_unfiltered rfl closeThenOpen takes run
    (List.length_eq_zero_iff.mp finished) held (path opener held) (by decide) (by decide)
    (Shared.inOrder_of_sorted (by rw [order]; decide) 3 opener)⟩

/-- The file is open as descriptor 3, and the late `CLOSE` has erased its entry. -/
theorem reused_descriptor_lost :
    ∃ t, Machine.run Shared.step (.start allDomains) openOvertakes = some t ∧
      Machine.AllSteps Shared.step Shared.Takes (.start allDomains) openOvertakes ∧
      t.inFlight = [] ∧ ¬ t.KnowsOpeners noMounts [] := by
  have facts : ∀ t ∈ Machine.run Shared.step (.start allDomains) openOvertakes,
      t.inFlight.length = 0 ∧ t.table noMounts [] 3 = none ∧ (t.files 3).isSome ∧
        ∀ o ∈ t.files 3, o.call.inv.text "path" = .str "/a/x".toList := by
    decide +kernel
  obtain ⟨t, run⟩ : ∃ t, Machine.run Shared.step (.start allDomains) openOvertakes = some t :=
    Option.isSome_iff_exists.mp (by decide +kernel)
  obtain ⟨finished, erased, isOpen, path⟩ := facts t run
  refine ⟨t, run, by decide +kernel, List.length_eq_zero_iff.mp finished, fun knows => ?_⟩
  obtain ⟨opener, held⟩ := Option.isSome_iff_exists.mp isOpen
  have known := knows 3 opener _ held (path opener held)
  rw [erased] at known
  cases known

end IoMonitor
