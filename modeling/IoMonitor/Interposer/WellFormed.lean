import IoMonitor.Interposer.Wrapper

/-!
What every record handed to the transport looks like.

A program that calls monitored functions, one after the other, has records made
for it at several places: in the wrappers, in their hooks, in `init`, and, over
the socket, in the wrappers of the library's own calls, to any depth. All of them
go through `record()`. So what `record()` guarantees of the record it logs, and
that nothing else logs one, gives the form of all records of a run
(`handed_wellFormed`).
-/

namespace IoMonitor

open CString

/-- A record that a monitor with these settings may hand over: a monitored
domain, an operation, no standard stream but for start and stop, strings with
their NUL, and the two fields of the listener left blank. -/
structure MonitorRecord.WellFormed (m : Monitor) (r : MonitorRecord) : Prop where
  domain : ∃ d : DomainType, r.domType = d.code ∧ m.monitors d = true
  operation : ∃ o : OpType, r.opType = o.code
  noStdio : -1 < r.fd → r.fd < 3 → r.domType = DomainType.startStop.code
  bytes : 0 ≤ r.bytesTransferred ∧ r.bytesTransferred < 2 ^ 64
  facility : r.facility.chars = m.facility.chars ∧ r.facility.Terminated
  s1 : r.s1.Terminated
  s2 : r.s2.Terminated
  blank : r.hostname = .zero _ ∧ r.device = .zero _

/-! ### One call of `record()` -/

/-- What the filters let through has passed the first four tests. -/
theorem gate_of_admitted {c : RecordCall} {timestamp : Nat} {m m' : Monitor}
    (h : recordFilters c timestamp m = .admitted m') :
    c.isStdio = false ∧ m.monitors c.domType = true := by
  rw [recordFilters, gate] at h
  split at h
  · cases h
  · split at h
    · cases h
    · cases stdio : c.isStdio with
      | true => simp [stdio] at h
      | false =>
          cases monitored : m.monitors c.domType with
          | false => simp [stdio, monitored] at h
          | true => exact ⟨rfl, rfl⟩

theorem recordField_terminated {n : Nat} (positive : 0 < n) {p : CharPtr} {a : CharArray n}
    (field : recordField n p = some a) : a.Terminated := by
  cases p with
  | null =>
      cases field
      exact positive
  | str s =>
      cases field
      exact CharArray.closeLast_terminated positive _
  | bad => cases field

/-- The facility id fits its field in the record with room to spare. -/
theorem facility_copied (a : CharArray 5) :
    (strncpy STR_LEN a.chars).closeLast.chars = a.chars ∧
      (strncpy STR_LEN a.chars).closeLast.Terminated := by
  have short : a.chars.length < STR_LEN := Nat.lt_of_le_of_lt a.fits (by decide)
  exact ⟨strncpy_closeLast_chars a.noNul short, CharArray.closeLast_terminated (by decide) _⟩

theorem buildRecord_wellFormed {c : RecordCall} {m m' : Monitor} {timestamp : Nat} {pid : Int}
    {r : MonitorRecord} (verdict : recordFilters c timestamp m = .admitted m')
    (built : buildRecord m' c timestamp pid = some r) : r.WellFormed m := by
  obtain ⟨notStdio, monitored⟩ := gate_of_admitted verdict
  have facility : m'.facility = m.facility :=
    (congrArg Monitor.facility (admitted_unsampled verdict) :)
  simp only [buildRecord, Option.bind_eq_bind, Option.bind_eq_some_iff, Option.some.injEq] at built
  obtain ⟨s1, first, s2, second, rfl⟩ := built
  constructor
  · exact ⟨c.domType, rfl, monitored⟩
  · exact ⟨c.opType, rfl⟩
  · intro low high
    by_contra other
    have stdio : c.isStdio = true := by
      simp only [RecordCall.isStdio, decide_eq_true_eq]
      exact ⟨low, high, fun same => other (congrArg DomainType.code same)⟩
    rw [notStdio] at stdio
    cases stdio
  · exact ⟨Int.emod_nonneg _ (by decide), Int.emod_lt_of_pos _ (by decide)⟩
  · rw [facility]
    exact facility_copied m.facility
  · exact recordField_terminated (by decide) first
  · exact recordField_terminated (by decide) second
  · exact ⟨rfl, rfl⟩

/-! ### The relation of a run -/

/-- The two settings that the form of a record depends on. -/
def Monitor.form (m : Monitor) : BitVec 32 × CharArray 5 := (m.domainBitFlags, m.facility)

/-- From `w` on, the settings stay and only well-formed records are added. -/
structure Adds (w w' : World) : Prop where
  form : w'.monitor.form = w.monitor.form
  records : ∀ a ∈ w'.attempts, a ∈ w.attempts ∨ a.record.WellFormed w.monitor

theorem MonitorRecord.WellFormed.congr {m m' : Monitor} {r : MonitorRecord} (h : r.WellFormed m)
    (form : m'.form = m.form) : r.WellFormed m' := by
  obtain ⟨flags, facility⟩ := Prod.ext_iff.mp form
  change m'.domainBitFlags = m.domainBitFlags at flags
  change m'.facility = m.facility at facility
  obtain ⟨d, code, monitored⟩ := h.domain
  have same : m'.monitors d = m.monitors d := by simp only [Monitor.monitors, flags]
  exact { h with
    domain := ⟨d, code, same.trans monitored⟩
    facility := by rw [facility]; exact h.facility }

theorem Adds.refl (w : World) : Adds w w := ⟨rfl, fun _ h => .inl h⟩

theorem Adds.trans {w v u : World} (first : Adds w v) (second : Adds v u) : Adds w u where
  form := second.form.trans first.form
  records := by
    intro a ha
    rcases second.records a ha with before | formed
    · exact first.records a before
    · exact .inr (formed.congr first.form.symm)

/-- A step that logs nothing. -/
theorem adds_quiet {w w' : World} (same : w'.monitor.form = w.monitor.form)
    (attempts : w'.attempts = w.attempts) : Adds w w' where
  form := same
  records := by
    intro a ha
    rw [attempts] at ha
    exact .inl ha

abbrev Adding {α : Type} (p : Prog World α) : Prop := Prog.Transitions Adds p

theorem adding_modify {f : World → World}
    (same : ∀ w, (f w).monitor.form = w.monitor.form)
    (attempts : ∀ w, (f w).attempts = w.attempts) : Adding (Prog.modify f) :=
  Prog.Transitions.modify fun w => adds_quiet (same w) (attempts w)

theorem adding_withMonitor {f : Monitor → Monitor} (same : ∀ m, (f m).form = m.form) :
    Adding (Prog.modify (·.withMonitor f)) :=
  adding_modify (fun w => same w.monitor) fun _ => rfl

theorem adding_answered (a : Answer) : Adding (World.answered a) :=
  adding_modify (fun w => by rw [after_monitor]) fun w => after_attempts w a

theorem adding_pure {α : Type} (a : α) : Adding (pure a : Prog World α) :=
  Prog.Transitions.pure Adds.refl a

theorem Adding.seq {α β : Type} {p : Prog World α} {f : α → Prog World β} (hp : Adding p)
    (hf : ∀ a, Adding (f a)) : Adding (p >>= f) := by
  refine Prog.Transitions.bind ?_ hp hf
  exact fun _ _ _ => Adds.trans

theorem Adding.ite {α : Type} {c : Prop} [Decidable c] {p p' : Prog World α} (hp : Adding p)
    (hp' : Adding p') : Adding (if c then p else p') := by
  split
  · exact hp
  · exact hp'

/-! ### The parts of a run -/

section

variable {lib : LibraryCalls} (adding : ∀ call a, Adding (lib call a))

include adding

theorem adding_writeFrame (o : Outcomes) (sockfd : Int) (r : MonitorRecord) :
    Adding (writeFrame lib o sockfd r) := by
  unfold writeFrame
  refine (adding_answered _).seq fun _ => (adding_answered _).seq fun _ =>
    (adding _ _).seq fun _ => Adding.ite ((adding _ _).seq fun _ => Adding.ite ?_ ?_) ?_
  · have delivers : Adding (Prog.modify (World.deliver r)) :=
      adding_modify (fun _ => rfl) fun _ => rfl
    exact delivers.seq fun _ => adding_pure 0
  · exact adding_pure (-1)
  · exact adding_pure (-1)

theorem adding_sendOver (o : Outcomes) (sockfd : Int) (r : MonitorRecord) :
    Adding (sendOver lib o sockfd r) := by
  have closing : ∀ rc : Int, Adding (do
      let _ ← lib (.close sockfd) o.close.answer
      Prog.modify (·.withMonitor fun m => { m with socketFd := FD_NONE })
      pure rc) := fun rc =>
    (adding _ _).seq fun _ => (adding_withMonitor fun _ => by rfl).seq fun _ => adding_pure rc
  unfold sendOver
  refine (adding_withMonitor fun _ => by rfl).seq fun _ => (adding _ _).seq fun _ =>
    Adding.ite ?_ ?_
  · exact (adding_writeFrame adding o sockfd r).seq closing
  · exact (adding_withMonitor fun _ => by rfl).seq fun _ => (adding_pure _).seq closing

theorem adding_sendRecord (o : Outcomes) (r : MonitorRecord) : Adding (sendRecord lib o r) := by
  intro w
  by_cases path : w.monitor.messageQueuePath.isSome
  · rw [sendRecord_queue lib o r path]
    obtain ⟨kept, attempts⟩ := sendMsgQueue_frame o r w
    exact adds_quiet (congrArg Monitor.form kept :) attempts
  · rw [sendRecord_tcp lib o r path]
    exact ((adding .socket o.socket).seq fun sockfd =>
      Adding.ite (adding_sendOver adding o sockfd r) (adding_pure _)) w

/-- `record()` logs at most the one record it builds, besides what its own calls
log. -/
theorem adding_record (o : Outcomes) (who : Caller) (c : RecordCall) :
    Adding (record lib o who c) := by
  intro w
  cases verdict : recordFilters c o.time w.monitor with
  | crashed =>
      simp only [record, verdict]
      exact Adds.refl w
  | ignored m =>
      simp only [record, verdict]
      exact adds_quiet (congrArg Monitor.form (ignored_unsampled verdict) :) rfl
  | admitted m =>
      have settings : m.form = w.monitor.form :=
        (congrArg Monitor.form (admitted_unsampled verdict) :)
      cases built : buildRecord m c o.time o.getpid with
      | none =>
          simp only [record, verdict, built]
          exact adds_quiet settings rfl
      | some r =>
          rw [record_admitted verdict built]
          have logged : Adds w { w with monitor := m, attempts := w.attempts ++ [⟨who, r⟩] } := by
            refine ⟨settings, fun a ha => ?_⟩
            rcases List.mem_append.mp ha with before | new
            · exact .inl before
            · rw [List.mem_singleton.mp new]
              exact .inr (buildRecord_wellFormed verdict built)
          have counted : ∀ rc, Adding (Prog.modify (·.withMonitor (account rc))) := by
            intro rc
            apply adding_withMonitor
            intro m
            unfold account
            split <;> rfl
          have sends := ((adding_sendRecord adding o r).seq counted)
            { w with monitor := m, attempts := w.attempts ++ [⟨who, r⟩] }
          exact sends.mono fun _ => logged.trans

end

theorem adding_runActions {emit : Nat → RecordCall → Prog World Unit}
    (adding : ∀ k c, Adding (emit k c)) : ∀ actions, Adding (runActions emit actions)
  | [] => adding_pure ()
  | .answered a :: rest => (adding_answered a).seq fun _ => adding_runActions adding rest
  | .crash :: _ => Prog.Transitions.crash Adds.refl
  | .emit k c :: rest => (adding k c).seq fun _ => adding_runActions adding rest

theorem adding_callWrapper {emit : Nat → RecordCall → Prog World Unit}
    (adding : ∀ k c, Adding (emit k c)) {original : Prog World Int} (plain : Adding original)
    (row : Row) (inv : Invocation) : Adding (callWrapper emit original row inv) := by
  unfold callWrapper
  refine Adding.ite ?_ ?_
  · exact (adding_runActions adding _).seq fun _ => plain
  · exact plain.seq fun _ => (adding_runActions adding _).seq fun _ => adding_pure _

/-- The library's own calls, by induction on how deep they may nest. -/
theorem adding_libraryCalls (env : Env) : ∀ (n : Nat) (q : List Nat) (call : SocketCall)
    (a : Answer), Adding (libraryCalls env n q call a)
  | 0, _, _, _ => Prog.Transitions.exhaust
  | n + 1, q, call, a => by
      have direct : Adding (LibraryCalls.direct call a) := fun w =>
        adds_quiet (by rw [after_monitor]) (after_attempts w a)
      exact adding_callWrapper (fun k c =>
        adding_record (adding_libraryCalls env n (q ++ [call.index] ++ [k])) _ _ _) direct _ _

theorem adding_recordAt (env : Env) (n : Nat) (q : List Nat) (who : Caller) (c : RecordCall) :
    Adding (recordAt env n q who c) :=
  adding_record (adding_libraryCalls env n q) _ who c

theorem adding_handleCall (env : Env) (n : Nat) (row : Row) (inv : Invocation) :
    Adding (handleCall env n row inv) := by
  have original : Adding inv.original := fun w => adds_quiet rfl rfl
  refine adding_callWrapper (fun k c => adding_recordAt env n [k] .application c) ?_ row inv
  unfold originalCall
  split
  · exact original
  · exact adding_callWrapper (fun k c => adding_recordAt env n [4, k] .library c) original _ _

/-! ### The whole run -/

/-- A monitored call of the program. -/
structure MonitoredCall where
  env : Env
  row : Row
  inv : Invocation

/-- The calls of a program, with the nesting cut off at depth `n`. -/
def runCalls (n : Nat) : List MonitoredCall → Prog World Unit
  | [] => pure ()
  | c :: calls => do
      let _ ← handleCall c.env n c.row c.inv
      runCalls n calls

theorem adding_runCalls (n : Nat) : ∀ calls, Adding (runCalls n calls)
  | [] => adding_pure ()
  | c :: calls => (adding_handleCall c.env n c.row c.inv).seq fun _ => adding_runCalls n calls

/-- **The form of a record.** However a run ends, and however deep the library's
own calls nest, every record it has handed to the transport is well formed. -/
theorem handed_wellFormed (n : Nat) (calls : List MonitoredCall) (m : Monitor) :
    (runCalls n calls (startWorld m)).All fun w' =>
      ∀ a ∈ w'.attempts, a.record.WellFormed m := by
  refine (adding_runCalls n calls (startWorld m)).mono fun w' adds a ha => ?_
  exact (adds.records a ha).resolve_left List.not_mem_nil

end IoMonitor
