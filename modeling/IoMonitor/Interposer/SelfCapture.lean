import IoMonitor.Interposer.Wrapper
import IoMonitor.Monitor.Accounting

/-!
Does the library record its own calls?

`send_tcp_socket` sets `socket_fd`, which makes `record()` drop a call, only once
`socket()` has returned, and nothing marks the exec calls `orig_vexecl` and its
siblings make. A call of the application is handled without a record of the
library's own iff the filters happen to drop those two kinds of record
(`contained_iff`). Otherwise the record is handed over, or the nesting has no end.
-/

namespace IoMonitor

open CString

/-- How many records of the library's own calls have been handed to the
transport. -/
def World.captured (w : World) : Nat := w.attempts.countP (·.caller = .library)

/-- Handling the call comes to an end, with no record of the library's own
calls handed to the transport. -/
def Contained (env : Env) (row : Row) (inv : Invocation) (w : World) : Prop :=
  ∃ n, (handleCall env n row inv w).Ends fun w' => w'.captured = w.captured

/-! ### Captures are never undone -/

def Grows (w w' : World) : Prop := w.captured ≤ w'.captured

theorem Grows.refl (w : World) : Grows w w := Nat.le_refl _

theorem Grows.trans {w v u : World} (first : Grows w v) (second : Grows v u) : Grows w u :=
  Nat.le_trans first second

theorem grows_of_attempts {w w' : World} (h : w'.attempts = w.attempts) : Grows w w' := by
  rw [Grows, World.captured, World.captured, h]

abbrev Growing {α : Type} (p : Prog World α) : Prop := Prog.Transitions Grows p

theorem growing_modify {f : World → World} (attempts : ∀ w, (f w).attempts = w.attempts) :
    Growing (Prog.modify f) :=
  Prog.Transitions.modify fun w => grows_of_attempts (attempts w)

theorem growing_withMonitor (f : Monitor → Monitor) : Growing (Prog.modify (·.withMonitor f)) :=
  growing_modify fun _ => rfl

theorem growing_answered (a : Answer) : Growing (World.answered a) :=
  growing_modify fun w => after_attempts w a

theorem growing_pure {α : Type} (a : α) : Growing (pure a : Prog World α) :=
  Prog.Transitions.pure Grows.refl a

theorem Growing.seq {α β : Type} {p : Prog World α} {f : α → Prog World β} (hp : Growing p)
    (hf : ∀ a, Growing (f a)) : Growing (p >>= f) := by
  refine Prog.Transitions.bind ?_ hp hf
  exact fun _ _ _ => Grows.trans

theorem Growing.ite {α : Type} {c : Prop} [Decidable c] {p p' : Prog World α} (hp : Growing p)
    (hp' : Growing p') : Growing (if c then p else p') := by
  split
  · exact hp
  · exact hp'

section

variable {lib : LibraryCalls} (growing : ∀ call a, Growing (lib call a))

include growing

theorem growing_writeFrame (o : Outcomes) (sockfd : Int) (r : MonitorRecord) :
    Growing (writeFrame lib o sockfd r) := by
  unfold writeFrame
  refine (growing_answered _).seq fun _ => (growing_answered _).seq fun _ =>
    (growing _ _).seq fun _ => Growing.ite ((growing _ _).seq fun _ => Growing.ite ?_ ?_) ?_
  · have delivers : Growing (Prog.modify (World.deliver r)) := growing_modify fun _ => rfl
    exact delivers.seq fun _ => growing_pure 0
  · exact growing_pure (-1)
  · exact growing_pure (-1)

theorem growing_sendOver (o : Outcomes) (sockfd : Int) (r : MonitorRecord) :
    Growing (sendOver lib o sockfd r) := by
  have closing : ∀ rc : Int, Growing (do
      let _ ← lib (.close sockfd) o.close.answer
      Prog.modify (·.withMonitor fun m => { m with socketFd := FD_NONE })
      pure rc) := fun rc =>
    (growing _ _).seq fun _ => (growing_withMonitor _).seq fun _ => growing_pure rc
  unfold sendOver
  refine (growing_withMonitor _).seq fun _ => (growing _ _).seq fun _ => Growing.ite ?_ ?_
  · exact (growing_writeFrame growing o sockfd r).seq closing
  · exact (growing_withMonitor _).seq fun _ => (growing_pure _).seq closing

theorem growing_sendRecord (o : Outcomes) (r : MonitorRecord) : Growing (sendRecord lib o r) := by
  intro w
  by_cases path : w.monitor.messageQueuePath.isSome
  · rw [sendRecord_queue lib o r path]
    exact grows_of_attempts (sendMsgQueue_frame o r w).2
  · rw [sendRecord_tcp lib o r path]
    exact ((growing .socket o.socket).seq fun sockfd =>
      Growing.ite (growing_sendOver growing o sockfd r) (growing_pure _)) w

/-- A record of the library's own that gets to the transport counts. -/
theorem dispatchRecord_captured (o : Outcomes) (who : Caller) (r : MonitorRecord) (w : World) :
    (dispatchRecord lib o who r w).All fun w' =>
      w.captured + (if who = .library then 1 else 0) ≤ w'.captured := by
  refine Prog.all_bind ?_ (fun _ h => h) fun _ s logged => ?_
  · cases who <;> simp [Prog.modify, Exit.All, World.captured]
  · exact (((growing_sendRecord growing o r).seq fun _ => growing_withMonitor _) s).mono
      fun _ more => Nat.le_trans logged more

theorem growing_record (o : Outcomes) (who : Caller) (c : RecordCall) :
    Growing (record lib o who c) := by
  intro w
  unfold record
  split
  · exact Grows.refl _
  · exact Grows.refl _
  · split
    · exact Grows.refl _
    · exact (dispatchRecord_captured growing o who _ _).mono
        fun _ => Nat.le_trans (Nat.le_add_right _ _)

end

theorem growing_runActions {emit : Nat → RecordCall → Prog World Unit}
    (growing : ∀ k c, Growing (emit k c)) : ∀ actions, Growing (runActions emit actions)
  | [] => growing_pure ()
  | .answered a :: rest => (growing_answered a).seq fun _ => growing_runActions growing rest
  | .crash :: _ => Prog.Transitions.crash Grows.refl
  | .emit k c :: rest => (growing k c).seq fun _ => growing_runActions growing rest

theorem growing_libraryCalls (env : Env) : ∀ (n : Nat) (q : List Nat) (call : SocketCall)
    (a : Answer), Growing (libraryCalls env n q call a)
  | 0, _, _, _ => Prog.Transitions.exhaust
  | n + 1, q, call, a => by
      intro w
      rw [libraryCalls_succ]
      have recorded := growing_record (growing_libraryCalls env n (q ++ [call.index] ++ [1]))
        (env.outcomes (q ++ [call.index] ++ [1])) .library (call.record env (q ++ [call.index]) a)
      exact ((recorded.seq fun _ => growing_pure a.ret) (w.after a)).mono
        fun _ => (grows_of_attempts (after_attempts w a)).trans

theorem growing_recordAt (env : Env) (n : Nat) (q : List Nat) (who : Caller) (c : RecordCall) :
    Growing (recordAt env n q who c) :=
  growing_record (growing_libraryCalls env n q) _ who c

/-! ### One `record()` call -/

/-- The record handed to the transport, and the monitor as the filters leave it. -/
def handed (env : Env) (q : List Nat) (m : Monitor) (c : RecordCall) :
    Option (Monitor × MonitorRecord) :=
  match recordFilters c (env.outcomes q).time m with
  | .admitted m => (buildRecord m c (env.outcomes q).time (env.outcomes q).getpid).map (m, ·)
  | _ => none

/-- If the record goes to a socket, the record of the `socket` call made for it
is dropped. -/
def SocketUnrecorded (env : Env) (q : List Nat) (m : Monitor) (c : RecordCall) : Prop :=
  ∀ m' r, handed env q m c = some (m', r) → ¬ m'.messageQueuePath.isSome →
    handed env (q ++ [0] ++ [1]) m'
      (SocketCall.record env (q ++ [0]) (env.outcomes q).socket .socket) = none

theorem recordAt_handed {env : Env} {q : List Nat} {c : RecordCall} {w : World} {m : Monitor}
    {r : MonitorRecord} (h : handed env q w.monitor c = some (m, r)) (n : Nat) (who : Caller) :
    recordAt env n q who c w =
      dispatchRecord (libraryCalls env n q) (env.outcomes q) who r { w with monitor := m } := by
  unfold handed at h
  cases verdict : recordFilters c (env.outcomes q).time w.monitor with
  | admitted m' =>
      rw [verdict] at h
      obtain ⟨r', built, same⟩ := Option.map_eq_some_iff.mp h
      cases same
      exact record_admitted verdict built
  | crashed => simp [verdict] at h
  | ignored m' => simp [verdict] at h

/-- A record that is not handed over ends there, whoever asks. -/
theorem recordAt_unhanded {env : Env} {q : List Nat} {c : RecordCall} {w : World}
    (h : handed env q w.monitor c = none) :
    ∃ x : Exit World Unit, (∀ n who, recordAt env n q who c w = x) ∧
      x.Ends fun w' => w'.attempts = w.attempts := by
  unfold handed at h
  cases verdict : recordFilters c (env.outcomes q).time w.monitor with
  | crashed => exact ⟨.crashed w, fun n who => by rw [recordAt, record, verdict], rfl⟩
  | ignored m => exact ⟨_, fun n who => record_ignored verdict, rfl⟩
  | admitted m =>
      rw [verdict, Option.map_eq_none_iff] at h
      exact ⟨.crashed { w with monitor := m },
        fun n who => by simp only [recordAt, record, verdict, h], rfl⟩

theorem dispatchRecord_eq (lib : LibraryCalls) (o : Outcomes) (who : Caller) (r : MonitorRecord)
    (w : World) (m : Monitor) :
    dispatchRecord lib o who r { w with monitor := m } =
      (sendRecord lib o r >>= fun rc => Prog.modify (·.withMonitor (account rc)))
        (w.handing m who r) := rfl

theorem handing_captured (w : World) (m : Monitor) (r : MonitorRecord) :
    (w.handing m .application r).captured = w.captured := by
  simp [World.handing, World.captured]

/-- A recorded `socket` call is a capture, or part of an endless nesting. -/
theorem recordAt_captures {env : Env} {q : List Nat} {c : RecordCall} {w : World}
    (loud : ¬ SocketUnrecorded env q w.monitor c) (n : Nat) (who : Caller) :
    (recordAt env n q who c w).All fun w' => w.captured < w'.captured := by
  unfold SocketUnrecorded at loud
  push Not at loud
  obtain ⟨m, r, outer, noPath, nested⟩ := loud
  obtain ⟨⟨m', r'⟩, inner⟩ := Option.ne_none_iff_exists'.mp nested
  rw [recordAt_handed outer, dispatchRecord_eq]
  have logged : Grows w (w.handing m who r) := by
    simp [Grows, World.handing, World.captured]
  have growing := growing_libraryCalls env n q
  refine Prog.all_bind ?_ (fun _ h => h)
    fun rc s captured => Nat.lt_of_lt_of_le captured (growing_withMonitor (account rc) s)
  rw [sendRecord_tcp _ _ _ noPath]
  cases n with
  | zero => trivial
  | succ n =>
      refine Prog.all_bind ?_ (fun _ h => h)
        fun sockfd s captured => ?_
      · rw [libraryCalls_succ, SocketCall.index]
        refine Prog.all_bind ?_ (fun _ h => h)
          fun _ _ h => h
        have inner' : handed env (q ++ [0] ++ [1])
            ((w.handing m who r).after (env.outcomes q).socket).monitor
            (SocketCall.record env (q ++ [0]) (env.outcomes q).socket .socket) = some (m', r') := by
          rw [after_monitor]
          exact inner
        rw [recordAt_handed inner']
        refine (dispatchRecord_captured (growing_libraryCalls env n _) _ .library r' _).mono ?_
        intro w' captured
        have before : w.captured ≤ ((w.handing m who r).after (env.outcomes q).socket).captured :=
          logged.trans (grows_of_attempts (after_attempts _ _))
        exact Nat.lt_of_lt_of_le (Nat.lt_succ_of_le before) captured
      · have rest : Growing (if sockfd > 0 then
            sendOver (libraryCalls env (n + 1) q) (env.outcomes q) sockfd r
            else pure (env.outcomes q).garbage) :=
          Growing.ite (growing_sendOver growing _ sockfd r) (growing_pure _)
        exact (rest s).mono fun _ more => Nat.lt_of_lt_of_le captured more

/-- Otherwise fuel makes no difference, short of running out. -/
theorem recordAt_quiet {env : Env} {q : List Nat} {c : RecordCall} {w : World}
    (quiet : SocketUnrecorded env q w.monitor c) (who : Caller) : ∀ n,
    recordAt env n q who c w = recordAt env 1 q who c w ∨
      recordAt env n q who c w = .exhausted := by
  intro n
  cases outer : handed env q w.monitor c with
  | none =>
      obtain ⟨x, same, -⟩ := recordAt_unhanded outer
      exact .inl ((same n who).trans (same 1 who).symm)
  | some handing =>
      obtain ⟨m, r⟩ := handing
      rw [recordAt_handed outer, recordAt_handed outer, dispatchRecord_eq, dispatchRecord_eq]
      by_cases path : m.messageQueuePath.isSome
      · refine .inl (Prog.bind_congr ?_ fun _ _ _ => rfl)
        rw [sendRecord_queue _ _ _ path, sendRecord_queue _ _ _ path]
      · cases n with
        | zero =>
            refine .inr (Prog.bind_of_exhausted ?_)
            rw [sendRecord_tcp _ _ _ path]
            rfl
        | succ n =>
            have inner : handed env (q ++ [0] ++ [1])
                ((w.handing m who r).after (env.outcomes q).socket).monitor
                (SocketCall.record env (q ++ [0]) (env.outcomes q).socket .socket) = none := by
              rw [after_monitor]
              exact quiet m r outer path
            obtain ⟨x, same, -⟩ := recordAt_unhanded inner
            refine .inl (Prog.bind_congr ?_ fun _ _ _ => rfl)
            rw [sendRecord_tcp _ _ _ path, sendRecord_tcp _ _ _ path]
            refine Prog.bind_congr ?_ fun sockfd s _ => ?_
            · rw [libraryCalls_succ, libraryCalls_succ, SocketCall.index]
              refine Prog.bind_congr ?_ fun _ _ _ => rfl
              rw [same, same]
            · split
              · have set : sockfd ≠ FD_NONE := by unfold FD_NONE; omega
                rw [sendOver_own _ _ _ _ _ _ set, sendOver_own _ _ _ _ _ _ set]
              · rfl

/-- And nothing is captured. -/
theorem recordAt_contained {env : Env} {q : List Nat} {c : RecordCall} {w : World}
    (quiet : SocketUnrecorded env q w.monitor c) :
    (recordAt env 1 q .application c w).Ends fun w' => w'.captured = w.captured := by
  cases outer : handed env q w.monitor c with
  | none =>
      obtain ⟨x, same, ends⟩ := recordAt_unhanded outer
      rw [same 1]
      exact ends.mono fun w' h => by rw [World.captured, h, World.captured]
  | some handing =>
      obtain ⟨m, r⟩ := handing
      rw [recordAt_handed outer, dispatchRecord_eq, ← handing_captured w m r]
      refine Prog.ends_bind ?_ fun rc s h => h
      by_cases path : m.messageQueuePath.isSome
      · rw [sendRecord_queue _ _ _ path]
        simp [Exit.Ends, World.captured, (sendMsgQueue_frame _ _ _).2]
      · rw [sendRecord_tcp _ _ _ path]
        refine Prog.ends_bind ?_
          fun sockfd s h => ?_
        · have inner : handed env (q ++ [0] ++ [1])
              ((w.handing m .application r).after (env.outcomes q).socket).monitor
              (SocketCall.record env (q ++ [0]) (env.outcomes q).socket .socket) = none := by
            rw [after_monitor]
            exact quiet m r outer path
          obtain ⟨x, same, ends⟩ := recordAt_unhanded inner
          rw [libraryCalls_succ, SocketCall.index]
          refine Prog.ends_bind ?_ fun _ _ h => h
          rw [same]
          exact ends.mono fun w' h => by rw [World.captured, h, after_attempts, World.captured]
        · split
          · have set : sockfd ≠ FD_NONE := by unfold FD_NONE; omega
            obtain ⟨v, direct, -, -, attempts⟩ := sendOver_direct (env.outcomes q) sockfd r s
            rw [sendOver_own _ _ _ _ _ _ set, direct]
            rw [Exit.Ends, World.captured, attempts]
            exact h
          · exact h

/-! ### A wrapper -/

/-- Along the actions, every record that goes to a socket drops the record of
its `socket` call. -/
def Quiet (env : Env) : List Action → World → Prop
  | [], _ => True
  | .answered a :: rest, w => Quiet env rest (w.after a)
  | .crash :: _, _ => True
  | .emit k c :: rest, w =>
      SocketUnrecorded env [k] w.monitor c ∧
        ∀ u w', recordAt env 1 [k] .application c w = .returned u w' → Quiet env rest w'

theorem runActions_quiet {env : Env} : ∀ {actions : List Action} {w : World},
    Quiet env actions w → ∀ n,
      runActions (fun k => recordAt env n [k] .application) actions w =
          runActions (fun k => recordAt env 1 [k] .application) actions w ∨
        runActions (fun k => recordAt env n [k] .application) actions w = .exhausted
  | [], _, _, _ => .inl rfl
  | .answered a :: _, w, quiet, n => runActions_quiet (w := w.after a) quiet n
  | .crash :: _, _, _, _ => .inl rfl
  | .emit k c :: rest, w, ⟨head, later⟩, n => by
      simp only [runActions]
      rcases recordAt_quiet head .application n with same | exhausted
      · cases first : recordAt env 1 [k] .application c w with
        | returned u w' =>
            rw [Prog.bind_of_returned (same.trans first), Prog.bind_of_returned first]
            exact runActions_quiet (later u w' first) n
        | crashed w' =>
            rw [Prog.bind_of_crashed (same.trans first), Prog.bind_of_crashed first]
            exact .inl rfl
        | exhausted =>
            rw [Prog.bind_of_exhausted (same.trans first)]
            exact .inr rfl
      · exact .inr (Prog.bind_of_exhausted exhausted)

theorem runActions_contained {env : Env} : ∀ {actions : List Action} {w : World},
    Quiet env actions w →
      (runActions (fun k => recordAt env 1 [k] .application) actions w).Ends
        fun w' => w'.captured = w.captured
  | [], _, _ => rfl
  | .answered a :: _, w, quiet => by
      have ih := runActions_contained (w := w.after a) quiet
      rwa [World.captured, after_attempts] at ih
  | .crash :: _, _, _ => rfl
  | .emit k c :: rest, w, ⟨head, later⟩ => by
      have contained := recordAt_contained head
      simp only [runActions]
      cases first : recordAt env 1 [k] .application c w with
      | returned u w' =>
          rw [first] at contained
          rw [Prog.bind_of_returned first]
          exact (runActions_contained (later u w' first)).mono fun _ h => h.trans contained
      | crashed w' =>
          rw [first] at contained
          rw [Prog.bind_of_crashed first]
          exact contained
      | exhausted =>
          rw [first] at contained
          exact contained.elim

/-- A run that captures nothing was quiet. -/
theorem quiet_of_contained {env : Env} {n : Nat} : ∀ {actions : List Action} {w : World},
    (runActions (fun k => recordAt env n [k] .application) actions w).Ends
        (fun w' => w'.captured = w.captured) → Quiet env actions w
  | [], _, _ => trivial
  | .answered a :: _, w, ends => by
      refine quiet_of_contained (n := n) (w := w.after a) ?_
      rw [World.captured, after_attempts]
      exact ends
  | .crash :: _, _, _ => trivial
  | .emit k c :: rest, w, ends => by
      simp only [runActions] at ends
      have growing := growing_runActions fun k c => growing_recordAt env n [k] .application c
      have head : SocketUnrecorded env [k] w.monitor c := by
        by_contra loud
        have captures := Prog.all_bind (recordAt_captures loud n .application) (fun _ h => h)
          fun _ s captured => (growing rest s).mono fun _ more => Nat.lt_of_lt_of_le captured more
        obtain ⟨w', same, more⟩ := (ends.and captures).exists
        omega
      refine ⟨head, fun u w' first => ?_⟩
      have contained := recordAt_contained head
      rw [first] at contained
      rcases recordAt_quiet head .application n with same | exhausted
      · rw [Prog.bind_of_returned (same.trans first)] at ends
        exact quiet_of_contained (ends.mono fun _ h => h.trans contained.symm)
      · rw [Prog.bind_of_exhausted exhausted] at ends
        exact ends.elim

/-! ### A call of the application -/

/-- Where the wrapper's own record is made: an exec records before the call. -/
def Invocation.recordWorld (inv : Invocation) (row : Row) (w : World) : World :=
  if row.isExec then w else { w with errno := inv.errno }

/-- The filters drop the record of every `socket` call made for a record, and of
the exec call forwarded to. -/
def FiltersDrop (env : Env) (row : Row) (inv : Invocation) (w : World) : Prop :=
  Quiet env (row.actions inv) (inv.recordWorld row w) ∧
    ∀ target, row.forward = some target → ∀ u w',
      runActions (fun k => recordAt env 1 [k] .application) (row.actions inv) w = .returned u w' →
        handed env [4, 1] w'.monitor (forwardedRecord env row target inv) = none

theorem growing_originalCall (env : Env) (n : Nat) (row : Row) (inv : Invocation) :
    Growing (originalCall env n row inv) := by
  have original : Growing inv.original := fun w => grows_of_attempts rfl
  cases forward : row.forward with
  | none => simpa [originalCall, forward] using original
  | some target =>
      rw [originalCall_forward env n inv forward]
      exact ((growing_recordAt env n [4, 1] .library _).seq growing_pure).seq fun _ => original

/-- The exec call forwarded to ends without a capture iff its record is dropped. -/
theorem originalCall_contained_iff {env : Env} {n : Nat} {row : Row} {inv : Invocation}
    {w : World} :
    (originalCall env n row inv w).Ends (fun w' => w'.captured = w.captured) ↔
      ∀ target, row.forward = some target →
        handed env [4, 1] w.monitor (forwardedRecord env row target inv) = none := by
  cases forward : row.forward with
  | none => simp [originalCall, forward, Invocation.original, Exit.Ends, World.captured]
  | some target =>
      rw [originalCall_forward env n inv forward]
      simp only [Option.some.injEq, forall_eq']
      constructor
      · intro ends
        by_contra handing
        obtain ⟨⟨m, r⟩, handing⟩ := Option.ne_none_iff_exists'.mp handing
        have logged := dispatchRecord_captured (growing_libraryCalls env n [4, 1])
          (env.outcomes [4, 1]) .library r { w with monitor := m }
        rw [← recordAt_handed handing] at logged
        have captures := Prog.all_bind (f := fun _ => inv.original)
          (Prog.all_bind (f := pure) logged (fun _ h => h) fun _ _ h => h) (fun _ h => h)
          fun _ _ h => h
        obtain ⟨w', same, more⟩ := (ends.and captures).exists
        simp only [if_true] at more
        exact absurd (Nat.lt_of_succ_le more) (by rw [same]; exact Nat.lt_irrefl _)
      · intro unhanded
        obtain ⟨x, same, ends⟩ := recordAt_unhanded unhanded
        refine Prog.ends_bind (Prog.ends_bind ?_ fun _ _ h => h) fun _ _ h => h
        rw [same]
        exact ends.mono fun w' h => by rw [World.captured, h, World.captured]

/-- A run that captures nothing captures nothing in either part. -/
theorem contained_parts {α β : Type} {p : Prog World α} {f : α → Prog World β} {w : World}
    (hp : Growing p) (hf : ∀ a, Growing (f a))
    (ends : ((p >>= f) w).Ends fun w' => w'.captured = w.captured) :
    (p w).Ends (fun w' => w'.captured = w.captured) ∧
      ∀ a v, p w = .returned a v → (f a v).Ends fun w' => w'.captured = v.captured := by
  cases first : p w with
  | returned a v =>
      have before : w.captured ≤ v.captured := by
        have := hp w
        rwa [first] at this
      rw [Prog.bind_of_returned first] at ends
      obtain ⟨w', same, after⟩ := (ends.and (hf a v)).exists
      have captured : v.captured = w.captured :=
        Nat.le_antisymm (same ▸ after) before
      refine ⟨captured, fun a' v' h => ?_⟩
      cases h
      exact ends.mono fun _ h => h.trans captured.symm
  | crashed v =>
      rw [Prog.bind_of_crashed first] at ends
      exact ⟨ends, fun a v h => by cases h⟩
  | exhausted =>
      rw [Prog.bind_of_exhausted first] at ends
      exact ends.elim

theorem contained_iff (env : Env) (row : Row) (inv : Invocation) (w : World) :
    Contained env row inv w ↔ FiltersDrop env row inv w := by
  have growing : ∀ n, Growing
      (runActions (fun k => recordAt env n [k] .application) (row.actions inv)) := fun n =>
    growing_runActions (fun k c => growing_recordAt env n [k] .application c) _
  cases exec : row.isExec with
  | true =>
      have at_ : inv.recordWorld row w = w := if_pos exec
      unfold Contained FiltersDrop
      simp only [handleCall_exec env _ inv exec, at_]
      constructor
      · rintro ⟨n, ends⟩
        obtain ⟨first, second⟩ := contained_parts (growing n)
          (fun _ => growing_originalCall env n row inv) ends
        have quiet := quiet_of_contained first
        refine ⟨quiet, fun target forward u w' ran => ?_⟩
        rcases runActions_quiet quiet n with same | exhausted
        · exact originalCall_contained_iff.mp (second u w' (same.trans ran)) target forward
        · rw [exhausted] at first
          exact first.elim
      · rintro ⟨quiet, dropped⟩
        refine ⟨1, ?_⟩
        have contained := runActions_contained quiet
        cases ran : runActions (fun k => recordAt env 1 [k] .application) (row.actions inv) w with
        | returned u w' =>
            rw [ran] at contained
            rw [Prog.bind_of_returned ran]
            refine (originalCall_contained_iff.mpr fun target forward => ?_).mono
              fun _ h => h.trans contained
            exact dropped target forward u w' ran
        | crashed w' =>
            rw [ran] at contained
            rw [Prog.bind_of_crashed ran]
            exact contained
        | exhausted =>
            rw [ran] at contained
            exact contained.elim
  | false =>
      have noForward : row.forward = none := by
        cases forward : row.forward with
        | none => rfl
        | some target => simp [Row.isExec_of_forward forward] at exec
      have at_ : inv.recordWorld row w = { w with errno := inv.errno } := by
        simp [Invocation.recordWorld, exec]
      unfold Contained FiltersDrop
      simp only [handleCall_plain env _ inv w exec, at_, noForward, reduceCtorEq, false_implies,
        implies_true, and_true]
      constructor
      · rintro ⟨n, ends⟩
        exact quiet_of_contained
          (contained_parts (growing n) (fun _ => growing_pure inv.result) ends).1
      · intro quiet
        exact ⟨1, Prog.ends_bind (runActions_contained quiet) fun _ _ h => h⟩

/-! A program's `close`, monitored together with the sockets over TCP. -/

def closeThree : Invocation := { Invocation.zero with fd := 3 }

theorem close_not_contained :
    ¬ Contained (Env.always .success) closeRow closeThree
      (startWorld (socketMonitor [.sockets, .fileOpenClose])) := by
  rintro ⟨n, ends⟩
  rw [handleCall_plain _ n _ _ (by decide)] at ends
  have growing := growing_runActions
    (fun k c => growing_recordAt (Env.always .success) n [k] .application c)
    (closeRow.actions closeThree)
  have quiet := quiet_of_contained (contained_parts growing (fun _ => growing_pure _) ends).1
  have dropped := quiet.1 _ _ rfl (by decide)
  revert dropped
  decide

end IoMonitor
