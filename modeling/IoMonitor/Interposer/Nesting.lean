import IoMonitor.Interposer.SelfCapture

/-!
One record inside another.

Over TCP the `socket()` that is called to send a record has a wrapper too, and the record that
it makes may be sent first. `recordIn` is `record()` with all that. Over the queue, or where
the domain of that record is not monitored, it is `recordStep`, in which the C library answers
alone (`recordIn_eq`).
-/

namespace IoMonitor

open CString

/-- The record of the `socket()` that is called to send a record. -/
def socketCall (env : Env) (q : List Nat) : RecordCall :=
  SocketCall.record env (q ++ [0]) (env.outcomes q).socket .socket

theorem socketCall_defined (env : Env) (q : List Nat) : (socketCall env q).Defined :=
  ⟨(nomatch ·), (nomatch ·), (nomatch ·)⟩

/-- `send_tcp_socket`: the record of its `socket()`, and then the socket. -/
theorem sendTcpSocket_nested (env : Env) (n : Nat) (q : List Nat) (r : MonitorRecord)
    (w : World) :
    sendTcpSocket (libraryCalls env (n + 1) q) (env.outcomes q) r w =
      (recordAt env n (q ++ [0] ++ [1]) .library (socketCall env q) >>= fun _ =>
        overSocket (env.outcomes q) r) (w.after (env.outcomes q).socket) := by
  rw [sendTcpSocket, Prog.bind_apply, libraryCalls_succ, Prog.bind_apply, Prog.bind_apply]
  rw [socketCall, SocketCall.index]
  cases recordAt env n (q ++ [0] ++ [1]) .library
      (SocketCall.record env (q ++ [0]) (env.outcomes q).socket .socket)
      (w.after (env.outcomes q).socket) with
  | returned u v =>
      dsimp only [Prog.pure_apply, overSocket]
      split
      · rename_i opened
        have set : (env.outcomes q).socket.ret ≠ FD_NONE := by unfold FD_NONE; omega
        rw [sendOver_own _ _ _ _ _ _ set]
      · rfl
  | crashed v => rfl
  | exhausted => rfl

theorem handed_some {env : Env} {q : List Nat} {c : RecordCall} {m m' : Monitor}
    {r : MonitorRecord} (h : handed env q m c = some (m', r)) :
    recordFilters c (env.outcomes q).time m = .admitted m' := by
  unfold handed at h
  split at h
  · rename_i verdict
    obtain ⟨_, -, same⟩ := Option.map_eq_some_iff.mp h
    cases same
    exact verdict
  · cases h

/-- A record that is not handed over is held back, or its strings cannot be read. -/
theorem recordAt_held {env : Env} {q : List Nat} {c : RecordCall} {w : World}
    (h : handed env q w.monitor c = none) (n : Nat) (who : Caller) :
    (∃ w', recordAt env n q who c w = .returned () w' ∧ Counted w w' 0 0) ∨
      (¬ c.Defined ∧ ∃ v, recordAt env n q who c w = .crashed v) := by
  unfold handed at h
  cases verdict : recordFilters c (env.outcomes q).time w.monitor with
  | ignored m => exact .inl ⟨_, record_ignored verdict, .ignored verdict⟩
  | crashed =>
      refine .inr ⟨fun defined_ => ?_, w, by rw [recordAt, record, verdict]⟩
      exact recordFilters_ne_crashed defined_ _ _ verdict
  | admitted m =>
      rw [verdict, Option.map_eq_none_iff] at h
      refine .inr ⟨fun defined_ => ?_, { w with monitor := m },
        by simp only [recordAt, record, verdict, h]⟩
      obtain ⟨r, built⟩ := buildRecord_isSome m defined_ (env.outcomes q).time
        (env.outcomes q).getpid
      rw [h] at built
      cases built

/-- A call of `record()` that returns, with the answers for it and for the calls inside. -/
def recordIn (n : Nat) (who : Caller) (w : World) (c : RecordCall × Env) : Option World :=
  match recordAt c.2 n [] who c.1 w with
  | .returned _ w' => some w'
  | _ => none

/-- The call with the answers for it alone. -/
def answered (c : RecordCall × Env) : Recorded := (c.1, c.2.outcomes [])

/-- The record of the library's own `socket()` is not made, or not let through. -/
def Monitor.Unnested (m : Monitor) : Prop :=
  m.messageQueuePath.isSome ∨ m.monitors .sockets = false

theorem Monitor.Unnested.congr {m m' : Monitor} (h : m.Unnested)
    (same : m'.unsampled = m.unsampled) : m'.Unnested := by
  have path : m'.messageQueuePath = m.messageQueuePath := (congrArg Monitor.messageQueuePath same :)
  have mask : m'.domainBitFlags = m.domainBitFlags := (congrArg Monitor.domainBitFlags same :)
  rwa [Unnested, path, Monitor.monitors, mask]

/-- A domain that is not monitored is dropped before anything changes. -/
theorem recordFilters_unmonitored {c : RecordCall} {m : Monitor} (timestamp : Nat)
    (off : m.monitors c.domType = false) : recordFilters c timestamp m = .ignored m := by
  have closed : gate c m = .ignored m := by
    unfold gate
    repeat' split
    all_goals first
      | rfl
      | simp_all
  rw [recordFilters, closed]
  rfl

theorem recordAt_eq {env : Env} {q : List Nat} {w : World} (unnested : w.monitor.Unnested)
    (n : Nat) (who : Caller) (c : RecordCall) :
    recordAt env (n + 1) q who c w = record .direct (env.outcomes q) who c w := by
  unfold recordAt record
  split
  · rfl
  · rfl
  · rename_i m verdict
    split
    · rfl
    · rename_i r built
      have inside := unnested.congr (admitted_unsampled verdict)
      rw [dispatchRecord_eq, dispatchRecord_eq]
      refine Prog.bind_congr ?_ fun _ _ _ => rfl
      by_cases path : m.messageQueuePath.isSome
      · rw [sendRecord_queue _ _ _ path, sendRecord_queue _ _ _ path]
      · have off := inside.resolve_left path
        have dropped := recordFilters_unmonitored (c := socketCall env q)
          (m := ((w.handing m who r).after (env.outcomes q).socket).monitor)
          (env.outcomes (q ++ [0] ++ [1])).time (by rw [after_monitor]; exact off)
        rw [sendRecord_tcp _ _ _ path, sendRecord_tcp _ _ _ path, sendTcpSocket_nested,
          sendTcpSocket_direct, recordAt, Prog.bind_of_returned (record_ignored dropped)]

/-- So runs are those of `recordStep`. -/
theorem recordIn_eq {w : World} (unnested : w.monitor.Unnested) (n : Nat) (who : Caller)
    (c : RecordCall × Env) : recordIn (n + 1) who w c = recordStep who w (answered c) := by
  rw [recordIn, recordAt_eq unnested, recordStep]
  rfl

theorem Monitor.Unnested.step {w w' : World} {who : Caller} {c : Recorded}
    (h : w.monitor.Unnested) (step : recordStep who w c = some w') : w'.monitor.Unnested := by
  have settings := recordStep_settings step
  have mask : w'.monitor.domainBitFlags = w.monitor.domainBitFlags :=
    (congrArg Monitor.domainBitFlags settings :)
  rwa [Unnested, recordStep_path step, Monitor.monitors, mask]

theorem run_recordIn (n : Nat) (who : Caller) {calls : List (RecordCall × Env)} {w : World}
    (unnested : w.monitor.Unnested) :
    Machine.run (recordIn (n + 1) who) w calls =
      Machine.run (recordStep who) w (calls.map answered) := by
  induction calls generalizing w with
  | nil => rfl
  | cons c calls ih =>
      rw [List.map_cons, Machine.run_cons, Machine.run_cons, recordIn_eq unnested]
      cases step : recordStep who w (answered c) with
      | none => rfl
      | some w' => exact ih (unnested.step step)

end IoMonitor
