import IoMonitor.Monitor.Accounting

/-!
Count-based and time-based sampling.

Both stand behind every other filter of `record()`, so they see the eligible
calls and nothing else (`recordFilters_running`). The counter sends each `k`-th
of them (`count_sampling_law`). The clock opens a window at a call and closes it
at a later one; since one call does not do both, a call that is due while the
window is still open is lost (`due_windows_iff`), but nothing is sent outside a
window (`time_sampling_windows`).
-/

namespace IoMonitor

open CString

/-! ### The calls sent -/

/-- The calls of a run whose records are handed to the send routine. What the queue takes of
them depends on it alone. -/
def callsSent (who : Caller) : World → List Recorded → List Recorded
  | _, [] => []
  | w, c :: calls =>
      match recordStep who w c with
      | some w' =>
          if w.attempts.length < w'.attempts.length then c :: callsSent who w' calls
          else callsSent who w' calls
      | none => []

theorem callsSent_silent {who : Caller} {w w' : World} {c : Recorded}
    (step : recordStep who w c = some w') (silent : w'.attempts = w.attempts)
    (calls : List Recorded) : callsSent who w (c :: calls) = callsSent who w' calls := by
  simp [callsSent, step, silent]

theorem callsSent_sends {who : Caller} {w w' : World} {c : Recorded}
    (step : recordStep who w c = some w') (sends : w.attempts.length < w'.attempts.length)
    (calls : List Recorded) : callsSent who w (c :: calls) = c :: callsSent who w' calls := by
  simp [callsSent, step, sends]

theorem attempts_lt {w w' : World} {a : Attempt} (sent : w'.attempts = w.attempts ++ [a]) :
    w.attempts.length < w'.attempts.length := by
  simp [sent]

/-! ### Every `k`-th call -/

/-- The members at the positions divisible by `k`, the first one having position
`n + 1`. -/
def everyKth {α : Type} (k n : Nat) (xs : List α) : List α :=
  ((xs.zipIdx (n + 1)).filter fun p => p.2 % k = 0).map Prod.fst

theorem everyKth_cons {α : Type} (k n : Nat) (x : α) (xs : List α) :
    everyKth k n (x :: xs) =
      if (n + 1) % k = 0 then x :: everyKth k (n + 1) xs else everyKth k (n + 1) xs := by
  unfold everyKth
  rw [List.zipIdx_cons, List.filter_cons]
  by_cases last : (n + 1) % k = 0 <;> simp [last]

/-- Count-based sampling alone, at frequency `k`. -/
structure CountSampled (k : Nat) (m : Monitor) : Prop extends QueueRunning m where
  counts : m.countBasedSampling = true
  frequency : m.countBasedSampleFrequency = k
  noTime : m.timeBasedSampling = false

def Monitor.counted (n : Nat) (m : Monitor) : Monitor :=
  { m with countInterceptsSinceLastReport := n }

/-- What the counter's tests depend on. -/
theorem CountSampled.congr {k : Nat} {m m' : Monitor} (h : CountSampled k m)
    (same : (m'.counted 0).uncounted = (m.counted 0).uncounted) : CountSampled k m' where
  queue := (congrArg (·.messageQueuePath.isSome) same).trans h.queue
  running := (congrArg Monitor.paused same).trans h.running
  noSocket := (congrArg Monitor.socketFd same).trans h.noSocket
  connected := (congrArg Monitor.failedSocketConnections same).trans h.connected
  counts := (congrArg Monitor.countBasedSampling same).trans h.counts
  frequency := (congrArg Monitor.countBasedSampleFrequency same).trans h.frequency
  noTime := (congrArg Monitor.timeBasedSampling same).trans h.noTime

/-- With `n` eligible calls behind it, the counter is at `n % k`, and lets the
next one through if that is a `k`-th. -/
theorem countStage_counted {k n : Nat} (positive : 1 ≤ k) {m : Monitor} (h : CountSampled k m)
    (counter : m.countInterceptsSinceLastReport = (n % k : Nat)) :
    countStage m =
      if (n + 1) % k = 0 then .admitted (m.counted ((n + 1) % k))
      else .ignored (m.counted ((n + 1) % k)) := by
  have below : n % k < k := Nat.mod_lt n positive
  have next : (n + 1) % k = if n % k + 1 < k then n % k + 1 else 0 := by
    rw [Nat.add_mod]
    split
    · rename_i early
      rw [Nat.mod_eq_of_lt (show 1 < k by omega), Nat.mod_eq_of_lt early]
    · rename_i full
      by_cases single : k = 1
      · rw [single, Nat.mod_one]
      · rw [Nat.mod_eq_of_lt (show 1 < k by omega), show n % k + 1 = k by omega, Nat.mod_self]
  have test : m.countInterceptsSinceLastReport + 1 < m.countBasedSampleFrequency ↔
      n % k + 1 < k := by
    rw [counter, h.frequency]
    exact_mod_cast Iff.rfl
  rw [countStage, if_pos h.counts]
  dsimp only
  by_cases early : n % k + 1 < k
  · rw [if_pos early] at next
    rw [if_pos (test.mpr early), if_neg (by omega), next, counter]
    rfl
  · rw [if_neg early] at next
    rw [if_neg (fun h => early (test.mp h)), if_pos next, next]
    rfl

/-- **Count-based sampling.** Over the queue, from a counter at 0, the calls sent
are every `k`-th of the eligible ones. -/
theorem count_sampling_law {k : Nat} (positive : 1 ≤ k) (who : Caller) {w : World}
    (settings : CountSampled k w.monitor)
    (fresh : w.monitor.countInterceptsSinceLastReport = 0) (calls : List Recorded)
    (defined_ : ∀ c ∈ calls, c.1.Defined) :
    (Machine.run (recordStep who) w calls).isSome ∧
      callsSent who w calls = everyKth k 0 (calls.filter fun c => Eligible w.monitor c.1) := by
  suffices run : ∀ n (w' : World), CountSampled k w'.monitor →
      w'.monitor.domainBitFlags = w.monitor.domainBitFlags →
      w'.monitor.countInterceptsSinceLastReport = (n % k : Nat) →
      (Machine.run (recordStep who) w' calls).isSome ∧
        callsSent who w' calls = everyKth k n (calls.filter fun c => Eligible w.monitor c.1) from
    run 0 w settings rfl (by simpa using fresh)
  clear settings fresh
  induction calls with
  | nil =>
      intro n w' _ _ _
      exact ⟨rfl, rfl⟩
  | cons c calls ih =>
      intro n w' settings mask counter
      obtain ⟨defined_, later⟩ := List.forall_mem_cons.mp defined_
      have ih := ih later
      have verdict := recordFilters_running settings.running defined_ c.2.time
      simp only [reaches_queue settings.toQueueRunning] at verdict
      rw [eligible_of_mask mask, countStage_counted positive settings counter] at verdict
      by_cases eligible : Eligible w.monitor c.1 = true
      · rw [if_pos eligible] at verdict
        have counted : CountSampled k (w'.monitor.counted ((n + 1) % k)) := settings.congr rfl
        rw [List.filter_cons_of_pos (by simpa using eligible), everyKth_cons]
        by_cases last : (n + 1) % k = 0
        · -- let through: the time stage is off
          have off : ∀ m : Monitor, m.timeBasedSampling = false →
              timeStage c.2.time m = .admitted m := fun m off => by simp [timeStage, off]
          rw [if_pos last, admitted_andThen, off _ counted.noTime] at verdict
          obtain ⟨w'', step, sent, monitor, -⟩ :=
            recordStep_queue who verdict defined_ counted.queue
          have kept : CountSampled k w''.monitor :=
            counted.congr (congrArg (Monitor.counted 0) monitor :)
          have after := congrArg Monitor.countInterceptsSinceLastReport monitor
          have flags := congrArg Monitor.domainBitFlags monitor
          obtain ⟨ran, rest⟩ := ih (n + 1) w'' kept (flags.trans mask) after
          rw [if_pos last, Machine.run_cons, callsSent_sends step (attempts_lt sent), step, rest]
          exact ⟨ran, rfl⟩
        · rw [if_neg last, ignored_andThen] at verdict
          have step := recordStep_ignored who verdict
          obtain ⟨ran, rest⟩ :=
            ih (n + 1) { w' with monitor := w'.monitor.counted ((n + 1) % k) } counted mask rfl
          rw [if_neg last, Machine.run_cons, callsSent_silent step rfl, step, rest]
          exact ⟨ran, rfl⟩
      · rw [if_neg eligible] at verdict
        have step := recordStep_ignored who verdict
        obtain ⟨ran, rest⟩ := ih n w' settings mask counter
        rw [List.filter_cons_of_neg (by simpa using eligible), Machine.run_cons,
          callsSent_silent step rfl, step]
        exact ⟨ran, rest⟩

/-! Reads alone are monitored, and every second one is sent. -/

def everySecond : World :=
  startWorld { queueMonitor [.fileRead] with
    countBasedSampling := true, countBasedSampleFrequency := 2 }

theorem count_sampling_law_everySecond :
    callsSent .application everySecond (helloCalls ++ helloCalls) =
      [(readHello, .success)] := by
  have settings : CountSampled 2 everySecond.monitor :=
    { queue := rfl, running := rfl, noSocket := rfl, connected := rfl, counts := rfl
      frequency := rfl, noTime := rfl }
  have defined_ : ∀ c ∈ helloCalls ++ helloCalls, c.1.Defined := fun c hc =>
    (helloCalls_valid c (by simpa using hc)).defined
  exact (count_sampling_law (by decide) .application settings rfl _ defined_).2.trans rfl

/-! ### Windows -/

/-- Time-based sampling alone, at frequency `f` for duration `d`, over either
transport. -/
structure TimeSampled (f d : Nat) (m : Monitor) : Prop where
  running : m.paused = false
  times : m.timeBasedSampling = true
  frequency : m.timeBasedSampleFrequency = f
  duration : m.timeBasedSampleDuration = d
  noCount : m.countBasedSampling = false

def Monitor.window (start : Nat) (within : Bool) (m : Monitor) : Monitor :=
  { m with startTimeBasedSample := start, withinTimeBasedSample := within }

theorem TimeSampled.congr {f d : Nat} {m m' : Monitor} (h : TimeSampled f d m)
    (same : (m'.window 0 false).unsent = (m.window 0 false).unsent) :
    TimeSampled f d m' where
  running := (congrArg Monitor.paused same).trans h.running
  times := (congrArg Monitor.timeBasedSampling same).trans h.times
  frequency := (congrArg Monitor.timeBasedSampleFrequency same).trans h.frequency
  duration := (congrArg Monitor.timeBasedSampleDuration same).trans h.duration
  noCount := (congrArg Monitor.countBasedSampling same).trans h.noCount

/-- Timestamps and settings that no sum of two wraps. -/
abbrev Small (t : Nat) : Prop := t < 2 ^ 62

/-- The four transitions of the window, and the two ways to stay. -/
theorem timeStage_window {f d : Nat} (smallF : Small f) (smallD : Small d) {m : Monitor}
    (h : TimeSampled f d m) (smallStart : Small m.startTimeBasedSample) (t : Nat) :
    timeStage t m =
      if m.startTimeBasedSample = 0 then .admitted (m.window t true)
      else if m.withinTimeBasedSample then
        if m.startTimeBasedSample + d ≤ t then .ignored (m.window m.startTimeBasedSample false)
        else .admitted m
      else if m.startTimeBasedSample + f ≤ t then .admitted (m.window t true)
      else .ignored m := by
  have off : (m.startTimeBasedSample + m.timeBasedSampleDuration) % 2 ^ 64 =
      m.startTimeBasedSample + d := by
    rw [h.duration]
    exact Nat.mod_eq_of_lt (by unfold Small at *; omega)
  have on : (m.startTimeBasedSample + m.timeBasedSampleFrequency) % 2 ^ 64 =
      m.startTimeBasedSample + f := by
    rw [h.frequency]
    exact Nat.mod_eq_of_lt (by unfold Small at *; omega)
  rw [timeStage, if_pos h.times, off, on]
  dsimp only
  by_cases first : m.startTimeBasedSample = 0
  · rw [if_pos first, if_pos first]
    rfl
  · rw [if_neg first, if_neg first]
    cases within : m.withinTimeBasedSample with
    | true =>
        by_cases ended : m.startTimeBasedSample + d ≤ t
        · simp [ended, Monitor.window]
        · simp [ended, within]
    | false =>
        by_cases due : m.startTimeBasedSample + f ≤ t
        · simp [due, Monitor.window]
        · simp [due, within]

/-- A call meets the window alone, if it gets that far. -/
theorem recordFilters_timeSampled {f d : Nat} {m : Monitor} (h : TimeSampled f d m)
    {c : RecordCall} (defined_ : c.Defined) (t : Nat) :
    recordFilters c t m = if Reaches m c then timeStage t m else .ignored m := by
  have count : countStage m = .admitted m := by simp [countStage, h.noCount]
  rw [recordFilters_running h.running defined_, count, admitted_andThen]

/-- The start of the most recent window. -/
def Monitor.opened (m : Monitor) : Option Nat :=
  if m.startTimeBasedSample = 0 then none else some m.startTimeBasedSample

/-- What one call does: it is ignored, or closes the window, and is not sent; or
it is sent, in the open window or as the start of one. -/
inductive WindowStep (f d : Nat) (w : World) (c : Recorded) (w' : World) : Prop where
  | ignored (silent : w'.attempts = w.attempts)
      (start : w'.monitor.startTimeBasedSample = w.monitor.startTimeBasedSample)
      (within : w'.monitor.withinTimeBasedSample = w.monitor.withinTimeBasedSample)
      (why : Reaches w.monitor c.1 → w.monitor.withinTimeBasedSample = false ∧
        ∃ s ∈ w.monitor.opened, c.2.time < s + f)
  | closes (silent : w'.attempts = w.attempts)
      (start : w'.monitor.startTimeBasedSample = w.monitor.startTimeBasedSample)
      (within : w.monitor.withinTimeBasedSample = true)
      (ended : w.monitor.startTimeBasedSample + d ≤ c.2.time)
  | sent (sends : w.attempts.length < w'.attempts.length)
      (set : w.monitor.startTimeBasedSample ≠ 0)
      (inside : c.2.time < w.monitor.startTimeBasedSample + d)
      (start : w'.monitor.startTimeBasedSample = w.monitor.startTimeBasedSample)
      (within : w'.monitor.withinTimeBasedSample = true)
  | opens (sends : w.attempts.length < w'.attempts.length)
      (due : ∀ s ∈ w.monitor.opened, s + f ≤ c.2.time ∧ w.monitor.withinTimeBasedSample = false)
      (start : w'.monitor.startTimeBasedSample = c.2.time)
      (within : w'.monitor.withinTimeBasedSample = true)

theorem recordStep_timeSampled {f d : Nat} (smallF : Small f) (smallD : Small d) (who : Caller)
    {w : World} (settings : TimeSampled f d w.monitor)
    (smallStart : Small w.monitor.startTimeBasedSample) {c : Recorded} (defined_ : c.1.Defined) :
    ∃ w', recordStep who w c = some w' ∧ TimeSampled f d w'.monitor ∧
      WindowStep f d w c w' := by
  have verdict := recordFilters_timeSampled settings defined_ c.2.time
  by_cases reaches : Reaches w.monitor c.1
  · rw [if_pos reaches, timeStage_window smallF smallD settings smallStart] at verdict
    by_cases first : w.monitor.startTimeBasedSample = 0
    · rw [if_pos first] at verdict
      obtain ⟨w', step, sent, monitor⟩ := recordStep_admitted who verdict defined_
      refine ⟨w', step, settings.congr (congrArg (Monitor.window 0 false) monitor :), ?_⟩
      exact .opens (attempts_lt sent) (by simp [Monitor.opened, first])
        (congrArg Monitor.startTimeBasedSample monitor :)
        (congrArg Monitor.withinTimeBasedSample monitor :)
    · rw [if_neg first] at verdict
      cases within : w.monitor.withinTimeBasedSample with
      | true =>
          rw [if_pos within] at verdict
          by_cases ended : w.monitor.startTimeBasedSample + d ≤ c.2.time
          · rw [if_pos ended] at verdict
            have step := recordStep_ignored who verdict
            exact ⟨_, step, settings.congr rfl,
              .closes rfl rfl within ended⟩
          · rw [if_neg ended] at verdict
            obtain ⟨w', step, sent, monitor⟩ := recordStep_admitted who verdict defined_
            refine ⟨w', step, settings.congr (congrArg (Monitor.window 0 false) monitor :), ?_⟩
            exact .sent (attempts_lt sent) first (not_le.mp ended)
              (congrArg Monitor.startTimeBasedSample monitor :)
              ((congrArg Monitor.withinTimeBasedSample monitor :).trans within)
      | false =>
          rw [if_neg (by simp [within])] at verdict
          by_cases due : w.monitor.startTimeBasedSample + f ≤ c.2.time
          · rw [if_pos due] at verdict
            obtain ⟨w', step, sent, monitor⟩ := recordStep_admitted who verdict defined_
            refine ⟨w', step, settings.congr (congrArg (Monitor.window 0 false) monitor :), ?_⟩
            exact .opens (attempts_lt sent)
              (by simp [Monitor.opened, first, due, within])
              (congrArg Monitor.startTimeBasedSample monitor :)
              (congrArg Monitor.withinTimeBasedSample monitor :)
          · rw [if_neg due] at verdict
            have step := recordStep_ignored who verdict
            exact ⟨_, step, settings, .ignored rfl rfl rfl fun _ =>
              ⟨within, _, if_neg first, not_le.mp due⟩⟩
  · rw [if_neg reaches] at verdict
    have step := recordStep_ignored who verdict
    exact ⟨_, step, settings, .ignored rfl rfl rfl fun h => absurd h reaches⟩

/-- Windows of length `d` that account for the calls sent: after the one opened
`earlier`, they start at `starts`. -/
structure Windows (f d : Nat) (earlier : Option Nat) (sent : List Recorded) (starts : List Nat) :
    Prop where
  covered : ∀ c ∈ sent, ∃ s ∈ earlier.toList ++ starts, s ≤ c.2.time ∧ c.2.time < s + d
  begun : ∀ s ∈ starts, ∃ c ∈ sent, c.2.time = s
  apart : (earlier.toList ++ starts).IsChain fun s s' => s + max f d ≤ s'

theorem Windows.nil (f d : Nat) (earlier : Option Nat) : Windows f d earlier [] [] where
  covered := by simp
  begun := by simp
  apart := by cases earlier <;> simp

/-- One more call in the open window. -/
theorem Windows.inside {f d s : Nat} {sent : List Recorded} {starts : List Nat}
    (h : Windows f d (some s) sent starts) {c : Recorded} (begun : s ≤ c.2.time)
    (before : c.2.time < s + d) : Windows f d (some s) (c :: sent) starts where
  covered := by
    intro c' hc'
    rcases List.mem_cons.mp hc' with rfl | later
    · exact ⟨s, by simp, begun, before⟩
    · exact h.covered c' later
  begun := by
    intro s' hs'
    obtain ⟨c', later, time⟩ := h.begun s' hs'
    exact ⟨c', List.mem_cons_of_mem c later, time⟩
  apart := h.apart

/-- A call that opens a window, far enough from the one before. -/
theorem Windows.open {f d : Nat} (duration : 1 ≤ d) {sent : List Recorded} {starts : List Nat}
    {c : Recorded} (h : Windows f d (some c.2.time) sent starts) {earlier : Option Nat}
    (far : ∀ s ∈ earlier, s + max f d ≤ c.2.time) :
    Windows f d earlier (c :: sent) (c.2.time :: starts) where
  covered := by
    intro c' hc'
    rcases List.mem_cons.mp hc' with rfl | later
    · exact ⟨c'.2.time, by simp, le_rfl, by omega⟩
    · obtain ⟨s, hs, inside⟩ := h.covered c' later
      exact ⟨s, List.mem_append_right _ hs, inside⟩
  begun := by
    intro s hs
    rcases List.mem_cons.mp hs with rfl | later
    · exact ⟨c, by simp, rfl⟩
    · obtain ⟨c', hc', time⟩ := h.begun s later
      exact ⟨c', List.mem_cons_of_mem c hc', time⟩
  apart := by
    cases earlier with
    | none => exact h.apart
    | some s => exact List.IsChain.cons_cons (far s rfl) h.apart

/-- Timestamps that are positive, small, and do not go back. -/
structure Timed (calls : List Recorded) : Prop where
  positive : ∀ c ∈ calls, 0 < c.2.time
  small : ∀ c ∈ calls, Small c.2.time
  ordered : calls.Pairwise fun c c' => c.2.time ≤ c'.2.time

theorem Timed.tail {c : Recorded} {calls : List Recorded} (h : Timed (c :: calls)) :
    Timed calls where
  positive := fun c' hc' => h.positive c' (List.mem_cons_of_mem c hc')
  small := fun c' hc' => h.small c' (List.mem_cons_of_mem c hc')
  ordered := h.ordered.of_cons

/-- At time `now` the most recent window began in the past, and if it is closed
its duration is over. -/
structure WindowInv (f d now : Nat) (m : Monitor) : Prop where
  settings : TimeSampled f d m
  small : Small m.startTimeBasedSample
  past : m.startTimeBasedSample ≤ now
  ended : m.withinTimeBasedSample = false → ∀ s ∈ m.opened, s + d ≤ now

theorem Monitor.opened_some {m : Monitor} (set : m.startTimeBasedSample ≠ 0) :
    m.opened = some m.startTimeBasedSample := if_neg set

theorem Monitor.mem_opened {m : Monitor} {s : Nat} (h : s ∈ m.opened) :
    s = m.startTimeBasedSample := by
  unfold Monitor.opened at h
  split at h
  · cases h
  · exact (Option.some.inj h).symm

theorem Monitor.opened_congr {m m' : Monitor}
    (h : m'.startTimeBasedSample = m.startTimeBasedSample) : m'.opened = m.opened := by
  simp only [Monitor.opened, h]

theorem WindowInv.step {f d now : Nat} {w w' : World} {c : Recorded}
    (h : WindowInv f d now w.monitor) (later : now ≤ c.2.time) (small : Small c.2.time)
    (settings : TimeSampled f d w'.monitor) (step : WindowStep f d w c w') :
    WindowInv f d c.2.time w'.monitor := by
  cases step with
  | ignored _ start within _ =>
      refine ⟨settings, start ▸ h.small, start ▸ h.past.trans later, fun closed s opened => ?_⟩
      rw [Monitor.opened_congr start] at opened
      exact (h.ended (within ▸ closed) s opened).trans later
  | closes _ start _ ended =>
      refine ⟨settings, start ▸ h.small, start ▸ h.past.trans later, fun _ s opened => ?_⟩
      rw [Monitor.opened_congr start] at opened
      rw [Monitor.mem_opened opened]
      exact ended
  | sent _ _ _ start within =>
      refine ⟨settings, start ▸ h.small, start ▸ h.past.trans later, fun closed => ?_⟩
      rw [within] at closed
      cases closed
  | opens _ _ start within =>
      refine ⟨settings, start ▸ small, start.le, fun closed => ?_⟩
      rw [within] at closed
      cases closed

/-- **Time-based sampling stays within its windows.** There are windows of
length `d`, each begun by a call that is sent, at least `max f d` apart, and
every call sent is in one of them. -/
theorem time_sampling_windows {f d : Nat} (duration : 1 ≤ d) (smallF : Small f) (smallD : Small d)
    (who : Caller) {w : World} (settings : TimeSampled f d w.monitor)
    (fresh : w.monitor.startTimeBasedSample = 0) (calls : List Recorded) (timed : Timed calls)
    (defined_ : ∀ c ∈ calls, c.1.Defined) :
    (Machine.run (recordStep who) w calls).isSome ∧
      ∃ starts, Windows f d none (callsSent who w calls) starts := by
  suffices run : ∀ now (w' : World), WindowInv f d now w'.monitor →
      (∀ c ∈ calls, now ≤ c.2.time) → (Machine.run (recordStep who) w' calls).isSome ∧
        ∃ starts, Windows f d w'.monitor.opened (callsSent who w' calls) starts by
    have none_ : w.monitor.opened = none := by simp [Monitor.opened, fresh]
    rw [← none_]
    refine run 0 w ⟨settings, by rw [fresh]; decide, fresh.le, fun _ s opened => ?_⟩
      fun _ _ => Nat.zero_le _
    simp [none_] at opened
  clear settings fresh
  induction calls with
  | nil =>
      intro now w' _ _
      exact ⟨rfl, [], .nil f d _⟩
  | cons c calls ih =>
      intro now w' inv later
      obtain ⟨definedHead, definedTail⟩ := List.forall_mem_cons.mp defined_
      obtain ⟨ordered, -⟩ := List.pairwise_cons.mp timed.ordered
      have positive := timed.positive c (by simp)
      obtain ⟨w'', first, settings, step⟩ :=
        recordStep_timeSampled smallF smallD who inv.settings inv.small definedHead
      have inv' := inv.step (later c (by simp)) (timed.small c (by simp)) settings step
      obtain ⟨ran, starts, windows⟩ :=
        ih timed.tail definedTail c.2.time w'' inv' ordered
      refine ⟨by rw [Machine.run_cons, first]; exact ran, ?_⟩
      cases step with
      | ignored silent start _ _ =>
          rw [Monitor.opened_congr start] at windows
          exact ⟨starts, (callsSent_silent first silent calls).symm ▸ windows⟩
      | closes silent start _ _ =>
          rw [Monitor.opened_congr start] at windows
          exact ⟨starts, (callsSent_silent first silent calls).symm ▸ windows⟩
      | sent sends set inside start _ =>
          rw [Monitor.opened_some (start ▸ set), start] at windows
          rw [callsSent_sends first sends, Monitor.opened_some set]
          exact ⟨starts, windows.inside (inv.past.trans (later c (by simp))) inside⟩
      | opens sends due start _ =>
          rw [Monitor.opened_some (by omega), start] at windows
          rw [callsSent_sends first sends]
          refine ⟨c.2.time :: starts, windows.open duration fun s opened => ?_⟩
          obtain ⟨late, closed⟩ := due s opened
          have ended := inv.ended closed s opened
          have := later c (by simp)
          omega

/-! Reads at 100, 101, 103, 110 and 112, in windows of 2 every 10. -/

def readAt (time : Nat) : Recorded := (readHello, { Outcomes.success with time })

def everyTenSeconds : World :=
  startWorld { queueMonitor [.fileRead] with
    timeBasedSampling := true, timeBasedSampleFrequency := 10, timeBasedSampleDuration := 2 }

theorem everyTenSeconds_settings : TimeSampled 10 2 everyTenSeconds.monitor :=
  ⟨rfl, rfl, rfl, rfl, rfl⟩

theorem readHello_defined : readHello.Defined :=
  (helloCalls_valid (readHello, .success) (by simp [helloCalls])).defined

theorem time_sampling_windows_reads :
    ∃ starts, Windows 10 2 none
      (callsSent .application everyTenSeconds ([100, 101, 103, 110, 112].map readAt)) starts := by
  have timed : Timed ([100, 101, 103, 110, 112].map readAt) :=
    ⟨by simp [readAt], by simp [readAt, Small], by simp [readAt]⟩
  exact (time_sampling_windows (by decide) (by decide) (by decide) .application
    everyTenSeconds_settings rfl _ timed (by simp [readAt, readHello_defined])).2

/-! ### Windows that are due -/

/-- If the call comes at least the frequency after the most recent window began,
it is sent and begins a window. -/
def DueOpens (f : Nat) (who : Caller) (w : World) (c : Recorded) : Prop :=
  ∀ s ∈ w.monitor.opened, s + f ≤ c.2.time → ∃ w', recordStep who w c = some w' ∧
    w.attempts.length < w'.attempts.length ∧ w'.monitor.opened = some c.2.time ∧
    w'.monitor.withinTimeBasedSample = true

/-- If the call is due, an earlier one has closed the window. -/
def ClosedWhenDue (f : Nat) (w : World) (c : Recorded) : Prop :=
  ∀ s ∈ w.monitor.opened, s + f ≤ c.2.time → w.monitor.withinTimeBasedSample = false

/-- Time-based sampling, with no sum that wraps. -/
structure SmallSampled (f d : Nat) (w : World) : Prop where
  settings : TimeSampled f d w.monitor
  small : Small w.monitor.startTimeBasedSample

theorem smallSampled_progress {f d : Nat} (smallF : Small f) (smallD : Small d) (who : Caller)
    (w : World) (c : Recorded) (h : SmallSampled f d w) (defined_ : c.1.Defined)
    (small : Small c.2.time) : ∃ w', recordStep who w c = some w' ∧ SmallSampled f d w' := by
  obtain ⟨w', step, settings, window⟩ :=
    recordStep_timeSampled smallF smallD who h.settings h.small defined_
  refine ⟨w', step, settings, ?_⟩
  cases window with
  | ignored _ start | closes _ start | sent _ _ _ start => exact start ▸ h.small
  | opens _ _ start => exact start ▸ small

theorem dueOpens_iff {f d : Nat} (shorter : d ≤ f) (smallF : Small f) (smallD : Small d)
    (who : Caller) {w : World} (h : SmallSampled f d w) {c : Recorded} (positive : 0 < c.2.time)
    (defined_ : c.1.Defined) (reaches : Reaches w.monitor c.1) :
    DueOpens f who w c ↔ ClosedWhenDue f w c := by
  obtain ⟨w', step, -, window⟩ :=
    recordStep_timeSampled smallF smallD who h.settings h.small defined_
  constructor
  · intro opens s opened due
    obtain ⟨w₁, step', sends, -, -⟩ := opens s opened due
    rw [step] at step'
    cases step'
    have start := Monitor.mem_opened opened
    cases window with
    | ignored silent => simp [silent] at sends
    | closes silent => simp [silent] at sends
    | sent _ _ inside => omega
    | opens _ closed => exact (closed s opened).2
  · intro closed s opened due
    have shut := closed s opened due
    have start := Monitor.mem_opened opened
    cases window with
    | ignored _ _ _ why =>
        obtain ⟨-, s', opened', early⟩ := why reaches
        rw [Option.mem_unique opened' opened] at early
        omega
    | closes _ _ within =>
        rw [shut] at within
        cases within
    | sent _ _ inside => omega
    | opens sends _ start within =>
        refine ⟨w', step, sends, ?_, within⟩
        rw [Monitor.opened_some (by omega), start]

/-- **Due windows.** In a run of eligible calls each due call is sent and begins
a window iff each comes when the window before it has been closed. -/
theorem due_windows_iff {f d : Nat} (shorter : d ≤ f) (smallF : Small f) (smallD : Small d)
    (who : Caller) {w : World} (settings : TimeSampled f d w.monitor)
    (fresh : w.monitor.startTimeBasedSample = 0) (calls : List Recorded) (timed : Timed calls)
    (defined_ : ∀ c ∈ calls, c.1.Defined)
    (eligible : Machine.AllSteps (recordStep who) (fun w c => Reaches w.monitor c.1) w calls) :
    (Machine.run (recordStep who) w calls).isSome ∧
      (Machine.AllSteps (recordStep who) (DueOpens f who) w calls ↔
        Machine.AllSteps (recordStep who) (ClosedWhenDue f) w calls) := by
  have start : SmallSampled f d w := ⟨settings, by rw [fresh]; decide⟩
  have inputs : ∀ c ∈ calls, c.1.Defined ∧ 0 < c.2.time ∧ Small c.2.time := fun c hc =>
    ⟨defined_ c hc, timed.positive c hc, timed.small c hc⟩
  constructor
  · refine Machine.run_isSome (fun w c h admitted => ?_) start inputs
    exact smallSampled_progress smallF smallD who w c h admitted.1 admitted.2.2
  · refine Machine.allSteps_congr (fun w c w' h admitted step => ?_) (fun w c h admitted => ?_)
      start (Machine.allSteps_and eligible (Machine.allSteps_of_forall inputs w))
    · obtain ⟨-, defined_, -, small⟩ := admitted
      obtain ⟨w₁, step', kept⟩ := smallSampled_progress smallF smallD who w c h defined_ small
      rw [step] at step'
      cases step'
      exact kept
    · obtain ⟨reaches, defined_, positive, -⟩ := admitted
      exact dueOpens_iff shorter smallF smallD who h positive defined_ reaches

theorem due_windows_iff_reads :
    Machine.AllSteps (recordStep .application) (DueOpens 10 .application) everyTenSeconds
        ([100, 103, 110].map readAt) ↔
      Machine.AllSteps (recordStep .application) (ClosedWhenDue 10) everyTenSeconds
        ([100, 103, 110].map readAt) := by
  have timed : Timed ([100, 103, 110].map readAt) :=
    ⟨by simp [readAt], by simp [readAt, Small], by simp [readAt]⟩
  exact (due_windows_iff (d := 2) (by decide) (by decide) (by decide) .application
    everyTenSeconds_settings rfl _ timed (by simp [readAt, readHello_defined]) (by decide)).2

/-- After a read at 100, the one at 110 only closes the window. -/
theorem due_window_missed :
    ¬ Machine.AllSteps (recordStep .application) (DueOpens 10 .application) everyTenSeconds
      ([100, 110].map readAt) := by
  rintro ⟨-, later⟩
  obtain ⟨w, first⟩ : ∃ w, recordStep .application everyTenSeconds (readAt 100) = some w :=
    Option.isSome_iff_exists.mp (by decide)
  have opened : ∀ w ∈ recordStep .application everyTenSeconds (readAt 100),
      w.monitor.opened = some 100 := by decide
  have silent : ∀ w ∈ recordStep .application everyTenSeconds (readAt 100),
      ∀ w' ∈ recordStep .application w (readAt 110), w'.attempts = w.attempts := by decide
  obtain ⟨w', second, sends, -⟩ := (later w first).1 100 (opened w first) (by decide)
  rw [silent w first w' second] at sends
  exact Nat.lt_irrefl _ sends

end IoMonitor
