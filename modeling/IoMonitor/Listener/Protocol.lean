import IoMonitor.Lib.Machine
import IoMonitor.Listener.PluginChain

/-!
The order of calls into a plugin.

`Phase` is the automaton of a plugin's life: opened, taking data, refusing
data, closed. The chain keeps every node in the phase its paused flag says
(`Tracks`), so over any run of loads, unloads and records the calls on one
plugin are a word of the automaton; `ObeysProtocol` is what such a word looks
like once the chain has been unloaded (`obeys_of_accepted`).
-/

namespace IoMonitor.Listener

open CString IoMonitor

variable {σ : Type}

/-! ### The automaton -/

inductive Phase where
  | fresh | active | refusing | closed | failed
  deriving DecidableEq, Repr

def Phase.next : Phase → Call → Option Phase
  | .fresh, .openPlugin rc => some (if rc = PLUGIN_OPEN_FAIL then .failed else .active)
  | .active, .processData _ rc => some (if rc = PLUGIN_REFUSE_DATA then .refusing else .active)
  | .refusing, .okToAcceptData rc => some (if rc = PLUGIN_ACCEPT_DATA then .active else .refusing)
  | .active, .closePlugin => some .closed
  | .refusing, .closePlugin => some .closed
  | _, _ => none

/-- The phase after a word of calls. -/
abbrev phaseAfter (from_ : Phase) (calls : List Call) : Option Phase :=
  Machine.run Phase.next from_ calls

theorem phaseAfter_append (a : Phase) (xs ys : List Call) :
    phaseAfter a (xs ++ ys) = (phaseAfter a xs).bind (phaseAfter · ys) :=
  Machine.run_append a xs ys

/-- The last answer to `process_data` was a refusal, and no `ok_to_accept_data`
has answered `PLUGIN_ACCEPT_DATA` since. -/
def LastRefused (calls : List Call) : Prop :=
  ∃ before record since, calls = before ++ .processData record PLUGIN_REFUSE_DATA :: since ∧
    (∀ r rc, .processData r rc ∉ since) ∧ .okToAcceptData PLUGIN_ACCEPT_DATA ∉ since

/-- The protocol of `plugin.h` on all the calls made to one plugin. -/
structure ObeysProtocol (calls : List Call) : Prop where
  opened : ∃ rc rest, calls = .openPlugin rc :: rest ∧ (∀ rc', .openPlugin rc' ∉ rest) ∧
    (rc = PLUGIN_OPEN_FAIL → rest = [])
  asked : ∀ before rc after, calls = before ++ .okToAcceptData rc :: after → LastRefused before
  resumed : ∀ before record since record' rc after,
    calls = before ++ .processData record PLUGIN_REFUSE_DATA :: since ++
      .processData record' rc :: after →
    .okToAcceptData PLUGIN_ACCEPT_DATA ∈ since
  closedOnce : ∀ rc rest, calls = .openPlugin rc :: rest → rc ≠ PLUGIN_OPEN_FAIL →
    ∃ body, calls = body ++ [.closePlugin] ∧ .closePlugin ∉ body

/-- A word splits at each of its calls into an accepted prefix and a legal step. -/
theorem phaseAfter_split {a c : Phase} {before after : List Call} {call : Call}
    (h : phaseAfter a (before ++ call :: after) = some c) :
    ∃ b b', phaseAfter a before = some b ∧ b.next call = some b' ∧
      phaseAfter b' after = some c := by
  obtain ⟨b, hb, rest⟩ := Machine.run_prefix h
  obtain ⟨b', step, hc⟩ := Machine.run_cons_some rest
  exact ⟨b, b', hb, step, hc⟩

theorem next_ne_fresh {a b : Phase} {call : Call} (h : a.next call = some b) : b ≠ .fresh := by
  cases a <;> cases call <;> simp only [Phase.next, Option.some.injEq, reduceCtorEq] at h <;>
    subst h <;> first | decide | (split <;> decide)

theorem next_openPlugin {a b : Phase} {rc : Int} (h : a.next (.openPlugin rc) = some b) :
    a = .fresh ∧ b = if rc = PLUGIN_OPEN_FAIL then .failed else .active := by
  cases a <;> simp [Phase.next] at h ⊢
  exact h.symm

theorem next_okToAcceptData {a b : Phase} {rc : Int} (h : a.next (.okToAcceptData rc) = some b) :
    a = .refusing ∧ b = if rc = PLUGIN_ACCEPT_DATA then .active else .refusing := by
  cases a <;> simp [Phase.next] at h ⊢
  exact h.symm

theorem next_processData {a b : Phase} {record : MonitorRecord} {rc : Int}
    (h : a.next (.processData record rc) = some b) :
    a = .active ∧ b = if rc = PLUGIN_REFUSE_DATA then .refusing else .active := by
  cases a <;> simp [Phase.next] at h ⊢
  exact h.symm

theorem next_closePlugin {a b : Phase} (h : a.next .closePlugin = some b) : b = .closed := by
  cases a <;> simp [Phase.next] at h <;> exact h.symm

/-- Only a close closes. -/
theorem next_closed {a : Phase} {call : Call} (h : a.next call = some .closed) :
    call = .closePlugin := by
  cases call with
  | openPlugin rc =>
      have eq := (next_openPlugin h).2
      split at eq <;> cases eq
  | processData record rc =>
      have eq := (next_processData h).2
      split at eq <;> cases eq
  | okToAcceptData rc =>
      have eq := (next_okToAcceptData h).2
      split at eq <;> cases eq
  | closePlugin => rfl

/-- Only an open fails. -/
theorem next_failed {a : Phase} {call : Call} (h : a.next call = some .failed) : a = .fresh := by
  cases call with
  | openPlugin rc => exact (next_openPlugin h).1
  | processData record rc =>
      have eq := (next_processData h).2
      split at eq <;> cases eq
  | okToAcceptData rc =>
      have eq := (next_okToAcceptData h).2
      split at eq <;> cases eq
  | closePlugin => cases next_closePlugin h

theorem next_from_closed (call : Call) : Phase.next .closed call = none := by
  cases call <;> rfl

theorem next_from_failed (call : Call) : Phase.next .failed call = none := by
  cases call <;> rfl

/-- Only the first call opens. -/
theorem no_open_after {a c : Phase} (ha : a ≠ .fresh) :
    ∀ {calls : List Call}, phaseAfter a calls = some c → ∀ rc, .openPlugin rc ∉ calls
  | [], _, _ => by simp
  | call :: calls, h, rc => by
      obtain ⟨b, step, rest⟩ := Machine.run_cons_some h
      intro mem
      rcases List.mem_cons.mp mem with rfl | mem
      · exact ha (next_openPlugin step).1
      · exact no_open_after (next_ne_fresh step) rest rc mem

/-- A word that ends refusing ends in an unrevoked refusal. -/
theorem lastRefused_of_refusing (calls : List Call)
    (h : phaseAfter .fresh calls = some .refusing) : LastRefused calls := by
  induction calls using List.reverseRecOn with
  | nil => cases h
  | append_singleton calls call ih =>
      obtain ⟨b, b', hb, step, last⟩ := phaseAfter_split h
      cases last
      cases call with
      | openPlugin rc =>
          have eq := (next_openPlugin step).2
          split at eq <;> cases eq
      | processData record rc =>
          obtain ⟨rfl, eq⟩ := next_processData step
          have refused : rc = PLUGIN_REFUSE_DATA := by
            by_contra other
            rw [if_neg other] at eq
            cases eq
          subst refused
          exact ⟨calls, record, [], rfl, by simp, by simp⟩
      | okToAcceptData rc =>
          obtain ⟨rfl, eq⟩ := next_okToAcceptData step
          have declined : rc ≠ PLUGIN_ACCEPT_DATA := by
            intro accepted
            rw [if_pos accepted] at eq
            cases eq
          obtain ⟨before, record, since, rfl, noData, noOk⟩ := ih hb
          refine ⟨before, record, since ++ [.okToAcceptData rc], by simp, ?_, ?_⟩
          · intro r rc' mem
            rcases List.mem_append.mp mem with mem | mem
            · exact noData r rc' mem
            · simp at mem
          · intro mem
            rcases List.mem_append.mp mem with mem | mem
            · exact noOk mem
            · simp only [List.mem_cons, Call.okToAcceptData.injEq, List.not_mem_nil,
                or_false] at mem
              exact declined mem.symm
      | closePlugin => cases next_closePlugin step

/-- Without an accepting `ok_to_accept_data`, a refusing plugin stays so until
it is closed. -/
theorem stays_refusing {c : Phase} :
    ∀ {calls : List Call}, phaseAfter .refusing calls = some c →
      .okToAcceptData PLUGIN_ACCEPT_DATA ∉ calls → c ≠ .active
  | [], h, _ => by
      cases h
      decide
  | call :: calls, h, noOk => by
      obtain ⟨b, step, rest⟩ := Machine.run_cons_some h
      have noOk' := fun mem => noOk (List.mem_cons_of_mem _ mem)
      cases call with
      | openPlugin rc => cases (next_openPlugin step).1
      | processData record rc => cases (next_processData step).1
      | okToAcceptData rc =>
          obtain ⟨-, rfl⟩ := next_okToAcceptData step
          have declined : rc ≠ PLUGIN_ACCEPT_DATA := fun accepted =>
            noOk (by rw [accepted]; exact List.mem_cons_self)
          rw [if_neg declined] at rest
          exact stays_refusing rest noOk'
      | closePlugin =>
          obtain rfl := next_closePlugin step
          cases calls with
          | nil =>
              cases rest
              decide
          | cons d calls =>
              obtain ⟨_, stuck, _⟩ := Machine.run_cons_some rest
              rw [next_from_closed] at stuck
              cases stuck

/-- A word that ends closed ends with its only `close_plugin`. -/
theorem close_last (calls : List Call) (h : phaseAfter .fresh calls = some .closed) :
    ∃ body, calls = body ++ [.closePlugin] ∧ .closePlugin ∉ body := by
  induction calls using List.reverseRecOn with
  | nil => cases h
  | append_singleton calls call _ =>
      obtain ⟨b, b', hb, step, last⟩ := phaseAfter_split h
      cases last
      obtain rfl := next_closed step
      refine ⟨calls, rfl, fun mem => ?_⟩
      obtain ⟨before, after, rfl⟩ := List.append_of_mem mem
      obtain ⟨a, a', _, closing, rest⟩ := phaseAfter_split hb
      obtain rfl := next_closePlugin closing
      -- nothing is legal after the earlier close, not even the last one
      cases after with
      | nil =>
          cases rest
          rw [next_from_closed] at step
          cases step
      | cons d after =>
          obtain ⟨_, stuck, _⟩ := Machine.run_cons_some rest
          rw [next_from_closed] at stuck
          cases stuck

/-- A failed open is the only way to end failed. -/
theorem not_failed_after {a : Phase} (ha : a ≠ .fresh) (ha' : a ≠ .failed) :
    ∀ {calls : List Call}, phaseAfter a calls ≠ some .failed
  | [] => by simpa using ha'
  | call :: calls => by
      intro h
      obtain ⟨b, step, rest⟩ := Machine.run_cons_some h
      refine not_failed_after (next_ne_fresh step) ?_ rest
      rintro rfl
      exact ha (next_failed step)

/-- A complete word, one that ends closed or in a failed open, obeys the
protocol. -/
theorem obeys_of_accepted {calls : List Call} {c : Phase} (nonempty : calls ≠ [])
    (h : phaseAfter .fresh calls = some c) (complete : c = .closed ∨ c = .failed) :
    ObeysProtocol calls where
  opened := by
    obtain ⟨call, rest, rfl⟩ := List.exists_cons_of_ne_nil nonempty
    obtain ⟨b, step, later⟩ := Machine.run_cons_some h
    cases call with
    | openPlugin rc =>
        refine ⟨rc, rest, rfl, no_open_after (next_ne_fresh step) later, fun fail => ?_⟩
        simp only [Phase.next, fail, if_true, Option.some.injEq] at step
        subst step
        cases rest with
        | nil => rfl
        | cons d rest =>
            obtain ⟨_, stuck, _⟩ := Machine.run_cons_some later
            rw [next_from_failed] at stuck
            cases stuck
    | processData record rc => cases (next_processData step).1
    | okToAcceptData rc => cases (next_okToAcceptData step).1
    | closePlugin => cases step
  asked before rc after eq := by
    rw [eq] at h
    obtain ⟨b, b', hb, step, _⟩ := phaseAfter_split h
    obtain ⟨rfl, -⟩ := next_okToAcceptData step
    exact lastRefused_of_refusing before hb
  resumed before record since record' rc after eq := by
    rw [eq] at h
    obtain ⟨b, b', hb, step, _⟩ := phaseAfter_split h
    obtain ⟨rfl, -⟩ := next_processData step
    obtain ⟨a, a', _, refuse, hsince⟩ := phaseAfter_split hb
    obtain ⟨-, rfl⟩ := next_processData refuse
    rw [if_pos rfl] at hsince
    by_contra noOk
    exact stays_refusing hsince noOk rfl
  closedOnce rc rest eq success := by
    have notFailed : c ≠ .failed := by
      rintro rfl
      rw [eq] at h
      obtain ⟨b, step, later⟩ := Machine.run_cons_some h
      simp only [Phase.next, success, if_false, Option.some.injEq] at step
      subst step
      exact not_failed_after (by decide) (by decide) later
    rcases complete with rfl | rfl
    · exact close_last calls h
    · exact absurd rfl notFailed

/-! ### The chain drives the automaton -/

/-- The calls made to plugin number `serial`. -/
def callsOf (serial : Nat) (trace : Trace) : List Call :=
  (trace.filter (·.1 = serial)).map (·.2)

@[simp] theorem callsOf_nil (serial : Nat) : callsOf serial [] = [] := rfl

@[simp] theorem callsOf_append (serial : Nat) (s t : Trace) :
    callsOf serial (s ++ t) = callsOf serial s ++ callsOf serial t := by
  simp [callsOf]

@[simp] theorem callsOf_self (serial : Nat) (calls : List Call) :
    callsOf serial (calls.map (serial, ·)) = calls := by
  simp [callsOf, List.filter_map, Function.comp_def]

theorem callsOf_other {serial other : Nat} (h : other ≠ serial) (calls : List Call) :
    callsOf serial (calls.map (other, ·)) = [] := by
  simp [callsOf, List.filter_map, Function.comp_def, h]

theorem callsOf_single (serial other : Nat) (call : Call) :
    callsOf serial [(other, call)] = if other = serial then [call] else [] := by
  by_cases h : other = serial <;> simp [callsOf, h]

/-- The phase the paused flag of a chained node stands for. -/
def Plugin.phase (p : Plugin σ) : Phase :=
  if p.pluginPaused then .refusing else .active

/-- Asking a paused node is legal, and its flag follows the answer. -/
theorem askPaused_phase (p : Plugin σ) :
    phaseAfter p.phase (askPaused p).2 = some (askPaused p).1.phase := by
  unfold askPaused Plugin.phase
  by_cases paused : p.pluginPaused
  · simp only [paused, if_true, Machine.run_cons, Phase.next, Option.bind_some, Machine.run_nil]
    split <;> simp_all
  · simp [paused]

/-- A visit is legal in the node's phase, and leaves the node in the phase it
ends in. -/
theorem visit_phase (record : MonitorRecord) (p : Plugin σ) :
    phaseAfter p.phase (visit record p).2.1 = some (visit record p).1.phase := by
  have asked := askPaused_phase p
  unfold visit
  by_cases paused : (askPaused p).1.pluginPaused
  · simp only [paused, if_true]
    exact asked
  · have active : (askPaused p).1.phase = .active := by simp [Plugin.phase, paused]
    simp only [paused]
    rw [if_neg (by simp)]
    refine (phaseAfter_append _ _ _).trans ?_
    rw [asked, active]
    simp only [Option.bind_some, Machine.run_cons, Phase.next, Machine.run_nil, Plugin.phase,
      decide_eq_true_eq]

/-- A pass calls the nodes of the chain only. -/
theorem executePluginChain_absent (record : MonitorRecord) {serial : Nat} :
    ∀ {chain : List (Plugin σ)}, (∀ p ∈ chain, p.serial ≠ serial) →
      callsOf serial (executePluginChain record chain).2 = []
  | [], _ => rfl
  | p :: rest, absent => by
      obtain ⟨head, tail⟩ := List.forall_mem_cons.mp absent
      simp only [executePluginChain]
      split
      · exact callsOf_other head _
      · rw [callsOf_append, callsOf_other head, executePluginChain_absent record tail]
        rfl

/-- A pass takes every node from the phase it was in to the phase it is in. -/
theorem executePluginChain_phase (record : MonitorRecord) :
    ∀ {chain : List (Plugin σ)}, (chain.map Plugin.serial).Nodup →
      ∀ p ∈ (executePluginChain record chain).1, ∃ q ∈ chain, q.serial = p.serial ∧
        phaseAfter q.phase (callsOf p.serial (executePluginChain record chain).2) = some p.phase
  | [], _, p, hp => by cases hp
  | q :: rest, distinct, p, hp => by
      obtain ⟨notIn, distinct'⟩ := List.nodup_cons.mp distinct
      have others : ∀ r ∈ rest, r.serial ≠ q.serial := fun r hr same =>
        notIn (List.mem_map.mpr ⟨r, hr, same⟩)
      simp only [executePluginChain] at hp ⊢
      split at hp <;> rename_i drops
      · simp only [drops, if_true]
        rcases List.mem_cons.mp hp with rfl | hp
        · refine ⟨q, List.mem_cons_self, (visit_serial record q).symm, ?_⟩
          rw [visit_serial, callsOf_self]
          exact visit_phase record q
        · refine ⟨p, List.mem_cons_of_mem _ hp, rfl, ?_⟩
          rw [callsOf_other (others p hp).symm]
          rfl
      · simp only [drops]
        rw [if_neg (by simp), callsOf_append]
        rcases List.mem_cons.mp hp with rfl | hp
        · refine ⟨q, List.mem_cons_self, (visit_serial record q).symm, ?_⟩
          rw [visit_serial, callsOf_self, executePluginChain_absent record others, List.append_nil]
          exact visit_phase record q
        · obtain ⟨r, hr, same, word⟩ := executePluginChain_phase record distinct' p hp
          refine ⟨r, List.mem_cons_of_mem _ hr, same, ?_⟩
          rw [callsOf_other (same ▸ others r hr).symm]
          exact word

/-! ### Runs of the listener -/

/-- The operations on the chain before the final `unload_all_plugins`. -/
inductive ChainOp (σ : Type) where
  | load (q : LoadRequest σ)
  | unload (name : Str)
  | execute (record : MonitorRecord)

def chainStep (l : ListenerState σ) : ChainOp σ → Option (ListenerState σ)
  | .load q => some (loadPlugin q l).2
  | .unload name => (unloadPluginByName name l).map (·.2)
  | .execute record =>
      let (plugins, calls) := executePluginChain record l.plugins
      some { l with plugins, trace := l.trace ++ calls }

def Phase.Complete (c : Phase) : Prop := c = .closed ∨ c = .failed

/-- The invariant of the runs: nodes have numbers of their own, a chained node
is in the phase of its flag, and any other has completed its life or never
lived. -/
structure Tracks (l : ListenerState σ) : Prop where
  distinct : (l.plugins.map Plugin.serial).Nodup
  below : ∀ p ∈ l.plugins, p.serial < l.nextSerial
  chained : ∀ p ∈ l.plugins, phaseAfter .fresh (callsOf p.serial l.trace) = some p.phase
  unborn : ∀ serial, l.nextSerial ≤ serial → callsOf serial l.trace = []
  gone : ∀ serial, (∀ p ∈ l.plugins, p.serial ≠ serial) → callsOf serial l.trace ≠ [] →
    ∃ c, phaseAfter .fresh (callsOf serial l.trace) = some c ∧ c.Complete

theorem tracks_start : Tracks (ListenerState.start (σ := σ)) where
  distinct := List.nodup_nil
  below := by simp [ListenerState.start]
  chained := by simp [ListenerState.start]
  unborn _ _ := rfl
  gone _ _ called := absurd rfl called

theorem tracks_load (q : LoadRequest σ) {l : ListenerState σ} (h : Tracks l) :
    Tracks (loadPlugin q l).2 := by
  have fresh : ∀ p ∈ l.plugins, p.serial ≠ l.nextSerial := fun p hp => (h.below p hp).ne
  have others : ∀ {serial} (call : Call), serial ≠ l.nextSerial →
      callsOf serial (l.trace ++ [(l.nextSerial, call)]) = callsOf serial l.trace := by
    intro serial call other
    rw [callsOf_append, callsOf_single, if_neg other.symm, List.append_nil]
  have own : ∀ call : Call, callsOf l.nextSerial (l.trace ++ [(l.nextSerial, call)]) = [call] := by
    intro call
    rw [callsOf_append, callsOf_single, if_pos rfl, h.unborn _ le_rfl, List.nil_append]
  unfold loadPlugin
  split
  · -- `dlopen` or `dlsym` failed: the plugin is never called
    exact ⟨h.distinct, fun p hp => Nat.lt_succ_of_lt (h.below p hp), h.chained,
      fun serial le => h.unborn serial (Nat.le_of_succ_le le), h.gone⟩
  · dsimp only
    split
    · rename_i fail
      refine ⟨h.distinct, fun p hp => Nat.lt_succ_of_lt (h.below p hp), fun p hp => ?_,
        fun serial le => ?_, fun serial absent called => ?_⟩
      · rw [others _ (fresh p hp)]
        exact h.chained p hp
      · rw [others _ (Nat.ne_of_gt le)]
        exact h.unborn serial (Nat.le_of_succ_le le)
      · by_cases mine : serial = l.nextSerial
        · subst mine
          simp only [own]
          exact ⟨.failed, by simp [Phase.next, fail, Machine.run_cons], .inr rfl⟩
        · rw [others _ mine] at called ⊢
          exact h.gone serial absent called
    · rename_i success
      refine ⟨?_, ?_, ?_, fun serial le => ?_, fun serial absent called => ?_⟩
      · rw [List.map_append, List.nodup_append]
        refine ⟨h.distinct, by simp, fun a ha b hb => ?_⟩
        obtain ⟨p, hp, rfl⟩ := List.mem_map.mp ha
        simp only [List.map_cons, List.map_nil, List.mem_singleton] at hb
        subst hb
        exact fresh p hp
      · intro p hp
        rcases List.mem_append.mp hp with hp | hp
        · exact Nat.lt_succ_of_lt (h.below p hp)
        · obtain rfl := List.mem_singleton.mp hp
          exact Nat.lt_succ_self _
      · intro p hp
        rcases List.mem_append.mp hp with hp | hp
        · rw [others _ (fresh p hp)]
          exact h.chained p hp
        · obtain rfl := List.mem_singleton.mp hp
          have word := own (.openPlugin q.openPlugin)
          simp only [LoadRequest.node, Plugin.phase, Bool.false_eq_true, if_false] at word ⊢
          rw [word]
          simp [Phase.next, success, Machine.run_cons]
      · rw [others _ (Nat.ne_of_gt le)]
        exact h.unborn serial (Nat.le_of_succ_le le)
      · have last : q.node l.nextSerial ∈ l.plugins ++ [q.node l.nextSerial] :=
          List.mem_append_right _ (List.mem_singleton.mpr rfl)
        have mine : serial ≠ l.nextSerial := fun eq => absent _ last eq.symm
        rw [others _ mine] at called ⊢
        exact h.gone serial (fun p hp => absent p (List.mem_append_left _ hp)) called

/-- Both phases of a chained node take `close_plugin`. -/
theorem phase_close (p : Plugin σ) : p.phase.next .closePlugin = some .closed := by
  unfold Plugin.phase
  split <;> rfl

theorem tracks_unload {name : Str} {l l' : ListenerState σ} {rc : Int} (h : Tracks l)
    (step : unloadPluginByName name l = some (rc, l')) : Tracks l' := by
  obtain ⟨p, located, eq⟩ := Option.map_eq_some_iff.mp step
  cases eq
  have hp : p ∈ l.plugins := List.mem_of_find?_eq_some located
  have left : ∀ r, r ∈ l.plugins.eraseP (·.serial = p.serial) ↔
      r ∈ l.plugins ∧ r.serial ≠ p.serial := by
    intro r
    rw [unlink_eq h.distinct, List.mem_filter, decide_eq_true_eq]
  have others : ∀ {serial}, serial ≠ p.serial →
      callsOf serial (l.trace ++ [(p.serial, .closePlugin)]) = callsOf serial l.trace := by
    intro serial other
    rw [callsOf_append, callsOf_single, if_neg other.symm, List.append_nil]
  refine ⟨?_, fun r hr => ?_, fun r hr => ?_, fun serial le => ?_, fun serial absent called => ?_⟩
  · exact h.distinct.sublist (List.eraseP_sublist.map _)
  · exact h.below r ((left r).mp hr).1
  · obtain ⟨hr, other⟩ := (left r).mp hr
    exact (congrArg _ (others other)).trans (h.chained r hr)
  · exact (others (Nat.ne_of_gt ((h.below p hp).trans_le le))).trans (h.unborn serial le)
  · by_cases mine : serial = p.serial
    · subst mine
      refine ⟨.closed, ?_, .inl rfl⟩
      simp only [unloadPlugin, callsOf_append, callsOf_single, if_true]
      rw [phaseAfter_append, h.chained p hp, Option.bind_some]
      simp [Machine.run_cons, phase_close]
    · have same := others mine
      simp only [unloadPlugin] at called ⊢
      rw [same] at called ⊢
      refine h.gone serial (fun r hr eq => absent r ((left r).mpr ⟨hr, ?_⟩) eq) called
      rw [eq]
      exact mine

theorem tracks_execute (record : MonitorRecord) {l : ListenerState σ} (h : Tracks l) :
    Tracks { l with
      plugins := (executePluginChain record l.plugins).1
      trace := l.trace ++ (executePluginChain record l.plugins).2 } := by
  have serials : (executePluginChain record l.plugins).1.map Plugin.serial =
      l.plugins.map Plugin.serial := by
    have := congrArg (List.map Prod.fst) (executePluginChain_identity record l.plugins)
    simpa [List.map_map, Function.comp_def, Plugin.identity] using this
  have kept : ∀ p ∈ l.plugins, ∃ r ∈ (executePluginChain record l.plugins).1,
      r.serial = p.serial := by
    intro p hp
    have mem : p.serial ∈ (executePluginChain record l.plugins).1.map Plugin.serial :=
      serials ▸ List.mem_map_of_mem hp
    obtain ⟨r, hr, same⟩ := List.mem_map.mp mem
    exact ⟨r, hr, same⟩
  have word := executePluginChain_phase record h.distinct
  refine ⟨serials ▸ h.distinct, fun r hr => ?_, fun r hr => ?_, fun serial le => ?_,
    fun serial absent called => ?_⟩
  · obtain ⟨q, hq, same, -⟩ := word r hr
    exact same ▸ h.below q hq
  · obtain ⟨q, hq, same, legal⟩ := word r hr
    have before := h.chained q hq
    rw [same] at before
    rw [callsOf_append, phaseAfter_append, before, Option.bind_some, legal]
  · rw [callsOf_append, h.unborn serial le, executePluginChain_absent record fun p hp => ?_]
    · rfl
    · exact ((h.below p hp).trans_le le).ne
  · have notIn : ∀ p ∈ l.plugins, p.serial ≠ serial := by
      intro p hp eq
      obtain ⟨r, hr, same⟩ := kept p hp
      exact absent r hr (same.trans eq)
    rw [callsOf_append, executePluginChain_absent record notIn, List.append_nil] at called ⊢
    exact h.gone serial notIn called

theorem tracks_step (l : ListenerState σ) (op : ChainOp σ) (l' : ListenerState σ)
    (h : Tracks l) (step : chainStep l op = some l') : Tracks l' := by
  cases op with
  | load q =>
      cases step
      exact tracks_load q h
  | unload name =>
      obtain ⟨⟨rc, _⟩, unloaded, rfl⟩ := Option.map_eq_some_iff.mp step
      exact tracks_unload h unloaded
  | execute record =>
      cases step
      exact tracks_execute record h

/-- `unload_all_plugins` closes the nodes of the chain, in order. -/
theorem unloadAllPlugins_trace (l : ListenerState σ) :
    (unloadAllPlugins l).trace = l.trace ++ l.plugins.map fun p => (p.serial, .closePlugin) := by
  suffices fold : ∀ (ps : List (Plugin σ)) (l : ListenerState σ),
      (ps.foldl (fun l p => unloadPlugin p l) l).trace =
        l.trace ++ ps.map fun p => (p.serial, .closePlugin) from fold l.plugins l
  intro ps
  induction ps with
  | nil => simp
  | cons p ps ih =>
      intro l
      rw [List.foldl_cons, ih]
      simp [unloadPlugin]

theorem callsOf_closings (serial : Nat) :
    ∀ {chain : List (Plugin σ)}, (chain.map Plugin.serial).Nodup →
      callsOf serial (chain.map fun p => (p.serial, .closePlugin)) =
        if ∃ p ∈ chain, p.serial = serial then [.closePlugin] else []
  | [], _ => by simp
  | p :: rest, distinct => by
      obtain ⟨notIn, distinct'⟩ := List.nodup_cons.mp distinct
      have ih := callsOf_closings serial distinct'
      rw [List.map_cons, ← List.singleton_append, callsOf_append, callsOf_single, ih]
      by_cases mine : p.serial = serial
      · have none_left : ¬ ∃ r ∈ rest, r.serial = serial := by
          rintro ⟨r, hr, same⟩
          exact notIn (List.mem_map.mpr ⟨r, hr, same.trans mine.symm⟩)
        simp [mine, none_left]
      · simp [mine]

/-- Once everything is unloaded, the life of every plugin is complete. -/
theorem complete_of_tracks {l : ListenerState σ} (h : Tracks l) {serial : Nat}
    (called : callsOf serial (unloadAllPlugins l).trace ≠ []) :
    ∃ c, phaseAfter .fresh (callsOf serial (unloadAllPlugins l).trace) = some c ∧ c.Complete := by
  rw [unloadAllPlugins_trace, callsOf_append, callsOf_closings serial h.distinct] at called ⊢
  by_cases chained : ∃ p ∈ l.plugins, p.serial = serial
  · rw [if_pos chained]
    obtain ⟨p, hp, rfl⟩ := chained
    refine ⟨.closed, ?_, .inl rfl⟩
    rw [phaseAfter_append, h.chained p hp, Option.bind_some]
    simp [Machine.run_cons, phase_close]
  · rw [if_neg chained, List.append_nil] at called ⊢
    exact h.gone serial (fun p hp same => chained ⟨p, hp, same⟩) called

/-- **The call protocol.** Over any run of loads, unloads and records, ended by
`unload_all_plugins`, the calls on each plugin ever called obey the protocol,
whatever the plugins answer. -/
theorem plugin_calls_obey_protocol (ops : List (ChainOp σ)) {l : ListenerState σ}
    (ran : Machine.run chainStep .start ops = some l) (serial : Nat)
    (called : callsOf serial (unloadAllPlugins l).trace ≠ []) :
    ObeysProtocol (callsOf serial (unloadAllPlugins l).trace) := by
  have tracks : Tracks l := Machine.run_invariant tracks_step ops tracks_start ran
  obtain ⟨c, word, complete⟩ := complete_of_tracks tracks called
  exact obeys_of_accepted called word complete

/-! A plugin that refuses its first record and takes data again when asked for
the second time, beside one that is unloaded early. -/

def hesitant : LoadRequest Nat where
  library := "output_influxdb.so".toList
  pluginAlias := some "db".toList
  dlopens := true
  entryPoints := true
  openPlugin := 0
  state := 0
  memory := 0
  okToAcceptData n := (if n = 2 then PLUGIN_ACCEPT_DATA else PLUGIN_REFUSE_DATA, n + 1)
  processData _ n := (if n = 0 then PLUGIN_REFUSE_DATA else PLUGIN_ACCEPT_DATA, n + 1)
  pluginCommand := none
  overrun := .blank

def hesitantRun : List (ChainOp Nat) :=
  [.load hesitant, .load { hesitant with pluginAlias := some "db2".toList }, .execute .zero,
    .unload "db2".toList, .execute .zero, .execute .zero]

theorem plugin_calls_obey_protocol_hesitant :
    ∃ l, Machine.run chainStep .start hesitantRun = some l ∧
      callsOf 0 (unloadAllPlugins l).trace =
        [.openPlugin 0, .processData .zero 0, .okToAcceptData 0, .okToAcceptData 1,
          .processData .zero 1, .closePlugin] ∧
      ObeysProtocol (callsOf 0 (unloadAllPlugins l).trace) :=
  ⟨_, rfl, rfl, plugin_calls_obey_protocol hesitantRun rfl 0 (List.cons_ne_nil _ _)⟩

end IoMonitor.Listener
