import IoMonitor.Listener.PluginChain

/-!
Back-pressure stays with the plugin that applies it.

Pausing and resuming a plugin happens inside its own visit, and only a
`PLUGIN_DROP_DATA` ends a pass. So a plugin that never drops can be taken out
of the chain without any other plugin noticing, whatever it answers and
wherever it stands.
-/

namespace IoMonitor.Listener

open IoMonitor

variable {σ : Type}

/-- The answer that ends a pass. -/
def Call.Drops : Call → Prop
  | .processData _ rc => rc = PLUGIN_DROP_DATA
  | _ => False

/-- The calls made to plugins other than number `x`. -/
def callsToOthers (x : Nat) (trace : Trace) : Trace :=
  trace.filter (·.1 ≠ x)

def othersThan (x : Nat) (chain : List (Plugin σ)) : List (Plugin σ) :=
  chain.filter (·.serial ≠ x)

theorem callsToOthers_append (x : Nat) (s t : Trace) :
    callsToOthers x (s ++ t) = callsToOthers x s ++ callsToOthers x t :=
  List.filter_append _ _

/-- The calls of one visit all go to the visited plugin. -/
theorem callsToOthers_visit (x : Nat) (p : Plugin σ) (calls : List Call) :
    callsToOthers x (calls.map (p.serial, ·)) =
      if p.serial = x then [] else calls.map (p.serial, ·) := by
  unfold callsToOthers
  split
  · rename_i same
    exact List.filter_eq_nil_iff.mpr fun e he => by
      obtain ⟨c, -, rfl⟩ := List.mem_map.mp he
      simp [same]
  · rename_i other
    exact List.filter_eq_self.mpr fun e he => by
      obtain ⟨c, -, rfl⟩ := List.mem_map.mp he
      simp [other]

/-- A visit ends the pass only through a call that drops. -/
theorem visit_drops {record : MonitorRecord} {p : Plugin σ} (h : (visit record p).2.2 = true) :
    ∃ c ∈ (visit record p).2.1, c.Drops := by
  unfold visit at h ⊢
  dsimp only at h ⊢
  split at h
  · cases h
  · rename_i running
    rw [if_neg running]
    exact ⟨_, List.mem_append_right _ List.mem_cons_self, by simpa [Call.Drops] using h⟩

theorem othersThan_cons (x : Nat) (p : Plugin σ) (chain : List (Plugin σ)) :
    othersThan x (p :: chain) =
      if p.serial = x then othersThan x chain else p :: othersThan x chain := by
  unfold othersThan
  rw [List.filter_cons]
  by_cases same : p.serial = x <;> simp [same]

/-- One pass: with plugin `x` left out, the others are called the same way and
end in the same states, provided `x` did not drop the record. -/
theorem executePluginChain_others (x : Nat) (record : MonitorRecord) (chain : List (Plugin σ))
    (never : ∀ c, (x, c) ∈ (executePluginChain record chain).2 → ¬ c.Drops) :
    executePluginChain record (othersThan x chain) =
      (othersThan x (executePluginChain record chain).1,
        callsToOthers x (executePluginChain record chain).2) := by
  induction chain with
  | nil => rfl
  | cons p rest ih =>
      by_cases same : p.serial = x
      · -- the plugin left out: its visit cannot have ended the pass
        have runs : (visit record p).2.2 = false := by
          by_contra drops
          obtain ⟨c, hc, cDrops⟩ := visit_drops (by simpa using drops)
          refine never c ?_ cDrops
          have mem : (x, c) ∈ (visit record p).2.1.map (p.serial, ·) :=
            List.mem_map.mpr ⟨c, hc, by rw [same]⟩
          simp only [executePluginChain]
          split
          · exact mem
          · exact List.mem_append_left _ mem
        have later : ∀ c, (x, c) ∈ (executePluginChain record rest).2 → ¬ c.Drops := by
          intro c hc
          refine never c ?_
          simp only [executePluginChain, runs, Bool.false_eq_true, if_false]
          exact List.mem_append_right _ hc
        simp only [executePluginChain, runs, Bool.false_eq_true, if_false, othersThan_cons,
          visit_serial, same, if_true, ih later, callsToOthers_append]
        rw [← same, callsToOthers_visit, if_pos rfl]
        rfl
      · rw [othersThan_cons, if_neg same]
        cases drops : (visit record p).2.2 with
        | true =>
            simp only [executePluginChain, drops, if_true, othersThan_cons, visit_serial, same,
              if_false, callsToOthers_visit]
        | false =>
            have later : ∀ c, (x, c) ∈ (executePluginChain record rest).2 → ¬ c.Drops := by
              intro c hc
              refine never c ?_
              simp only [executePluginChain, drops, Bool.false_eq_true, if_false]
              exact List.mem_append_right _ hc
            simp only [executePluginChain, drops, Bool.false_eq_true, if_false, othersThan_cons,
              visit_serial, same, ih later, callsToOthers_append, callsToOthers_visit]

/-- Any number of passes, filtered form: the run without plugin `x` is the run
with it, seen by the others. -/
theorem executeAll_others (x : Nat) (records : List MonitorRecord) (chain : List (Plugin σ))
    (never : ∀ c, (x, c) ∈ (executeAll records chain).2 → ¬ c.Drops) :
    executeAll records (othersThan x chain) =
      (othersThan x (executeAll records chain).1,
        callsToOthers x (executeAll records chain).2) := by
  induction records generalizing chain with
  | nil => rfl
  | cons record records ih =>
      have first := executePluginChain_others x record chain fun c hc =>
        never c (List.mem_append_left _ hc)
      have later := ih (executePluginChain record chain).1 fun c hc =>
        never c (List.mem_append_right _ hc)
      simp only [executeAll, first, later, callsToOthers_append]

/-- **Back-pressure isolation.** Let `p` stand anywhere in a chain and answer no
record with `PLUGIN_DROP_DATA`. Then the calls to the other plugins, in order
and with their answers, and the nodes they end in are those of the chain
without `p`. -/
theorem back_pressure_isolated (before after : List (Plugin σ)) (p : Plugin σ)
    (distinct : ∀ q ∈ before ++ after, q.serial ≠ p.serial) (records : List MonitorRecord)
    (never : ∀ c, (p.serial, c) ∈ (executeAll records (before ++ p :: after)).2 → ¬ c.Drops) :
    othersThan p.serial (executeAll records (before ++ p :: after)).1 =
        (executeAll records (before ++ after)).1 ∧
      callsToOthers p.serial (executeAll records (before ++ p :: after)).2 =
        (executeAll records (before ++ after)).2 := by
  have removed : othersThan p.serial (before ++ p :: after) = before ++ after := by
    have self : ∀ chain : List (Plugin σ), (∀ q ∈ chain, q.serial ≠ p.serial) →
        othersThan p.serial chain = chain :=
      fun chain h => List.filter_eq_self.mpr fun q hq => by simpa using h q hq
    unfold othersThan at self ⊢
    rw [List.filter_append, List.filter_cons,
      self before fun q hq => distinct q (List.mem_append_left _ hq),
      self after fun q hq => distinct q (List.mem_append_right _ hq)]
    simp
  have run := executeAll_others _ records _ never
  rw [removed] at run
  exact ⟨(congrArg Prod.fst run).symm, (congrArg Prod.snd run).symm⟩

/-! A database plugin that refuses every record, before a plugin that counts. -/

def refusing : Plugin Nat where
  serial := 0
  pluginLibrary := "output_influxdb.so".toList
  pluginAlias := none
  okToAcceptData n := (PLUGIN_REFUSE_DATA, n)
  processData _ n := (PLUGIN_REFUSE_DATA, n)
  pluginCommand := none
  pluginPaused := false
  state := 0
  memory := 0

def counting : Plugin Nat :=
  { refusing with
    serial := 1
    pluginLibrary := "output_csv.so".toList
    processData := fun _ n => (PLUGIN_ACCEPT_DATA, n + 1) }

theorem back_pressure_isolated_refusing :
    othersThan 0 (executeAll [.zero, .zero] [refusing, counting]).1 =
        (executeAll [.zero, .zero] [counting]).1 ∧
      callsToOthers 0 (executeAll [.zero, .zero] [refusing, counting]).2 =
        (executeAll [.zero, .zero] [counting]).2 :=
  back_pressure_isolated [] [counting] refusing (by simp [counting, refusing]) [.zero, .zero] (by
    have trace : (executeAll [.zero, .zero] ([] ++ refusing :: [counting])).2 =
        [(0, .processData .zero 0), (1, .processData .zero 1), (0, .okToAcceptData 0),
          (1, .processData .zero 1)] := rfl
    rw [trace]
    simp [refusing, Call.Drops, PLUGIN_DROP_DATA])

end IoMonitor.Listener
