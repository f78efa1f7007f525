import IoMonitor.Names
import IoMonitor.Listener.PluginChain

/-!
The `filter_domains` plugin: a chain with it in front passes on the records of
the domains listed.
-/

namespace IoMonitor.Listener

open CString IoMonitor

def PLUGIN_OPEN_SUCCESS : Int := 0

/-- `process_data`, with `ps->domain_bit_flags`. -/
def filterDomains (flags : BitVec 32) (data : MonitorRecord) : Int :=
  if flags &&& (1#32 <<< data.domType.toNat) = 0 then PLUGIN_DROP_DATA else PLUGIN_ACCEPT_DATA

variable {σ : Type}

/-- `load-plugin` of `filter_domains.so`, with a domain list as its options. The
first half of a node's memory is the `struct plugin_state` of this plugin. -/
def filterDomainsRequest (library : Str) (pluginAlias : Option Str) (config : Str)
    (state entry : Nat) (rest : σ) : LoadRequest (BitVec 32 × σ) where
  library
  pluginAlias
  dlopens := true
  entryPoints := true
  openPlugin := PLUGIN_OPEN_SUCCESS
  state
  memory := (domainListToBitMask config, rest)
  okToAcceptData ps := (PLUGIN_ACCEPT_DATA, ps)
  processData data ps := (filterDomains ps.1 data, ps)
  pluginCommand := some entry
  overrun := .blank

/-- A plugin that accepts every record. -/
def LoadRequest.Accepts (q : LoadRequest σ) : Prop :=
  ∀ data memory, (q.processData data memory).1 = PLUGIN_ACCEPT_DATA

/-- The records passed to plugin `serial`, in order. -/
def seenBy (serial : Nat) (trace : Trace) : List MonitorRecord :=
  trace.filterMap fun
    | (s, .processData record _) => if s = serial then some record else none
    | _ => none

theorem seenBy_append (serial : Nat) (s t : Trace) :
    seenBy serial (s ++ t) = seenBy serial s ++ seenBy serial t :=
  List.filterMap_append

/-! ### One record -/

/-- Not paused, and accepting whatever comes. -/
structure Plugin.Accepting (p : Plugin σ) : Prop where
  running : p.pluginPaused = false
  accepts : ∀ data memory, (p.processData data memory).1 = PLUGIN_ACCEPT_DATA

theorem Plugin.Accepting.visit {p : Plugin σ} (h : p.Accepting) (record : MonitorRecord) :
    (visit record p).1.Accepting ∧
      (visit record p).2 = ([.processData record PLUGIN_ACCEPT_DATA], false) := by
  have asked : askPaused p = (p, []) := by rw [askPaused, if_neg (by simp [h.running])]
  unfold Listener.visit
  rw [asked]
  dsimp only
  rw [if_neg (by simp [h.running])]
  simp only [h.accepts]
  exact ⟨⟨rfl, h.accepts⟩, rfl⟩

/-- The filter with its mask. -/
structure Plugin.Filtering (flags : BitVec 32) (p : Plugin (BitVec 32 × σ)) : Prop where
  running : p.pluginPaused = false
  mask : p.memory.1 = flags
  filters : p.processData = fun data ps => (filterDomains ps.1 data, ps)

theorem Plugin.Filtering.visit {flags : BitVec 32} {p : Plugin (BitVec 32 × σ)}
    (h : p.Filtering flags) (record : MonitorRecord) :
    visit record p = (p, [.processData record (filterDomains flags record)],
      decide (filterDomains flags record = PLUGIN_DROP_DATA)) := by
  have asked : askPaused p = (p, []) := by rw [askPaused, if_neg (by simp [h.running])]
  have accepted : filterDomains flags record ≠ PLUGIN_REFUSE_DATA := by
    unfold filterDomains
    split <;> decide
  have same : { p with pluginPaused := false } = p := by rw [← h.running]
  have answer : p.processData record p.memory = (filterDomains flags record, p.memory) := by
    rw [h.filters, ← h.mask]
  unfold Listener.visit
  simp only [asked, h.running, answer, accepted, decide_false, Bool.false_eq_true, if_false,
    List.nil_append, same]

/-! ### All records -/

theorem executeAll_accepting (records : List MonitorRecord) {p : Plugin σ} (h : p.Accepting) :
    seenBy p.serial (executeAll records [p]).2 = records := by
  induction records generalizing p with
  | nil => rfl
  | cons record records ih =>
      obtain ⟨accepting, calls⟩ := h.visit record
      have ih := ih accepting
      rw [visit_serial] at ih
      simp only [executeAll, executePluginChain, calls, Bool.false_eq_true, if_false]
      rw [seenBy_append, ih]
      simp [seenBy]

/-- Behind the filter a plugin sees the records of the domains listed. -/
theorem executeAll_filtered (records : List MonitorRecord) {flags : BitVec 32}
    {filter p : Plugin (BitVec 32 × σ)} (h : filter.Filtering flags) (accepting : p.Accepting)
    (distinct : filter.serial ≠ p.serial) :
    seenBy p.serial (executeAll records [filter, p]).2 =
      records.filter fun record => filterDomains flags record ≠ PLUGIN_DROP_DATA := by
  induction records generalizing p with
  | nil => rfl
  | cons record records ih =>
      by_cases dropped : filterDomains flags record = PLUGIN_DROP_DATA
      · rw [List.filter_cons_of_neg (by simpa using dropped)]
        simp only [executeAll, executePluginChain, h.visit, dropped, decide_true, if_true]
        rw [seenBy_append, ih accepting distinct]
        simp [seenBy, distinct]
      · obtain ⟨accepting', calls⟩ := accepting.visit record
        have ih := ih accepting' (by rwa [visit_serial])
        rw [visit_serial] at ih
        rw [List.filter_cons_of_pos (by simpa using dropped)]
        simp only [executeAll, executePluginChain, h.visit, dropped, decide_false, calls,
          Bool.false_eq_true, if_false]
        rw [seenBy_append, ih]
        simp [seenBy, distinct]

end IoMonitor.Listener
