import IoMonitor.EndToEnd.Fleet
import IoMonitor.EndToEnd.Strings
import IoMonitor.Lib.LineFilter
import IoMonitor.Listener.OutputCsv
import IoMonitor.Listener.Reconfigure

/-!
What the regression tests look at.

A test runs a program under the monitor and the listener with `output_csv`, takes
the lines with `u,` from what the listener printed, cuts out the columns 6 and 7,
and compares with the events expected. For every run of `record()` that cut is the
domain and the operation of the calls whose records the queue took and the filters
in front of `output_csv` let through, one line each and in order
(`events_captured`).
-/

namespace IoMonitor

open CString Columns Floats LineFilter Listener Sieve FanIn

/-! ### The listener's output -/

/-- A `filter_domains.so` on the command line. -/
structure FilterLoad where
  library : Str
  pluginAlias : Option Str
  config : Str
  state : Nat
  entry : Nat
  overrun : Command

def FilterLoad.request {σ : Type} (f : FilterLoad) (rest : σ) : LoadRequest (BitVec 32 × σ) :=
  { filterDomainsRequest f.library f.pluginAlias f.config f.state f.entry rest with
    overrun := f.overrun }

/-- The plugins of a test keep the mask of a filter, or what `output_csv` has printed;
nothing is known of that any more once a string has no NUL. -/
abbrev TestMemory := BitVec 32 × Option Str

/-- `process_data` of `output_csv`. -/
def printRow (printFloat : Float32 → Str) (data : MonitorRecord) (memory : TestMemory) :
    Int × TestMemory :=
  (PLUGIN_ACCEPT_DATA, memory.1, do
    let printed ← memory.2
    let row ← outputCsv printFloat data
    some (printed ++ row))

/-- `load-plugin` of `output_csv.so`. -/
def csvRequest (printFloat : Float32 → Str) (library : Str) (state : Nat) :
    LoadRequest TestMemory where
  library
  pluginAlias := none
  dlopens := true
  entryPoints := true
  openPlugin := PLUGIN_OPEN_SUCCESS
  state
  memory := (0, some [])
  okToAcceptData memory := (PLUGIN_ACCEPT_DATA, memory)
  processData := printRow printFloat
  pluginCommand := none
  overrun := .blank

/-- What `set_command` prints. -/
def addedLine (name : Str) : Str := "added command ".toList ++ name

/-- What `c_load_plugin` prints for a plugin that loads. -/
def loadLines {σ : Type} (q : LoadRequest σ) : List Str :=
  ["Attempting to load plugin ".toList ++ q.library] ++
    (registerCommand q []).map (addedLine ·.name) ++ ["Load successful".toList]

/-- The lines in front of the first row. -/
def banner {σ : Type} (loads : List (LoadRequest σ)) : List Str :=
  builtins.map (addedLine ·.name) ++ loads.flatMap loadLines

/-- `grep 'u,' | cut -d , -f 6,7`. -/
def eventsCaptured (listenerOutput : Str) : Str :=
  cutColumns ',' [6, 7] (grep (strstr "u,".toList) listenerOutput)

/-! ### The chain -/

/-- Loading puts a node for each plugin that opens behind the chain, oldest first. -/
theorem run_loads {σ : Type} (qs : List (LoadRequest σ)) (l : ListenerState σ) :
    ∃ l' nodes, Machine.run chainStep l (qs.map ChainOp.load) = some l' ∧
      l'.plugins = l.plugins ++ nodes ∧
      List.Forall₂ (fun p q => ∃ n, p = LoadRequest.node q n) nodes
        (qs.filter fun q => ChainMemory.Opens q) := by
  induction qs generalizing l with
  | nil => exact ⟨l, [], rfl, (List.append_nil _).symm, .nil⟩
  | cons q qs ih =>
      obtain ⟨l', nodes, ran, plugins, stand⟩ := ih (loadPlugin q l).2
      by_cases opens : ChainMemory.Opens q
      · rw [ChainMemory.loadPlugin_opens opens, List.append_assoc] at plugins
        rw [List.filter_cons_of_pos (by simpa using opens)]
        exact ⟨l', _, ran, plugins, .cons ⟨_, rfl⟩ stand⟩
      · obtain ⟨called, failed, -⟩ := ChainMemory.loadPlugin_fails opens l
        rw [failed] at plugins
        rw [List.filter_cons_of_neg (by simpa using opens)]
        exact ⟨l', nodes, ran, plugins, stand⟩

/-- The list lets the domain pass. -/
def allows (list : Str) (d : DomainType) : Bool :=
  (runs list).any fun token => token = "ALL".toList ∨ token = d.name

theorem listed_allows {list : Str} {r : MonitorRecord} {d : DomainType}
    (domain : r.domType = d.code) : listed list r = allows list d := by
  unfold listed allows
  rw [domain, nameAt_domain]
  simp only [Option.some.injEq, eq_comm]

section Chain

variable {σ : Type} {front : List (Plugin (BitVec 32 × σ))} {lists : List Str}

/-- Behind filters a plugin is visited by the records they all let through. -/
theorem executePluginChain_behind
    (filters : List.Forall₂ (fun f list => f.Filtering (domainListToBitMask list)) front lists)
    {r : MonitorRecord} {d : DomainType} (domain : r.domType = d.code)
    {p : Plugin (BitVec 32 × σ)} (goesOn : (visit r p).2.2 = false)
    (back : List (Plugin (BitVec 32 × σ))) :
    ∃ back', (executePluginChain r (front ++ p :: back)).1 =
      front ++ (if lists.all (allows · d) then (visit r p).1 else p) :: back' := by
  induction filters with
  | nil =>
      refine ⟨(executePluginChain r back).1, ?_⟩
      simp only [List.nil_append, executePluginChain, goesOn, Bool.false_eq_true, if_false,
        List.all_nil, if_true]
  | @cons f list front lists filtering rest ih =>
      obtain ⟨back', behind⟩ := ih
      have dropped := filterDomains_listed list domain
      rw [listed_allows domain] at dropped
      rw [List.cons_append, executePluginChain, filtering.visit]
      dsimp only
      cases held : allows list d with
      | false =>
          have stops := dropped.mpr held
          refine ⟨back, ?_⟩
          rw [if_pos (decide_eq_true stops)]
          simp [held]
      | true =>
          have passes : filterDomains (domainListToBitMask list) r ≠ PLUGIN_DROP_DATA := by
            intro stops
            rw [dropped.mp stops] at held
            cases held
          refine ⟨back', ?_⟩
          rw [if_neg (by simpa using passes)]
          dsimp only
          rw [behind]
          simp [held]

/-- The records that the filters in front let through. -/
def passing (lists : List Str) (rs : List MonitorRecord) : List MonitorRecord :=
  rs.filter fun r => lists.all (listed · r)

theorem passing_cons (lists : List Str) (r : MonitorRecord) (rs : List MonitorRecord) :
    passing lists (r :: rs) =
      if lists.all (listed · r) then r :: passing lists rs else passing lists rs :=
  List.filter_cons

/-- What one visit makes of a plugin behind filters, a stream makes of it with the records
that pass. -/
theorem executeAll_behind
    (filters : List.Forall₂ (fun f list => f.Filtering (domainListToBitMask list)) front lists)
    (rs : List MonitorRecord) (domains : ∀ r ∈ rs, ∃ d : DomainType, r.domType = d.code)
    {P : List MonitorRecord → Plugin (BitVec 32 × σ) → Prop}
    (visited : ∀ shown p, ∀ r ∈ rs, P shown p →
      (visit r p).2.2 = false ∧ P (shown ++ [r]) (visit r p).1)
    {p : Plugin (BitVec 32 × σ)} (start : P [] p) (back : List (Plugin (BitVec 32 × σ))) :
    ∃ p' back', (executeAll rs (front ++ p :: back)).1 = front ++ p' :: back' ∧
      P (passing lists rs) p' := by
  suffices run : ∀ shown p back, P shown p →
      ∃ p' back', (executeAll rs (front ++ p :: back)).1 = front ++ p' :: back' ∧
        P (shown ++ passing lists rs) p' by
    simpa using run [] p back start
  clear start
  induction rs with
  | nil => exact fun shown p back holds => ⟨p, back, rfl, by simpa [passing] using holds⟩
  | cons r rs ih =>
      intro shown p back holds
      obtain ⟨⟨d, domain⟩, domainsTail⟩ := List.forall_mem_cons.mp domains
      obtain ⟨goesOn, after⟩ := visited shown p r List.mem_cons_self holds
      obtain ⟨back', first⟩ := executePluginChain_behind filters domain goesOn back
      have later := ih domainsTail fun shown p r hr =>
        visited shown p r (List.mem_cons_of_mem _ hr)
      have same : lists.all (listed · r) = lists.all (allows · d) := by
        simp only [listed_allows domain]
      rw [executeAll]
      dsimp only
      rw [first, passing_cons, same]
      by_cases passes : lists.all (allows · d)
      · rw [if_pos passes, if_pos passes, List.append_cons shown]
        exact later _ _ back' after
      · rw [if_neg passes, if_neg passes]
        exact later _ _ back' holds

end Chain

/-! ### The plugin that prints -/

/-- `output_csv`, with what it has printed. -/
structure Printing (printFloat : Float32 → Str) (printed : Str) (p : Plugin TestMemory) : Prop where
  running : p.pluginPaused = false
  prints : p.processData = printRow printFloat
  memory : p.memory.2 = some printed

/-- The row without its newline. -/
def csvLine (printFloat : Float32 → Str) (r : MonitorRecord) : Str :=
  ((csvFields printFloat r).map (join ',')).getD []

theorem outputCsv_line {printFloat : Float32 → Str} {r : MonitorRecord}
    (printable : (csvFields printFloat r).isSome) :
    outputCsv printFloat r = some (csvLine printFloat r ++ ['\n']) := by
  obtain ⟨fields, known⟩ := Option.isSome_iff_exists.mp printable
  rw [outputCsv, csvLine, known]
  rfl

theorem Printing.visit {printFloat : Float32 → Str} {printed : Str} {p : Plugin TestMemory}
    (h : Printing printFloat printed p) {r : MonitorRecord}
    (printable : (csvFields printFloat r).isSome) :
    Printing printFloat (printed ++ (csvLine printFloat r ++ ['\n'])) (visit r p).1 ∧
      (Listener.visit r p).2.2 = false := by
  have asked : askPaused p = (p, []) := by rw [askPaused, if_neg (by simp [h.running])]
  have answer : p.processData r p.memory = (PLUGIN_ACCEPT_DATA, p.memory.1,
      some (printed ++ (csvLine printFloat r ++ ['\n']))) := by
    rw [h.prints, printRow, h.memory, outputCsv_line printable]
    rfl
  unfold Listener.visit
  simp only [asked, h.running, answer, Bool.false_eq_true, if_false]
  exact ⟨⟨rfl, h.prints, rfl⟩, rfl⟩

/-- Of any stream the plugin prints the records that pass. -/
theorem executeAll_printing {printFloat : Float32 → Str} {front : List (Plugin TestMemory)}
    {lists : List Str}
    (filters : List.Forall₂ (fun f list => f.Filtering (domainListToBitMask list)) front lists)
    (rs : List MonitorRecord) (printable : ∀ r ∈ rs, (csvFields printFloat r).isSome)
    (domains : ∀ r ∈ rs, ∃ d : DomainType, r.domType = d.code) {p : Plugin TestMemory}
    (printing : Printing printFloat [] p) (back : List (Plugin TestMemory)) :
    ∃ p' back', (executeAll rs (front ++ p :: back)).1 = front ++ p' :: back' ∧
      Printing printFloat (unlines ((passing lists rs).map (csvLine printFloat))) p' := by
  refine executeAll_behind (P := fun shown p =>
    Printing printFloat (unlines (shown.map (csvLine printFloat))) p) filters rs domains
    (fun shown p r hr printing => ?_) printing back
  obtain ⟨after, goesOn⟩ := printing.visit (printable r hr)
  refine ⟨goesOn, ?_⟩
  rw [List.map_append, unlines_append]
  simpa using after

/-! ### One row, cut -/

/-- The columns 6 and 7 of the record's row. -/
def eventLine (r : MonitorRecord) : Str :=
  (nameAt domainsNames r.domType).getD [] ++ ',' :: (nameAt opsNames r.opType).getD []

/-- A record as the tests expect it: sent with the default facility, strings on one
line, and a device without a comma. -/
structure Readable (r : MonitorRecord) : Prop where
  printable : Printable r
  facility : r.facility.chars = ['u']
  device : ',' ∉ r.device.chars
  oneLine : OnOneLine r

theorem Readable.row {printFloat : Float32 → Str} (clean : Clean printFloat) {r : MonitorRecord}
    (h : Readable r) :
    (csvFields printFloat r).isSome ∧ '\n' ∉ csvLine printFloat r ∧
      strstr "u,".toList (csvLine printFloat r) = true ∧ ',' ∈ csvLine printFloat r ∧
      join ',' ([6, 7].filterMap fun i => ((csvLine printFloat r).splitOn ',')[i - 1]?) =
        eventLine r := by
  obtain ⟨d, domain⟩ := h.printable.domain
  obtain ⟨o, op⟩ := h.printable.op
  have fields := csvFields_of_printable printFloat h.printable domain op
  have printable : (csvFields printFloat r).isSome := by rw [fields]; rfl
  have front : csvLine printFloat r = 'u' :: ',' :: join ','
      (r.device.chars :: (middle printFloat r d o ++ [r.s1.chars, r.s2.chars])) := by
    rw [csvLine, fields, Option.map_some, Option.getD_some, IoMonitor.row, h.facility]
    exact join_cons_cons ',' ['u'] _ _
  have inPlace : NamesInPlace r d o := .inl ⟨by rw [h.facility]; decide, h.device⟩
  obtain ⟨line, printed, oneLine, sixth, seventh⟩ :=
    (oneRow_iff clean h.printable domain op).mpr ⟨h.oneLine, inPlace⟩
  rw [outputCsv_line printable, Option.some.injEq, List.append_cancel_right_eq] at printed
  subst printed
  refine ⟨printable, oneLine, ?_, ?_, ?_⟩
  · rw [strstr_iff, front]
    exact ⟨[], _, rfl⟩
  · rw [front]
    exact List.mem_cons_of_mem _ List.mem_cons_self
  · rw [eventLine, domain, op, nameAt_domain, nameAt_op]
    rw [domain, nameAt_domain] at sixth
    rw [op, nameAt_op] at seventh
    simp only [List.filterMap_cons, List.filterMap_nil, Nat.reduceSub, sixth, seventh,
      Option.getD_some]
    rw [join_cons_cons, join_singleton]

/-! ### Devices -/

/-- A device name that fits its field and leaves the columns in place. -/
structure PlainDevice (dev : Str) : Prop where
  comma : ',' ∉ dev
  newline : '\n' ∉ dev
  fits : (cstr dev).length < DEVICE_LEN

structure PlainMounts (mounts : MountTable) : Prop where
  entries : ∀ e ∈ mounts.entries, PlainDevice e.2
  root : PlainDevice mounts.rootFsDev

/-- The field, as the plugin finds it. -/
structure PlainField (device : CharArray DEVICE_LEN) : Prop where
  terminated : device.Terminated
  comma : ',' ∉ device.chars
  newline : '\n' ∉ device.chars

theorem PlainDevice.field {dev : Str} (h : PlainDevice dev) :
    PlainField (strncpy DEVICE_LEN dev) := by
  have within : ∀ c ∈ (strncpy DEVICE_LEN dev).chars, c ∈ dev := by
    intro c mem
    rw [strncpy_chars_cstr] at mem
    exact (List.takeWhile_sublist _).subset (List.mem_of_mem_take mem)
  constructor
  · exact ((strncpy_copyOf_iff dev).mpr h.fits).terminated
  · exact fun mem => h.comma (within _ mem)
  · exact fun mem => h.newline (within _ mem)

theorem PlainMounts.pathToDev {mounts : MountTable} (h : PlainMounts mounts) (path : Str) :
    PlainDevice (pathToDev mounts path) := by
  unfold Listener.pathToDev
  split
  · rename_i e found
    exact h.entries e (List.mem_of_find?_eq_some found)
  · exact h.root

def PlainTable (t : FdTable) : Prop := ∀ fd dev, t fd = some dev → PlainDevice dev

theorem PlainTable.resolve {t : FdTable} (h : PlainTable t) {r : MonitorRecord}
    (field : PlainField r.device) : PlainField (resolveFile t r).device := by
  unfold resolveFile
  split
  · split
    · rename_i dev known
      exact (h _ dev known).field
    · exact field
  · exact field

theorem PlainTable.register {t : FdTable} (h : PlainTable t) {mounts : MountTable}
    (plain : PlainMounts mounts) (r : MonitorRecord) : PlainTable (registerFile mounts r t) := by
  unfold registerFile
  split
  · intro fd dev known
    by_cases own : fd = r.fd
    · rw [own, Function.update_self, Option.some.injEq] at known
      exact known ▸ plain.pathToDev (path r)
    · rw [Function.update_of_ne own] at known
      exact h fd dev known
  · exact h

theorem PlainTable.deregister {t : FdTable} (h : PlainTable t) (r : MonitorRecord) :
    PlainTable (deregisterFile r t) := by
  unfold deregisterFile
  split
  · intro fd dev known
    by_cases own : fd = r.fd
    · rw [own, Function.update_self] at known
      cases known
    · rw [Function.update_of_ne own] at known
      exact h fd dev known
  · exact h

theorem PlainTable.dispatch {t : FdTable} (h : PlainTable t) {mounts : MountTable}
    (plain : PlainMounts mounts) {r : MonitorRecord} (field : PlainField r.device) :
    PlainTable (dispatch mounts t r).1 ∧ PlainField (dispatch mounts t r).2.device := by
  unfold Listener.dispatch
  split
  · split
    · have registered := h.register plain r
      exact ⟨registered, registered.resolve field⟩
    · split
      · exact ⟨h.deregister _, h.resolve field⟩
      · exact ⟨h, field⟩
  · split
    · exact ⟨h, h.resolve field⟩
    · exact ⟨h, field⟩

theorem inputLoop_plain {mounts : MountTable} (plain : PlainMounts mounts) (hostname : Str)
    {rs : List MonitorRecord} (fields : ∀ r ∈ rs, PlainField r.device) {t : FdTable}
    (h : PlainTable t) : ∀ r ∈ (inputLoop mounts hostname t rs).2, PlainField r.device := by
  induction rs generalizing t with
  | nil => simp [inputLoop]
  | cons r rs ih =>
      obtain ⟨head, tail⟩ := List.forall_mem_cons.mp fields
      rw [inputLoop]
      obtain ⟨table, field⟩ := h.dispatch plain
        (r := { r with hostname := strncpy HOSTNAME_LEN hostname }) head
      exact List.forall_mem_cons.mpr ⟨field, ih tail table⟩

/-! ### From the process to the plugin -/

/-- What the dispatch keeps of a record that `Readable` asks for. -/
structure Legible (r : MonitorRecord) : Prop where
  domain : ∃ d : DomainType, r.domType = d.code
  op : ∃ o : OpType, r.opType = o.code
  facility : r.facility = (strncpy STR_LEN ['u']).closeLast
  s1 : r.s1.Terminated ∧ '\n' ∉ r.s1.chars
  s2 : r.s2.Terminated ∧ '\n' ∉ r.s2.chars

theorem Legible.readable {r : MonitorRecord} (h : Legible r) (device : PlainField r.device) :
    Readable r := by
  have chars : r.facility.chars = ['u'] := by rw [h.facility]; rfl
  constructor
  · refine ⟨h.domain, h.op, ?_, device.terminated, h.s1.1, h.s2.1⟩
    rw [h.facility]
    decide
  · exact chars
  · exact device.comma
  · refine ⟨?_, device.newline, h.s1.2, h.s2.2⟩
    rw [chars]
    decide

theorem Legible.congr {r r' : MonitorRecord} (h : Legible r)
    (same : eraseDevice r' = eraseDevice r) : Legible r' where
  domain := by
    have kept : r'.domType = r.domType := (congrArg MonitorRecord.domType same :)
    exact kept ▸ h.domain
  op := by
    have kept : r'.opType = r.opType := (congrArg MonitorRecord.opType same :)
    exact kept ▸ h.op
  facility := by
    have kept : r'.facility = r.facility := (congrArg MonitorRecord.facility same :)
    exact kept.trans h.facility
  s1 := by
    have kept : r'.s1 = r.s1 := (congrArg MonitorRecord.s1 same :)
    exact kept ▸ h.s1
  s2 := by
    have kept : r'.s2 = r.s2 := (congrArg MonitorRecord.s2 same :)
    exact kept ▸ h.s2

theorem recordField_legible {n : Nat} (positive : 0 < n) {p : CharPtr} {a : CharArray n}
    (field : recordField n p = some a) (oneLine : '\n' ∉ p.string) :
    a.Terminated ∧ '\n' ∉ a.chars := by
  have copy := recordField_copyOf positive field
  refine ⟨copy.terminated, fun mem => ?_⟩
  rw [copy.string] at mem
  exact oneLine ((List.takeWhile_sublist _).subset (List.mem_of_mem_take mem))

/-- The record of a call is as the tests expect it if its strings are on one line. -/
theorem attemptOf_legible {m : Monitor} (facility : m.facility = strncpy 5 ['u']) (who : Caller)
    {c : Recorded} (defined_ : c.1.Defined) (s1 : '\n' ∉ c.1.s1.string)
    (s2 : '\n' ∉ c.1.s2.string) :
    Legible (attemptOf m who c).record ∧ PlainField (attemptOf m who c).record.device ∧
      eventLine (attemptOf m who c).record = c.1.domType.name ++ ',' :: c.1.opType.name := by
  obtain ⟨r, built⟩ := buildRecord_isSome m defined_ c.2.time c.2.getpid
  rw [attemptOf_built built]
  simp only [buildRecord, Option.bind_eq_bind, Option.bind_eq_some_iff, Option.some.injEq] at built
  obtain ⟨a, first, b, second, rfl⟩ := built
  have blank : (CharArray.zero DEVICE_LEN).Terminated := by decide
  refine ⟨⟨⟨_, rfl⟩, ⟨_, rfl⟩, ?_, ?_, ?_⟩, ⟨blank, ?_, ?_⟩, ?_⟩
  · dsimp only
    rw [facility]
    rfl
  · exact recordField_legible (by decide) first s1
  · exact recordField_legible (by decide) second s2
  · exact List.not_mem_nil
  · exact List.not_mem_nil
  · rw [eventLine, nameAt_domain, nameAt_op]
    rfl

theorem initializeMonitor_facility {env : Environment} (default : env.facilityId = none) :
    (initializeMonitor env).facility = strncpy 5 ['u'] := by
  unfold initializeMonitor Environment.sampleByTime Environment.sampleByCount loadLibraryFunctions
  rw [default]
  repeat' split
  all_goals rfl

/-! ### The tests -/

/-- The plugins of a test: filters, `output_csv`, and filters behind it. -/
def testLoads (printFloat : Float32 → Str) (front : List FilterLoad) (library : Str) (state : Nat)
    (back : List FilterLoad) : List (LoadRequest TestMemory) :=
  front.map (·.request (some [])) ++
    csvRequest printFloat library state :: back.map (·.request (some []))

theorem banner_quiet {σ : Type} {loads : List (LoadRequest σ)}
    (quiet : ∀ q ∈ loads, ∀ line ∈ loadLines q, '\n' ∉ line ∧ strstr "u,".toList line = false) :
    ∀ line ∈ banner loads, '\n' ∉ line ∧ strstr "u,".toList line = false := by
  have own : ∀ line ∈ builtins.map (addedLine ·.name),
      '\n' ∉ line ∧ strstr "u,".toList line = false := by decide
  intro line mem
  rcases List.mem_append.mp mem with mem | mem
  · exact own line mem
  · obtain ⟨q, hq, within⟩ := List.mem_flatMap.mp mem
    exact quiet q hq line within

/-- The cut of a banner and of rows is the events of the rows. -/
theorem eventsCaptured_rows {printFloat : Float32 → Str} (clean : Clean printFloat)
    {head : List Str} (quiet : ∀ line ∈ head, '\n' ∉ line ∧ strstr "u,".toList line = false)
    {rs : List MonitorRecord} (readable : ∀ r ∈ rs, Readable r) :
    eventsCaptured (unlines head ++ unlines (rs.map (csvLine printFloat))) =
      unlines (rs.map eventLine) := by
  have row : ∀ line ∈ rs.map (csvLine printFloat),
      '\n' ∉ line ∧ strstr "u,".toList line = true := by
    intro line mem
    obtain ⟨r, hr, rfl⟩ := List.mem_map.mp mem
    obtain ⟨-, oneLine, selected, -⟩ := (readable r hr).row clean
    exact ⟨oneLine, selected⟩
  have oneLine : OneLine (head ++ rs.map (csvLine printFloat)) := by
    intro line mem
    rcases List.mem_append.mp mem with mem | mem
    · exact (quiet line mem).1
    · exact (row line mem).1
  have selected : (head ++ rs.map (csvLine printFloat)).filter (strstr "u,".toList) =
      rs.map (csvLine printFloat) := by
    rw [List.filter_append, List.filter_eq_self.mpr fun line mem => (row line mem).2,
      List.filter_eq_nil_iff.mpr fun line mem => Bool.not_eq_true _ ▸ (quiet line mem).2]
    rfl
  rw [eventsCaptured, ← unlines_append, grep_unlines oneLine, selected,
    cutColumns_unlines fun line mem => (row line mem).1, List.map_map]
  congr 1
  refine List.map_congr_left fun r hr => ?_
  obtain ⟨-, -, -, comma, cut⟩ := (readable r hr).row clean
  rw [Function.comp_apply, if_pos comma, cut]

/-- The dispatch keeps the events of the records that pass. -/
theorem passing_events (mounts : MountTable) (hostname : Str) (t : FdTable) (lists : List Str)
    (rs : List MonitorRecord) :
    (passing lists (inputLoop mounts hostname t rs).2).map eventLine =
      (passing lists rs).map eventLine := by
  have erased : ∀ rs : List MonitorRecord, (passing lists rs).map eventLine =
      (passing lists (rs.map eraseDevice)).map eventLine := by
    intro rs
    rw [passing, passing, List.filter_map, List.map_map]
    rfl
  rw [erased, inputLoop_erased, passing, passing, List.filter_map, List.map_map]
  rfl

theorem FilterLoad.opens {σ : Type} (f : FilterLoad) (memory : σ) :
    ChainMemory.Opens (f.request memory) := by
  refine ⟨rfl, rfl, ?_⟩
  show PLUGIN_OPEN_SUCCESS ≠ PLUGIN_OPEN_FAIL
  decide

/-- The nodes of the filters in front, of the plugin behind them, and those behind that. -/
theorem loads_nodes {σ : Type} (memory : σ) (front : List FilterLoad)
    {q : LoadRequest (BitVec 32 × σ)} (opens : ChainMemory.Opens q)
    (back : List (LoadRequest (BitVec 32 × σ))) :
    ∃ l filters n rest, Machine.run chainStep .start
        ((front.map (·.request memory) ++ q :: back).map ChainOp.load) = some l ∧
      l.plugins = filters ++ q.node n :: rest ∧
      List.Forall₂ (fun f list => f.Filtering (domainListToBitMask list)) filters
        (front.map FilterLoad.config) := by
  have empty : (ListenerState.start : ListenerState (BitVec 32 × σ)).plugins = [] := rfl
  obtain ⟨l, nodes, ran, plugins, stand⟩ :=
    run_loads (front.map (·.request memory) ++ q :: back) .start
  have every : ∀ f ∈ front.map (·.request memory), decide (ChainMemory.Opens f) = true := by
    intro f hf
    obtain ⟨load, -, rfl⟩ := List.mem_map.mp hf
    exact decide_eq_true (load.opens memory)
  rw [List.filter_append, List.filter_eq_self.mpr every,
    List.filter_cons_of_pos (by simpa using opens)] at stand
  have first := List.forall₂_take_append _ _ _ stand
  have second := List.forall₂_drop_append _ _ _ stand
  generalize taken : nodes.take _ = filters at first
  generalize left : nodes.drop _ = dropped at second
  cases second with
  | @cons _ _ behind _ isNode _ =>
      obtain ⟨n, rfl⟩ := isNode
      refine ⟨l, filters, n, behind, ran, ?_, ?_⟩
      · rw [plugins, empty, List.nil_append, ← taken, ← left, List.take_append_drop]
      · rw [List.forall₂_map_right_iff] at first ⊢
        refine first.imp fun f load node => ?_
        obtain ⟨n, rfl⟩ := node
        exact ⟨rfl, rfl, rfl⟩

theorem sent_sublist (m : Monitor) (calls : List Recorded) :
    (atQueue (m.pipeline calls)).Sublist calls := by
  rw [← pass_queueing]
  refine (pass_sublist _ _ _).trans ?_
  rw [← pass_unused]
  exact pass_sublist _ _ _

/-- The events of the records that arrive and pass. -/
theorem arrivals_events {base : Monitor} (facility : base.facility = strncpy 5 ['u'])
    (who : Caller) {tried : List Recorded} (defined_ : ∀ c ∈ tried, c.1.Defined)
    (oneLine : ∀ c ∈ tried, '\n' ∉ c.1.s1.string ∧ '\n' ∉ c.1.s2.string) (lists : List Str) :
    (passing lists (arrivals base who tried)).map eventLine =
      (tried.filter fun c => c.2.taken && lists.all (allows · c.1.domType)).map
        fun c => c.1.domType.name ++ ',' :: c.1.opType.name := by
  rw [passing, arrivals, List.filter_map, List.map_map, List.filter_filter]
  have events : ∀ c ∈ tried, eventLine (attemptOf base who c).record =
      c.1.domType.name ++ ',' :: c.1.opType.name := by
    intro c hc
    exact (attemptOf_legible facility who (defined_ c hc) (oneLine c hc).1 (oneLine c hc).2).2.2
  have same : ∀ c ∈ tried, (lists.all (listed · (attemptOf base who c).record) && c.2.taken) =
      (c.2.taken && lists.all (allows · c.1.domType)) := by
    intro c hc
    have domain := attemptOf_domType (m := base) who (defined_ c hc)
    simp only [listed_allows domain, Bool.and_comm]
  have kept := List.filter_congr same
  simp only [Function.comp_def]
  rw [kept]
  exact List.map_congr_left fun c hc => events c (List.mem_of_mem_filter hc)

/-- What is sent so reaches the plugins so. -/
theorem inputLoop_readable {mounts : MountTable} (plain : PlainMounts mounts) (hostname : Str)
    {rs : List MonitorRecord} (sources : ∀ r ∈ rs, Legible r ∧ PlainField r.device) :
    ∀ r ∈ (inputLoop mounts hostname noFiles rs).2, Readable r := by
  intro r hr
  have unknown : PlainTable noFiles := by
    intro fd dev known
    cases known
  have field := inputLoop_plain plain hostname (fun r hr => (sources r hr).2) unknown r hr
  have erased : eraseDevice r ∈ (inputLoop mounts hostname noFiles rs).2.map eraseDevice :=
    List.mem_map_of_mem hr
  rw [inputLoop_erased] at erased
  obtain ⟨source, hs, same⟩ := List.mem_map.mp erased
  obtain ⟨⟨domain, op, facility, s1, s2⟩, -⟩ := sources source hs
  have legible : Legible { source with hostname := strncpy HOSTNAME_LEN hostname } :=
    ⟨domain, op, facility, s1, s2⟩
  exact (legible.congr same.symm).readable field

/-- **What a test captures.** Whatever the calls of the program, the file compared
with the sample has a line for each call whose record the queue took and every filter
in front of `output_csv` lets through: its domain and its operation, in order. -/
theorem events_captured {env : Environment} (queue : env.messageQueuePath.isSome)
    (small : SmallWindows (initializeMonitor env).windowing) (default : env.facilityId = none)
    {calls : List Recorded} (defined_ : ∀ c ∈ calls, c.1.Defined)
    (clock : ∀ c ∈ calls, 0 < c.2.time ∧ Small c.2.time)
    (oneLine : ∀ c ∈ calls, '\n' ∉ c.1.s1.string ∧ '\n' ∉ c.1.s2.string) {w : World}
    (ran : Machine.run process.step (startWorld (initializeMonitor env)) calls = some w)
    {mounts : MountTable} (plain : PlainMounts mounts) (hostname : Str) {printFloat : Float32 → Str}
    (clean : Clean printFloat) {front back : List FilterLoad} {library : Str} {state : Nat}
    (quiet : ∀ q ∈ testLoads printFloat front library state back, ∀ line ∈ loadLines q,
      '\n' ∉ line ∧ strstr "u,".toList line = false) :
    ∃ l printed,
      Machine.run chainStep .start
        ((testLoads printFloat front library state back).map ChainOp.load) = some l ∧
      ((executeAll (inputLoop mounts hostname noFiles w.delivered).2 l.plugins).1[front.length]?).bind
        (·.memory.2) = some printed ∧
      eventsCaptured (unlines (banner (testLoads printFloat front library state back)) ++ printed) =
        unlines (((atQueue ((initializeMonitor env).pipeline calls)).filter fun c =>
            c.2.taken && front.all fun f => allows f.config c.1.domType).map fun c =>
          c.1.domType.name ++ ',' :: c.1.opType.name) := by
  have arrived := process_law queue small defined_ clock ran
  have facility := initializeMonitor_facility default
  have within := (sent_sublist (initializeMonitor env) calls).subset
  have sources : ∀ r ∈ w.delivered, Legible r ∧ PlainField r.device := by
    intro r hr
    rw [arrived] at hr
    obtain ⟨c, hc, rfl⟩ := List.mem_map.mp hr
    have mem := within (List.mem_of_mem_filter hc)
    obtain ⟨legible, field, -⟩ := attemptOf_legible facility .application (defined_ c mem)
      (oneLine c mem).1 (oneLine c mem).2
    exact ⟨legible, field⟩
  have readable := inputLoop_readable plain hostname sources
  have opens : ChainMemory.Opens (csvRequest printFloat library state) := by
    refine ⟨rfl, rfl, ?_⟩
    show PLUGIN_OPEN_SUCCESS ≠ PLUGIN_OPEN_FAIL
    decide
  obtain ⟨l, filters, n, rest, loaded, plugins, filtering⟩ :=
    loads_nodes (some []) front opens (back.map (·.request (some [])))
  have printing : Printing printFloat [] ((csvRequest printFloat library state).node n) :=
    ⟨rfl, rfl, rfl⟩
  obtain ⟨p', back', chain, after⟩ := executeAll_printing filtering _
    (fun r hr => ((readable r hr).row clean).1) (fun r hr => (readable r hr).printable.domain)
    printing rest
  have position : filters.length = front.length := by
    rw [filtering.length_eq, List.length_map]
  refine ⟨l, unlines ((passing (front.map FilterLoad.config)
    (inputLoop mounts hostname noFiles w.delivered).2).map (csvLine printFloat)), loaded, ?_, ?_⟩
  · rw [plugins, chain, ← position, List.getElem?_append_right (Nat.le_refl _), Nat.sub_self]
    exact after.memory
  · have shown : ∀ r ∈ passing (front.map FilterLoad.config)
        (inputLoop mounts hostname noFiles w.delivered).2, Readable r :=
      fun r hr => readable r (List.mem_of_mem_filter hr)
    rw [eventsCaptured_rows clean (banner_quiet quiet) shown, passing_events, arrived,
      arrivals_events facility _ (fun c hc => defined_ c (within hc))
        (fun c hc => oneLine c (within hc))]
    simp only [List.all_map, Function.comp_def]

/-! A program that opens, writes and closes a file, with a filter on the listener's
command line as in the first test. -/

def fileCall (domType : DomainType) (opType : OpType) (s1 : CharPtr) : Recorded :=
  ({ readHello with domType, opType, s1 }, .success)

def writesFile : List Recorded :=
  [fileCall .startStop .start (.str "./a.out".toList), fileCall .dirs .chdir .null,
    fileCall .fileOpenClose .opens (.str "file".toList), fileCall .fileWrite .write .null,
    fileCall .fileOpenClose .close .null, fileCall .startStop .stop .null]

def fileFilter : FilterLoad where
  library := "../../plugins/filter_domains.so".toList
  pluginAlias := none
  config := "FILE_OPEN_CLOSE,FILE_READ,FILE_WRITE".toList
  state := 1
  entry := 7
  overrun := .blank

theorem writesFile_readable : ∀ c ∈ writesFile,
    c.1.Defined ∧ '\n' ∉ c.1.s1.string ∧ '\n' ∉ c.1.s2.string ∧ c.2 = .success := by
  intro c hc
  simp only [writesFile, List.mem_cons, List.not_mem_nil, or_false] at hc
  rcases hc with rfl | rfl | rfl | rfl | rfl | rfl
  all_goals
    refine ⟨⟨?_, ?_, ?_⟩, by decide, by decide, rfl⟩
    · simp [fileCall, CharPtr.Readable]
    · simp [fileCall, readHello, openHello, CharPtr.Readable]
    · simp [fileCall]

theorem events_captured_file : ∃ w l printed,
    Machine.run process.step
        (startWorld (initializeMonitor (queueEnvironment.monitoring "ALL".toList))) writesFile =
      some w ∧
    Machine.run chainStep .start
        ((testLoads (printFixed 6) [fileFilter] "../../plugins/output_csv.so".toList 2 []).map
          ChainOp.load) = some l ∧
    ((executeAll (inputLoop noMounts [] noFiles w.delivered).2 l.plugins).1[1]?).bind
        (·.memory.2) = some printed ∧
    eventsCaptured (unlines (banner
        (testLoads (printFixed 6) [fileFilter] "../../plugins/output_csv.so".toList 2 [])) ++ printed) =
      "FILE_OPEN_CLOSE,OPEN\nFILE_WRITE,WRITE\nFILE_OPEN_CLOSE,CLOSE\n".toList := by
  obtain ⟨w, ran⟩ : ∃ w, Machine.run process.step
      (startWorld (initializeMonitor (queueEnvironment.monitoring "ALL".toList))) writesFile =
        some w := ⟨_, rfl⟩
  have small : SmallWindows
      (initializeMonitor (queueEnvironment.monitoring "ALL".toList)).windowing := by
    intro p hp
    cases hp
  have plain : PlainMounts noMounts := ⟨by simp [noMounts], ⟨by decide, by decide, by decide⟩⟩
  have quiet : ∀ q ∈ testLoads (printFixed 6) [fileFilter] "../../plugins/output_csv.so".toList 2 [],
      ∀ line ∈ loadLines q, '\n' ∉ line ∧ strstr "u,".toList line = false := by decide +kernel
  obtain ⟨l, printed, loaded, known, captured⟩ := events_captured rfl small rfl
    (fun c hc => (writesFile_readable c hc).1)
    (fun c hc => by rw [(writesFile_readable c hc).2.2.2]; simp [Outcomes.success, Small])
    (fun c hc => ⟨(writesFile_readable c hc).2.1, (writesFile_readable c hc).2.2.1⟩) ran plain []
    printFixed_clean quiet
  refine ⟨w, l, printed, ran, loaded, known, captured.trans ?_⟩
  decide +kernel

end IoMonitor
