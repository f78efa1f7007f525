import IoMonitor.Monitor.Accounting
import IoMonitor.Monitor.Initialize

/-!
The sampling parameters of the environment.

`initialize_monitor` keeps what `atol` reads in an `unsigned long` and asks whether
that is above 0, which a negative number is; the count frequency is then stored in
an `int`. No run of `record()` changes these settings (`run_parameters`), so what
they mean is settled at the start (`sampling_parameters_iff`).
-/

namespace IoMonitor

open CString

/-- A value of `atol`. -/
structure Long (v : Int) : Prop where
  low : -2 ^ 63 ≤ v
  high : v < 2 ^ 63

/-- `COUNT_SAMPLE_FREQUENCY` set. -/
def Environment.countSampled (env : Environment) (v : Int) : Environment :=
  { env with countSampleFrequency := some v }

/-- `TIME_SAMPLE_FREQUENCY` and `TIME_SAMPLE_DURATION` set. -/
def Environment.timeSampled (env : Environment) (frequency duration : Int) : Environment :=
  { env with timeSampleFrequency := some frequency, timeSampleDuration := some duration }

/-! ### What the parameters are to mean -/

structure CountMeans (v : Int) (m : Monitor) : Prop where
  on : m.countBasedSampling = true ↔ 0 < v
  frequency : m.countBasedSampling = true → m.countBasedSampleFrequency = v

structure TimeMeans (frequency duration : Int) (m : Monitor) : Prop where
  on : m.timeBasedSampling = true ↔ 0 < frequency ∧ 0 < duration
  frequency : m.timeBasedSampling = true → m.timeBasedSampleFrequency = frequency
  duration : m.timeBasedSampling = true → m.timeBasedSampleDuration = duration

/-- `P` holds of the static variables in every run of `record()` calls. -/
def Throughout (who : Caller) (env : Environment) (P : Monitor → Prop) : Prop :=
  ∀ calls, Machine.Always (recordStep who) (fun w => P w.monitor)
    (startWorld (initializeMonitor env)) calls

/-! ### Runs leave the parameters alone -/

/-- What `record()` compares its counter and its clock with. -/
def Monitor.parameters (m : Monitor) : Bool × Int × Bool × Nat × Nat :=
  (m.countBasedSampling, m.countBasedSampleFrequency, m.timeBasedSampling,
    m.timeBasedSampleFrequency, m.timeBasedSampleDuration)

theorem parameters_of_unsampled {m m' : Monitor} (same : m'.unsampled = m.unsampled) :
    m'.parameters = m.parameters :=
  (congrArg Monitor.parameters same :)

theorem parameters_of_unsent {m m' : Monitor} (same : m'.unsent = m.unsent) :
    m'.parameters = m.parameters :=
  (congrArg Monitor.parameters same :)

theorem account_parameters (rc : Int) (m : Monitor) : (account rc m).parameters = m.parameters := by
  unfold account
  split <;> rfl

theorem recordStep_parameters {who : Caller} {w w' : World} {c : Recorded}
    (step : recordStep who w c = some w') : w'.monitor.parameters = w.monitor.parameters := by
  obtain ⟨m, verdict, rfl⟩ | ⟨m, r, rc, w₁, verdict, -, sent, rfl⟩ := recordStep_cases step
  · exact parameters_of_unsampled (ignored_unsampled verdict)
  · have kept := parameters_of_unsampled (admitted_unsampled verdict)
    have settings := parameters_of_unsent (sendRecord_sameSettings c.2 r sent)
    exact (account_parameters rc w₁.monitor).trans (settings.trans kept)

theorem run_parameters {who : Caller} {w w' : World} (calls : List Recorded)
    (run : Machine.run (recordStep who) w calls = some w') :
    w'.monitor.parameters = w.monitor.parameters := by
  have keep : ∀ (s : World) (i : Recorded) (s' : World),
      s.monitor.parameters = w.monitor.parameters → recordStep who s i = some s' →
        s'.monitor.parameters = w.monitor.parameters :=
    fun _ _ _ kept step => (recordStep_parameters step).trans kept
  exact Machine.run_invariant keep calls rfl run

theorem CountMeans.congr {v : Int} {m m' : Monitor} (same : m'.parameters = m.parameters)
    (h : CountMeans v m) : CountMeans v m' := by
  simp only [Monitor.parameters, Prod.mk.injEq] at same
  obtain ⟨on, frequency, -⟩ := same
  constructor
  · rw [on]
    exact h.on
  · rw [on, frequency]
    exact h.frequency

theorem TimeMeans.congr {f d : Int} {m m' : Monitor} (same : m'.parameters = m.parameters)
    (h : TimeMeans f d m) : TimeMeans f d m' := by
  simp only [Monitor.parameters, Prod.mk.injEq] at same
  obtain ⟨-, -, on, frequency, duration⟩ := same
  constructor
  · rw [on]
    exact h.on
  · rw [on, frequency]
    exact h.frequency
  · rw [on, duration]
    exact h.duration

/-- What the parameters alone decide holds throughout iff it holds at the start. -/
theorem throughout_iff {who : Caller} {env : Environment} {P : Monitor → Prop}
    (congr : ∀ {m m' : Monitor}, m'.parameters = m.parameters → P m → P m') :
    Throughout who env P ↔ P (initializeMonitor env) := by
  constructor
  · intro always
    exact (always []).start
  · intro start calls pre _ w' run
    exact congr (run_parameters pre run) start

/-! ### The parameters at the start -/

theorem loadLibraryFunctions_parameters (startOnOpen : Option Str) (startOnElapsed : Option Float)
    (m : Monitor) :
    (loadLibraryFunctions startOnOpen startOnElapsed m).parameters = m.parameters := by
  unfold loadLibraryFunctions
  repeat' split
  all_goals rfl

/-- An `unsigned long` made from a `long` is above 0 for every number but 0. -/
theorem toSize_pos_iff {v : Int} (long : Long v) : toSize v > 0 ↔ v ≠ 0 := by
  obtain ⟨low, high⟩ := long
  rw [toSize]
  omega

/-- The count parameters are set for every number but 0. -/
theorem sampleByCount_eq (env : Environment) {v : Int} (long : Long v) (m : Monitor) :
    (env.countSampled v).sampleByCount m =
      if v = 0 then m
      else { m with
        countBasedSampling := true
        countBasedSampleFrequency := toInt (toSize v) } := by
  simp only [Environment.sampleByCount, Environment.countSampled, toSize_pos_iff long]
  by_cases zero : v = 0 <;> simp [zero]

theorem sampleByTime_eq (env : Environment) {f d : Int} (longF : Long f) (longD : Long d)
    (m : Monitor) :
    (env.timeSampled f d).sampleByTime m =
      if f = 0 ∨ d = 0 then m
      else { m with
        timeBasedSampling := true
        timeBasedSampleFrequency := (toSize f).toNat
        timeBasedSampleDuration := (toSize d).toNat } := by
  simp only [Environment.sampleByTime, Environment.timeSampled, toSize_pos_iff longF,
    toSize_pos_iff longD]
  by_cases zero : f = 0 ∨ d = 0
  · rw [if_pos zero, if_neg (by tauto)]
  · rw [if_neg zero, if_pos (by tauto)]

/-- The time parameters leave those of the count alone. -/
theorem sampleByTime_count (env : Environment) (m : Monitor) :
    (env.sampleByTime m).countBasedSampling = m.countBasedSampling ∧
      (env.sampleByTime m).countBasedSampleFrequency = m.countBasedSampleFrequency := by
  unfold Environment.sampleByTime
  repeat' split
  all_goals exact ⟨rfl, rfl⟩

theorem sampleByCount_time (env : Environment) (m : Monitor) :
    (env.sampleByCount m).timeBasedSampling = m.timeBasedSampling := by
  unfold Environment.sampleByCount
  repeat' split
  all_goals rfl

/-- The frequency is the number if that is an `int`. -/
theorem toInt_toSize_eq_iff {v : Int} (long : Long v) :
    toInt (toSize v) = v ↔ -2 ^ 31 ≤ v ∧ v < 2 ^ 31 := by
  obtain ⟨low, high⟩ := long
  have modulus : ((2 ^ 32 : Nat) : Int) = 4294967296 := rfl
  rw [toInt, toSize, Int.bmod_eq_iff (by decide), modulus]
  omega

/-- The static variables before the sampling parameters are read have sampling off. -/
theorem initializeMonitor_parameters (env : Environment) :
    ∃ m : Monitor, m.countBasedSampling = false ∧ m.timeBasedSampling = false ∧
      (initializeMonitor env).parameters =
        (env.sampleByTime (env.sampleByCount m)).parameters :=
  ⟨_, rfl, rfl, loadLibraryFunctions_parameters _ _ _⟩

theorem initializeMonitor_countSampled (env : Environment) {v : Int} (long : Long v) :
    (initializeMonitor (env.countSampled v)).countBasedSampling = decide (v ≠ 0) ∧
      (v ≠ 0 → (initializeMonitor (env.countSampled v)).countBasedSampleFrequency =
        toInt (toSize v)) := by
  obtain ⟨m, off, -, same⟩ := initializeMonitor_parameters (env.countSampled v)
  obtain ⟨on, frequency⟩ := sampleByTime_count (env.countSampled v)
    ((env.countSampled v).sampleByCount m)
  simp only [Monitor.parameters, Prod.mk.injEq] at same
  rw [same.1, same.2.1, on, frequency, sampleByCount_eq env long]
  by_cases zero : v = 0 <;> simp [zero, off]

theorem initializeMonitor_timeSampled (env : Environment) {f d : Int} (longF : Long f)
    (longD : Long d) :
    (initializeMonitor (env.timeSampled f d)).timeBasedSampling = decide (¬ (f = 0 ∨ d = 0)) ∧
      (¬ (f = 0 ∨ d = 0) →
        (initializeMonitor (env.timeSampled f d)).timeBasedSampleFrequency = (toSize f).toNat ∧
        (initializeMonitor (env.timeSampled f d)).timeBasedSampleDuration = (toSize d).toNat) := by
  obtain ⟨m, -, off, same⟩ := initializeMonitor_parameters (env.timeSampled f d)
  have still := (sampleByCount_time (env.timeSampled f d) m).trans off
  simp only [Monitor.parameters, Prod.mk.injEq] at same
  rw [same.2.2.1, same.2.2.2.1, same.2.2.2.2, sampleByTime_eq env longF longD]
  by_cases zero : f = 0 ∨ d = 0
  · simp [zero, still]
  · simp [zero]

/-- The count parameter means what it says iff the number is an `int` and not negative. -/
theorem countMeans_iff (env : Environment) {v : Int} (long : Long v) :
    CountMeans v (initializeMonitor (env.countSampled v)) ↔ 0 ≤ v ∧ v < 2 ^ 31 := by
  obtain ⟨on, frequency⟩ := initializeMonitor_countSampled env long
  constructor
  · intro means
    have sign := means.on
    rw [on, decide_eq_true_iff] at sign
    have nonneg : 0 ≤ v := by omega
    refine ⟨nonneg, ?_⟩
    by_cases zero : v = 0
    · omega
    · have same := means.frequency (on.trans (decide_eq_true zero))
      rw [frequency zero, toInt_toSize_eq_iff long] at same
      exact same.2
  · rintro ⟨nonneg, int⟩
    constructor
    · rw [on, decide_eq_true_iff]
      omega
    · intro sampling
      rw [on, decide_eq_true_iff] at sampling
      rw [frequency sampling, toInt_toSize_eq_iff long]
      omega

/-- The time parameters are kept whole, but a negative one turns sampling on. -/
theorem timeMeans_iff (env : Environment) {f d : Int} (longF : Long f) (longD : Long d) :
    TimeMeans f d (initializeMonitor (env.timeSampled f d)) ↔
      f = 0 ∨ d = 0 ∨ (0 < f ∧ 0 < d) := by
  obtain ⟨on, parameters⟩ := initializeMonitor_timeSampled env longF longD
  constructor
  · intro means
    have sign := means.on
    rw [on, decide_eq_true_iff] at sign
    by_cases zero : f = 0 ∨ d = 0
    · exact zero.imp_right .inl
    · exact .inr (.inr (sign.mp zero))
  · intro right
    have kept : ∀ {x : Int}, Long x → 0 < x → ((toSize x).toNat : Int) = x := by
      intro x long positive
      obtain ⟨-, high⟩ := long
      rw [toSize]
      omega
    have sign : ¬ (f = 0 ∨ d = 0) ↔ 0 < f ∧ 0 < d := by omega
    constructor
    · rw [on, decide_eq_true_iff, sign]
    · intro sampling
      rw [on, decide_eq_true_iff] at sampling
      rw [(parameters sampling).1]
      exact kept longF (sign.mp sampling).1
    · intro sampling
      rw [on, decide_eq_true_iff] at sampling
      rw [(parameters sampling).2]
      exact kept longD (sign.mp sampling).2

/-- **Sampling parameters.** In every run, the number in `COUNT_SAMPLE_FREQUENCY`
means what it says iff it is an `int` and not negative, and those in the two time
parameters do iff one of them is 0 or both are positive. -/
theorem sampling_parameters_iff (who : Caller) (env : Environment) {v f d : Int} (long : Long v)
    (longF : Long f) (longD : Long d) :
    (Throughout who (env.countSampled v) (CountMeans v) ↔ 0 ≤ v ∧ v < 2 ^ 31) ∧
      (Throughout who (env.timeSampled f d) (TimeMeans f d) ↔
        f = 0 ∨ d = 0 ∨ (0 < f ∧ 0 < d)) :=
  ⟨(throughout_iff CountMeans.congr).trans (countMeans_iff env long),
    (throughout_iff TimeMeans.congr).trans (timeMeans_iff env longF longD)⟩

/-! Settings that are not what they say. -/

/-- No variable is set. -/
def Environment.unset : Environment where
  facilityId := none
  messageQueuePath := none
  monitorDomains := none
  countSampleFrequency := none
  timeSampleFrequency := none
  timeSampleDuration := none
  startOnOpen := none
  startOnElapsed := none

theorem sampling_parameters_iff_large :
    (Throughout .application (Environment.unset.countSampled (2 ^ 31)) (CountMeans (2 ^ 31)) ↔
      (0 : Int) ≤ 2 ^ 31 ∧ (2 : Int) ^ 31 < 2 ^ 31) ∧
      (Throughout .application (Environment.unset.timeSampled 10 (-2)) (TimeMeans 10 (-2)) ↔
        (10 : Int) = 0 ∨ (-2 : Int) = 0 ∨ ((0 : Int) < 10 ∧ (0 : Int) < -2)) :=
  sampling_parameters_iff .application .unset ⟨by decide, by decide⟩ ⟨by decide, by decide⟩
    ⟨by decide, by decide⟩

/-- `COUNT_SAMPLE_FREQUENCY=-1` turns count sampling on. -/
theorem negative_frequency_sampled :
    ¬ Throughout .application (Environment.unset.countSampled (-1)) (CountMeans (-1)) := by
  intro always
  have start : CountMeans (-1) (initializeMonitor (Environment.unset.countSampled (-1))) :=
    (always []).start
  have on : (initializeMonitor (Environment.unset.countSampled (-1))).countBasedSampling = true :=
    by decide
  exact absurd (start.on.mp on) (by decide)

end IoMonitor
