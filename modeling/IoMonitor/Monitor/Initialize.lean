import IoMonitor.Names
import IoMonitor.Monitor.State

/-!
`initialize_monitor`: from the environment to the static variables.
-/

namespace IoMonitor

open CString

/-- The environment of the monitored process. A sampling setting is the number
that `atol` reads, for a variable that is set and not empty; `startOnElapsed` is
the number that `atof` reads. -/
structure Environment where
  facilityId : Option Str
  messageQueuePath : Option Str
  monitorDomains : Option Str
  countSampleFrequency : Option Int
  timeSampleFrequency : Option Int
  timeSampleDuration : Option Int
  startOnOpen : Option Str
  startOnElapsed : Option Float

/-- `domain_bit_flags`. -/
def Environment.domainBitFlags (env : Environment) : BitVec 32 :=
  match env.monitorDomains with
  | some list => if list = "ALL".toList then -1 else domainListToBitMask list
  | none => 0

/-- The count sampling parameter. The `unsigned long` is stored in an `int`. -/
def Environment.sampleByCount (env : Environment) (m : Monitor) : Monitor :=
  match env.countSampleFrequency with
  | some v =>
      if toSize v > 0 then
        { m with countBasedSampling := true, countBasedSampleFrequency := toInt (toSize v) }
      else m
  | none => m

/-- The time sampling parameters: both or none. -/
def Environment.sampleByTime (env : Environment) (m : Monitor) : Monitor :=
  match env.timeSampleFrequency, env.timeSampleDuration with
  | some frequency, some duration =>
      if toSize frequency > 0 ∧ toSize duration > 0 then
        { m with
          timeBasedSampling := true
          timeBasedSampleFrequency := (toSize frequency).toNat
          timeBasedSampleDuration := (toSize duration).toNat }
      else m
  | _, _ => m

def initializeMonitor (env : Environment) : Monitor :=
  loadLibraryFunctions env.startOnOpen env.startOnElapsed <|
    env.sampleByTime <| env.sampleByCount
      { Monitor.initial with
        facility := strncpy 5 ((env.facilityId.getD ['u']).take 4)
        messageQueuePath := env.messageQueuePath
        domainBitFlags := env.domainBitFlags }

/-- `MONITOR_DOMAINS` set. -/
def Environment.monitoring (env : Environment) (list : Str) : Environment :=
  { env with monitorDomains := some list }

/-- The two ways to say `ALL` agree. -/
theorem domainBitFlags_monitoring (env : Environment) (list : Str) :
    (env.monitoring list).domainBitFlags = domainListToBitMask list := by
  simp only [Environment.domainBitFlags, Environment.monitoring]
  split
  · rename_i all
    rw [all]
    decide
  · rfl

/-- The monitor with another mask. -/
def Monitor.masked (flags : BitVec 32) (m : Monitor) : Monitor :=
  { m with domainBitFlags := flags }

/-- The domains determine the mask and nothing else. -/
theorem initializeMonitor_monitoring (env : Environment) (list : Str) :
    initializeMonitor (env.monitoring list) =
      (initializeMonitor env).masked (domainListToBitMask list) := by
  rw [← domainBitFlags_monitoring env list]
  unfold initializeMonitor Environment.sampleByTime Environment.sampleByCount loadLibraryFunctions
  dsimp only [Environment.monitoring]
  repeat' split
  all_goals rfl

end IoMonitor
