import IoMonitor.Listener.Resolver

/-!
Whose entry a record's device is read from.

The table has no process in its key. A record is stamped from the entry of its
descriptor number, and that entry belongs to whichever process touched the
number last (`dispatch_device_congr`, `KeyedStore.replay_eq_last`). So a process
sees the devices it would see alone only for the records that do not read an
entry another process left (`device_isolated`).
-/

namespace IoMonitor.Listener

open CString IoMonitor

/-- `dispatch` looks the record's descriptor up. -/
def Resolves (r : MonitorRecord) : Prop :=
  IsOpen r ∨ IsClose r ∨ r.domType ∈ resolvedDomains.map DomainType.code

/-- The record sets its own entry before the device is looked up. -/
def RegistersItself (r : MonitorRecord) : Prop := IsOpen r ∧ r.fd ≠ FD_NONE ∧ 0 < (path r).length

/-- The records of the stream with this pid, in order. -/
def own (pid : Int) (stream : List MonitorRecord) : List MonitorRecord :=
  stream.filter (·.pid = pid)

/-- After `before`, the device of `r` is read from an entry that a record of
another process set or erased last. -/
def ReadsForeign (mounts : MountTable) (before : List MonitorRecord) (r : MonitorRecord) : Prop :=
  Resolves r ∧ ¬ RegistersItself r ∧
    ∃ m, KeyedStore.lastTouch (update mounts) r.fd before = some m ∧ m.pid ≠ r.pid

theorem resolveFile_congr {t t' : FdTable} {r : MonitorRecord} (h : t r.fd = t' r.fd) :
    resolveFile t r = resolveFile t' r := by
  unfold resolveFile
  rw [h]

/-- A record that sets its own entry is stamped the same on every table. -/
theorem dispatch_of_registersItself {mounts : MountTable} (t t' : FdTable) {r : MonitorRecord}
    (h : RegistersItself r) : (dispatch mounts t r).2 = (dispatch mounts t' r).2 := by
  obtain ⟨⟨dom, op⟩, fd, nonempty⟩ := h
  simp only [dispatch, dom, op, if_true]
  apply resolveFile_congr
  simp [registerFile, fd, nonempty]

/-- An unresolved record is passed on as it came. -/
theorem dispatch_of_not_resolves {mounts : MountTable} (t : FdTable) {r : MonitorRecord}
    (h : ¬ Resolves r) : (dispatch mounts t r).2 = r := by
  simp only [Resolves, IsOpen, IsClose, not_or, not_and] at h
  obtain ⟨notOpen, notClose, notResolved⟩ := h
  unfold dispatch
  split
  · rename_i dom
    simp [notOpen dom, notClose dom]
  · rfl

/-- Otherwise the stamp depends on the table through the record's own entry. -/
theorem dispatch_congr {mounts : MountTable} {t t' : FdTable} {r : MonitorRecord}
    (h : t r.fd = t' r.fd) : (dispatch mounts t r).2 = (dispatch mounts t' r).2 := by
  unfold dispatch
  split
  · split
    · apply resolveFile_congr
      unfold registerFile
      split <;> simp [h]
    · split
      · exact resolveFile_congr h
      · rfl
  · split
    · exact resolveFile_congr h
    · rfl

/-- The stamp agrees on the two tables left by the whole stream and by the
record's own process, unless the record reads a foreign entry. -/
theorem dispatch_own {mounts : MountTable} {before : List MonitorRecord} {r : MonitorRecord}
    (h : ¬ ReadsForeign mounts before r) :
    (dispatch mounts (KeyedStore.replay (update mounts) noFiles before) r).2 =
      (dispatch mounts (KeyedStore.replay (update mounts) noFiles (own r.pid before)) r).2 := by
  by_cases resolves : Resolves r
  · by_cases itself : RegistersItself r
    · exact dispatch_of_registersItself _ _ itself
    · apply dispatch_congr
      refine (KeyedStore.replay_filter fun m last => ?_).symm
      by_contra foreign
      exact h ⟨resolves, itself, m, last, by simpa using foreign⟩
  · rw [dispatch_of_not_resolves _ resolves, dispatch_of_not_resolves _ resolves]

/-- **Device attribution per process.** In any stream, the record that follows
`before` gets the device it would get in the stream of its own process alone,
unless it reads an entry that another process touched last. -/
theorem device_isolated (mounts : MountTable) (hostname : Str)
    (before after : List MonitorRecord) (r : MonitorRecord)
    (h : ¬ ReadsForeign mounts before r) :
    ((inputLoop mounts hostname noFiles (before ++ r :: after)).2[before.length]?).map (·.device) =
      ((inputLoop mounts hostname noFiles
          (own r.pid (before ++ r :: after))).2[(own r.pid before).length]?).map (·.device) := by
  have split : own r.pid (before ++ r :: after) =
      own r.pid before ++ r :: own r.pid after := by
    simp [own]
  rw [split, inputLoop_getElem?, inputLoop_getElem?]
  have same := dispatch_own (r := { r with hostname := strncpy HOSTNAME_LEN hostname }) h
  rw [same]

/-! Two processes use descriptor 3: the first opens a file, the second reads. -/

def oneMount : MountTable where
  entries := [("/a".toList, "sda".toList)]
  sorted := List.pairwise_singleton _ _
  rootFsDev := "vda".toList

def openByFirst : MonitorRecord :=
  { MonitorRecord.zero with
    pid := 1
    fd := 3
    domType := DomainType.fileOpenClose.code
    opType := OpType.opens.code
    s1 := strncpy PATH_MAX "/a/x".toList }

def readBySecond : MonitorRecord :=
  { MonitorRecord.zero with
    pid := 2
    fd := 3
    domType := DomainType.fileRead.code
    opType := OpType.read.code }

def secondOpensToo : MonitorRecord :=
  { openByFirst with pid := 2, s1 := strncpy PATH_MAX "/b".toList }

/-- The second process's read is stamped with the first process's device. -/
theorem device_leaks :
    ((inputLoop oneMount [] noFiles [openByFirst, readBySecond]).2.filter (·.pid = 2)).map (·.device)
      ≠ (inputLoop oneMount [] noFiles (own 2 [openByFirst, readBySecond])).2.map (·.device) := by
  decide

theorem device_isolated_reopened :
    ((inputLoop oneMount [] noFiles [openByFirst, secondOpensToo, readBySecond]).2[2]?).map
        (·.device) =
      ((inputLoop oneMount [] noFiles
        (own 2 [openByFirst, secondOpensToo, readBySecond])).2[1]?).map (·.device) :=
  device_isolated oneMount [] [openByFirst, secondOpensToo] [] readBySecond (by
    rintro ⟨-, -, m, last, foreign⟩
    have : KeyedStore.lastTouch (update oneMount) 3 [openByFirst, secondOpensToo] =
        some secondOpensToo := by decide
    rw [show readBySecond.fd = 3 from rfl, this] at last
    cases last
    exact foreign rfl)

end IoMonitor.Listener
