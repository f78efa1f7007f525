import IoMonitor.EndToEnd
import IoMonitor.Listener.Isolation

/-!
The strings of a record on their way to the plugins.

`record()` copies with `RECORD_FIELD_S`, which writes a NUL to the last byte. The
listener fills in the host name and the device with a bare `strncpy`, which does
not, so a host name of 64 characters and a device name of 10 leave their arrays
without a NUL (`strings_sound_iff`).
-/

namespace IoMonitor

open CString Listener

/-! ### The sources -/

/-- The string behind a pointer argument; none is copied from a null pointer. -/
def CharPtr.string : CharPtr → Str
  | .str s => s
  | .null => []
  | .bad => []

instance (r : MonitorRecord) : Decidable (Resolves r) := by unfold Resolves; infer_instance

/-- The entry that `resolve_file` copies the device from; an `OPEN` has set its own
before. -/
def deviceSource (mounts : MountTable) (t : FdTable) (r : MonitorRecord) : Str :=
  if r.fd ≠ FD_NONE ∧ Resolves r then
    ((if IsOpen r then registerFile mounts r t else t) r.fd).getD []
  else []

/-- Each of the five arrays holds a terminated copy of its source. -/
structure StringsSound (m : Monitor) (c : RecordCall) (hostname device : Str)
    (r : MonitorRecord) : Prop where
  facility : r.facility.CopyOf m.facility.chars
  hostname : r.hostname.CopyOf hostname
  device : r.device.CopyOf device
  s1 : r.s1.CopyOf c.s1.string
  s2 : r.s2.CopyOf c.s2.string

theorem recordField_copyOf {n : Nat} (positive : 0 < n) {p : CharPtr} {a : CharArray n}
    (field : recordField n p = some a) : a.CopyOf p.string := by
  cases p with
  | null =>
      cases field
      exact zero_copyOf positive
  | str s =>
      cases field
      exact closeLast_copyOf positive s
  | bad => cases field

/-! ### The dispatch -/

theorem resolveFile_device (t : FdTable) {r : MonitorRecord} (blank : r.device = .zero _) :
    resolveFile t r =
      { r with
        device := strncpy DEVICE_LEN (if r.fd ≠ FD_NONE then (t r.fd).getD [] else []) } := by
  have same : { r with device := strncpy DEVICE_LEN [] } = r := by rw [strncpy_nil, ← blank]
  unfold resolveFile
  by_cases fd : r.fd ≠ FD_NONE
  · rw [if_pos fd, if_pos fd]
    cases held : t r.fd with
    | some dev => rfl
    | none => exact same.symm
  · rw [if_neg fd, if_neg fd]
    exact same.symm

/-- The dispatch copies the device source and changes nothing else. -/
theorem dispatch_device (mounts : MountTable) (t : FdTable) {r : MonitorRecord}
    (blank : r.device = .zero _) :
    (dispatch mounts t r).2 =
      { r with device := strncpy DEVICE_LEN (deviceSource mounts t r) } := by
  have same : { r with device := strncpy DEVICE_LEN [] } = r := by rw [strncpy_nil, ← blank]
  by_cases resolves : Resolves r
  · have source : deviceSource mounts t r =
        if r.fd ≠ FD_NONE then
          ((if IsOpen r then registerFile mounts r t else t) r.fd).getD [] else [] := by
      simp only [deviceSource, resolves, and_true]
    rw [source]
    by_cases open_ : IsOpen r
    · rw [if_pos open_, ← resolveFile_device _ blank]
      simp only [dispatch, open_.1, open_.2, if_true]
    · rw [if_neg open_, ← resolveFile_device t blank]
      unfold dispatch
      by_cases dom : r.domType = DomainType.fileOpenClose.code
      · have close_ : IsClose r := by
          rcases resolves with h | h | h
          · exact absurd h open_
          · exact h
          · rw [dom] at h
            exact absurd h (by decide)
        rw [if_pos dom, if_neg fun op => open_ ⟨dom, op⟩, if_pos close_.2]
      · have listed : r.domType ∈ resolvedDomains.map DomainType.code := by
          rcases resolves with h | h | h
          · exact absurd h.1 dom
          · exact absurd h.1 dom
          · exact h
        rw [if_neg dom, if_pos listed]
  · rw [dispatch_of_not_resolves t resolves, deviceSource, if_neg fun h => resolves h.2]
    exact same.symm

/-! ### All five -/

theorem inputLoop_singleton (mounts : MountTable) (hostname : Str) (t : FdTable)
    (r : MonitorRecord) :
    (inputLoop mounts hostname t [r]).2 =
      [(dispatch mounts t { r with hostname := strncpy HOSTNAME_LEN hostname }).2] := rfl

/-- **Terminated strings.** The record that `input_loop` passes to the plugins has
five terminated copies iff host name and device name leave room for a NUL. -/
theorem strings_sound_iff (mounts : MountTable) (hostname : Str) (t : FdTable) (m : Monitor)
    (c : RecordCall) (timestamp : Nat) (pid : Int) {r : MonitorRecord}
    (built : buildRecord m c timestamp pid = some r) :
    (∀ r' ∈ (inputLoop mounts hostname t [r]).2,
        StringsSound m c hostname (deviceSource mounts t r) r') ↔
      (cstr hostname).length < HOSTNAME_LEN ∧
        (cstr (deviceSource mounts t r)).length < DEVICE_LEN := by
  simp only [buildRecord, Option.bind_eq_bind, Option.bind_eq_some_iff, Option.some.injEq] at built
  obtain ⟨s1, first, s2, second, rfl⟩ := built
  rw [inputLoop_singleton, List.forall_mem_singleton, dispatch_device mounts t (by rfl)]
  constructor
  · intro sound
    exact ⟨(strncpy_copyOf_iff _).mp sound.hostname, (strncpy_copyOf_iff _).mp sound.device⟩
  · rintro ⟨host, device⟩
    exact
      { facility := closeLast_copyOf (by decide) _
        hostname := (strncpy_copyOf_iff _).mpr host
        device := (strncpy_copyOf_iff _).mpr device
        s1 := recordField_copyOf (by decide) first
        s2 := recordField_copyOf (by decide) second }

/-! A file opened as descriptor 3, on the root file system. -/

def openedHello : Recorded := ({ openHello with fd := 3 }, .success)

def openedRecord : MonitorRecord :=
  (attemptOf (queueMonitor [.fileOpenClose]) .application openedHello).record

theorem openedRecord_built :
    buildRecord (queueMonitor [.fileOpenClose]) openedHello.1 1500000000 4242 = some openedRecord :=
  rfl

theorem strings_sound_iff_hello :
    ∃ r', (inputLoop noMounts "node".toList noFiles [openedRecord]).2 = [r'] ∧
      StringsSound (queueMonitor [.fileOpenClose]) openedHello.1 "node".toList "vda".toList r' :=
  ⟨_, rfl, (strings_sound_iff noMounts "node".toList noFiles _ _ _ _ openedRecord_built).mpr
    (by decide) _ List.mem_cons_self⟩

/-- The tenth partition of a memory card fills the array. -/
def cardMounts : MountTable := { noMounts with rootFsDev := "mmcblk0p10".toList }

theorem device_not_terminated :
    ¬ ∀ r' ∈ (inputLoop cardMounts "node".toList noFiles [openedRecord]).2,
      StringsSound (queueMonitor [.fileOpenClose]) openedHello.1 "node".toList
        "mmcblk0p10".toList r' := by
  intro sound
  have open_ : ∀ r' ∈ (inputLoop cardMounts "node".toList noFiles [openedRecord]).2,
      ¬ r'.device.Terminated := by decide
  exact open_ _ List.mem_cons_self (sound _ List.mem_cons_self).device.terminated

end IoMonitor
