import IoMonitor.Record
import IoMonitor.Lib.KeyedStore

/-!
The listener's device resolver and the dispatch loop around it.

`fd_to_dev` is one table for the whole listener, keyed by descriptor number
alone. `dispatch` is the body of `input_loop` that keeps the table and stamps
the record's device; `update` says what a record does to the table, so that the
table after any stream is a `KeyedStore.replay` (`inputLoop_table`).
-/

namespace IoMonitor.Listener

open CString IoMonitor

/-- `fs_mount_path_to_dev`, a `std::map` in key order, and `root_fs_dev`. -/
structure MountTable where
  entries : List (Str × Str)
  sorted : entries.Pairwise fun a b => a.1 < b.1
  rootFsDev : Str

abbrev FdTable := Int → Option Str

/-- The table at start: no descriptor is known. -/
def noFiles : FdTable := fun _ => none

/-- The first mount point, in key order, that `compare(0, size, mount)` finds at
the start of the path. -/
def pathToDev (mounts : MountTable) (path : Str) : Str :=
  match mounts.entries.find? fun e => e.1.isPrefixOf path with
  | some e => e.2
  | none => mounts.rootFsDev

/-- The C string at `rec->s1`. Without a NUL of its own it runs on into `s2`. -/
def path (r : MonitorRecord) : Str :=
  if r.s1.Terminated then r.s1.chars else r.s1.chars ++ r.s2.chars

def registerFile (mounts : MountTable) (r : MonitorRecord) (t : FdTable) : FdTable :=
  if r.fd ≠ FD_NONE ∧ 0 < (path r).length then
    Function.update t r.fd (some (pathToDev mounts (path r)))
  else t

def deregisterFile (r : MonitorRecord) (t : FdTable) : FdTable :=
  if r.fd ≠ FD_NONE then Function.update t r.fd none else t

def resolveFile (t : FdTable) (r : MonitorRecord) : MonitorRecord :=
  if r.fd ≠ FD_NONE then
    match t r.fd with
    | some dev => { r with device := strncpy DEVICE_LEN dev }
    | none => r
  else r

/-- The domains, besides opens and closes, whose records are resolved. -/
def resolvedDomains : List DomainType := [.fileRead, .fileWrite, .fileMetadata, .fileSpace, .syncs]

/-- The dispatch of `input_loop` on one record. -/
def dispatch (mounts : MountTable) (t : FdTable) (r : MonitorRecord) : FdTable × MonitorRecord :=
  if r.domType = DomainType.fileOpenClose.code then
    if r.opType = OpType.opens.code then
      let t' := registerFile mounts r t
      (t', resolveFile t' r)
    else if r.opType = OpType.close.code then
      let r' := resolveFile t r
      (deregisterFile r' t, r')
    else (t, r)
  else if r.domType ∈ resolvedDomains.map DomainType.code then (t, resolveFile t r)
  else (t, r)

/-- `input_loop` on the messages received so far: the table, and the records in
the order they are passed to `execute_plugin_chain`. -/
def inputLoop (mounts : MountTable) (hostname : Str) :
    FdTable → List MonitorRecord → FdTable × List MonitorRecord
  | t, [] => (t, [])
  | t, r :: rs =>
      let (t', r') := dispatch mounts t { r with hostname := strncpy HOSTNAME_LEN hostname }
      let (t'', out) := inputLoop mounts hostname t' rs
      (t'', r' :: out)

/-! ### What a record does to the table -/

def IsOpen (r : MonitorRecord) : Prop :=
  r.domType = DomainType.fileOpenClose.code ∧ r.opType = OpType.opens.code

def IsClose (r : MonitorRecord) : Prop :=
  r.domType = DomainType.fileOpenClose.code ∧ r.opType = OpType.close.code

instance (r : MonitorRecord) : Decidable (IsOpen r) := by unfold IsOpen; infer_instance

instance (r : MonitorRecord) : Decidable (IsClose r) := by unfold IsClose; infer_instance

/-- The entry a record sets or erases, if any. -/
def update (mounts : MountTable) (r : MonitorRecord) : Option (Int × Option Str) :=
  if r.fd = FD_NONE then none
  else if IsOpen r then
    if 0 < (path r).length then some (r.fd, some (pathToDev mounts (path r))) else none
  else if IsClose r then some (r.fd, none)
  else none

theorem resolveFile_fd (t : FdTable) (r : MonitorRecord) : (resolveFile t r).fd = r.fd := by
  unfold resolveFile
  split
  · split <;> rfl
  · rfl

theorem close_code_ne_opens : OpType.close.code ≠ OpType.opens.code := by decide

theorem dispatch_table (mounts : MountTable) (t : FdTable) (r : MonitorRecord) :
    (dispatch mounts t r).1 = KeyedStore.apply (update mounts) t r := by
  unfold dispatch KeyedStore.apply update registerFile deregisterFile IsOpen IsClose
  by_cases dom : r.domType = DomainType.fileOpenClose.code
  · by_cases opens : r.opType = OpType.opens.code
    · by_cases fd : r.fd = FD_NONE <;> by_cases nonempty : 0 < (path r).length <;>
        simp [dom, opens, fd, nonempty]
    · by_cases close : r.opType = OpType.close.code
      · by_cases fd : r.fd = FD_NONE <;>
          simp [dom, close, fd, close_code_ne_opens, resolveFile_fd]
      · simp [dom, opens, close]
  · by_cases resolved : r.domType ∈ resolvedDomains.map DomainType.code <;>
      simp [dom, resolved]

theorem inputLoop_table (mounts : MountTable) (hostname : Str) (t : FdTable)
    (rs : List MonitorRecord) :
    (inputLoop mounts hostname t rs).1 = KeyedStore.replay (update mounts) t rs := by
  induction rs generalizing t with
  | nil => rfl
  | cons r rs ih =>
      simp only [inputLoop, KeyedStore.replay_cons]
      rw [ih, dispatch_table]
      rfl

theorem inputLoop_append (mounts : MountTable) (hostname : Str) (t : FdTable)
    (xs ys : List MonitorRecord) :
    (inputLoop mounts hostname t (xs ++ ys)).2 =
      (inputLoop mounts hostname t xs).2 ++
        (inputLoop mounts hostname (KeyedStore.replay (update mounts) t xs) ys).2 := by
  induction xs generalizing t with
  | nil => rfl
  | cons x xs ih =>
      simp only [List.cons_append, inputLoop, KeyedStore.replay_cons]
      rw [ih, dispatch_table]
      rfl

@[simp] theorem inputLoop_length (mounts : MountTable) (hostname : Str) (t : FdTable)
    (rs : List MonitorRecord) : (inputLoop mounts hostname t rs).2.length = rs.length := by
  induction rs generalizing t with
  | nil => rfl
  | cons r rs ih => simp [inputLoop, ih]

/-- The record at a position of the stream, as the plugins see it: dispatched on
the table its predecessors left. -/
theorem inputLoop_getElem? (mounts : MountTable) (hostname : Str) (t : FdTable)
    (before after : List MonitorRecord) (r : MonitorRecord) :
    (inputLoop mounts hostname t (before ++ r :: after)).2[before.length]? =
      some (dispatch mounts (KeyedStore.replay (update mounts) t before)
        { r with hostname := strncpy HOSTNAME_LEN hostname }).2 := by
  rw [inputLoop_append, List.getElem?_append_right (by simp)]
  simp [inputLoop]

end IoMonitor.Listener
