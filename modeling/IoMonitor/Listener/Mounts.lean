import IoMonitor.Lib.SortedMap
import IoMonitor.Listener.Resolver
import Mathlib.Data.Char
import Mathlib.Data.List.Lex

/-!
The mount that `path_to_dev` picks.

The loop takes the first key, in string order, at the start of the path. Of the
keys a path begins with that is the shortest, whether or not it ends where a
component of the path does, and the mount of the path is the longest that does.
`picks_mount_iff` says where that makes a difference.
-/

namespace IoMonitor.Listener

open CString IoMonitor SortedMap

/-- The path is the mount point or lies below it. -/
def Under (mount path : Str) : Prop := path = mount ∨ mount ++ ['/'] <+: path

instance (mount path : Str) : Decidable (Under mount path) := by unfold Under; infer_instance

theorem Under.begins {mount path : Str} (h : Under mount path) : mount <+: path := by
  rcases h with rfl | below
  · exact List.prefix_rfl
  · exact (List.prefix_append mount ['/']).trans below

/-- An absolute path other than `/`, without a slash at its end. -/
structure IsMountPoint (mount : Str) : Prop where
  absolute : mount.head? = some '/'
  notRoot : mount ≠ ['/']
  noSlash : mount.getLast? ≠ some '/'

namespace MountTable

@[ext] theorem ext {a b : MountTable} (entries : a.entries = b.entries)
    (root : a.rootFsDev = b.rootFsDev) : a = b := by
  cases a
  cases b
  cases entries
  cases root
  rfl

theorem noEntries_sorted : ([] : List (Str × Str)).Pairwise fun a b => a.1 < b.1 :=
  List.Pairwise.nil

/-- The tables at start. -/
def empty : MountTable := ⟨[], noEntries_sorted, []⟩

/-- `fs_mount_path_to_dev[mount] = dev`. -/
def set (mounts : MountTable) (mount dev : Str) : MountTable where
  entries := insert mount dev mounts.entries
  sorted := Sorted.insert mounts.sorted
  rootFsDev := mounts.rootFsDev

theorem mem_set {mounts : MountTable} {mount dev : Str} {e : Str × Str} :
    e ∈ (mounts.set mount dev).entries ↔ e = (mount, dev) ∨ (e.1 ≠ mount ∧ e ∈ mounts.entries) :=
  mem_insert mounts.sorted

variable (mounts : MountTable) (path : Str)

/-- The entry of the mount that the path lies on. -/
def IsMountOf (e : Str × Str) : Prop :=
  e ∈ mounts.entries ∧ Under e.1 path ∧
    ∀ e' ∈ mounts.entries, Under e'.1 path → e'.1.length ≤ e.1.length

/-- The path lies on no mount but that of `/`. -/
def OnRoot : Prop := ∀ e ∈ mounts.entries, ¬ Under e.1 path

/-- The entry with the shortest key that the path begins with. -/
def IsShortest (e : Str × Str) : Prop :=
  e ∈ mounts.entries ∧ e.1 <+: path ∧ ∀ e' ∈ mounts.entries, e'.1 <+: path →
    e.1.length ≤ e'.1.length

/-- `path_to_dev` returns the device of the path's mount. -/
structure PicksMount : Prop where
  mount : ∀ e, mounts.IsMountOf path e → pathToDev mounts path = e.2
  root : mounts.OnRoot path → pathToDev mounts path = mounts.rootFsDev

/-- The path begins with a key shorter than its mount, of another device. -/
def Shadowed : Prop :=
  ∃ s e, mounts.IsShortest path s ∧ mounts.IsMountOf path e ∧ s.1.length < e.1.length ∧ s.2 ≠ e.2

/-- The path begins with a key, of another device than `/`, and lies on no mount. -/
def Mistaken : Prop :=
  ∃ s, mounts.IsShortest path s ∧ mounts.OnRoot path ∧ s.2 ≠ mounts.rootFsDev

end MountTable

section Picks

variable {mounts : MountTable} {path : Str}

/-- Among the keys a path begins with, string order is order of length. -/
theorem isShortest_iff {e : Str × Str} :
    mounts.IsShortest path e ↔ mounts.entries.find? (fun e => e.1.isPrefixOf path) = some e := by
  rw [find?_eq_some_iff mounts.sorted]
  simp only [List.isPrefixOf_iff_prefix, MountTable.IsShortest]
  refine and_congr_right fun _ => and_congr_right fun here => ?_
  refine forall_congr' fun e' => imp_congr_right fun _ => imp_congr_right fun there => ?_
  constructor
  · intro shorter
    exact not_lt.mp (List.prefix_of_prefix_length_le here there shorter).le
  · intro before
    by_contra longer
    have back := List.prefix_of_prefix_length_le there here (Nat.le_of_not_le longer)
    have same := le_antisymm before (not_lt.mp back.le)
    exact longer (congrArg List.length same).le

theorem pathToDev_shortest {e : Str × Str} (h : mounts.IsShortest path e) :
    pathToDev mounts path = e.2 := by
  unfold pathToDev
  rw [isShortest_iff.mp h]

theorem pathToDev_noKey (h : ∀ e ∈ mounts.entries, ¬ e.1 <+: path) :
    pathToDev mounts path = mounts.rootFsDev := by
  have notFound : mounts.entries.find? (fun e => e.1.isPrefixOf path) = none :=
    List.find?_eq_none.mpr fun e he => by simpa using h e he
  unfold pathToDev
  rw [notFound]

theorem exists_shortest {e : Str × Str} (he : e ∈ mounts.entries) (here : e.1 <+: path) :
    ∃ s, mounts.IsShortest path s := by
  cases found : mounts.entries.find? (fun e => e.1.isPrefixOf path) with
  | some s => exact ⟨s, isShortest_iff.mpr found⟩
  | none => exact absurd (List.isPrefixOf_iff_prefix.mpr here) (List.find?_eq_none.mp found e he)

/-- **Mounts.** `path_to_dev` returns the device of the longest key that is the path
or a directory above it, or that of the root file system if there is none, iff no
shorter key, or key without a mount, that the path begins with is of another device. -/
theorem picks_mount_iff (mounts : MountTable) (path : Str) :
    mounts.PicksMount path ↔ ¬ mounts.Shadowed path ∧ ¬ mounts.Mistaken path := by
  constructor
  · intro picks
    constructor
    · rintro ⟨s, e, shortest, mount, -, other⟩
      exact other ((pathToDev_shortest shortest).symm.trans (picks.mount e mount))
    · rintro ⟨s, shortest, onRoot, other⟩
      exact other ((pathToDev_shortest shortest).symm.trans (picks.root onRoot))
  · rintro ⟨notShadowed, notMistaken⟩
    constructor
    · intro e mount
      obtain ⟨s, shortest⟩ := exists_shortest mount.1 mount.2.1.begins
      rw [pathToDev_shortest shortest]
      by_contra other
      refine notShadowed ⟨s, e, shortest, mount, ?_, other⟩
      have here := mount.2.1.begins
      have notLonger := shortest.2.2 e mount.1 here
      refine lt_of_le_of_ne notLonger fun length => other ?_
      -- two keys of one length are one key
      have same := (List.prefix_of_prefix_length_le shortest.2.1 here notLonger).eq_of_length length
      exact Sorted.unique mounts.sorted shortest.1 (same ▸ mount.1)
    · intro onRoot
      by_cases key : ∃ e ∈ mounts.entries, e.1 <+: path
      · obtain ⟨e, he, here⟩ := key
        obtain ⟨s, shortest⟩ := exists_shortest he here
        rw [pathToDev_shortest shortest]
        by_contra other
        exact notMistaken ⟨s, shortest, onRoot, other⟩
      · exact pathToDev_noKey fun e he here => key ⟨e, he, here⟩

end Picks

/-! Two directories of `/` with names that begin alike. -/

def siblings : MountTable :=
  (MountTable.empty.set "/data".toList "sda1".toList).set "/database".toList "sdb1".toList

/-- A file on `/database` is taken to be on `/data`. -/
theorem sibling_mount_missed :
    ¬ ∀ mounts path, (∀ e ∈ MountTable.entries mounts, IsMountPoint e.1) →
      path.head? = some '/' → mounts.PicksMount path := by
  intro picks
  have points : ∀ e ∈ siblings.entries, IsMountPoint e.1 := by
    intro e he
    rcases MountTable.mem_set.mp he with rfl | ⟨-, he⟩
    · exact ⟨rfl, by decide, by decide⟩
    · rcases MountTable.mem_set.mp he with rfl | ⟨-, he⟩
      · exact ⟨rfl, by decide, by decide⟩
      · cases he
  have mount : siblings.IsMountOf "/database/x".toList ("/database".toList, "sdb1".toList) := by
    unfold MountTable.IsMountOf
    decide
  have picked := (picks siblings "/database/x".toList points rfl).mount _ mount
  revert picked
  decide

end IoMonitor.Listener
