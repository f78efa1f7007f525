import IoMonitor.Record

/-!
The generated name tables, and lists of domain names.

`enum_to_strings.sh` turns each enumerator of `domains.h` and `ops.h`, but for the
closing `END_…`, into an entry of `domains_names` and `ops_names`.
-/

namespace IoMonitor

open CString

def domainsNames : List Str :=
  ["LINKS", "XATTRS", "DIRS", "FILE_SYSTEMS", "FILE_DESCRIPTORS", "SYNCS", "SOCKETS", "SEEKS",
    "FILE_SPACE", "PROCESSES", "FILE_METADATA", "FILE_WRITE", "FILE_READ", "FILE_OPEN_CLOSE",
    "MISC", "DIR_METADATA", "START_STOP", "HTTP", "THREADS"].map String.toList

def opsNames : List Str :=
  ["OPEN", "CLOSE", "WRITE", "READ", "SYNC", "SEEK", "RENAME", "LINK", "UNLINK", "FCNTL", "DUP",
    "STAT", "ACCESS", "CHMOD", "CHOWN", "FLOCK", "READLINK", "UTIME", "GETXATTR", "SETXATTR",
    "LISTXATTR", "REMOVEXATTR", "MOUNT", "UMOUNT", "FORK", "MKNOD", "MKDIR", "RMDIR", "CHDIR",
    "CHROOT", "SOCKET", "FLUSH", "ALLOCATE", "TRUNCATE", "OPENDIR", "CLOSEDIR", "READDIR",
    "SEEKDIR", "TELLDIR", "REWINDDIR", "SCANDIR", "CONNECT", "ACCEPT", "LISTEN", "BIND", "EXEC",
    "KILL", "START", "STOP", "HTTP_REQ_SEND", "HTTP_REQ_RECV", "HTTP_RESP_SEND",
    "HTTP_RESP_RECV", "HTTP_RESP_FINI_SEND", "HTTP_RESP_FINI_RECV", "MUTEX_LOCK",
    "MUTEX_UNLOCK", "MUTEX_INIT", "MUTEX_DESTROY", "THREAD_CREATE", "COND_WAIT", "COND_SIGNAL",
    "COND_BROADCAST"].map String.toList

/-- `domains_names[d]`. -/
def DomainType.name (d : DomainType) : Str := domainsNames.getD d.ctorIdx []

def OpType.name (o : OpType) : Str := opsNames.getD o.ctorIdx []

/-- `domains_names[i]` and `ops_names[i]`; past the table there is no string. -/
def nameAt (names : List Str) (i : Int) : Option Str :=
  if 0 ≤ i then names[i.toNat]? else none

theorem nameAt_domain (d : DomainType) : nameAt domainsNames d.code = some d.name := by
  cases d <;> rfl

theorem nameAt_op (o : OpType) : nameAt opsNames o.code = some o.name := by
  cases o <;> rfl

theorem mem_of_nameAt {names : List Str} {i : Int} {s : Str} (h : nameAt names i = some s) :
    s ∈ names := by
  unfold nameAt at h
  split at h
  · exact List.mem_of_getElem? h
  · cases h

theorem DomainType.name_mem (d : DomainType) : d.name ∈ domainsNames :=
  mem_of_nameAt (nameAt_domain d)

theorem OpType.name_mem (o : OpType) : o.name ∈ opsNames := mem_of_nameAt (nameAt_op o)

/-- The body of the `strtok_r` loop: the bit of a name that is in the table, and
every bit for `ALL`. -/
def addDomain (mask : BitVec 32) (token : Str) : BitVec 32 :=
  let mask :=
    match domainsNames.findIdx? (· = token) with
    | some i => mask ||| 1#32 <<< i
    | none => mask
  if token = "ALL".toList then mask ||| ~~~0#32 else mask

def domainListToBitMask (domainList : Str) : BitVec 32 :=
  (strtok [','] [] domainList).foldl addDomain 0

example : domainListToBitMask "FILE_READ,,nothing,LINKS,FILE_READ".toList = 4097#32 := by decide

/-! ### Characters of numbers and names -/

theorem mem_decimal {n : Int} {c : Char} (h : c ∈ decimal n) : c.isDigit ∨ c = '-' := by
  have digits : ∀ {k : Nat}, c ∈ k.repr.toList → c.isDigit = true := by
    intro k mem
    rw [Nat.toList_repr] at mem
    exact Nat.isDigit_of_mem_toDigits (by decide) (by decide) mem
  rw [decimal, Int.toString_eq_repr, Int.repr_eq_if] at h
  split at h
  · exact .inl (digits h)
  · rw [String.toList_append, List.mem_append] at h
    rcases h with sign | mem
    · exact .inr (List.mem_singleton.mp sign)
    · exact .inl (digits mem)

theorem notMem_decimal (n : Int) {c : Char} (h : ¬ (c.isDigit ∨ c = '-')) : c ∉ decimal n :=
  fun mem => h (mem_decimal mem)

theorem decimal_ne_nil (n : Int) : decimal n ≠ [] := by
  rw [decimal, Int.toString_eq_repr, Int.repr_eq_if]
  split
  · rw [Nat.toList_repr]
    exact Nat.toDigits_ne_nil
  · simp

/-- An enumerator. -/
structure IsName (s : Str) : Prop where
  nonempty : s ≠ []
  letters : ∀ c ∈ s, c.isUpper ∨ c = '_'

theorem isName_of_mem {names : List Str} {s : Str}
    (all : names.all fun s => s ≠ [] ∧ s.all fun c => c.isUpper ∨ c = '_') (mem : s ∈ names) :
    IsName s := by
  obtain ⟨nonempty, letters⟩ := of_decide_eq_true (List.all_eq_true.mp all s mem)
  exact ⟨nonempty, forall_mem_of_all letters⟩

theorem DomainType.isName (d : DomainType) : IsName d.name :=
  isName_of_mem (by decide) d.name_mem

theorem OpType.isName (o : OpType) : IsName o.name :=
  isName_of_mem (by decide) o.name_mem

theorem IsName.notMem {s : Str} (name : IsName s) {c : Char} (h : ¬ (c.isUpper ∨ c = '_')) :
    c ∉ s := fun mem => h (name.letters c mem)

/-- No number reads as a name. -/
theorem IsName.ne_decimal {s : Str} (name : IsName s) (n : Int) : s ≠ decimal n := by
  intro same
  obtain ⟨c, rest, head⟩ := List.exists_cons_of_ne_nil name.nonempty
  have mem : c ∈ s := head ▸ List.mem_cons_self
  have digit := mem_decimal (same ▸ mem)
  rcases name.letters c mem with upper | rfl
  · rcases digit with digit | rfl
    · have least : 'A'.val ≤ c.val := (of_decide_eq_true upper).1
      have most : c.val ≤ '9'.val := of_decide_eq_true (Bool.and_eq_true_iff.mp digit).2
      exact absurd (Nat.le_trans least most) (by decide)
    · exact absurd upper (by decide)
  · exact absurd digit (by decide)

end IoMonitor
