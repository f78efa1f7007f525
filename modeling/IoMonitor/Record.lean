import IoMonitor.Lib.CString
import IoMonitor.Lib.Floats
import Mathlib.Algebra.Group.Nat.Defs
import Mathlib.Algebra.Ring.Int.Defs

/-!
The monitor record: what the interposed library sends and the listener reads.

`DomainType` and `OpType` list the enumerators of `domains.h` and `ops.h` in
declaration order, so that `code` is the enumerator's value. A record's
`domType` and `opType` are plain `int`s, as in `monitor_record.h`: a queue can
carry any value.
-/

namespace IoMonitor

open CString

inductive DomainType where
  | links | xattrs | dirs | fileSystems | fileDescriptors | syncs | sockets | seeks
  | fileSpace | processes | fileMetadata | fileWrite | fileRead | fileOpenClose | misc
  | dirMetadata
  -- not tied to a function call
  | startStop | http | threads
  deriving DecidableEq, Repr

inductive OpType where
  | opens | close | write | read | sync | seek | rename | link | unlink | fcntl | dup | stat
  | access | chmod | chown | flock | readlink | utime | getxattr | setxattr | listxattr
  | removexattr | mount | umount | fork | mknod | mkdir | rmdir | chdir | chroot | socket
  | flush | allocate | truncate | opendir | closedir | readdir | seekdir | telldir | rewinddir
  | scandir | connect | accept | listen | bind | exec | kill
  -- not associated with a function
  | start | stop | httpReqSend | httpReqRecv | httpRespSend | httpRespRecv
  | httpRespFiniSend | httpRespFiniRecv
  | mutexLock | mutexUnlock | mutexInit | mutexDestroy | threadCreate
  | condWait | condSignal | condBroadcast
  deriving DecidableEq, Repr

/-- The value of the enumerator. -/
def DomainType.code (d : DomainType) : Int := d.ctorIdx

def OpType.code (o : OpType) : Int := o.ctorIdx

def STR_LEN : Nat := 256
def HOSTNAME_LEN : Nat := 64
def DEVICE_LEN : Nat := 10
def PATH_MAX : Nat := 4096
def FD_NONE : Int := -1

/-- Conversion to `int` and to `size_t`. -/
def toInt (x : Int) : Int := x.bmod (2 ^ 32)

def toSize (x : Int) : Int := x % 2 ^ 64

theorem toInt_of_int {x : Int} (low : -2 ^ 31 ≤ x) (high : x < 2 ^ 31) : toInt x = x := by
  have modulus : ((2 ^ 32 : Nat) : Int) = 4294967296 := rfl
  rw [toInt, Int.bmod_eq_iff (by decide), modulus]
  omega

/-- What `%d` and `%zu` print. -/
def decimal (n : Int) : Str := (toString n).toList

/-- `struct monitor_record_t`. -/
structure MonitorRecord where
  facility : CharArray STR_LEN
  hostname : CharArray HOSTNAME_LEN
  device : CharArray DEVICE_LEN
  timestamp : Int
  elapsedTime : Float32
  pid : Int
  domType : Int
  opType : Int
  errorCode : Int
  fd : Int
  bytesTransferred : Int
  s1 : CharArray PATH_MAX
  s2 : CharArray STR_LEN
  deriving DecidableEq

/-- `sizeof(struct monitor_record_t)`: 330 bytes of names padded to 332, seven
4-byte fields, an 8-byte `size_t` at 360, and the two strings. -/
def recordLength : Int := 4720

/-- A record of zero bytes. -/
def MonitorRecord.zero : MonitorRecord where
  facility := .zero _
  hostname := .zero _
  device := .zero _
  timestamp := 0
  elapsedTime := 0
  pid := 0
  domType := 0
  opType := 0
  errorCode := 0
  fd := 0
  bytesTransferred := 0
  s1 := .zero _
  s2 := .zero _

end IoMonitor
