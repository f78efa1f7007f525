import IoMonitor.Record

/-!
The table of interposed functions and the generator's rules.

`monitoredFunctions` is `monitored_functions.data` row by row. A hook is the list
of its statements. `generate_interposer.sh` looks into the text of prototype and
hook to decide what a wrapper passes on, so a row keeps its prototype as text and
a hook statement says whether its own text mentions ` fd` or ` count`.
-/

namespace IoMonitor

open CString

/-! ### Rows -/

/-- The conditions under which a hook takes the error code from `errno`. -/
inductive ErrorTest where
  | isMinusOne | isNegative | isEof | isBelowNmemb | isNonzero | isNull
  deriving DecidableEq, Repr

/-- The statements of the `HOOK_AFTER` column. -/
inductive HookStmt where
  /-- `if (…) error_code = errno;` -/
  | setError (test : ErrorTest)
  /-- `int fd; if (result == NULL) … else …fileno(result)…` -/
  | openedFile
  /-- `int fd = FD_NONE; if (!result) … else fd = dirfd(result);` -/
  | openedDir
  /-- `check_for_http(…, fd, buf, count, …);` -/
  | checkForHttp (dom : DomainType)
  /-- `int fd = fileno(…);` -/
  | filenoStream
  /-- `int fd = dirfd(dirp);` -/
  | dirfdStream
  /-- `int fd = result;` -/
  | fdResult
  /-- `int count = size*nmemb;` -/
  | countProduct
  /-- `int count = size;` -/
  | countSize
  /-- `int count = result;` -/
  | countResult
  /-- `char path[200]=""; real_ip(addr, path);` -/
  | realIp
  /-- `if (result == 0) init();` -/
  | initInChild
  /-- `char tpid[10]; char tsig[10]; sprintf(…); sprintf(…);` -/
  | printPidAndSig
  deriving DecidableEq, Repr

structure Row where
  prototype : String
  domain : DomainType
  op : OpType
  s1 : String
  s2 : String
  hook : List HookStmt
  deriving DecidableEq, Repr

/-! ### What the generator reads off a row -/

/-- `grep -F`. -/
def mentions (pattern text : String) : Bool := strstr pattern.toList text.toList

def HookStmt.mentionsFd : HookStmt → Bool
  | .openedFile | .openedDir | .checkForHttp _ | .filenoStream | .dirfdStream | .fdResult => true
  | _ => false

def HookStmt.mentionsCount : HookStmt → Bool
  | .checkForHttp _ | .countProduct | .countSize | .countResult => true
  | _ => false

namespace Row

/-- The record carries the variable `fd`; otherwise `FD_NONE`. -/
def hasFd (row : Row) : Bool :=
  row.hook.any HookStmt.mentionsFd || mentions " fd" row.prototype

/-- The record carries the variable `count`; otherwise `ZERO_BYTES`. -/
def hasCount (row : Row) : Bool :=
  row.hook.any HookStmt.mentionsCount || mentions " count" row.prototype

def isVariadic (row : Row) : Bool := mentions "..." row.prototype

def isOpen (row : Row) : Bool := mentions "open" row.prototype

/-- The hook and the record come before the call. -/
def isExec (row : Row) : Bool := mentions "exec" row.prototype

def retAndName (row : Row) : Str := row.prototype.toList.takeWhile (· ≠ '(')

def name (row : Row) : Str := (row.retAndName.reverse.takeWhile (· ≠ ' ')).reverse

def ret (row : Row) : Str := (row.retAndName.reverse.dropWhile (· ≠ ' ')).reverse.dropLast

/-- The `orig_…` the wrapper calls: the `v…` variant for a variadic function
outside the open family. -/
def callee (row : Row) : Str :=
  if row.ret ≠ "void".toList ∧ row.isVariadic ∧ ¬row.isOpen then 'v' :: row.name else row.name

/-- `size_t` is not signed: no such result is below 0. -/
def isUnsigned (row : Row) : Bool := row.ret = "size_t".toList

end Row

/-! ### The table -/

def openRow : Row :=
  ⟨"int open(const char* pathname, int flags, ...)",
    .fileOpenClose, .opens, "pathname", "NULL", [.setError .isMinusOne]⟩

def open64Row : Row :=
  ⟨"int open64(const char* pathname, int flags, ...)",
    .fileOpenClose, .opens, "pathname", "NULL", [.setError .isMinusOne]⟩

def fopenRow : Row :=
  ⟨"FILE* fopen(const char* path, const char* mode)",
    .fileOpenClose, .opens, "path", "mode", [.openedFile]⟩

def fopen64Row : Row :=
  ⟨"FILE* fopen64(const char* path, const char* mode)",
    .fileOpenClose, .opens, "path", "mode", [.openedFile]⟩

def creatRow : Row :=
  ⟨"int creat(const char* pathname, mode_t mode)",
    .fileOpenClose, .opens, "pathname", "NULL", [.setError .isMinusOne]⟩

def creat64Row : Row :=
  ⟨"int creat64(const char* pathname, mode_t mode)",
    .fileOpenClose, .opens, "pathname", "NULL", [.setError .isMinusOne]⟩

def fcloseRow : Row :=
  ⟨"int fclose(FILE* fp)", .fileOpenClose, .close, "NULL", "NULL", [.setError .isMinusOne]⟩

def closeRow : Row :=
  ⟨"int close(int fd)", .fileOpenClose, .close, "NULL", "NULL", [.setError .isMinusOne]⟩

def openCloseRows : List Row :=
  [openRow, open64Row, fopenRow, fopen64Row, creatRow, creat64Row, fcloseRow, closeRow]

def readRows : List Row :=
  [⟨"ssize_t read(int fd, void* buf, size_t count)",
     .fileRead, .read, "NULL", "NULL", [.setError .isNegative, .checkForHttp .fileRead]⟩,
   ⟨"ssize_t recv(int fd, void* buf, size_t count, int flags)",
     .fileRead, .read, "NULL", "NULL", [.setError .isNegative, .checkForHttp .fileRead]⟩,
   ⟨"ssize_t pread(int fd, void* buf, size_t count, off_t offset)",
     .fileRead, .read, "NULL", "NULL", [.setError .isNegative]⟩,
   ⟨"ssize_t readv(int fd, const struct iovec* iov, int iovcnt)",
     .fileRead, .read, "NULL", "NULL", [.setError .isNegative]⟩,
   ⟨"ssize_t preadv(int fd, const struct iovec* iov, int iovcnt, off_t offset)",
     .fileRead, .read, "NULL", "NULL", [.setError .isNegative]⟩,
   ⟨"size_t fread(void* ptr, size_t size, size_t nmemb, FILE* stream)",
     .fileRead, .read, "NULL", "NULL", [.setError .isNegative, .filenoStream, .countProduct]⟩,
   ⟨"int fscanf(FILE* stream, const char* format, ...)",
     .fileRead, .read, "NULL", "NULL", [.setError .isEof, .filenoStream, .countResult]⟩,
   ⟨"int vfscanf(FILE* stream, const char* format, va_list ap)",
     .fileRead, .read, "NULL", "NULL", [.setError .isEof, .filenoStream, .countResult]⟩]

def writeRow : Row :=
  ⟨"ssize_t write(int fd, const void* buf, size_t count)",
    .fileWrite, .write, "NULL", "NULL", [.setError .isNegative, .checkForHttp .fileWrite]⟩

def writeRows : List Row :=
  [writeRow,
   ⟨"ssize_t send(int fd, const void* buf, size_t count, int flags)",
     .fileWrite, .write, "NULL", "NULL", [.setError .isNegative, .checkForHttp .fileWrite]⟩,
   ⟨"ssize_t pwrite(int fd, const void* buf, size_t count, off_t offset)",
     .fileWrite, .write, "NULL", "NULL", [.setError .isNegative]⟩,
   ⟨"ssize_t writev(int fd, const struct iovec* iov, int iovcnt)",
     .fileWrite, .write, "NULL", "NULL", [.setError .isNegative]⟩,
   ⟨"ssize_t pwritev(int fd, const struct iovec* iov, int iovcnt, off_t offset)",
     .fileWrite, .write, "NULL", "NULL", [.setError .isNegative]⟩,
   ⟨"int fprintf(FILE* stream, const char* format, ...)",
     .fileWrite, .write, "NULL", "NULL", [.setError .isNegative, .filenoStream, .countResult]⟩,
   ⟨"int vfprintf(FILE* stream, const char* format, va_list ap)",
     .fileWrite, .write, "NULL", "NULL", [.setError .isNegative, .filenoStream, .countResult]⟩,
   ⟨"size_t fwrite(const void* ptr, size_t size, size_t nmemb, FILE* stream)",
     .fileWrite, .write, "NULL", "NULL", [.setError .isBelowNmemb, .filenoStream, .countProduct]⟩]

def syncRows : List Row :=
  [⟨"int fsync(int fd)", .syncs, .sync, "NULL", "NULL", [.setError .isMinusOne]⟩,
   ⟨"int fdatasync(int fd)", .syncs, .sync, "NULL", "NULL", [.setError .isMinusOne]⟩,
   ⟨"void sync()", .syncs, .sync, "NULL", "NULL", []⟩,
   ⟨"int syncfs(int fd)", .syncs, .sync, "NULL", "NULL", [.setError .isMinusOne]⟩,
   ⟨"int fflush(FILE* fp)", .syncs, .flush, "NULL", "NULL", [.setError .isNonzero, .filenoStream]⟩]

def xattrRows : List Row :=
  [⟨"int setxattr(const char* path, const char* name, const void* value, size_t size, int flags)",
     .xattrs, .setxattr, "path", "name", [.countSize, .setError .isMinusOne]⟩,
   ⟨"int lsetxattr(const char* path, const char* name, const void* value, size_t size, int flags)",
     .xattrs, .setxattr, "path", "name", [.countSize, .setError .isMinusOne]⟩,
   ⟨"int fsetxattr(int fd, const char* name, const void* value, size_t size, int flags)",
     .xattrs, .setxattr, "name", "NULL", [.countSize, .setError .isMinusOne]⟩,
   ⟨"ssize_t getxattr(const char* path, const char* name, void* value, size_t size)",
     .xattrs, .getxattr, "path", "name", [.countResult, .setError .isMinusOne]⟩,
   ⟨"ssize_t lgetxattr(const char* path, const char* name, void* value, size_t size)",
     .xattrs, .getxattr, "path", "name", [.countResult, .setError .isMinusOne]⟩,
   ⟨"ssize_t fgetxattr(int fd, const char* name, void* value, size_t size)",
     .xattrs, .getxattr, "name", "NULL", [.countSize, .setError .isMinusOne]⟩,
   ⟨"ssize_t listxattr(const char* path, char* list, size_t size)",
     .xattrs, .listxattr, "path", "NULL", [.setError .isNegative]⟩,
   ⟨"ssize_t llistxattr(const char* path, char* list, size_t size)",
     .xattrs, .listxattr, "path", "NULL", [.setError .isNegative]⟩,
   ⟨"ssize_t flistxattr(int fd, char* list, size_t size)",
     .xattrs, .listxattr, "NULL", "NULL", [.setError .isNegative]⟩,
   ⟨"int removexattr(const char* path, const char* name)",
     .xattrs, .removexattr, "path", "NULL", [.setError .isNegative]⟩,
   ⟨"int lremovexattr(const char* path, const char* name)",
     .xattrs, .removexattr, "path", "NULL", [.setError .isNegative]⟩,
   ⟨"int fremovexattr(int fd, const char* name)",
     .xattrs, .removexattr, "NULL", "NULL", [.setError .isNegative]⟩]

def fileSystemRows : List Row :=
  [⟨"int mount(const char* source, const char* target, const char* filesystemtype, unsigned long mountflags, const void* data)",
     .fileSystems, .mount, "source", "target", [.setError .isNonzero]⟩,
   ⟨"int umount(const char* target)",
     .fileSystems, .umount, "target", "NULL", [.setError .isNonzero]⟩,
   ⟨"int umount2(const char* target, int flags)",
     .fileSystems, .umount, "target", "NULL", [.setError .isNonzero]⟩]

def dirMetadataRows : List Row :=
  [⟨"DIR* opendir(const char* name)", .dirMetadata, .opendir, "name", "NULL", [.openedDir]⟩,
   ⟨"DIR* fdopendir(int fd)", .dirMetadata, .opendir, "NULL", "NULL", [.setError .isNull]⟩,
   ⟨"int closedir(DIR* dirp)",
     .dirMetadata, .closedir, "NULL", "NULL", [.setError .isNonzero, .dirfdStream]⟩,
   ⟨"struct dirent* readdir(DIR* dirp)",
     .dirMetadata, .readdir, "NULL", "NULL", [.setError .isNull, .dirfdStream]⟩,
   ⟨"int readdir_r(DIR* dirp, struct dirent* entry, struct dirent** _res)",
     .dirMetadata, .readdir, "NULL", "NULL", [.setError .isNonzero, .dirfdStream]⟩,
   ⟨"void rewinddir(DIR* dirp)", .dirMetadata, .rewinddir, "NULL", "NULL", [.dirfdStream]⟩,
   ⟨"void seekdir(DIR* dirp, long loc)", .dirMetadata, .seekdir, "NULL", "NULL", [.dirfdStream]⟩,
   ⟨"long telldir(DIR* dirp)", .dirMetadata, .telldir, "NULL", "NULL", [.dirfdStream]⟩]

def fileMetadataRows : List Row :=
  [⟨"int fstat(int fd, struct stat* buf)",
     .fileMetadata, .stat, "NULL", "NULL", [.setError .isNonzero]⟩,
   ⟨"int lstat(const char* path, struct stat* buf)",
     .fileMetadata, .stat, "path", "NULL", [.setError .isNonzero]⟩,
   ⟨"int stat(const char* path, struct stat* buf)",
     .fileMetadata, .stat, "path", "NULL", [.setError .isNonzero]⟩,
   ⟨"int __lxstat(int v, const char* path, struct stat* buf)",
     .fileMetadata, .stat, "path", "NULL", [.setError .isNonzero]⟩,
   ⟨"int __xstat(int v, const char* path, struct stat* buf)",
     .fileMetadata, .stat, "path", "NULL", [.setError .isNonzero]⟩,
   ⟨"int __fxstat(int v, int fd, struct stat* buf)",
     .fileMetadata, .stat, "NULL", "NULL", [.setError .isNonzero]⟩,
   ⟨"int __lxstat64(int v, const char* path, struct stat64* buf)",
     .fileMetadata, .stat, "path", "NULL", [.setError .isNonzero]⟩,
   ⟨"int __xstat64(int v, const char* path, struct stat64* buf)",
     .fileMetadata, .stat, "path", "NULL", [.setError .isNonzero]⟩,
   ⟨"int __fxstat64(int v, int fd, struct stat64* buf)",
     .fileMetadata, .stat, "NULL", "NULL", [.setError .isNonzero]⟩,
   ⟨"int access(const char* path, int amode)",
     .fileMetadata, .access, "path", "NULL", [.setError .isNonzero]⟩,
   ⟨"int faccessat(int fd, const char* path, int mode, int flag)",
     .fileMetadata, .access, "path", "NULL", [.setError .isNonzero]⟩,
   ⟨"int chmod(const char* path, mode_t mode)",
     .fileMetadata, .chmod, "path", "NULL", [.setError .isNonzero]⟩,
   ⟨"int fchmod(int fd, mode_t mode)",
     .fileMetadata, .chmod, "NULL", "NULL", [.setError .isNonzero]⟩,
   ⟨"int fchmodat(int fd, const char* path, mode_t mode, int flag)",
     .fileMetadata, .chmod, "path", "NULL", [.setError .isNonzero]⟩,
   ⟨"int chown(const char* path, uid_t owner, gid_t group)",
     .fileMetadata, .chown, "path", "NULL", [.setError .isNonzero]⟩,
   ⟨"int lchown(const char* path, uid_t owner, gid_t group)",
     .fileMetadata, .chown, "path", "NULL", [.setError .isNonzero]⟩,
   ⟨"int fchown(int fd, uid_t owner, gid_t group)",
     .fileMetadata, .chown, "NULL", "NULL", [.setError .isNonzero]⟩,
   ⟨"int fchownat(int fd, const char* path, uid_t owner, gid_t group, int flag)",
     .fileMetadata, .chown, "path", "NULL", [.setError .isNonzero]⟩,
   ⟨"int utime(const char* path, const struct utimbuf* times)",
     .fileMetadata, .utime, "path", "NULL", [.setError .isNonzero]⟩,
   ⟨"int posix_fallocate(int fd, off_t offset, off_t len)",
     .fileMetadata, .allocate, "NULL", "NULL", [.setError .isNonzero]⟩,
   ⟨"int fallocate(int fd, int mode, off_t offset, off_t len)",
     .fileMetadata, .allocate, "NULL", "NULL", [.setError .isNonzero]⟩,
   ⟨"int truncate(const char* path, off_t length)",
     .fileMetadata, .truncate, "path", "NULL", [.setError .isNonzero]⟩,
   ⟨"int ftruncate(int fd, off_t length)",
     .fileMetadata, .truncate, "NULL", "NULL", [.setError .isNonzero]⟩]

def connectRow : Row :=
  ⟨"int connect(int fd, const struct sockaddr* addr, socklen_t addrlen)",
    .sockets, .connect, "path", "NULL", [.setError .isMinusOne, .realIp]⟩

def socketRow : Row :=
  ⟨"int socket(int domain, int type, int protocol)",
    .sockets, .socket, "NULL", "NULL", [.fdResult, .setError .isMinusOne]⟩

def socketRows : List Row :=
  [connectRow, socketRow,
   ⟨"int bind(int fd, const struct sockaddr* addr, socklen_t addrlen)",
     .sockets, .bind, "path", "NULL", [.setError .isMinusOne, .realIp]⟩]

def dirRows : List Row :=
  [⟨"int chdir(const char* path)", .dirs, .chdir, "path", "NULL", [.setError .isNonzero]⟩,
   ⟨"int fchdir(int fd)", .dirs, .chdir, "NULL", "NULL", [.setError .isNonzero]⟩,
   ⟨"int mkdir(const char* path, mode_t mode)",
     .dirs, .mkdir, "path", "NULL", [.setError .isNonzero]⟩,
   ⟨"int mkdirat(int fd, const char* path, mode_t mode)",
     .dirs, .mkdir, "path", "NULL", [.setError .isNonzero]⟩,
   ⟨"int rmdir(const char* path)", .dirs, .mkdir, "path", "NULL", [.setError .isNonzero]⟩]

def execlRow : Row :=
  ⟨"int execl(const char* path, const char* arg, ...)", .processes, .exec, "path", "arg", []⟩

def execlpRow : Row :=
  ⟨"int execlp(const char* file, const char* arg, ...)", .processes, .exec, "file", "arg", []⟩

def execleRow : Row :=
  ⟨"int execle(const char* path, const char* arg, ...)", .processes, .exec, "path", "arg", []⟩

def execvRow : Row :=
  ⟨"int execv(const char* path, char* const argv[])", .processes, .exec, "path", "NULL", []⟩

def execvpRow : Row :=
  ⟨"int execvp(const char* file, char* const argv[])", .processes, .exec, "file", "NULL", []⟩

def execvpeRow : Row :=
  ⟨"int execvpe(const char* file, char* const argv[], char* const envp[])",
    .processes, .exec, "file", "NULL", []⟩

def processRows : List Row :=
  [execlRow, execlpRow, execleRow, execvRow, execvpRow, execvpeRow,
   ⟨"int fork()", .processes, .fork, "NULL", "NULL", [.initInChild]⟩,
   ⟨"int kill(pid_t _pid, int _sig)", .processes, .kill, "tpid", "tsig", [.printPidAndSig]⟩]

def miscRows : List Row :=
  [⟨"int rename(const char* oldpath, const char* newpath)",
     .misc, .rename, "oldpath", "newpath", [.setError .isNonzero]⟩,
   ⟨"int flock(int fd, int operation)", .misc, .flock, "NULL", "NULL", [.setError .isNonzero]⟩,
   ⟨"int mknod(const char* pathname, mode_t mode, dev_t dev)",
     .misc, .mknod, "pathname", "NULL", [.setError .isNonzero]⟩,
   ⟨"int chroot(const char* path)", .misc, .chroot, "path", "NULL", [.setError .isNonzero]⟩]

def fileDescriptorRows : List Row :=
  [⟨"int dup(int oldfd)", .fileDescriptors, .dup, "NULL", "NULL", [.setError .isNonzero]⟩,
   ⟨"int dup2(int oldfd, int newfd)",
     .fileDescriptors, .dup, "NULL", "NULL", [.setError .isNonzero]⟩,
   ⟨"int dup3(int oldfd, int newfd, int flags)",
     .fileDescriptors, .dup, "NULL", "NULL", [.setError .isNonzero]⟩]

def linkRows : List Row :=
  [⟨"int unlink(const char* pathname)",
     .links, .unlink, "pathname", "NULL", [.setError .isNonzero]⟩,
   ⟨"int link(const char* oldpath, const char* newpath)",
     .links, .link, "oldpath", "newpath", [.setError .isNonzero]⟩,
   ⟨"ssize_t readlink(const char* path, char* buf, size_t bufsiz)",
     .links, .readlink, "path", "NULL", [.setError .isNonzero]⟩]

def threadRows : List Row :=
  [⟨"int pthread_mutex_unlock(pthread_mutex_t* mutex)",
     .threads, .mutexUnlock, "NULL", "NULL", [.setError .isNonzero]⟩,
   ⟨"int pthread_mutex_lock(pthread_mutex_t* mutex)",
     .threads, .mutexLock, "NULL", "NULL", [.setError .isNonzero]⟩,
   ⟨"int pthread_mutex_init(pthread_mutex_t* mutex, const pthread_mutexattr_t* attr)",
     .threads, .mutexInit, "NULL", "NULL", [.setError .isNonzero]⟩,
   ⟨"int pthread_mutex_destroy(pthread_mutex_t* mutex)",
     .threads, .mutexDestroy, "NULL", "NULL", [.setError .isNonzero]⟩,
   ⟨"int pthread_cond_signal(pthread_cond_t* cond)",
     .threads, .condSignal, "NULL", "NULL", [.setError .isNonzero]⟩,
   ⟨"int pthread_cond_broadcast(pthread_cond_t* cond)",
     .threads, .condBroadcast, "NULL", "NULL", [.setError .isNonzero]⟩,
   ⟨"int pthread_cond_wait(pthread_cond_t* cond, pthread_mutex_t* mutex)",
     .threads, .condWait, "NULL", "NULL", [.setError .isNonzero]⟩]

/-- The rows of `monitored_functions.data`, in file order. -/
def monitoredFunctions : List Row :=
  openCloseRows ++ readRows ++ writeRows ++ syncRows ++ xattrRows ++
    fileSystemRows ++ dirMetadataRows ++ fileMetadataRows ++ socketRows ++
    dirRows ++ processRows ++ miscRows ++ fileDescriptorRows ++
    linkRows ++ threadRows

/-! ### What holds of the whole table -/

example : (openCloseRows.map Row.hasFd) =
    [false, false, true, true, false, false, false, true] := by decide

/-- The statements that call out. -/
def HookStmt.callsOut : HookStmt → Bool
  | .checkForHttp _ | .filenoStream | .dirfdStream | .initInChild => true
  | _ => false

/-- No hook reads `errno` after a call of its own. -/
theorem monitoredFunctions_errno :
    ∀ row ∈ monitoredFunctions, ∀ test,
      .setError test ∉ row.hook.dropWhile fun stmt => !stmt.callsOut := by
  intro row hrow test
  cases test <;> revert row <;> decide

end IoMonitor
