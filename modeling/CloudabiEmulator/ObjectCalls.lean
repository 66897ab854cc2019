import CloudabiEmulator.TableOps

/-! The system calls that reach an object only through `fd_object_get`: each takes a reference
to the object of a descriptor with the rights it needs, hands the host descriptor to one host
call and releases the reference (`fdObjectCall`). What differs is what each checks of its
arguments before the lookup and which rights it asks for: `sys_fd_seek` asks for less to report
the position, `sys_file_stat_fput` for one of two rights by its flags, `sys_mem_map` for none.
Also `sys_fd_stat_get`, which reads the entry under the lock instead, and the two flag
translations of the `fdstat` calls. The host's answers are arguments; where the call computes
what it hands the host (a flag word, two times), the answer is a function of it. -/

namespace CloudabiEmulator

/-- `sys_fd_sync`. -/
def sysFdSync (m : RightsMasks) (sys : Sys) (fd : Nat) (fsync : Except Errno Unit) :
    Except Fault (Sys × Except Errno Unit) :=
  fdObjectCall sys fd m.fdSync fun _ => fsync

/-- `sys_fd_read`: `readv` is the number of bytes read, or the host's error. -/
def sysFdRead (m : RightsMasks) (sys : Sys) (fd : Nat) (readv : Except Errno Nat) :
    Except Fault (Sys × Except Errno Nat) :=
  fdObjectCall sys fd m.fdRead fun _ => readv

/-- `sys_fd_write`. -/
def sysFdWrite (m : RightsMasks) (sys : Sys) (fd : Nat) (writev : Except Errno Nat) :
    Except Fault (Sys × Except Errno Nat) :=
  fdObjectCall sys fd m.fdWrite fun _ => writev

/-- `sys_fd_pread` in a build with `preadv`: an empty vector is rejected before the lookup. -/
def sysFdPread (m : RightsMasks) (sys : Sys) (fd iovcnt : Nat) (preadv : Except Errno Nat) :
    Except Fault (Sys × Except Errno Nat) :=
  if iovcnt = 0 then .ok (sys, .error .einval)
  else fdObjectCall sys fd (m.fdRead ||| m.fdSeek) fun _ => preadv

/-- `sys_fd_pwrite` in a build with `pwritev`. -/
def sysFdPwrite (m : RightsMasks) (sys : Sys) (fd iovcnt : Nat) (pwritev : Except Errno Nat) :
    Except Fault (Sys × Except Errno Nat) :=
  if iovcnt = 0 then .ok (sys, .error .einval)
  else fdObjectCall sys fd (m.fdWrite ||| m.fdSeek) fun _ => pwritev

/-- `cloudabi_whence_t`: `CLOUDABI_WHENCE_CUR`, `_END`, `_SET`, or any other value. -/
inductive Whence where
  | cur | «end» | set | other
  deriving DecidableEq, Repr

/-- `sys_fd_seek`: reporting the position (`offset == 0` from `CLOUDABI_WHENCE_CUR`) needs only
`FD_TELL`; every other seek needs `FD_SEEK | FD_TELL`. -/
def sysFdSeek (m : RightsMasks) (sys : Sys) (fd : Nat) (offset : Int) (whence : Whence)
    (lseek : Except Errno Nat) : Except Fault (Sys × Except Errno Nat) :=
  if whence = .other then .ok (sys, .error .einval)
  else
    fdObjectCall sys fd (if offset = 0 ∧ whence = .cur then m.fdTell else m.fdSeek ||| m.fdTell)
      fun _ => lseek

/-- `cloudabi_advice_t`: the six advices, or any other value. -/
inductive Advice where
  | dontneed | noreuse | normal | random | sequential | willneed | other
  deriving DecidableEq, Repr

/-- `sys_file_advise` in a build with `posix_fadvise`. -/
def sysFileAdvise (m : RightsMasks) (sys : Sys) (fd : Nat) (advice : Advice)
    (posixFadvise : Except Errno Unit) : Except Fault (Sys × Except Errno Unit) :=
  if advice = .other then .ok (sys, .error .einval)
  else fdObjectCall sys fd m.fileAdvise fun _ => posixFadvise

/-- `sys_file_allocate`: `posixFallocate` is what `posix_fallocate`, or the `fstat` and
`ftruncate` of a build without it, returns. -/
def sysFileAllocate (m : RightsMasks) (sys : Sys) (fd : Nat) (posixFallocate : Except Errno Unit) :
    Except Fault (Sys × Except Errno Unit) :=
  fdObjectCall sys fd m.fileAllocate fun _ => posixFallocate

/-- `sys_file_stat_fget`: what `fstat` reports, as `convert_stat` writes it (`σ`), with the file
type taken from the object. -/
def sysFileStatFget {σ : Type} (m : RightsMasks) (sys : Sys) (fd : Nat) (fstat : Except Errno σ) :
    Except Fault (Sys × Except Errno (FileType × σ)) :=
  fdObjectCall sys fd m.fileStatFget fun type => fstat.map fun st => (type, st)

/-- The bits of `cloudabi_fsflags_t` (`CLOUDABI_FILESTAT_ATIM`, `_ATIM_NOW`, `_MTIM`,
`_MTIM_NOW`, `_SIZE`), and whether any other bit is set. -/
structure FsFlags where
  atim : Bool
  atimNow : Bool
  mtim : Bool
  mtimNow : Bool
  size : Bool
  other : Bool
  deriving DecidableEq, Repr

/-- One `struct timespec` of `futimens`: `UTIME_NOW`, `UTIME_OMIT`, or the time of a
`cloudabi_timestamp_t`. -/
inductive Utime where
  | now
  | omit
  | time (t : Nat)
  deriving DecidableEq, Repr

/-- `convert_utimens_arguments`: the access and modification times handed to `futimens`. -/
def convertUtimensArguments (atim mtim : Nat) (flags : FsFlags) : Utime × Utime :=
  (if flags.atimNow then .now else if flags.atim then .time atim else .omit,
    if flags.mtimNow then .now else if flags.mtim then .time mtim else .omit)

/-- `sys_file_stat_fput`: truncate when `SIZE` is the only bit, set the times when only time bits
are set. `atim` and `mtim` are `buf->st_atim` and `buf->st_mtim`. -/
def sysFileStatFput (m : RightsMasks) (sys : Sys) (fd atim mtim : Nat) (flags : FsFlags)
    (ftruncate : Except Errno Unit) (futimens : Utime × Utime → Except Errno Unit) :
    Except Fault (Sys × Except Errno Unit) :=
  if flags.size then
    if flags.atim || flags.atimNow || flags.mtim || flags.mtimNow || flags.other then
      .ok (sys, .error .einval)
    else fdObjectCall sys fd m.fileStatFputSize fun _ => ftruncate
  else if flags.atim || flags.atimNow || flags.mtim || flags.mtimNow then
    if flags.size || flags.other then .ok (sys, .error .einval)
    else
      fdObjectCall sys fd m.fileStatFputTimes fun _ =>
        futimens (convertUtimensArguments atim mtim flags)
  else .ok (sys, .error .einval)

/-- `cloudabi_fdflags_t`: `CLOUDABI_FDFLAG_APPEND`, `_DSYNC`, `_NONBLOCK`, `_RSYNC`, `_SYNC`. -/
structure FdFlags where
  append : Bool
  dsync : Bool
  nonblock : Bool
  rsync : Bool
  sync : Bool
  deriving DecidableEq, Repr

/-- The host's values of the `O_*` flags the descriptor flags translate to, `O_DSYNC` and
`O_RSYNC` being `none` on a host that does not define them (the code's `#ifdef`s). -/
structure HostConfig where
  oAppend : Nat
  oDsync : Option Nat
  oNonblock : Nat
  oRsync : Option Nat
  oSync : Nat
  deriving DecidableEq, Repr

/-- The values of Linux (`asm-generic/fcntl.h`): `O_SYNC` is `__O_SYNC | O_DSYNC`, and the C
library defines `O_RSYNC` as `O_SYNC`. -/
def linuxHost : HostConfig := ⟨0o2000, some 0o10000, 0o4000, some 0o4010000, 0o4010000⟩

/-- The word `noflags` that the `CLOUDABI_FDSTAT_FLAGS` branch of `sys_fd_stat_put` hands to
`F_SETFL`: a flag whose host value is missing becomes `O_SYNC`. -/
def statPutNoflags (cfg : HostConfig) (f : FdFlags) : Nat :=
  (if f.append then cfg.oAppend else 0) |||
    (if f.dsync then cfg.oDsync.getD cfg.oSync else 0) |||
    (if f.nonblock then cfg.oNonblock else 0) |||
    (if f.rsync then cfg.oRsync.getD cfg.oSync else 0) |||
    (if f.sync then cfg.oSync else 0)

/-- The flags `sys_fd_stat_get` reports for the word `ret` that `F_GETFL` returns: each flag
whose host value has a bit in common with `ret`. -/
def statGetFlags (cfg : HostConfig) (ret : Nat) : FdFlags where
  append := ret &&& cfg.oAppend != 0
  dsync := cfg.oDsync.any fun o => ret &&& o != 0
  nonblock := ret &&& cfg.oNonblock != 0
  rsync := cfg.oRsync.any fun o => ret &&& o != 0
  sync := ret &&& cfg.oSync != 0

/-- `cloudabi_fdstat_t`. -/
structure FdStat where
  fsFiletype : FileType
  fsFlags : FdFlags
  fsRightsBase : Rights
  fsRightsInheriting : Rights
  deriving DecidableEq, Repr

/-- The `CLOUDABI_FDSTAT_FLAGS` branch of `sys_fd_stat_put`. -/
def sysFdStatPutFlags (m : RightsMasks) (cfg : HostConfig) (sys : Sys) (fd : Nat)
    (fsFlags : FdFlags) (fcntl : Nat → Except Errno Unit) :
    Except Fault (Sys × Except Errno Unit) :=
  fdObjectCall sys fd m.fdStatPutFlags fun _ => fcntl (statPutNoflags cfg fsFlags)

/-- The bits of `cloudabi_mprot_t` (`CLOUDABI_PROT_READ`, `_WRITE`, `_EXEC`), and whether any
other bit is set. -/
structure MProt where
  read : Bool
  write : Bool
  exec : Bool
  other : Bool
  deriving DecidableEq, Repr

/-- `convert_mprot`: no unknown bit, and not both writable and executable. -/
def convertMprot (prot : MProt) : Bool :=
  !prot.other && !(prot.write && prot.exec)

/-- The bits of `cloudabi_mflags_t` that `sys_mem_map` tests: `CLOUDABI_MAP_ANON`, `_FIXED`,
`_PRIVATE`, `_SHARED`. -/
structure MFlags where
  anon : Bool
  fixed : Bool
  priv : Bool
  shared : Bool
  deriving DecidableEq, Repr

/-- `sys_mem_map`. An anonymous mapping must name `CLOUDABI_MAP_ANON_FD` (`anonFd`) at offset 0;
a mapping of a file takes a reference to its object asking for no right at all (the source
leaves the rights to be determined). -/
def sysMemMap (sys : Sys) (anonFd : Nat) (prot : MProt) (flags : MFlags) (fd off : Nat)
    (mmap : Except Errno Nat) : Except Fault (Sys × Except Errno Nat) :=
  if !convertMprot prot then .ok (sys, .error .enotsup)
  else if flags.priv = flags.shared then .ok (sys, .error .einval)
  else if flags.anon then
    if fd ≠ anonFd ∨ off ≠ 0 then .ok (sys, .error .einval) else .ok (sys, mmap)
  else fdObjectCall sys fd 0 fun _ => mmap

/-- The bits of `cloudabi_sdflags_t` (`CLOUDABI_SHUT_RD`, `_WR`), and whether any other bit is
set. -/
structure SdFlags where
  rd : Bool
  wr : Bool
  other : Bool
  deriving DecidableEq, Repr

/-- The host's `SHUT_RD`, `SHUT_WR`, `SHUT_RDWR`. -/
inductive ShutHow where
  | rd | wr | rdwr
  deriving DecidableEq, Repr

/-- `sys_sock_shutdown`. -/
def sysSockShutdown (m : RightsMasks) (sys : Sys) (sock : Nat) (how : SdFlags)
    (shutdown : ShutHow → Except Errno Unit) : Except Fault (Sys × Except Errno Unit) :=
  let nhow : Option ShutHow :=
    match how with
    | ⟨true, false, false⟩ => some .rd
    | ⟨false, true, false⟩ => some .wr
    | ⟨true, true, false⟩ => some .rdwr
    | _ => none
  match nhow with
  | none => .ok (sys, .error .einval)
  | some nhow => fdObjectCall sys sock m.sockShutdown fun _ => shutdown nhow

/-- The calls that reach an object through `fd_object_get`, each with its arguments and the
host's answers. -/
inductive ObjectCall where
  | fdDatasync (fd : Nat) (fdatasync : Except Errno Unit)
  | fdSync (fd : Nat) (fsync : Except Errno Unit)
  | fdRead (fd : Nat) (readv : Except Errno Nat)
  | fdWrite (fd : Nat) (writev : Except Errno Nat)
  | fdPread (fd iovcnt : Nat) (preadv : Except Errno Nat)
  | fdPwrite (fd iovcnt : Nat) (pwritev : Except Errno Nat)
  | fdSeek (fd : Nat) (offset : Int) (whence : Whence) (lseek : Except Errno Nat)
  | fdStatPutFlags (cfg : HostConfig) (fd : Nat) (fsFlags : FdFlags)
      (fcntl : Nat → Except Errno Unit)
  | fileAdvise (fd : Nat) (advice : Advice) (posixFadvise : Except Errno Unit)
  | fileAllocate (fd : Nat) (posixFallocate : Except Errno Unit)
  | fileStatFget (fd : Nat) (fstat : Except Errno Unit)
  | fileStatFput (fd atim mtim : Nat) (flags : FsFlags) (ftruncate : Except Errno Unit)
      (futimens : Utime × Utime → Except Errno Unit)
  | memMap (anonFd : Nat) (prot : MProt) (flags : MFlags) (fd off : Nat) (mmap : Except Errno Nat)
  | sockShutdown (sock : Nat) (how : SdFlags) (shutdown : ShutHow → Except Errno Unit)

namespace ObjectCall

/-- The process state a call leaves, or its fault. -/
def run (m : RightsMasks) (sys : Sys) : ObjectCall → Except Fault Sys
  | fdDatasync fd fdatasync => (sysFdDatasync m sys fd fdatasync).map Prod.fst
  | fdSync fd fsync => (sysFdSync m sys fd fsync).map Prod.fst
  | fdRead fd readv => (sysFdRead m sys fd readv).map Prod.fst
  | fdWrite fd writev => (sysFdWrite m sys fd writev).map Prod.fst
  | fdPread fd iovcnt preadv => (sysFdPread m sys fd iovcnt preadv).map Prod.fst
  | fdPwrite fd iovcnt pwritev => (sysFdPwrite m sys fd iovcnt pwritev).map Prod.fst
  | fdSeek fd offset whence lseek => (sysFdSeek m sys fd offset whence lseek).map Prod.fst
  | fdStatPutFlags cfg fd fsFlags fcntl =>
    (sysFdStatPutFlags m cfg sys fd fsFlags fcntl).map Prod.fst
  | fileAdvise fd advice posixFadvise => (sysFileAdvise m sys fd advice posixFadvise).map Prod.fst
  | fileAllocate fd posixFallocate => (sysFileAllocate m sys fd posixFallocate).map Prod.fst
  | fileStatFget fd fstat => (sysFileStatFget m sys fd fstat).map Prod.fst
  | fileStatFput fd atim mtim flags ftruncate futimens =>
    (sysFileStatFput m sys fd atim mtim flags ftruncate futimens).map Prod.fst
  | memMap anonFd prot flags fd off mmap => (sysMemMap sys anonFd prot flags fd off mmap).map Prod.fst
  | sockShutdown sock how shutdown => (sysSockShutdown m sys sock how shutdown).map Prod.fst

/-- Every call rejects its arguments with the process untouched, or is one `fdObjectCall`. -/
theorem shape (m : RightsMasks) (sys : Sys) (c : ObjectCall) :
    c.run m sys = .ok sys ∨ ∃ (α : Type) (fd : Nat) (rightsBase : Rights)
      (host : FileType → Except Errno α), c.run m sys = (fdObjectCall sys fd rightsBase host).map
        Prod.fst := by
  cases c <;> simp only [run, sysFdDatasync, sysFdSync, sysFdRead, sysFdWrite, sysFdPread,
    sysFdPwrite, sysFdSeek, sysFdStatPutFlags, sysFileAdvise, sysFileAllocate, sysFileStatFget,
    sysFileStatFput, sysMemMap, sysSockShutdown] <;> repeat' split
  all_goals first | exact .inl rfl | exact .inr ⟨_, _, _, _, rfl⟩

end ObjectCall

end CloudabiEmulator
