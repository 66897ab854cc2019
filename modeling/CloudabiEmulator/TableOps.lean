import CloudabiEmulator.TableModel

/-! The operations of `posix.c` that change the descriptor table or the objects in it: the
`fd_table_insert*` family, `sys_fd_close`, `sys_fd_dup`, `sys_fd_replace`, the rights branch
of `sys_fd_stat_put`, `fd_object_get` with the shape of the calls that use it (`sys_fd_datasync`
here, the others in `ObjectCalls`), and the descriptor-creating calls with the rights they
install (`sys_fd_create1`, `sys_fd_create2`, the end of `sys_file_open` and the installation of
a received descriptor in `sys_sock_recv`). The host answers (`malloc`, `realloc`, the random
draws, `shm_open`, `socketpair`, `fdatasync`, what `fstat` and friends report) are arguments.
Each returns the new process state and the call's result, or a fault. -/

namespace CloudabiEmulator

/-- The critical section of `fd_table_insert`: grow the table, pick a free slot and attach `fo`
to it; `none` when `realloc` fails. -/
def fdTableInsertLocked (t : FdTable) (fo : Nat) (rightsBase rightsInheriting : Rights)
    (reallocOk : Bool) (draws : List Nat) : Except Fault (Option (FdTable × Nat)) :=
  match fdTableGrow t 0 1 reallocOk with
  | none => .ok none
  | some t => do
    let (fd, _) ← fdTableUnused t draws
    let t ← fdTableAttach t fd fo rightsBase rightsInheriting
    return some (t, fd)

/-- `fd_table_insert`: the table takes over the caller's reference to `fo`, which is released
after the lock when the table cannot grow. -/
def fdTableInsert (sys : Sys) (fo : Nat) (rightsBase rightsInheriting : Rights)
    (reallocOk : Bool) (draws : List Nat) : Except Fault (Sys × Except Errno Nat) := do
  match ← fdTableInsertLocked sys.table fo rightsBase rightsInheriting reallocOk draws with
  | none =>
    let sys ← fdObjectRelease sys fo
    return (sys, .error .enomem)
  | some (t, fd) => return ({ sys with table := t }, .ok fd)

/-- `fd_table_insert_fd`: wrap the host descriptor `nfd` in a new object and insert it. -/
def fdTableInsertFd (sys : Sys) (nfd : Int) (type : FileType) (rightsBase rightsInheriting : Rights)
    (mallocOk reallocOk : Bool) (draws : List Nat) : Except Fault (Sys × Except Errno Nat) :=
  match fdObjectNew sys type mallocOk with
  | .error e => .ok ({ sys with closed := sys.closed ++ [.close nfd] }, .error e)
  | .ok (sys, fo) =>
    fdTableInsert (sys.setNumber fo nfd) fo rightsBase rightsInheriting reallocOk draws

/-- The critical section of `fd_table_insert_fdpair`: grow the table by two, then attach `fo1`
and `fo2` to two slots picked one after the other; `none` when `realloc` fails. -/
def fdTableInsertFdpairLocked (t : FdTable) (fo1 fo2 : Nat)
    (rightsBase1 rightsBase2 rightsInheriting : Rights) (reallocOk : Bool) (draws : List Nat) :
    Except Fault (Option (FdTable × Nat × Nat)) :=
  match fdTableGrow t 0 2 reallocOk with
  | none => .ok none
  | some t => do
    let (fd1, draws) ← fdTableUnused t draws
    let t ← fdTableAttach t fd1 fo1 rightsBase1 rightsInheriting
    let (fd2, _) ← fdTableUnused t draws
    let t ← fdTableAttach t fd2 fo2 rightsBase2 rightsInheriting
    return some (t, fd1, fd2)

/-- `fd_table_insert_fdpair`: two new objects inserted in one critical section. -/
def fdTableInsertFdpair (sys : Sys) (nfd1 nfd2 : Int) (type : FileType)
    (rightsBase1 rightsBase2 rightsInheriting : Rights) (malloc1Ok malloc2Ok reallocOk : Bool)
    (draws : List Nat) : Except Fault (Sys × Except Errno (Nat × Nat)) :=
  match fdObjectNew sys type malloc1Ok with
  | .error e => .ok ({ sys with closed := sys.closed ++ [.close nfd1, .close nfd2] }, .error e)
  | .ok (sys, fo1) =>
    let sys := sys.setNumber fo1 nfd1
    match fdObjectNew sys type malloc2Ok with
    | .error e => do
      let sys ← fdObjectRelease sys fo1
      return ({ sys with closed := sys.closed ++ [.close nfd2] }, .error e)
    | .ok (sys, fo2) => do
      let sys := sys.setNumber fo2 nfd2
      match ← fdTableInsertFdpairLocked sys.table fo1 fo2 rightsBase1 rightsBase2
          rightsInheriting reallocOk draws with
      | none =>
        let sys ← fdObjectRelease sys fo1
        let sys ← fdObjectRelease sys fo2
        return (sys, .error .enomem)
      | some (t, fd1, fd2) => return ({ sys with table := t }, .ok (fd1, fd2))

/-- The critical section of `fd_table_insert_existing`: grow the table past `slot` and attach
`fo` there; `none` when `realloc` fails. -/
def fdTableInsertExistingLocked (t : FdTable) (slot fo : Nat) (rightsBase rightsInheriting : Rights)
    (reallocOk : Bool) : Except Fault (Option FdTable) :=
  match fdTableGrow t slot 1 reallocOk with
  | none => .ok none
  | some t => (fdTableAttach t slot fo rightsBase rightsInheriting).map some

/-- `fd_table_insert_existing`: install the host descriptor `out` at slot `slot`. -/
def fdTableInsertExisting (m : RightsMasks) (sys : Sys) (slot : Nat) (out : Int)
    (info : HostFdInfo) (mallocOk reallocOk : Bool) : Except Fault (Sys × Bool) :=
  match fdDetermineTypeRights m info with
  | .error _ => .ok (sys, false)
  | .ok (type, rightsBase, rightsInheriting) =>
    match fdObjectNew sys type mallocOk with
    | .error _ => .ok (sys, false)
    | .ok (sys, fo) => do
      let sys := sys.setNumber fo out
      match ← fdTableInsertExistingLocked sys.table slot fo rightsBase rightsInheriting
          reallocOk with
      | none =>
        let sys ← fdObjectRelease sys fo
        return (sys, false)
      | some t => return ({ sys with table := t }, true)

/-- The critical section of `sys_fd_close`: detach the object of `fd`. -/
def sysFdCloseLocked (t : FdTable) (fd : Nat) : Except Fault (Except Errno (FdTable × Nat)) :=
  match fdTableGetEntry t fd 0 0 with
  | .error e => .ok (.error e)
  | .ok _ => (fdTableDetach t fd).map .ok

/-- `sys_fd_close`: detach under the lock, release outside it. -/
def sysFdClose (sys : Sys) (fd : Nat) : Except Fault (Sys × Except Errno Unit) := do
  match ← sysFdCloseLocked sys.table fd with
  | .error e => return (sys, .error e)
  | .ok (t, fo) =>
    let sys ← fdObjectRelease { sys with table := t } fo
    return (sys, .ok ())

/-- `sys_fd_dup`. The entry `fe` of `from` is looked up before `fd_table_grow`; when the
table has to grow, `realloc` frees the array `fe` points into, and the later reads of
`fe->object` and its rights are reads of freed memory. -/
def sysFdDup (sys : Sys) (src : Nat) (reallocOk : Bool) (draws : List Nat) :
    Except Fault (Sys × Except Errno Nat) :=
  match fdTableGetEntry sys.table src 0 0 with
  | .error e => .ok (sys, .error e)
  | .ok fe =>
    match fdTableGrow sys.table 0 1 reallocOk with
    | none => .ok (sys, .error .enomem)
    | some t =>
      if t.size ≠ sys.table.size then .error .useAfterFree
      else do
        let (fd, _) ← fdTableUnused t draws
        let sys ← refcountAcquire { sys with table := t } (some fe.object)
        let t ← fdTableAttach sys.table fd fe.object fe.rightsBase fe.rightsInheriting
        return ({ sys with table := t }, .ok fd)

/-- The critical section of `sys_fd_replace`, which returns the object detached from `to`.
`fe_from` points at slot `from`, read after slot `to` is detached: when `from = to` its
object is then `NULL`. -/
def sysFdReplaceLocked (sys : Sys) (src dst : Nat) : Except Fault (Sys × Except Errno Nat) :=
  match fdTableGetEntry sys.table src 0 0 with
  | .error e => .ok (sys, .error e)
  | .ok _ =>
    match fdTableGetEntry sys.table dst 0 0 with
    | .error e => .ok (sys, .error e)
    | .ok _ => do
      let (t, fo) ← fdTableDetach sys.table dst
      let feFrom := (t.entries[src]?).join
      let sys ← refcountAcquire { sys with table := t } (feFrom.map (·.object))
      match feFrom with
      | none => .error .nullDeref
      | some fe =>
        let t ← fdTableAttach sys.table dst fe.object fe.rightsBase fe.rightsInheriting
        return ({ sys with table := t }, .ok fo)

/-- `sys_fd_replace`: the displaced object is released after the lock. -/
def sysFdReplace (sys : Sys) (src dst : Nat) : Except Fault (Sys × Except Errno Unit) := do
  match ← sysFdReplaceLocked sys src dst with
  | (sys, .error e) => return (sys, .error e)
  | (sys, .ok fo) =>
    let sys ← fdObjectRelease sys fo
    return (sys, .ok ())

/-- The `CLOUDABI_FDSTAT_RIGHTS` branch of `sys_fd_stat_put`: look the entry up with the new
rights as the rights needed, then overwrite its rights with them. -/
def sysFdStatPutRights (sys : Sys) (fd : Nat) (base inheriting : Rights) :
    Except Fault (Sys × Except Errno Unit) :=
  match fdTableGetEntry sys.table fd base inheriting with
  | .error e => .ok (sys, .error e)
  | .ok fe =>
    let entry : FdEntry := { fe with rightsBase := base, rightsInheriting := inheriting }
    .ok ({ sys with table := { sys.table with entries := sys.table.entries.set fd (some entry) } },
      .ok ())

/-- `fd_object_get_locked` (and `fd_object_get`, which only adds the read lock): a new
reference to the object of `fd`. -/
def fdObjectGetLocked (sys : Sys) (fd : Nat) (rightsBase rightsInheriting : Rights) :
    Except Fault (Sys × Except Errno Nat) :=
  match fdTableGetEntry sys.table fd rightsBase rightsInheriting with
  | .error e => .ok (sys, .error e)
  | .ok fe => do
    let sys ← refcountAcquire sys (some fe.object)
    return (sys, .ok fe.object)

/-- The shape of every call that works on an object through `fd_object_get` and then only
through its host descriptor: take a reference to the object of `fd` with the base rights
`rightsBase`, hand `fd_number(fo)` to the host, release the reference and return the host's
answer. `host` is that answer; it may depend on the object's type, which
`sys_file_stat_fget` copies into its result. -/
def fdObjectCall {α : Type} (sys : Sys) (fd : Nat) (rightsBase : Rights)
    (host : FileType → Except Errno α) : Except Fault (Sys × Except Errno α) := do
  match ← fdObjectGetLocked sys fd rightsBase 0 with
  | (sys, .error e) => return (sys, .error e)
  | (sys, .ok fo) =>
    match sys.objects fo with
    | none => .error .useAfterFree
    | some obj =>
      let _ ← fdNumber obj
      let sys ← fdObjectRelease sys fo
      return (sys, host obj.type)

/-- `sys_fd_datasync`: `fdatasync` is what the host call returns. -/
def sysFdDatasync (m : RightsMasks) (sys : Sys) (fd : Nat) (fdatasync : Except Errno Unit) :
    Except Fault (Sys × Except Errno Unit) :=
  fdObjectCall sys fd m.fdDatasync fun _ => fdatasync

/-- `sys_fd_create1`: only shared memory, with its fixed masks. `shmOpen` is what
`shm_open` returns. -/
def sysFdCreate1 (m : RightsMasks) (sys : Sys) (type : FileType) (shmOpen : Except Errno Int)
    (mallocOk reallocOk : Bool) (draws : List Nat) : Except Fault (Sys × Except Errno Nat) :=
  if type = .sharedMemory then
    match shmOpen with
    | .error e => .ok (sys, .error e)
    | .ok nfd =>
      fdTableInsertFd sys nfd type m.sharedMemoryBase m.sharedMemoryInheriting mallocOk reallocOk
        draws
  else .ok (sys, .error .einval)

/-- `sys_fd_create2` with `fd_create_socketpair`: a socket pair with the socket masks.
`socketpair` is what the host call returns. -/
def sysFdCreate2 (m : RightsMasks) (sys : Sys) (type : FileType)
    (socketpair : Except Errno (Int × Int)) (malloc1Ok malloc2Ok reallocOk : Bool)
    (draws : List Nat) : Except Fault (Sys × Except Errno (Nat × Nat)) :=
  if type = .socketDgram ∨ type = .socketStream then
    match socketpair with
    | .error e => .ok (sys, .error e)
    | .ok (nfd1, nfd2) =>
      fdTableInsertFdpair sys nfd1 nfd2 type m.socketBase m.socketBase m.socketInheriting
        malloc1Ok malloc2Ok reallocOk draws
  else .ok (sys, .error .einval)

/-- The end of `sys_file_open`, once `openat` returned `nfd`: infer its type and install it
with the requested rights narrowed to the type's. -/
def sysFileOpenInstall (m : RightsMasks) (sys : Sys) (nfd : Int) (info : HostFdInfo)
    (rightsBase rightsInheriting : Rights) (mallocOk reallocOk : Bool) (draws : List Nat) :
    Except Fault (Sys × Except Errno Nat) :=
  match fdDetermineTypeRights m info with
  | .error e => .ok ({ sys with closed := sys.closed ++ [.close nfd] }, .error e)
  | .ok (type, maxBase, maxInheriting) =>
    fdTableInsertFd sys nfd type (rightsBase &&& maxBase) (rightsInheriting &&& maxInheriting)
      mallocOk reallocOk draws

/-- One descriptor `nfd` received through `SCM_RIGHTS` in `sys_sock_recv`: installed with its
type's rights, or, when that fails, closed by `sys_sock_recv` and reported as `-1`. The value
is what the loop stores in `in->ri_fds[fdslen]`. -/
def sockRecvInstall (m : RightsMasks) (sys : Sys) (nfd : Int) (info : HostFdInfo)
    (mallocOk reallocOk : Bool) (draws : List Nat) : Except Fault (Sys × Int) :=
  match fdDetermineTypeRights m info with
  | .error _ => .ok ({ sys with closed := sys.closed ++ [.close nfd] }, -1)
  | .ok (type, maxBase, maxInheriting) => do
    let (sys, r) ← fdTableInsertFd sys nfd type maxBase maxInheriting mallocOk reallocOk draws
    match r with
    | .ok fd => return (sys, fd)
    | .error _ => return ({ sys with closed := sys.closed ++ [.close nfd] }, -1)

end CloudabiEmulator
