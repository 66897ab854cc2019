import CloudabiEmulator.ObjectCalls
import CloudabiEmulator.TableSpec
import CloudabiEmulator.PathLoop

/-! The system calls on a path. `path_get` copies the path, takes a reference to the object of
the directory descriptor with the rights the call asks for, and looks the path up from the
object's host descriptor; when the lookup fails it releases the reference, otherwise the lease
it returns holds the reference until `path_put` releases it. Each call takes one lease
(`sys_file_link` and `sys_file_rename` two, putting the first back when the second fails),
hands the host the directory and residual path of each, and puts them back. The lookup is an
argument, a function of `follow`, `needs_final_component`, the path and the host descriptor
`fds[0]`, and each call gives it its own flags; the emulated lookup of `PathLoop` from the
directory a descriptor names is one instance. The descriptors the lookup opens and closes, and
the one `path_put` closes, are not modelled. -/

namespace CloudabiEmulator

open Path (PathAccess)

/-- What `path_get` gets from its lookup, started from the directory of host descriptor
`fds[0]`: the lease's `struct path_access`, the lookup's error, or a fault. -/
abbrev Lookup := Int → Except Fault (Except Errno PathAccess)

/-- A lookup for each `follow`, `needs_final_component` and path. -/
abbrev Resolver := Bool → Bool → List Char → Lookup

/-- The emulated lookup `pathGetEmulated` from the directory `dirOf n` that host descriptor `n`
names. -/
def Resolver.emulated (host : Path.Host) (dirOf : Int → Path.Dir) : Resolver :=
  fun follow needsFinalComponent path n =>
    Path.pathGetEmulated host (dirOf n) follow needsFinalComponent path

/-- `path_get`: `mallocOk` is what `str_nullterminate` gets from `malloc`. A lease is the
object the reference is held on and the `struct path_access`. -/
def pathGet (sys : Sys) (fd : Nat) (lookup : Lookup) (rightsBase rightsInheriting : Rights)
    (mallocOk : Bool) : Except Fault (Sys × Except Errno (Nat × PathAccess)) :=
  if !mallocOk then .ok (sys, .error .enomem)
  else do
    match ← fdObjectGetLocked sys fd rightsBase rightsInheriting with
    | (sys, .error e) => return (sys, .error e)
    | (sys, .ok fo) =>
      match sys.objects fo with
      | none => .error .useAfterFree
      | some obj =>
        match ← lookup (← fdNumber obj) with
        | .error e => return (← fdObjectRelease sys fo, .error e)
        | .ok pa => return (sys, .ok (fo, pa))

/-- `path_put`: `fd_number(pa->fd_object)`, then `fd_object_release`. -/
def pathPut (sys : Sys) (fo : Nat) : Except Fault Sys :=
  match sys.objects fo with
  | none => .error .useAfterFree
  | some obj => do
    let _ ← fdNumber obj
    fdObjectRelease sys fo

/-- The shape of the calls on one path: a lease on `fd` with the base rights `rightsBase`, the
host's answer for its directory and residual path, and `path_put`. -/
def pathCall {α : Type} (sys : Sys) (fd : Nat) (lookup : Lookup) (rightsBase : Rights)
    (mallocOk : Bool) (host : PathAccess → Except Errno α) :
    Except Fault (Sys × Except Errno α) := do
  match ← pathGet sys fd lookup rightsBase 0 mallocOk with
  | (sys, .error e) => return (sys, .error e)
  | (sys, .ok (fo, pa)) =>
    let r := host pa
    return (← pathPut sys fo, r)

/-- The shape of the calls on two paths: a lease on each, the first put back when the second
fails; the host's answer for both, then both put back in order. -/
def pathCall2 {α : Type} (sys : Sys) (fd1 : Nat) (lookup1 : Lookup) (rightsBase1 : Rights)
    (malloc1Ok : Bool) (fd2 : Nat) (lookup2 : Lookup) (rightsBase2 : Rights) (malloc2Ok : Bool)
    (host : PathAccess → PathAccess → Except Errno α) : Except Fault (Sys × Except Errno α) := do
  match ← pathGet sys fd1 lookup1 rightsBase1 0 malloc1Ok with
  | (sys, .error e) => return (sys, .error e)
  | (sys, .ok (fo1, pa1)) =>
    match ← pathGet sys fd2 lookup2 rightsBase2 0 malloc2Ok with
    | (sys, .error e) => return (← pathPut sys fo1, .error e)
    | (sys, .ok (fo2, pa2)) =>
      let r := host pa1 pa2
      let sys ← pathPut sys fo1
      return (← pathPut sys fo2, r)

/-- `sys_file_create`: only a directory can be made, with `mkdirat`. -/
def sysFileCreate (m : RightsMasks) (resolve : Resolver) (sys : Sys) (fd : Nat)
    (path : List Char) (type : FileType) (mallocOk : Bool)
    (mkdirat : PathAccess → Except Errno Unit) : Except Fault (Sys × Except Errno Unit) :=
  if type = .directory then
    pathCall sys fd (resolve false true path) m.fileCreateDirectory mallocOk mkdirat
  else .ok (sys, .error .einval)

/-- `sys_file_link`: when `linkat` answers `ENOTSUP` for a source that is not followed, the link
is copied with `readlinkat_dup` and `symlinkat`; a failed `readlinkat_dup` leaves its `errno`. -/
def sysFileLink (m : RightsMasks) (resolve : Resolver) (sys : Sys) (fd1 : Nat) (follow1 : Bool)
    (path1 : List Char) (fd2 : Nat) (path2 : List Char) (malloc1Ok malloc2Ok : Bool)
    (linkat : PathAccess → PathAccess → Except Errno Unit)
    (readlinkatDup : PathAccess → Except Errno (List Char))
    (symlinkat : List Char → PathAccess → Except Errno Unit) :
    Except Fault (Sys × Except Errno Unit) :=
  pathCall2 sys fd1 (resolve follow1 false path1) m.fileLinkSource malloc1Ok
    fd2 (resolve false true path2) m.fileLinkTarget malloc2Ok fun pa1 pa2 =>
      match linkat pa1 pa2 with
      | .error .enotsup =>
        if pa1.follow then .error .enotsup
        else do symlinkat (← readlinkatDup pa1) pa2
      | r => r

/-- `sys_file_readlink`: `readlinkat` gets a one-byte buffer in place of an empty one, and
`*bufused` is the length it read, at most `bufsize`. -/
def sysFileReadlink (m : RightsMasks) (resolve : Resolver) (sys : Sys) (fd : Nat)
    (path : List Char) (bufsize : Nat) (mallocOk : Bool)
    (readlinkat : PathAccess → Nat → Except Errno Nat) : Except Fault (Sys × Except Errno Nat) :=
  pathCall sys fd (resolve false false path) m.fileReadlink mallocOk fun pa =>
    (readlinkat pa (if bufsize = 0 then 1 else bufsize)).map fun len => min len bufsize

/-- `sys_file_rename`: the host's `EBUSY` is answered `EINVAL`. -/
def sysFileRename (m : RightsMasks) (resolve : Resolver) (sys : Sys) (oldfd : Nat)
    (old : List Char) (newfd : Nat) (new : List Char) (malloc1Ok malloc2Ok : Bool)
    (renameat : PathAccess → PathAccess → Except Errno Unit) :
    Except Fault (Sys × Except Errno Unit) :=
  pathCall2 sys oldfd (resolve false true old) m.fileRenameSource malloc1Ok
    newfd (resolve false true new) m.fileRenameTarget malloc2Ok fun pa1 pa2 =>
      match renameat pa1 pa2 with
      | .error .ebusy => .error .einval
      | r => r

/-- The file type `fstatat` reports (`S_ISBLK`, …, `S_ISSOCK`). -/
inductive StatMode where
  | blk | chr | dir | fifo | lnk | reg | sock | other
  deriving DecidableEq, Repr

/-- The type `sys_file_stat_get` reports for a mode; for any other mode it keeps the
`CLOUDABI_FILETYPE_UNKNOWN` that `convert_stat` stores. -/
def statFiletype : StatMode → FileType
  | .blk => .blockDevice
  | .chr => .characterDevice
  | .dir => .directory
  | .fifo => .socketStream
  | .lnk => .symbolicLink
  | .reg => .regularFile
  | .sock => .socketStream
  | .other => .unknown

/-- `sys_file_stat_get`: `fstatat` answers the mode and the rest of the `struct stat`. -/
def sysFileStatGet {σ : Type} (m : RightsMasks) (resolve : Resolver) (sys : Sys) (fd : Nat)
    (follow : Bool) (path : List Char) (mallocOk : Bool)
    (fstatat : PathAccess → Except Errno (StatMode × σ)) :
    Except Fault (Sys × Except Errno (FileType × σ)) :=
  pathCall sys fd (resolve follow false path) m.fileStatGet mallocOk fun pa =>
    (fstatat pa).map fun (mode, st) => (statFiletype mode, st)

/-- `sys_file_stat_put`: only the time bits may be set. -/
def sysFileStatPut (m : RightsMasks) (resolve : Resolver) (sys : Sys) (fd : Nat) (follow : Bool)
    (path : List Char) (atim mtim : Nat) (flags : FsFlags) (mallocOk : Bool)
    (utimensat : PathAccess → Utime × Utime → Except Errno Unit) :
    Except Fault (Sys × Except Errno Unit) :=
  if flags.size || flags.other then .ok (sys, .error .einval)
  else
    pathCall sys fd (resolve follow false path) m.fileStatPutTimes mallocOk fun pa =>
      utimensat pa (convertUtimensArguments atim mtim flags)

/-- `sys_file_symlink`: the target `path1` is copied first (`malloc1Ok`). -/
def sysFileSymlink (m : RightsMasks) (resolve : Resolver) (sys : Sys) (path1 : List Char)
    (fd : Nat) (path2 : List Char) (malloc1Ok malloc2Ok : Bool)
    (symlinkat : List Char → PathAccess → Except Errno Unit) :
    Except Fault (Sys × Except Errno Unit) :=
  if !malloc1Ok then .ok (sys, .error .enomem)
  else pathCall sys fd (resolve false true path2) m.fileSymlink malloc2Ok (symlinkat path1)

/-- `sys_file_unlink`: `removedir` is `flags & CLOUDABI_UNLINK_REMOVEDIR`, and the host's
`EISDIR` is answered `EPERM`. -/
def sysFileUnlink (m : RightsMasks) (resolve : Resolver) (sys : Sys) (fd : Nat)
    (path : List Char) (removedir mallocOk : Bool)
    (unlinkat : PathAccess → Bool → Except Errno Unit) : Except Fault (Sys × Except Errno Unit) :=
  pathCall sys fd (resolve false true path) m.fileUnlink mallocOk fun pa =>
    match unlinkat pa removedir with
    | .error .eisdir => .error .eperm
    | r => r

theorem fdNumber_eq_ok {obj : FdObject} {n : Int} (h : fdNumber obj = .ok n) :
    n = obj.number ∧ 0 ≤ obj.number := by
  unfold fdNumber at h
  split at h
  · cases h; exact ⟨rfl, ‹_›⟩
  · cases h

theorem fdObjectGetLocked_table {sys sys' : Sys} {fd : Nat} {rightsBase rightsInheriting : Rights}
    {r : Except Errno Nat} (h : fdObjectGetLocked sys fd rightsBase rightsInheriting = .ok (sys', r)) :
    sys'.table = sys.table := by
  rcases fdObjectGetLocked_cases sys fd rightsBase rightsInheriting with
    ⟨e, hg⟩ | ⟨f, hg, -⟩ | ⟨fe, sys1, -, -, -, hacq, hg⟩ <;> rw [hg] at h <;> cases h
  · rfl
  · exact refcountAcquire_table hacq

section Leases

variable {sys sys' : Sys} {fd : Nat} {lookup : Lookup} {rightsBase rightsInheriting : Rights}
  {mallocOk : Bool}

/-- `path_get` returns its error with the process as it was, or takes a reference on the object
of the slot and either gives it back with the lookup's error or holds it in the lease. -/
theorem pathGet_cases {r : Except Errno (Nat × PathAccess)}
    (h : pathGet sys fd lookup rightsBase rightsInheriting mallocOk = .ok (sys', r)) :
    (sys' = sys ∧ ∃ e, r = .error e) ∨
    ∃ fo sys1 obj, fdObjectGetLocked sys fd rightsBase rightsInheriting = .ok (sys1, .ok fo) ∧
      sys1.objects fo = some obj ∧ 0 ≤ obj.number ∧
      ((∃ e, lookup obj.number = .ok (.error e) ∧ fdObjectRelease sys1 fo = .ok sys' ∧
          r = .error e) ∨
        (∃ pa, lookup obj.number = .ok (.ok pa) ∧ sys' = sys1 ∧ r = .ok (fo, pa))) := by
  unfold pathGet at h
  split at h
  · cases h; exact .inl ⟨rfl, _, rfl⟩
  rcases fdObjectGetLocked_cases sys fd rightsBase rightsInheriting with
    ⟨e, hg⟩ | ⟨f, hg, -⟩ | ⟨fe, sys1, -, -, -, -, hg⟩ <;> rw [hg] at h
  · cases h; exact .inl ⟨rfl, _, rfl⟩
  · cases h
  obtain ⟨_, hx, h⟩ := Except.bind_eq_ok h
  cases hx
  dsimp only at h
  split at h
  · cases h
  next obj hobj =>
  obtain ⟨n, hn, h⟩ := Except.bind_eq_ok h
  obtain ⟨rfl, hpos⟩ := fdNumber_eq_ok hn
  obtain ⟨lr, hl, h⟩ := Except.bind_eq_ok h
  refine .inr ⟨fe.object, sys1, obj, hg, hobj, hpos, ?_⟩
  cases lr with
  | error e =>
    obtain ⟨s, hrel, h⟩ := Except.bind_eq_ok h
    cases h
    exact .inl ⟨e, hl, hrel, rfl⟩
  | ok pa =>
    cases h
    exact .inr ⟨pa, hl, rfl, rfl⟩

theorem pathPut_cases {fo : Nat} (h : pathPut sys fo = .ok sys') :
    ∃ obj, sys.objects fo = some obj ∧ 0 ≤ obj.number ∧ fdObjectRelease sys fo = .ok sys' := by
  unfold pathPut at h
  split at h
  · cases h
  next obj hobj =>
  obtain ⟨n, hn, h⟩ := Except.bind_eq_ok h
  exact ⟨obj, hobj, (fdNumber_eq_ok hn).2, h⟩

end Leases

/-- The calls on paths, each with its arguments and the host's answers. -/
inductive PathCall where
  | fileCreate (fd : Nat) (path : List Char) (type : FileType) (mallocOk : Bool)
      (mkdirat : PathAccess → Except Errno Unit)
  | fileLink (fd1 : Nat) (follow1 : Bool) (path1 : List Char) (fd2 : Nat) (path2 : List Char)
      (malloc1Ok malloc2Ok : Bool) (linkat : PathAccess → PathAccess → Except Errno Unit)
      (readlinkatDup : PathAccess → Except Errno (List Char))
      (symlinkat : List Char → PathAccess → Except Errno Unit)
  | fileReadlink (fd : Nat) (path : List Char) (bufsize : Nat) (mallocOk : Bool)
      (readlinkat : PathAccess → Nat → Except Errno Nat)
  | fileRename (oldfd : Nat) (old : List Char) (newfd : Nat) (new : List Char)
      (malloc1Ok malloc2Ok : Bool) (renameat : PathAccess → PathAccess → Except Errno Unit)
  | fileStatGet (fd : Nat) (follow : Bool) (path : List Char) (mallocOk : Bool)
      (fstatat : PathAccess → Except Errno (StatMode × Unit))
  | fileStatPut (fd : Nat) (follow : Bool) (path : List Char) (atim mtim : Nat) (flags : FsFlags)
      (mallocOk : Bool) (utimensat : PathAccess → Utime × Utime → Except Errno Unit)
  | fileSymlink (path1 : List Char) (fd : Nat) (path2 : List Char) (malloc1Ok malloc2Ok : Bool)
      (symlinkat : List Char → PathAccess → Except Errno Unit)
  | fileUnlink (fd : Nat) (path : List Char) (removedir mallocOk : Bool)
      (unlinkat : PathAccess → Bool → Except Errno Unit)

namespace PathCall

/-- The process state a call leaves, or its fault. -/
def run (m : RightsMasks) (resolve : Resolver) (sys : Sys) : PathCall → Except Fault Sys
  | fileCreate fd path type mallocOk mkdirat =>
    (sysFileCreate m resolve sys fd path type mallocOk mkdirat).map Prod.fst
  | fileLink fd1 follow1 path1 fd2 path2 malloc1Ok malloc2Ok linkat readlinkatDup symlinkat =>
    (sysFileLink m resolve sys fd1 follow1 path1 fd2 path2 malloc1Ok malloc2Ok linkat
      readlinkatDup symlinkat).map Prod.fst
  | fileReadlink fd path bufsize mallocOk readlinkat =>
    (sysFileReadlink m resolve sys fd path bufsize mallocOk readlinkat).map Prod.fst
  | fileRename oldfd old newfd new malloc1Ok malloc2Ok renameat =>
    (sysFileRename m resolve sys oldfd old newfd new malloc1Ok malloc2Ok renameat).map Prod.fst
  | fileStatGet fd follow path mallocOk fstatat =>
    (sysFileStatGet m resolve sys fd follow path mallocOk fstatat).map Prod.fst
  | fileStatPut fd follow path atim mtim flags mallocOk utimensat =>
    (sysFileStatPut m resolve sys fd follow path atim mtim flags mallocOk utimensat).map Prod.fst
  | fileSymlink path1 fd path2 malloc1Ok malloc2Ok symlinkat =>
    (sysFileSymlink m resolve sys path1 fd path2 malloc1Ok malloc2Ok symlinkat).map Prod.fst
  | fileUnlink fd path removedir mallocOk unlinkat =>
    (sysFileUnlink m resolve sys fd path removedir mallocOk unlinkat).map Prod.fst

/-- Every call rejects its arguments with the process untouched, or takes one lease, or two. -/
theorem shape (m : RightsMasks) (resolve : Resolver) (sys : Sys) (c : PathCall) :
    c.run m resolve sys = .ok sys ∨
    (∃ (α : Type) (fd : Nat) (lookup : Lookup) (rightsBase : Rights) (mallocOk : Bool)
      (host : PathAccess → Except Errno α),
      c.run m resolve sys = (pathCall sys fd lookup rightsBase mallocOk host).map Prod.fst) ∨
    ∃ (α : Type) (fd1 : Nat) (lookup1 : Lookup) (rightsBase1 : Rights) (malloc1Ok : Bool)
      (fd2 : Nat) (lookup2 : Lookup) (rightsBase2 : Rights) (malloc2Ok : Bool)
      (host : PathAccess → PathAccess → Except Errno α),
      c.run m resolve sys = (pathCall2 sys fd1 lookup1 rightsBase1 malloc1Ok fd2 lookup2
        rightsBase2 malloc2Ok host).map Prod.fst := by
  cases c <;> dsimp only [run, sysFileCreate, sysFileLink, sysFileReadlink, sysFileRename,
    sysFileStatGet, sysFileStatPut, sysFileSymlink, sysFileUnlink] <;> repeat' split
  all_goals first
    | exact .inl rfl
    | exact .inr (.inl ⟨_, _, _, _, _, _, rfl⟩)
    | exact .inr (.inr ⟨_, _, _, _, _, _, _, _, _, _, rfl⟩)

end PathCall

end CloudabiEmulator
