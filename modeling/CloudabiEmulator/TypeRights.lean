import CloudabiEmulator.Abi

/-! `fd_determine_type_rights`: the type and the largest right sets the emulator grants a
host descriptor, from what `fstat`, `isatty`, `getsockopt(SO_TYPE)` and `fcntl(F_GETFL)` report
about it. The per-type masks `RIGHTS_*` of `rights.h` and the two right bits it strips are
not under `src/`; they are parameters, so every result holds for every choice of them. -/

namespace CloudabiEmulator

/-- The constants `fd_determine_type_rights`, the descriptor-creating calls and the calls that
work through `fd_object_get` or `path_get` use: `RIGHTS_<TYPE>_BASE` / `_INHERITING` and the
`CLOUDABI_RIGHT_*` bits those calls ask for. -/
structure RightsMasks where
  blockDeviceBase : Rights
  blockDeviceInheriting : Rights
  characterDeviceBase : Rights
  characterDeviceInheriting : Rights
  ttyBase : Rights
  ttyInheriting : Rights
  directoryBase : Rights
  directoryInheriting : Rights
  regularFileBase : Rights
  regularFileInheriting : Rights
  socketBase : Rights
  socketInheriting : Rights
  sharedMemoryBase : Rights
  sharedMemoryInheriting : Rights
  fdRead : Rights
  fdWrite : Rights
  fdDatasync : Rights
  fdSeek : Rights
  fdStatPutFlags : Rights
  fdSync : Rights
  fdTell : Rights
  fileAdvise : Rights
  fileAllocate : Rights
  fileCreateDirectory : Rights
  fileCreateFile : Rights
  fileLinkSource : Rights
  fileLinkTarget : Rights
  fileOpen : Rights
  fileReaddir : Rights
  fileReadlink : Rights
  fileRenameSource : Rights
  fileRenameTarget : Rights
  fileStatFget : Rights
  fileStatFputSize : Rights
  fileStatFputTimes : Rights
  fileStatGet : Rights
  fileStatPutTimes : Rights
  fileSymlink : Rights
  fileUnlink : Rights
  memMapExec : Rights
  pollFdReadwrite : Rights
  sockShutdown : Rights
  deriving Inhabited

/-- The file type `fstat` reports (`S_ISBLK`, …, `S_TYPEISSHM`). -/
inductive HostMode where
  | blk | chr | dir | reg | sock | fifo | shm | other
  deriving DecidableEq, Repr

/-- `SO_TYPE` of a socket. -/
inductive SockType where
  | dgram | stream | other
  deriving DecidableEq, Repr

/-- `fcntl(fd, F_GETFL) & O_ACCMODE`. -/
inductive AccMode where
  | rdonly | wronly | other
  deriving DecidableEq, Repr

/-- What the host answers about one descriptor. -/
structure HostFdInfo where
  fstat : Except Errno HostMode
  isatty : Bool
  getsockopt : Except Errno SockType
  accmode : AccMode

/-- The type test of `fd_determine_type_rights`: the type and the masks of that type. -/
def typeMasks (m : RightsMasks) (info : HostFdInfo) : Except Errno (FileType × Rights × Rights) :=
  match info.fstat with
  | .error e => .error e
  | .ok .blk => .ok (.blockDevice, m.blockDeviceBase, m.blockDeviceInheriting)
  | .ok .chr =>
    if info.isatty then .ok (.characterDevice, m.ttyBase, m.ttyInheriting)
    else .ok (.characterDevice, m.characterDeviceBase, m.characterDeviceInheriting)
  | .ok .dir => .ok (.directory, m.directoryBase, m.directoryInheriting)
  | .ok .reg => .ok (.regularFile, m.regularFileBase, m.regularFileInheriting)
  | .ok .sock =>
    match info.getsockopt with
    | .error e => .error e
    | .ok .dgram => .ok (.socketDgram, m.socketBase, m.socketInheriting)
    | .ok .stream => .ok (.socketStream, m.socketBase, m.socketInheriting)
    | .ok .other => .error .einval
  | .ok .fifo => .ok (.socketStream, m.socketBase, m.socketInheriting)
  | .ok .shm => .ok (.sharedMemory, m.sharedMemoryBase, m.sharedMemoryInheriting)
  | .ok .other => .error .einval

/-- The end of `fd_determine_type_rights`: strip `FD_WRITE` from a read-only descriptor and
`FD_READ` from a write-only one. -/
def stripAccessMode (m : RightsMasks) (accmode : AccMode) (base : Rights) : Rights :=
  match accmode with
  | .rdonly => base &&& ~~~m.fdWrite
  | .wronly => base &&& ~~~m.fdRead
  | .other => base

/-- `fd_determine_type_rights`. -/
def fdDetermineTypeRights (m : RightsMasks) (info : HostFdInfo) :
    Except Errno (FileType × Rights × Rights) :=
  (typeMasks m info).map fun (type, base, inheriting) =>
    (type, stripAccessMode m info.accmode base, inheriting)

/-- The largest rights any descriptor of a type can be granted: what
`fd_determine_type_rights` assigns it (a character device gets the terminal masks or the
device masks) or the fixed masks of `sys_fd_create1` and `fd_create_socketpair`. -/
def maxRights (m : RightsMasks) : FileType → Rights × Rights
  | .blockDevice => (m.blockDeviceBase, m.blockDeviceInheriting)
  | .characterDevice =>
    (m.characterDeviceBase ||| m.ttyBase, m.characterDeviceInheriting ||| m.ttyInheriting)
  | .directory => (m.directoryBase, m.directoryInheriting)
  | .regularFile => (m.regularFileBase, m.regularFileInheriting)
  | .sharedMemory => (m.sharedMemoryBase, m.sharedMemoryInheriting)
  | .socketDgram | .socketStream => (m.socketBase, m.socketInheriting)
  | .unknown | .symbolicLink => (0, 0)

/-- Rights within the largest a type can be granted. -/
def WithinMax (m : RightsMasks) (type : FileType) (base inheriting : Rights) : Prop :=
  base.Subset (maxRights m type).1 ∧ inheriting.Subset (maxRights m type).2

theorem WithinMax.narrow {m : RightsMasks} {type : FileType} {b i b' i' : Rights}
    (h : WithinMax m type b i) (hb : b'.Subset b) (hi : i'.Subset i) : WithinMax m type b' i' :=
  ⟨Rights.subset_trans hb h.1, Rights.subset_trans hi h.2⟩

theorem WithinMax.max (m : RightsMasks) (type : FileType) :
    WithinMax m type (maxRights m type).1 (maxRights m type).2 :=
  ⟨Rights.subset_refl _, Rights.subset_refl _⟩

theorem stripAccessMode_subset (m : RightsMasks) (accmode : AccMode) (base : Rights) :
    (stripAccessMode m accmode base).Subset base := by
  cases accmode
  · exact Rights.and_not_subset _ _
  · exact Rights.and_not_subset _ _
  · exact Rights.subset_refl _

/-- Each type gets its own masks, a terminal the terminal masks and any other character
device the device masks, both within the character-device maximum. -/
theorem typeMasks_within {m : RightsMasks} {info : HostFdInfo} {type : FileType}
    {base inheriting : Rights} (h : typeMasks m info = .ok (type, base, inheriting)) :
    WithinMax m type base inheriting := by
  unfold typeMasks at h
  split at h
  · cases h
  · cases h; exact .max m _
  · split at h <;> cases h
    · exact ⟨Rights.subset_or_right _ _, Rights.subset_or_right _ _⟩
    · exact ⟨Rights.subset_or_left _ _, Rights.subset_or_left _ _⟩
  · cases h; exact .max m _
  · cases h; exact .max m _
  · split at h <;> cases h <;> exact .max m _
  · cases h; exact .max m _
  · cases h; exact .max m _
  · cases h

/-- What `fd_determine_type_rights` grants lies within the type's largest rights. -/
theorem fdDetermineTypeRights_within {m : RightsMasks} {info : HostFdInfo}
    {type : FileType} {base inheriting : Rights}
    (h : fdDetermineTypeRights m info = .ok (type, base, inheriting)) :
    WithinMax m type base inheriting := by
  unfold fdDetermineTypeRights at h
  cases hmask : typeMasks m info with
  | error e => simp [hmask, Except.map] at h
  | ok r =>
    obtain ⟨type', base', inheriting'⟩ := r
    simp only [hmask, Except.map, Except.ok.injEq, Prod.mk.injEq] at h
    obtain ⟨rfl, rfl, rfl⟩ := h
    exact (typeMasks_within hmask).narrow (stripAccessMode_subset _ _ _) (Rights.subset_refl _)

end CloudabiEmulator
