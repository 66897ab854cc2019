import CloudabiEmulator.PathCalls
import CloudabiEmulator.HostDescriptors
import CloudabiEmulator.ObjectLifetime

/-! `sys_file_open`. Before it asks the host anything, the call derives from the requested
`fdstat` and `oflags` the `open()` access mode and flags and the rights the directory slot must
hold, and takes a lease on the slot with them; `openat` is handed the lease's directory and path,
with `O_NOFOLLOW` when the lease says not to follow. So the host is reached only with the slot's
authority: its base rights hold `FILE_OPEN` (and `FILE_CREATE_FILE` to create), its inheriting
rights every right the new handle is to have and those each flag needs, and the file is opened for
writing only when a writing right is requested. A new handle gets the requested rights narrowed to
the largest ones of the type `fd_determine_type_rights` infers for the opened descriptor.

The other calls on paths take their leases from the same `path_get`, so each reaches the host only
on the access its slot grants (`Sys.Grants`): the slot holds the call's right, and the access is
what the lookup makes of the host descriptor of the slot's object. -/

namespace CloudabiEmulator

open Path (PathAccess)

/-- `cloudabi_oflags_t`: `CLOUDABI_O_CREAT`, `_DIRECTORY`, `_EXCL` and `_TRUNC`. -/
structure FileOflags where
  creat : Bool
  directory : Bool
  excl : Bool
  trunc : Bool
  deriving DecidableEq, Repr

/-- The access mode of `open()`. -/
inductive OpenMode where
  | rdonly | wronly | rdwr
  deriving DecidableEq, Repr

/-- The flag word `sys_file_open` hands `openat`: the access mode and which of `O_CREAT`,
`O_DIRECTORY`, `O_EXCL`, `O_TRUNC`, `O_APPEND`, `O_DSYNC`, `O_NONBLOCK`, `O_RSYNC`, `O_SYNC` and
`O_NOFOLLOW` are set. -/
structure OpenFlags where
  mode : OpenMode
  creat : Bool
  directory : Bool
  excl : Bool
  trunc : Bool
  append : Bool
  dsync : Bool
  nonblock : Bool
  rsync : Bool
  sync : Bool
  nofollow : Bool
  deriving DecidableEq, Repr

section Flags

variable (m : RightsMasks) (cfg : HostConfig) (oflags : FileOflags) (fds : FdStat)

/-- `read`: a base right that needs the file open for reading is requested. -/
def openRead : Bool :=
  fds.fsRightsBase &&& (m.fdRead ||| m.fileReaddir ||| m.memMapExec) != 0

/-- `write`: a base right that needs the file open for writing is requested. -/
def openWrite : Bool :=
  fds.fsRightsBase &&& (m.fdDatasync ||| m.fdWrite ||| m.fileAllocate ||| m.fileStatFputSize) != 0

/-- `noflags` before the lookup: the access mode, the converted open flags and the converted
descriptor flags, a flag the host lacks becoming `O_SYNC`. -/
def fileOpenNoflags : OpenFlags where
  mode := if openWrite m fds then if openRead m fds then .rdwr else .wronly else .rdonly
  creat := oflags.creat
  directory := oflags.directory
  excl := oflags.excl
  trunc := oflags.trunc
  append := fds.fsFlags.append
  dsync := cfg.oDsync.isSome && fds.fsFlags.dsync
  nonblock := fds.fsFlags.nonblock
  rsync := cfg.oRsync.isSome && fds.fsFlags.rsync
  sync := cfg.oDsync.isNone && fds.fsFlags.dsync || cfg.oRsync.isNone && fds.fsFlags.rsync ||
    fds.fsFlags.sync
  nofollow := false

/-- `needed_base`. -/
def fileOpenNeededBase : Rights :=
  if oflags.creat then m.fileOpen ||| m.fileCreateFile else m.fileOpen

/-- `needed_inheriting`: every right of the new handle, `FILE_STAT_FPUT_SIZE` to truncate,
`FD_DATASYNC` and `FD_SYNC` for the synchronous flags, and `FD_SEEK` to write at any offset. -/
def fileOpenNeededInheriting : Rights :=
  let noflags := fileOpenNoflags m cfg oflags fds
  fds.fsRightsBase ||| fds.fsRightsInheriting
    ||| (if oflags.trunc then m.fileStatFputSize else 0)
    ||| (if fds.fsFlags.dsync then m.fdDatasync else 0)
    ||| (if fds.fsFlags.rsync then m.fdSync else 0)
    ||| (if fds.fsFlags.sync then m.fdSync else 0)
    ||| (if openWrite m fds && !(noflags.append || noflags.trunc) then m.fdSeek else 0)

end Flags

/-- `sys_file_open` up to `openat`: the lease on `dirfd` with the needed rights, from a lookup
with `needs_final_component` set to create, and the flags for `openat`, `O_NOFOLLOW` added when
the lease says not to follow. `follow` is the `CLOUDABI_LOOKUP_SYMLINK_FOLLOW` bit of `dirfd`. -/
def fileOpenLease (m : RightsMasks) (cfg : HostConfig) (resolve : Resolver) (sys : Sys)
    (dirfd : Nat) (follow : Bool) (path : List Char) (oflags : FileOflags) (fds : FdStat)
    (mallocOk : Bool) : Except Fault (Sys × Except Errno (Nat × PathAccess × OpenFlags)) := do
  match ← pathGet sys dirfd (resolve follow oflags.creat path) (fileOpenNeededBase m oflags)
      (fileOpenNeededInheriting m cfg oflags fds) mallocOk with
  | (sys, .error e) => return (sys, .error e)
  | (sys, .ok (fo, pa)) =>
    let noflags := fileOpenNoflags m cfg oflags fds
    return (sys, .ok (fo, pa, if !pa.follow then { noflags with nofollow := true } else noflags))

/-- `sys_file_open`. `openat` answers the new host descriptor, `fstatatSock` whether `fstatat`
finds a socket at the path (asked when `openat` fails with `ENXIO`), and `info` what
`fd_determine_type_rights` learns of the new descriptor; `mallocOk`, `reallocOk` and `draws`
are the allocations and random draws of `fd_table_insert_fd`. -/
def sysFileOpen (m : RightsMasks) (cfg : HostConfig) (resolve : Resolver) (sys : Sys)
    (dirfd : Nat) (follow : Bool) (path : List Char) (oflags : FileOflags) (fds : FdStat)
    (pathMallocOk : Bool) (openat : PathAccess → OpenFlags → Except Errno Int)
    (fstatatSock : PathAccess → Bool) (info : HostFdInfo) (mallocOk reallocOk : Bool)
    (draws : List Nat) : Except Fault (Sys × Except Errno Nat) := do
  match ← fileOpenLease m cfg resolve sys dirfd follow path oflags fds pathMallocOk with
  | (sys, .error e) => return (sys, .error e)
  | (sys, .ok (fo, pa, noflags)) =>
    match openat pa noflags with
    | .error e =>
      let sys ← pathPut sys fo
      if e = .enxio then return (sys, .error (if fstatatSock pa then .enotsup else .enxio))
      else if !pa.follow && e = .emlink then return (sys, .error .eloop)
      else return (sys, .error e)
    | .ok nfd =>
      let sys ← pathPut sys fo
      sysFileOpenInstall m sys nfd info fds.fsRightsBase fds.fsRightsInheriting mallocOk reallocOk
        draws

theorem Rights.subset_of_or_left {a b c : Rights} (h : (a ||| b).Subset c) : a.Subset c :=
  Rights.subset_trans (Rights.subset_or_left a b) h

theorem Rights.subset_of_or_right {a b c : Rights} (h : (a ||| b).Subset c) : b.Subset c :=
  Rights.subset_trans (Rights.subset_or_right a b) h

/-- A lease is granted only on a slot that holds the rights asked for: it is one reference more
on the slot's object, whose host descriptor the lookup was handed. -/
theorem pathGet_grant {sys sys' : Sys} {fd : Nat} {lookup : Lookup}
    {rightsBase rightsInheriting : Rights} {mallocOk : Bool} {fo : Nat} {pa : PathAccess}
    (h : pathGet sys fd lookup rightsBase rightsInheriting mallocOk = .ok (sys', .ok (fo, pa))) :
    ∃ fe, sys.table.entries[fd]? = some (some fe) ∧ rightsBase.Subset fe.rightsBase ∧
      rightsInheriting.Subset fe.rightsInheriting ∧ fo = fe.object ∧
      refcountAcquire sys (some fo) = .ok sys' ∧
      ∃ obj, sys'.objects fo = some obj ∧ lookup obj.number = .ok (.ok pa) := by
  rcases pathGet_cases h with
    ⟨-, _, he⟩ | ⟨fo', sys₁, obj, hg, hobj, -, ⟨_, -, -, he⟩ | ⟨_, hl, rfl, he⟩⟩
  · cases he
  · cases he
  cases he
  rcases fdObjectGetLocked_cases sys fd rightsBase rightsInheriting with
    ⟨_, hg'⟩ | ⟨_, hg', -⟩ | ⟨fe, _, hocc, hb, hi, hacq, hg'⟩ <;> rw [hg'] at hg <;> cases hg
  exact ⟨fe, hocc, hb, hi, rfl, hacq, obj, hobj, hl⟩

theorem pathGet_lease {sys sys' : Sys} {fd : Nat} {lookup : Lookup}
    {rightsBase rightsInheriting : Rights} {mallocOk : Bool} {fo : Nat} {pa : PathAccess}
    (h : pathGet sys fd lookup rightsBase rightsInheriting mallocOk = .ok (sys', .ok (fo, pa))) :
    ∃ fe, sys.table.entries[fd]? = some (some fe) ∧ rightsBase.Subset fe.rightsBase ∧
      rightsInheriting.Subset fe.rightsInheriting ∧ fo = fe.object :=
  let ⟨fe, hocc, hb, hi, hfo, _⟩ := pathGet_grant h
  ⟨fe, hocc, hb, hi, hfo⟩

theorem fdTableInsertFd_entry {sys sys' : Sys} {nfd : Int} {type : FileType}
    {rightsBase rightsInheriting : Rights} {mallocOk reallocOk : Bool} {draws : List Nat} {fd : Nat}
    (h : fdTableInsertFd sys nfd type rightsBase rightsInheriting mallocOk reallocOk draws =
      .ok (sys', .ok fd)) :
    ∃ fo obj, sys'.table.entries[fd]? = some (some ⟨fo, rightsBase, rightsInheriting⟩) ∧
      sys'.objects fo = some obj ∧ obj.type = type := by
  unfold fdTableInsertFd at h
  split at h
  · cases h
  next sys₁ fo hnew =>
  obtain ⟨hobj, -, -⟩ := fdObjectNew_spec hnew
  unfold fdTableInsert at h
  obtain ⟨x, hl, h⟩ := Except.bind_eq_ok h
  rcases x with _ | ⟨t, fd'⟩
  · obtain ⟨_, -, h⟩ := Except.bind_eq_ok h
    cases h
  cases h
  exact ⟨fo, _, fdTableInsertLocked_attached hl, setNumber_objects_self hobj nfd, rfl⟩

/-- A call that opens a file installs it with the requested rights narrowed to the largest ones
of the type inferred for the new descriptor. -/
theorem sysFileOpen_rights {m : RightsMasks} {cfg : HostConfig} {resolve : Resolver}
    {sys sys' : Sys} {dirfd : Nat} {follow : Bool} {path : List Char} {oflags : FileOflags}
    {fds : FdStat} {pathMallocOk : Bool} {openat : PathAccess → OpenFlags → Except Errno Int}
    {fstatatSock : PathAccess → Bool} {info : HostFdInfo} {mallocOk reallocOk : Bool}
    {draws : List Nat} {fd : Nat}
    (h : sysFileOpen m cfg resolve sys dirfd follow path oflags fds pathMallocOk openat fstatatSock
      info mallocOk reallocOk draws = .ok (sys', .ok fd)) :
    ∃ type maxBase maxInheriting fo obj,
      fdDetermineTypeRights m info = .ok (type, maxBase, maxInheriting) ∧
      sys'.table.entries[fd]? = some (some ⟨fo, fds.fsRightsBase &&& maxBase,
        fds.fsRightsInheriting &&& maxInheriting⟩) ∧
      sys'.objects fo = some obj ∧ obj.type = type := by
  unfold sysFileOpen at h
  obtain ⟨⟨sys₁, r⟩, -, h⟩ := Except.bind_eq_ok h
  rcases r with e | ⟨fo, pa, flags⟩
  · cases h
  dsimp only at h
  split at h
  · obtain ⟨_, -, h⟩ := Except.bind_eq_ok h
    split at h <;> [cases h; split at h <;> cases h]
  obtain ⟨sys₂, -, h⟩ := Except.bind_eq_ok h
  unfold sysFileOpenInstall at h
  split at h
  · cases h
  next type maxBase maxInheriting hdet =>
  obtain ⟨fo', obj, hent, hobj, htype⟩ := fdTableInsertFd_entry h
  exact ⟨type, maxBase, maxInheriting, fo', obj, hdet, hent, hobj, htype⟩

section Lease

variable {m : RightsMasks} {cfg : HostConfig} {oflags : FileOflags} {fds : FdStat} {r : Rights}

theorem fileOpenNeededBase_subset (h : (fileOpenNeededBase m oflags).Subset r) :
    m.fileOpen.Subset r ∧ (oflags.creat → m.fileCreateFile.Subset r) := by
  unfold fileOpenNeededBase at h
  split at h
  · exact ⟨Rights.subset_of_or_left h, fun _ => Rights.subset_of_or_right h⟩
  · exact ⟨h, fun hc => absurd hc ‹_›⟩

theorem fileOpenNeededInheriting_subset (h : (fileOpenNeededInheriting m cfg oflags fds).Subset r) :
    (fds.fsRightsBase ||| fds.fsRightsInheriting).Subset r ∧
      (oflags.trunc → m.fileStatFputSize.Subset r) ∧
      (fds.fsFlags.dsync → m.fdDatasync.Subset r) ∧
      (fds.fsFlags.rsync ∨ fds.fsFlags.sync → m.fdSync.Subset r) ∧
      (openWrite m fds → fds.fsFlags.append = false → oflags.trunc = false →
        m.fdSeek.Subset r) := by
  simp only [fileOpenNeededInheriting] at h
  have hK := Rights.subset_of_or_right h
  have hS := Rights.subset_of_or_right (Rights.subset_of_or_left h)
  have hR := Rights.subset_of_or_right (Rights.subset_of_or_left (Rights.subset_of_or_left h))
  have h₃ := Rights.subset_of_or_left (Rights.subset_of_or_left (Rights.subset_of_or_left h))
  refine ⟨Rights.subset_of_or_left (Rights.subset_of_or_left h₃),
    fun ht => by simpa [ht] using Rights.subset_of_or_right (Rights.subset_of_or_left h₃),
    fun hd => by simpa [hd] using Rights.subset_of_or_right h₃, ?_,
    fun hw ha ht => by simpa [hw, fileOpenNoflags, ha, ht] using hK⟩
  rintro (hs | hs)
  · simpa [hs] using hR
  · simpa [hs] using hS

theorem fileOpenNoflags_mode (h : (fileOpenNoflags m cfg oflags fds).mode ≠ .rdonly) :
    openWrite m fds = true := by
  by_contra hw
  simp [fileOpenNoflags, hw] at h

/-- A lease that returns: `path_get` found the slot holding the needed rights, and the flags for
`openat` are those of `noflags`, with `O_NOFOLLOW` when the lease says not to follow. -/
theorem fileOpenLease_ok {resolve : Resolver} {sys sys₁ : Sys} {dirfd : Nat} {follow : Bool}
    {path : List Char} {mallocOk : Bool} {fo : Nat} {pa : PathAccess} {flags : OpenFlags}
    (h : fileOpenLease m cfg resolve sys dirfd follow path oflags fds mallocOk =
      .ok (sys₁, .ok (fo, pa, flags))) :
    ∃ fe, sys.table.entries[dirfd]? = some (some fe) ∧
      (fileOpenNeededBase m oflags).Subset fe.rightsBase ∧
      (fileOpenNeededInheriting m cfg oflags fds).Subset fe.rightsInheriting ∧
      flags.mode = (fileOpenNoflags m cfg oflags fds).mode ∧ flags.append = fds.fsFlags.append ∧
      flags.trunc = oflags.trunc ∧ (pa.follow = false → flags.nofollow = true) := by
  unfold fileOpenLease at h
  obtain ⟨⟨sys₁, r⟩, hget, h⟩ := Except.bind_eq_ok h
  rcases r with e | ⟨fo', pa'⟩
  · cases h
  simp only [pure, Except.pure, Except.ok.injEq, Prod.mk.injEq] at h
  obtain ⟨-, rfl, rfl, rfl⟩ := h
  obtain ⟨fe, hocc, hb, hi, -⟩ := pathGet_lease hget
  refine ⟨fe, hocc, hb, hi, ?_⟩
  cases pa'.follow <;> simp [fileOpenNoflags]

end Lease

/-- `sys_file_open` acts only with the directory slot's authority: once it holds the lease that
reaches `openat`, the slot holds every right the request needs, the mode is writable only for a
writing right, `O_NOFOLLOW` is set when the lease says so, and the new handle's rights are narrowed
to its type's. -/
theorem sysFileOpen_authority {m : RightsMasks} {cfg : HostConfig} {resolve : Resolver}
    {sys sys₁ : Sys} {dirfd : Nat} {follow : Bool} {path : List Char} {oflags : FileOflags}
    {fds : FdStat} {pathMallocOk : Bool} {fo : Nat} {pa : PathAccess} {flags : OpenFlags}
    (h : fileOpenLease m cfg resolve sys dirfd follow path oflags fds pathMallocOk =
      .ok (sys₁, .ok (fo, pa, flags))) :
    (∃ fe, sys.table.entries[dirfd]? = some (some fe) ∧
      m.fileOpen.Subset fe.rightsBase ∧ (oflags.creat → m.fileCreateFile.Subset fe.rightsBase) ∧
      (fds.fsRightsBase ||| fds.fsRightsInheriting).Subset fe.rightsInheriting ∧
      (oflags.trunc → m.fileStatFputSize.Subset fe.rightsInheriting) ∧
      (fds.fsFlags.dsync → m.fdDatasync.Subset fe.rightsInheriting) ∧
      (fds.fsFlags.rsync ∨ fds.fsFlags.sync → m.fdSync.Subset fe.rightsInheriting) ∧
      (flags.mode ≠ .rdonly → flags.append = false → flags.trunc = false →
        m.fdSeek.Subset fe.rightsInheriting) ∧
      (flags.mode ≠ .rdonly →
        fds.fsRightsBase &&& (m.fdDatasync ||| m.fdWrite ||| m.fileAllocate ||| m.fileStatFputSize)
          ≠ 0) ∧
      (pa.follow = false → flags.nofollow = true)) ∧
    ∀ (openat : PathAccess → OpenFlags → Except Errno Int) (fstatatSock : PathAccess → Bool)
      (info : HostFdInfo) (mallocOk reallocOk : Bool) (draws : List Nat) (sys' : Sys) (fd : Nat),
      sysFileOpen m cfg resolve sys dirfd follow path oflags fds pathMallocOk openat fstatatSock
        info mallocOk reallocOk draws = .ok (sys', .ok fd) →
      ∃ type maxBase maxInheriting fo' obj,
        fdDetermineTypeRights m info = .ok (type, maxBase, maxInheriting) ∧
        sys'.table.entries[fd]? = some (some ⟨fo', fds.fsRightsBase &&& maxBase,
          fds.fsRightsInheriting &&& maxInheriting⟩) ∧
        sys'.objects fo' = some obj ∧ obj.type = type := by
  refine ⟨?_, fun _ _ _ _ _ _ _ _ hopen => sysFileOpen_rights hopen⟩
  obtain ⟨fe, hocc, hb, hi, hmode, happ, htr, hnf⟩ := fileOpenLease_ok h
  obtain ⟨hopen, hcreate⟩ := fileOpenNeededBase_subset hb
  obtain ⟨hA, hT, hD, hS, hK⟩ := fileOpenNeededInheriting_subset hi
  have hw : flags.mode ≠ .rdonly → openWrite m fds = true := fun hm =>
    fileOpenNoflags_mode (hmode ▸ hm)
  exact ⟨fe, hocc, hopen, hcreate, hA, hT, hD, hS,
    fun hm ha ht => hK (hw hm) (happ ▸ ha) (htr ▸ ht), fun hm => by simpa [openWrite] using hw hm,
    hnf⟩

theorem sysFileOpen_authority_nofollow :
    ∃ sys₁ fo pa flags, fileOpenLease default linuxHost
      (fun _ _ _ _ => .ok (.ok ⟨[], ['a'], false, none⟩)) oneFile 0 false ['a']
      ⟨false, false, false, false⟩ ⟨.regularFile, ⟨false, false, false, false, false⟩, 0, 0⟩ true =
        .ok (sys₁, .ok (fo, pa, flags)) ∧ flags.nofollow = true := by
  have h : fileOpenLease default linuxHost (fun _ _ _ _ => .ok (.ok ⟨[], ['a'], false, none⟩))
      oneFile 0 false ['a'] ⟨false, false, false, false⟩
      ⟨.regularFile, ⟨false, false, false, false, false⟩, 0, 0⟩ true = .ok (_, .ok (_, _, _)) := rfl
  obtain ⟨_, -, -, -, -, -, -, -, -, -, hnf⟩ := (sysFileOpen_authority h).1
  exact ⟨_, _, _, _, h, hnf rfl⟩

/-- Slot `fd` of `sys` grants the host access `pa` with the base rights `rightsBase`: the slot
holds them, and `pa` is what the lookup makes of the host descriptor of the slot's object. -/
def Sys.Grants (sys : Sys) (fd : Nat) (rightsBase : Rights) (lookup : Lookup) (pa : PathAccess) :
    Prop :=
  ∃ fe obj, sys.table.entries[fd]? = some (some fe) ∧ rightsBase.Subset fe.rightsBase ∧
    sys.objects fe.object = some obj ∧ lookup obj.number = .ok (.ok pa)

section PathCalls

variable {sys sys' : Sys} {fd : Nat} {rightsBase : Rights} {lookup : Lookup} {pa : PathAccess}

theorem Sys.Grants.of_acquire {o : Nat} (h : refcountAcquire sys (some o) = .ok sys')
    (hg : sys'.Grants fd rightsBase lookup pa) : sys.Grants fd rightsBase lookup pa := by
  obtain ⟨obj₀, hobj₀, rfl⟩ := refcountAcquire_spec h
  obtain ⟨fe, obj, hocc, hb, hobj, hl⟩ := hg
  simp only [setObject_objects] at hobj
  split at hobj
  · next he =>
    cases hobj
    exact ⟨fe, obj₀, hocc, hb, he ▸ hobj₀, hl⟩
  · exact ⟨fe, obj, hocc, hb, hobj, hl⟩

theorem pathGet_grants {rightsInheriting : Rights} {mallocOk : Bool} {fo : Nat}
    (h : pathGet sys fd lookup rightsBase rightsInheriting mallocOk = .ok (sys', .ok (fo, pa))) :
    sys.Grants fd rightsBase lookup pa ∧ refcountAcquire sys (some fo) = .ok sys' := by
  obtain ⟨fe, hocc, hb, -, rfl, hacq, obj, hobj, hl⟩ := pathGet_grant h
  exact ⟨Sys.Grants.of_acquire hacq ⟨fe, obj, refcountAcquire_table hacq ▸ hocc, hb, hobj, hl⟩,
    hacq⟩

/-- The second lease of a call on two paths is taken after the first: what its slot grants then,
it granted before. -/
theorem pathGet_grants₂ {lookup2 : Lookup} {fd2 : Nat} {rightsBase2 : Rights}
    {mallocOk malloc2Ok : Bool} {sys₂ : Sys} {fo fo2 : Nat} {pa2 : PathAccess}
    (h1 : pathGet sys fd lookup rightsBase 0 mallocOk = .ok (sys', .ok (fo, pa)))
    (h2 : pathGet sys' fd2 lookup2 rightsBase2 0 malloc2Ok = .ok (sys₂, .ok (fo2, pa2))) :
    sys.Grants fd rightsBase lookup pa ∧ sys.Grants fd2 rightsBase2 lookup2 pa2 :=
  let g1 := pathGet_grants h1
  ⟨g1.1, (pathGet_grants h2).1.of_acquire g1.2⟩

/-- What a call on one path can answer: the error of `path_get`, or the host's answer on the
lease's access. -/
theorem pathCall_cases {α : Type} {mallocOk : Bool} {host : PathAccess → Except Errno α}
    {r : Except Errno α} (h : pathCall sys fd lookup rightsBase mallocOk host = .ok (sys', r)) :
    (∃ e, pathGet sys fd lookup rightsBase 0 mallocOk = .ok (sys', .error e) ∧ r = .error e) ∨
    ∃ s fo pa, pathGet sys fd lookup rightsBase 0 mallocOk = .ok (s, .ok (fo, pa)) ∧
      r = host pa := by
  obtain ⟨⟨sys₁, r₁⟩, hg, h⟩ := Except.bind_eq_ok h
  rcases r₁ with e | ⟨fo, pa⟩
  · cases h
    exact .inl ⟨e, hg, rfl⟩
  · obtain ⟨_, -, h⟩ := Except.bind_eq_ok h
    cases h
    exact .inr ⟨sys₁, fo, pa, hg, rfl⟩

/-- What a call on two paths can answer: the error of the first `path_get`, of the second once
the first lease is taken, or the host's answer on the two leases' accesses. -/
theorem pathCall2_cases {α : Type} {fd1 fd2 : Nat} {lookup1 lookup2 : Lookup}
    {rightsBase1 rightsBase2 : Rights} {malloc1Ok malloc2Ok : Bool}
    {host : PathAccess → PathAccess → Except Errno α} {r : Except Errno α}
    (h : pathCall2 sys fd1 lookup1 rightsBase1 malloc1Ok fd2 lookup2 rightsBase2 malloc2Ok host =
      .ok (sys', r)) :
    (∃ s e, r = .error e ∧ (pathGet sys fd1 lookup1 rightsBase1 0 malloc1Ok = .ok (s, .error e) ∨
      ∃ s₁ lease, pathGet sys fd1 lookup1 rightsBase1 0 malloc1Ok = .ok (s₁, .ok lease) ∧
        pathGet s₁ fd2 lookup2 rightsBase2 0 malloc2Ok = .ok (s, .error e))) ∨
    ∃ s₁ fo1 pa1 s₂ fo2 pa2,
      pathGet sys fd1 lookup1 rightsBase1 0 malloc1Ok = .ok (s₁, .ok (fo1, pa1)) ∧
      pathGet s₁ fd2 lookup2 rightsBase2 0 malloc2Ok = .ok (s₂, .ok (fo2, pa2)) ∧
      r = host pa1 pa2 := by
  obtain ⟨⟨sys₁, r₁⟩, hg1, h⟩ := Except.bind_eq_ok h
  rcases r₁ with e | ⟨fo1, pa1⟩
  · cases h
    exact .inl ⟨_, e, rfl, .inl hg1⟩
  obtain ⟨⟨sys₂, r₂⟩, hg2, h⟩ := Except.bind_eq_ok h
  rcases r₂ with e | ⟨fo2, pa2⟩
  · obtain ⟨_, -, h⟩ := Except.bind_eq_ok h
    cases h
    exact .inl ⟨_, e, rfl, .inr ⟨sys₁, _, hg1, hg2⟩⟩
  · obtain ⟨_, -, h⟩ := Except.bind_eq_ok h
    obtain ⟨_, -, h⟩ := Except.bind_eq_ok h
    cases h
    exact .inr ⟨sys₁, fo1, pa1, sys₂, fo2, pa2, hg1, hg2, rfl⟩

end PathCalls

/-- The calls on one path reach the host only with the authority of their slot: the answer is
the error of `path_get`, or the host's answer on the access the slot grants with the call's
right. -/
theorem pathCall_authority {α : Type} {sys sys' : Sys} {fd : Nat} {lookup : Lookup}
    {rightsBase : Rights} {mallocOk : Bool} {host : PathAccess → Except Errno α}
    {r : Except Errno α} (h : pathCall sys fd lookup rightsBase mallocOk host = .ok (sys', r)) :
    (∃ e, pathGet sys fd lookup rightsBase 0 mallocOk = .ok (sys', .error e) ∧ r = .error e) ∨
    ∃ pa, sys.Grants fd rightsBase lookup pa ∧ r = host pa := by
  rcases pathCall_cases h with he | ⟨_, _, pa, hg, rfl⟩
  · exact .inl he
  · exact .inr ⟨pa, (pathGet_grants hg).1, rfl⟩

/-- The lookup that reads the slot's host descriptor back as whether it is 3, the descriptor of
the object of slot 0 of `oneFile`. -/
def numberLookup : Lookup := fun n => .ok (.ok ⟨[], [], n == 3, none⟩)

theorem pathCall_authority_oneFile :
    ∃ sys', pathCall oneFile 0 numberLookup 0 true (fun pa => .ok pa.follow) =
        .ok (sys', .ok true) ∧
      ∃ pa, oneFile.Grants 0 0 numberLookup pa ∧
        (.ok true : Except Errno Bool) = .ok pa.follow := by
  obtain ⟨sys', h⟩ : ∃ sys', pathCall oneFile 0 numberLookup 0 true (fun pa => .ok pa.follow) =
      .ok (sys', .ok true) := ⟨_, rfl⟩
  refine ⟨sys', h, ?_⟩
  rcases pathCall_authority h with ⟨_, -, he⟩ | hg
  · cases he
  · exact hg

/-- The calls on two paths reach the host only with the authority of both slots: the answer is
the error of the first `path_get`, or of the second once the first lease is taken, or the host's
answer on the accesses the two slots grant with the call's rights. -/
theorem pathCall2_authority {α : Type} {sys sys' : Sys} {fd1 fd2 : Nat} {lookup1 lookup2 : Lookup}
    {rightsBase1 rightsBase2 : Rights} {malloc1Ok malloc2Ok : Bool}
    {host : PathAccess → PathAccess → Except Errno α} {r : Except Errno α}
    (h : pathCall2 sys fd1 lookup1 rightsBase1 malloc1Ok fd2 lookup2 rightsBase2 malloc2Ok host =
      .ok (sys', r)) :
    (∃ s e, r = .error e ∧ (pathGet sys fd1 lookup1 rightsBase1 0 malloc1Ok = .ok (s, .error e) ∨
      ∃ s₁ lease, pathGet sys fd1 lookup1 rightsBase1 0 malloc1Ok = .ok (s₁, .ok lease) ∧
        pathGet s₁ fd2 lookup2 rightsBase2 0 malloc2Ok = .ok (s, .error e))) ∨
    ∃ pa1 pa2, sys.Grants fd1 rightsBase1 lookup1 pa1 ∧ sys.Grants fd2 rightsBase2 lookup2 pa2 ∧
      r = host pa1 pa2 := by
  rcases pathCall2_cases h with he | ⟨_, _, pa1, _, _, pa2, hg1, hg2, rfl⟩
  · exact .inl he
  · obtain ⟨g1, g2⟩ := pathGet_grants₂ hg1 hg2
    exact .inr ⟨pa1, pa2, g1, g2, rfl⟩

theorem pathCall2_authority_oneFile :
    ∃ sys', pathCall2 oneFile 0 numberLookup 0 true 0 numberLookup 0 true
        (fun pa1 pa2 => .ok (pa1.follow && pa2.follow)) = .ok (sys', .ok true) ∧
      ∃ pa1 pa2, oneFile.Grants 0 0 numberLookup pa1 ∧ oneFile.Grants 0 0 numberLookup pa2 ∧
        (.ok true : Except Errno Bool) = .ok (pa1.follow && pa2.follow) := by
  obtain ⟨sys', h⟩ : ∃ sys', pathCall2 oneFile 0 numberLookup 0 true 0 numberLookup 0 true
      (fun pa1 pa2 => .ok (pa1.follow && pa2.follow)) = .ok (sys', .ok true) := ⟨_, rfl⟩
  refine ⟨sys', h, ?_⟩
  rcases pathCall2_authority h with ⟨_, _, he, -⟩ | hg
  · cases he
  · exact hg

end CloudabiEmulator
