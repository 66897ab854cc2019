import CloudabiEmulator.TableRights

/-! The calls that reach an object through `fd_object_get` only read. In every state the
threads reach, under any interleaving, the reference such a call takes is given back before
it returns, so the call is its read-only specification `objectCallSpec`: the lookup's error,
or the host's answer about the live object of the slot, with the process unchanged; it can
stop only on the assertion of `fd_number`, for an object with no host descriptor. What follows
from the rights the calls ask for: `sys_fd_seek` reports the position to a descriptor that may
not move it, and `sys_mem_map` maps the file of any descriptor, whatever its rights. And the
two `fdstat` calls: `sys_fd_stat_get` reports the rights `sys_fd_stat_put` set, and, on a host
whose flag values share no bit, the flags it set, with `SYNC` for a `DSYNC` or `RSYNC` the host
lacks. On Linux, whose `O_SYNC` holds the bit of `O_DSYNC`, the three synchronous flags read back
together. -/

namespace CloudabiEmulator

open World

/-- What a call of the `fd_object_get` family is for: it answers from the slot and leaves the
process as it was. -/
def objectCallSpec {α : Type} (sys : Sys) (fd : Nat) (rightsBase : Rights)
    (host : FileType → Except Errno α) : Except Fault (Sys × Except Errno α) :=
  match fdTableGetEntry sys.table fd rightsBase 0 with
  | .error e => .ok (sys, .error e)
  | .ok fe =>
    match sys.objects fe.object with
    | none => .error .useAfterFree
    | some obj => (fdNumber obj).map fun _ => (sys, host obj.type)

/-- Releasing a reference just taken on an object that had one gives back the state before. -/
theorem fdObjectRelease_acquire {sys : Sys} {o : Nat} {obj : FdObject}
    (hobj : sys.objects o = some obj) (hpos : 0 < obj.refcount) :
    fdObjectRelease (sys.setObject o (some { obj with refcount := obj.refcount + 1 })) o =
      .ok sys := by
  have hne : obj.refcount + 1 ≠ 1 := by omega
  simp only [fdObjectRelease, Sys.setObject_objects, if_true, hne, if_false, Nat.add_sub_cancel,
    Sys.setObject_setObject]
  exact congrArg Except.ok (Sys.setObject_self hobj)

/-- From a state where every live object has a reference, a call of the family is its
specification. -/
theorem fdObjectCall_eq_spec {α : Type} {sys : Sys}
    (hpos : ∀ o obj, sys.objects o = some obj → 0 < obj.refcount) (fd : Nat) (rightsBase : Rights)
    (host : FileType → Except Errno α) :
    fdObjectCall sys fd rightsBase host = objectCallSpec sys fd rightsBase host := by
  unfold fdObjectCall objectCallSpec fdObjectGetLocked
  cases fdTableGetEntry sys.table fd rightsBase 0 with
  | error e => rfl
  | ok fe =>
    cases hobj : sys.objects fe.object with
    | none => simp [refcountAcquire, hobj, bind, Except.bind]
    | some obj =>
      simp only [refcountAcquire, hobj, bind, Except.bind, pure, Except.pure,
        Sys.setObject_objects, if_true, fdObjectRelease_acquire hobj (hpos _ _ hobj)]
      have hnum : fdNumber { obj with refcount := obj.refcount + 1 } = fdNumber obj := rfl
      rw [hnum]
      cases fdNumber obj <;> rfl

/-- The sequential system calls refine the interleaving model: every state a run of calls
reaches is one the atomic steps reach with no reference in flight. -/
theorem Syscall.Reachable.world {m : RightsMasks} {sys : Sys} (h : Syscall.Reachable m sys) :
    Relation.ReflTransGen Step World.init ⟨sys, []⟩ := by
  induction h with
  | init => exact .refl
  | step c _ hrun ih => exact ih.trans (c.run_runs m (reachable_inv ih).table hrun [])

/-- The process after `sys_file_open` hands host descriptor 3, a regular file, to a fresh
process with the draw `0`: slot 0 holds the first object with the rights `base` and
`inheriting`. -/
def openedFile (base inheriting : Rights) : Sys :=
  { oneFile with table := ⟨[some ⟨0, base, inheriting⟩, none], 1⟩ }

theorem openedFile_open (m : RightsMasks) (base inheriting : Rights) :
    (Syscall.fileOpen 3 regularFileInfo base inheriting true true [0]).run m Sys.init =
      .ok (openedFile (base &&& m.regularFileBase) (inheriting &&& m.regularFileInheriting)) := by
  have hg : growSize 0 2 1 = 2 := by
    rw [growSize_double (by decide) (by decide), growSize_self (by decide)]
  simp [Syscall.run, sysFileOpenInstall, fdDetermineTypeRights, typeMasks, regularFileInfo,
    stripAccessMode, fdTableInsertFd, fdObjectNew, fdTableInsert, fdTableInsertLocked,
    fdTableGrow, Sys.init, fdTableInit, hg, Sys.setNumber, fdTableUnused, unusedLoop,
    randomUniform, fdTableAttach, FdTable.size, openedFile, oneFile, bind, Except.bind, pure,
    Except.pure, Except.map, Sys.setObject]
  funext o
  by_cases h : o = 0 <;> simp [h]

theorem openedFile_world (m : RightsMasks) (base inheriting : Rights) :
    Relation.ReflTransGen Step World.init
      ⟨openedFile (base &&& m.regularFileBase) (inheriting &&& m.regularFileInheriting), []⟩ :=
  Syscall.Reachable.world (.step _ .init (openedFile_open m base inheriting))

theorem oneFile_world : Relation.ReflTransGen Step World.init ⟨oneFile, []⟩ :=
  openedFile_world default 0 0

/-- Masks with distinct bits for `CLOUDABI_RIGHT_FD_SEEK` and `CLOUDABI_RIGHT_FD_TELL`, both of
which a regular file may hold. -/
def seekTellMasks : RightsMasks :=
  { (default : RightsMasks) with fdSeek := 4, fdTell := 32, regularFileBase := 36 }

theorem tellFile_world : Relation.ReflTransGen Step World.init ⟨openedFile 32 0, []⟩ :=
  openedFile_world seekTellMasks 32 0

section Reachable

variable {w : World} (h : Relation.ReflTransGen Step World.init w)
include h

/-- The calls that reach an object through `fd_object_get` only read: from every reachable state
such a call answers the lookup's error or the host's answer about the slot's live object, with
the process unchanged, or stops on the assertion of `fd_number`. -/
theorem fdObjectCall_reachable {α : Type} (fd : Nat) (rightsBase : Rights)
    (host : FileType → Except Errno α) :
    (∃ e, fdTableGetEntry w.sys.table fd rightsBase 0 = .error e ∧
      fdObjectCall w.sys fd rightsBase host = .ok (w.sys, .error e)) ∨
    ∃ fe obj, fdTableGetEntry w.sys.table fd rightsBase 0 = .ok fe ∧
      w.sys.objects fe.object = some obj ∧
      fdObjectCall w.sys fd rightsBase host =
        if 0 ≤ obj.number then .ok (w.sys, host obj.type)
        else .error (.assertion "fd_number() called on virtual file descriptor") := by
  have hi := reachable_inv h
  rw [fdObjectCall_eq_spec (fun _ _ => hi.refcount_pos)]
  unfold objectCallSpec
  cases hget : fdTableGetEntry w.sys.table fd rightsBase 0 with
  | error e => exact .inl ⟨e, rfl, rfl⟩
  | ok fe =>
    obtain ⟨obj, hobj⟩ := hi.live_of_slot (fdTableGetEntry_ok hget)
    refine .inr ⟨fe, obj, rfl, hobj, ?_⟩
    simp only [hobj, fdNumber]
    split <;> rfl

/-- Every call of the family leaves the process as it was, or stops on the assertion of
`fd_number`. -/
theorem ObjectCall.run_readOnly (m : RightsMasks) (c : ObjectCall) :
    c.run m w.sys = .ok w.sys ∨
      c.run m w.sys = .error (.assertion "fd_number() called on virtual file descriptor") := by
  rcases c.shape m w.sys with hc | ⟨α, fd, rightsBase, host, hc⟩
  · exact .inl hc
  · rw [hc]
    rcases fdObjectCall_reachable h fd rightsBase host with ⟨e, -, he⟩ | ⟨fe, obj, -, -, he⟩ <;>
      rw [he]
    · exact .inl rfl
    · split
      · exact .inl rfl
      · exact .inr rfl

omit h in
theorem run_readOnly_oneFile :
    (ObjectCall.fdSeek 0 0 .cur (.ok 7)).run default oneFile = .ok oneFile ∨
      (ObjectCall.fdSeek 0 0 .cur (.ok 7)).run default oneFile =
        .error (.assertion "fd_number() called on virtual file descriptor") :=
  ObjectCall.run_readOnly oneFile_world default _

/-- The answer of a call of the family that gets past its lookup on slot `fd`. -/
theorem fdObjectCall_of_slot {α : Type} {fd : Nat} {fe : FdEntry} {rightsBase : Rights}
    (hocc : w.sys.table.entries[fd]? = some (some fe)) (hb : rightsBase.Subset fe.rightsBase)
    (host : FileType → Except Errno α) :
    ∃ obj, w.sys.objects fe.object = some obj ∧
      fdObjectCall w.sys fd rightsBase host = (fdNumber obj).map fun _ => (w.sys, host obj.type) := by
  have hi := reachable_inv h
  obtain ⟨obj, hobj⟩ := hi.live_of_slot hocc
  refine ⟨obj, hobj, ?_⟩
  rw [fdObjectCall_eq_spec (fun _ _ => hi.refcount_pos), objectCallSpec,
    fdTableGetEntry_of_subset hocc hb (Rights.zero_subset _)]
  simp only [hobj]

/-- `sys_fd_seek` reports the position to a descriptor that may not move it: on a slot holding
`FD_TELL` but not `FD_SEEK`, asking for the position gets the host's answer, and every other
seek is refused before the host is asked. -/
theorem sysFdSeek_tell_only (m : RightsMasks) {fd : Nat} {fe : FdEntry}
    (hocc : w.sys.table.entries[fd]? = some (some fe)) (htell : m.fdTell.Subset fe.rightsBase)
    (hseek : ¬ m.fdSeek.Subset fe.rightsBase) (lseek : Except Errno Nat) :
    (∃ obj, w.sys.objects fe.object = some obj ∧
      sysFdSeek m w.sys fd 0 .cur lseek = (fdNumber obj).map fun _ => (w.sys, lseek)) ∧
    ∀ offset whence, whence ≠ .other → (offset ≠ 0 ∨ whence ≠ .cur) →
      sysFdSeek m w.sys fd offset whence lseek = .ok (w.sys, .error .enotcapable) := by
  refine ⟨?_, fun offset whence hvalid hmove => ?_⟩
  · obtain ⟨obj, hobj, hcall⟩ := fdObjectCall_of_slot h hocc htell fun _ => lseek
    refine ⟨obj, hobj, ?_⟩
    rw [sysFdSeek, if_neg (by decide), if_pos ⟨rfl, rfl⟩]
    exact hcall
  have hno : ¬ (m.fdSeek ||| m.fdTell).Subset fe.rightsBase := fun hs =>
    hseek (Rights.subset_trans (Rights.subset_or_left _ _) hs)
  rw [sysFdSeek, if_neg hvalid, if_neg (by tauto), fdObjectCall_eq_spec
    (fun _ _ => (reachable_inv h).refcount_pos), objectCallSpec, fdTableGetEntry_not_subset hocc hno]

omit h in
theorem sysFdSeek_tell_only_tellFile :
    (∃ obj, (openedFile 32 0).objects 0 = some obj ∧
      sysFdSeek seekTellMasks (openedFile 32 0) 0 0 .cur (.ok 7) =
        (fdNumber obj).map fun _ => (openedFile 32 0, .ok 7)) ∧
    sysFdSeek seekTellMasks (openedFile 32 0) 0 5 .set (.ok 7) =
      .ok (openedFile 32 0, .error .enotcapable) :=
  have h := sysFdSeek_tell_only tellFile_world seekTellMasks
    (rfl : (openedFile 32 0).table.entries[0]? = some (some ⟨0, 32, 0⟩)) (by decide) (by decide)
    (.ok 7)
  ⟨h.1, h.2 5 .set (by decide) (.inl (by decide))⟩

/-- `sys_mem_map` asks for no right: a valid mapping of a file reaches the host for the
descriptor of every occupied slot, whatever the rights of the slot. -/
theorem sysMemMap_any_rights {fd : Nat} {fe : FdEntry}
    (hocc : w.sys.table.entries[fd]? = some (some fe)) {prot : MProt} {flags : MFlags}
    (hprot : convertMprot prot = true) (hflags : flags.priv ≠ flags.shared)
    (hfile : flags.anon = false) (anonFd off : Nat) (mmap : Except Errno Nat) :
    ∃ obj, w.sys.objects fe.object = some obj ∧
      sysMemMap w.sys anonFd prot flags fd off mmap = (fdNumber obj).map fun _ => (w.sys, mmap) := by
  simp only [sysMemMap, hprot, hflags, hfile, Bool.not_true, Bool.false_eq_true, if_false]
  exact fdObjectCall_of_slot h hocc (Rights.zero_subset _) _

omit h in
theorem sysMemMap_any_rights_oneFile :
    ∃ obj, oneFile.objects 0 = some obj ∧
      sysMemMap oneFile 0 ⟨true, false, false, false⟩ ⟨false, false, true, false⟩ 0 0 (.ok 4096) =
        (fdNumber obj).map fun _ => (oneFile, .ok 4096) :=
  sysMemMap_any_rights oneFile_world (rfl : oneFile.table.entries[0]? = some (some ⟨0, 0, 0⟩))
    (rfl : convertMprot ⟨true, false, false, false⟩ = true) (by decide)
    (rfl : (⟨false, false, true, false⟩ : MFlags).anon = false) 0 0 _

end Reachable

section Flags

/-- The values a host gives the flags it defines are nonzero and have no bit in common. -/
def HostConfig.Separate (cfg : HostConfig) : Prop :=
  let values := [cfg.oAppend, cfg.oNonblock, cfg.oSync] ++ cfg.oDsync.toList ++ cfg.oRsync.toList
  (∀ v ∈ values, v ≠ 0) ∧ values.Pairwise fun a b => a &&& b = 0

instance (cfg : HostConfig) : Decidable cfg.Separate := by
  unfold HostConfig.Separate; infer_instance

theorem lor_eq_zero {x y : Nat} : x ||| y = 0 ↔ x = 0 ∧ y = 0 := by
  refine ⟨fun h => ⟨Nat.eq_of_testBit_eq fun i => ?_, Nat.eq_of_testBit_eq fun i => ?_⟩,
    fun ⟨hx, hy⟩ => by rw [hx, hy]; rfl⟩ <;>
  · have := congrArg (Nat.testBit · i) h
    simp only [Nat.testBit_or, Nat.zero_testBit, Bool.or_eq_false_iff] at this
    simp [this]

theorem lor_land_ne_zero (x y c : Nat) :
    ((x ||| y) &&& c != 0) = ((x &&& c != 0) || (y &&& c != 0)) := by
  rw [Nat.and_distrib_right]
  cases hx : (x &&& c != 0) <;> cases hy : (y &&& c != 0) <;> simp_all [lor_eq_zero]

theorem ite_land_ne_zero (p : Bool) (v c : Nat) :
    ((if p then v else 0) &&& c != 0) = (p && (v &&& c != 0)) := by
  cases p <;> simp

theorem bne_zero_of_ne {v : Nat} (h : v ≠ 0) : (v != 0) = true := bne_iff_ne.2 h

/-- What `F_GETFL` finds of a flag's value `c` in the word `sys_fd_stat_put` builds: a bit of it
in the value ORed in for one of the flags set. -/
theorem statPutNoflags_land (cfg : HostConfig) (f : FdFlags) (c : Nat) :
    (statPutNoflags cfg f &&& c != 0) =
      (f.append && (cfg.oAppend &&& c != 0) || f.dsync && (cfg.oDsync.getD cfg.oSync &&& c != 0) ||
        f.nonblock && (cfg.oNonblock &&& c != 0) ||
        f.rsync && (cfg.oRsync.getD cfg.oSync &&& c != 0) || f.sync && (cfg.oSync &&& c != 0)) := by
  simp only [statPutNoflags, lor_land_ne_zero, ite_land_ne_zero]

end Flags

/-- The flag translations of the two `fdstat` calls on a host whose flags are separate:
`sys_fd_stat_get` reads back from the word `sys_fd_stat_put` builds each flag the host defines,
and a `DSYNC` or `RSYNC` it does not define as `SYNC`. -/
theorem statGetFlags_statPutNoflags (cfg : HostConfig) (hsep : cfg.Separate) (f : FdFlags) :
    statGetFlags cfg (statPutNoflags cfg f) =
      ⟨f.append, cfg.oDsync.isSome && f.dsync, f.nonblock, cfg.oRsync.isSome && f.rsync,
        cfg.oDsync.isNone && f.dsync || cfg.oRsync.isNone && f.rsync || f.sync⟩ := by
  obtain ⟨a, _ | d, n, _ | r, s⟩ := cfg <;>
  simp only [HostConfig.Separate, Option.toList, List.cons_append, List.nil_append,
    List.append_nil, List.mem_cons, List.mem_singleton, forall_eq_or_imp, forall_eq,
    List.pairwise_cons, List.not_mem_nil, false_or, List.Pairwise.nil, and_true,
    IsEmpty.forall_iff, implies_true] at hsep <;>
  simp only [statGetFlags, statPutNoflags_land, Option.any_none, Option.any_some,
    Option.getD_none, Option.getD_some, Option.isSome_none, Option.isSome_some,
    Option.isNone_none, Option.isNone_some, Nat.and_self] <;>
  simp [Nat.and_comm, hsep, bne_zero_of_ne]

/-- A host that gives each flag a bit of its own and does not define `O_RSYNC`. -/
def bitPerFlagHost : HostConfig := ⟨1, some 2, 4, none, 8⟩

/-- Without `O_RSYNC`, `RSYNC` comes back as `SYNC`. -/
theorem statGetFlags_statPutNoflags_bitPerFlag :
    bitPerFlagHost.Separate ∧
      statGetFlags bitPerFlagHost (statPutNoflags bitPerFlagHost ⟨false, true, false, true, false⟩) =
        ⟨false, true, false, false, true⟩ :=
  ⟨by decide, (statGetFlags_statPutNoflags bitPerFlagHost (by decide) _).trans rfl⟩

end CloudabiEmulator
