import CloudabiEmulator.TableInvariant

/-! What happens to a host descriptor the emulator is handed: `fd_table_insert_fd` either
installs it in exactly one new object in the table, or closes it exactly once. The
installation of descriptors received by `sys_sock_recv` closes it a second time on the
second path. -/

namespace CloudabiEmulator

/-- The host descriptor a `close` or `closedir` gives back. -/
def HostClose.fd : HostClose → Int
  | .close fd => fd
  | .closedir fd => fd

/-- How many times the process has given host descriptor `nfd` back. -/
def timesClosed (sys : Sys) (nfd : Int) : Nat := sys.closed.countP (·.fd == nfd)

/-- Releasing the only reference to an object that owns host descriptor `nfd` and has no
directory stream closes `nfd` once. -/
theorem fdObjectRelease_last {sys : Sys} {o : Nat} {type : FileType} {nfd : Int} (hnfd : 0 ≤ nfd)
    (h : sys.objects o = some ⟨1, type, nfd, false⟩) :
    fdObjectRelease sys o =
      .ok { sys.setObject o none with closed := sys.closed ++ [.close nfd] } := by
  simp [fdObjectRelease, h, releaseClose, fdNumber, hnfd, Except.map]

theorem fdTableAttach_entries {t t' : FdTable} {fd fo : Nat} {rightsBase rightsInheriting : Rights}
    (h : fdTableAttach t fd fo rightsBase rightsInheriting = .ok t') :
    t'.entries[fd]? = some (some ⟨fo, rightsBase, rightsInheriting⟩) := by
  unfold fdTableAttach at h
  split at h
  · split at h
    · dsimp only at h
      split at h <;> cases h
      exact List.getElem?_set_self ‹_›
    · cases h
  · cases h

theorem fdTableInsertLocked_attached {t t' : FdTable} {fo fd : Nat}
    {rightsBase rightsInheriting : Rights} {reallocOk : Bool} {draws : List Nat}
    (h : fdTableInsertLocked t fo rightsBase rightsInheriting reallocOk draws =
      .ok (some (t', fd))) :
    t'.entries[fd]? = some (some ⟨fo, rightsBase, rightsInheriting⟩) := by
  unfold fdTableInsertLocked at h
  split at h
  · cases h
  · next tg _ =>
    cases hun : fdTableUnused tg draws with
    | error f => rw [hun] at h; cases h
    | ok q =>
      cases hatt : fdTableAttach tg q.1 fo rightsBase rightsInheriting with
      | error f => simp [hun, hatt, bind, Except.bind] at h
      | ok t'' =>
        simp only [hun, hatt, bind, Except.bind, pure, Except.pure, Except.ok.injEq,
          Option.some.injEq, Prod.mk.injEq] at h
        obtain ⟨rfl, rfl⟩ := h
        exact fdTableAttach_entries hatt

/-- `fd_table_insert_fd` owns the descriptor it is given: when it fails it has closed it
exactly once, and when it succeeds the slot it returns holds an object whose descriptor it is,
and nothing was closed. -/
theorem fdTableInsertFd_owns {sys sys' : Sys} {nfd : Int} {type : FileType}
    {rightsBase rightsInheriting : Rights} {mallocOk reallocOk : Bool} {draws : List Nat}
    {r : Except Errno Nat} (hnfd : 0 ≤ nfd)
    (h : fdTableInsertFd sys nfd type rightsBase rightsInheriting mallocOk reallocOk draws =
      .ok (sys', r)) :
    match r with
    | .error _ => sys'.closed = sys.closed ++ [.close nfd]
    | .ok fd => sys'.closed = sys.closed ∧ ∃ fe obj, sys'.table.entries[fd]? = some (some fe) ∧
        sys'.objects fe.object = some obj ∧ obj.number = nfd := by
  unfold fdTableInsertFd at h
  split at h
  · cases h
    rfl
  · next sys1 fo hnew =>
    obtain ⟨hobj, hclosed, -⟩ := fdObjectNew_spec hnew
    unfold fdTableInsert at h
    cases hl : fdTableInsertLocked (sys1.setNumber fo nfd).table fo rightsBase rightsInheriting
      reallocOk draws with
    | error f => rw [hl] at h; cases h
    | ok x =>
      rw [hl] at h
      cases x with
      | none =>
        rw [fdObjectRelease_last hnfd (setNumber_objects_self hobj nfd)] at h
        cases h
        simp [hclosed]
      | some p =>
        cases h
        exact ⟨by simp [hclosed], _, _, fdTableInsertLocked_attached hl,
          setNumber_objects_self hobj nfd, rfl⟩

theorem fdTableInsertFd_fails {sys : Sys} {nfd : Int} {type : FileType}
    {rightsBase rightsInheriting : Rights} {mallocOk reallocOk : Bool} (draws : List Nat)
    (hnfd : 0 ≤ nfd) (hfail : mallocOk = false ∨ fdTableGrow sys.table 0 1 reallocOk = none) :
    ∃ sys', fdTableInsertFd sys nfd type rightsBase rightsInheriting mallocOk reallocOk draws =
      .ok (sys', .error .enomem) := by
  cases mallocOk with
  | false => exact ⟨_, rfl⟩
  | true =>
    have hgrow : fdTableGrow sys.table 0 1 reallocOk = none := by simpa using hfail
    cases hnew : fdObjectNew sys type true with
    | error e => simp [fdObjectNew] at hnew
    | ok p =>
      obtain ⟨hobj, -, htable⟩ := fdObjectNew_spec hnew
      simp only [fdTableInsertFd, hnew, fdTableInsert, fdTableInsertLocked, Sys.setNumber_table,
        htable, hgrow,
        fdObjectRelease_last hnfd (setNumber_objects_self hobj nfd)]
      exact ⟨_, rfl⟩

/-- `sys_sock_recv` installs a received descriptor `nfd` of a known type with
`fd_table_insert_fd`; when that fails for want of memory (`fd_object_new` or `fd_table_grow`),
`fd_table_insert_fd` has already closed `nfd`, and `sys_sock_recv` closes it again. -/
theorem sockRecvInstall_closes_twice {m : RightsMasks} {sys : Sys} {nfd : Int}
    {info : HostFdInfo} {type : FileType} {base inheriting : Rights} {mallocOk reallocOk : Bool}
    (draws : List Nat) (hnfd : 0 ≤ nfd)
    (htype : fdDetermineTypeRights m info = .ok (type, base, inheriting))
    (hfail : mallocOk = false ∨ fdTableGrow sys.table 0 1 reallocOk = none) :
    ∃ sys', sockRecvInstall m sys nfd info mallocOk reallocOk draws = .ok (sys', -1) ∧
      sys'.closed = sys.closed ++ [.close nfd, .close nfd] := by
  obtain ⟨s, hins⟩ : ∃ s, fdTableInsertFd sys nfd type base inheriting mallocOk reallocOk draws =
      .ok (s, .error .enomem) := fdTableInsertFd_fails draws hnfd hfail
  have hclosed : s.closed = sys.closed ++ [.close nfd] := fdTableInsertFd_owns hnfd hins
  refine ⟨_, by simp only [sockRecvInstall, htype, hins]; rfl, ?_⟩
  simp [hclosed]

/-- A regular file whose access mode strips nothing. -/
def regularFileInfo : HostFdInfo := ⟨.ok .reg, false, .error .enotsup, .other⟩

theorem sockRecvInstall_malloc_failure :
    ∃ sys', sockRecvInstall default Sys.init 4 regularFileInfo false true [] = .ok (sys', -1) ∧
      sys'.closed = Sys.init.closed ++ [.close 4, .close 4] :=
  sockRecvInstall_closes_twice [] (by decide) rfl (.inl rfl)

end CloudabiEmulator
