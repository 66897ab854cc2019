import CloudabiEmulator.Syscalls

/-! The descriptor table as the map it stands for. Seen through `FdTable.view`, which forgets the
length of the array and which of its slots are free, a call of `Syscall` that returns does one of
a few things to the map, each in one place: `sys_fd_close` frees its number, `sys_fd_dup` copies
an entry to a free number and `sys_fd_replace` over another, `sys_fd_stat_put` narrows the rights
of one, the calls that make objects add entries at free numbers, and the object calls do
nothing; a call that fails leaves the map as it was. This rests on three facts: `fd_table_grow`
only appends free slots, `fd_table_attach` asserts that the slot it fills is free, and
`fd_table_detach` frees the slot it is given. Slot isolation follows: every occupied slot a call
does not name keeps its entry. Nothing is assumed of the state. -/

namespace CloudabiEmulator

/-- The descriptor table as a map from descriptor numbers to entries. -/
abbrev FdMap := Nat → Option FdEntry

namespace FdMap

/-- `v'` is `v` with one entry more, at a number that was free. -/
def Install (v v' : FdMap) : Prop := ∃ fd e, v fd = none ∧ v' = Function.update v fd (some e)

/-- Every entry of `v` at a number other than `named` is an entry of `v'`. -/
def Keeps (v v' : FdMap) (named : Option Nat) : Prop :=
  ∀ i, named ≠ some i → v i ≠ none → v' i = v i

namespace Keeps

variable {v v₁ v' : FdMap} {named : Option Nat}

theorem refl (v : FdMap) (named : Option Nat) : Keeps v v named := fun _ _ _ => rfl

theorem trans (h₁ : Keeps v v₁ named) (h₂ : Keeps v₁ v' named) : Keeps v v' named :=
  fun i hn hv => (h₂ i hn (h₁ i hn hv ▸ hv)).trans (h₁ i hn hv)

theorem of_update {fd : Nat} {x : Option FdEntry} (h : v' = Function.update v fd x) :
    Keeps v v' (some fd) :=
  fun i hn _ => by rw [h, Function.update_noteq fun e : i = fd => hn (e ▸ rfl)]

/-- Filling a free number keeps every entry. -/
theorem of_update_free {fd : Nat} {x : Option FdEntry} (hfree : v fd = none)
    (h : v' = Function.update v fd x) : Keeps v v' named :=
  fun i _ hv => by rw [h, Function.update_noteq fun e : i = fd => hv (e ▸ hfree)]

theorem of_install (h : Install v v') : Keeps v v' named :=
  let ⟨_, _, hfree, hv⟩ := h
  of_update_free hfree hv

/-- A call that either leaves the map as it was or makes a change that keeps it. -/
theorem of_eq_or {P : Prop} (h : v' = v ∨ P) (hP : P → Keeps v v' named) : Keeps v v' named :=
  h.elim (fun e => e ▸ refl v named) hP

theorem of_install_or (h : v' = v ∨ Install v v') : Keeps v v' named := of_eq_or h of_install

theorem of_installs (h : Relation.ReflTransGen Install v v') : Keeps v v' named := by
  induction h with
  | refl => exact refl v named
  | tail _ hstep ih => exact ih.trans (of_install hstep)

end Keeps

end FdMap

namespace FdTable

/-- The map a table stands for: the entry of each number, `none` for a free slot and for every
number past the end of the array. -/
def view (t : FdTable) : FdMap := fun i => t.entries[i]?.join

variable {t t' : FdTable} {fd : Nat}

@[simp] theorem view_eq_some {i : Nat} {fe : FdEntry} :
    t.view i = some fe ↔ t.entries[i]? = some (some fe) := Option.join_eq_some

theorem view_of_free (h : t.entries[fd]? = some none) : t.view fd = none := by
  simp [view, h]

/-- Storing `x` in a slot of the array stores it in the map. -/
theorem view_set (hlt : fd < t.size) (x : Option FdEntry) (used : Nat) :
    (⟨t.entries.set fd x, used⟩ : FdTable).view = Function.update t.view fd x := by
  funext i
  simp only [view, getElem?_set_of_lt hlt, Function.update_apply]
  split <;> rfl

/-- Growing the array only appends free slots: the map is the same. -/
theorem view_grow {min incr : Nat} {reallocOk : Bool}
    (h : fdTableGrow t min incr reallocOk = some t') : t'.view = t.view := by
  obtain ⟨⟨k, rfl⟩, -⟩ := fdTableGrow_spec h
  funext i
  simp only [view]
  rcases Nat.lt_or_ge i t.entries.length with hi | hi
  · rw [List.getElem?_append_left hi]
  · rw [List.getElem?_append_right hi, List.getElem?_replicate, List.getElem?_eq_none hi]
    split <;> rfl

theorem view_attach {fo : Nat} {rightsBase rightsInheriting : Rights}
    (h : fdTableAttach t fd fo rightsBase rightsInheriting = .ok t') :
    t.view fd = none ∧
      t'.view = Function.update t.view fd (some ⟨fo, rightsBase, rightsInheriting⟩) := by
  obtain ⟨hfree, rfl⟩ := fdTableAttach_spec h
  exact ⟨view_of_free hfree, view_set (lt_size_of_getElem? hfree) _ _⟩

theorem install_of_attach {fo : Nat} {rightsBase rightsInheriting : Rights}
    (h : fdTableAttach t fd fo rightsBase rightsInheriting = .ok t') :
    FdMap.Install t.view t'.view :=
  let ⟨hfree, hv⟩ := view_attach h
  ⟨fd, _, hfree, hv⟩

theorem view_detach {fo : Nat} (h : fdTableDetach t fd = .ok (t', fo)) :
    (∃ fe, t.view fd = some fe ∧ fe.object = fo) ∧
      t'.view = Function.update t.view fd none := by
  unfold fdTableDetach at h
  split at h
  · next hlt =>
    split at h
    · next fe hfe =>
      split at h
      · cases h
        exact ⟨⟨fe, view_eq_some.2 hfe, rfl⟩, view_set hlt none _⟩
      · cases h
    · cases h
  · cases h

/-- Every occupied slot of `t` other than `named` holds the same entry in `t'`. -/
def Kept (t t' : FdTable) (named : Option Nat) : Prop :=
  ∀ (i : Nat) (fe : FdEntry), named ≠ some i → t.entries[i]? = some (some fe) →
    t'.entries[i]? = some (some fe)

namespace Kept

variable {t1 t2 : FdTable} {named : Option Nat}

theorem refl (t : FdTable) (named : Option Nat) : t.Kept t named := fun _ _ _ => id

theorem of_eq (h : t1 = t) : t.Kept t1 named := h ▸ refl t named

theorem trans (h1 : t.Kept t1 named) (h2 : t1.Kept t2 named) : t.Kept t2 named :=
  fun i fe hn h => h2 i fe hn (h1 i fe hn h)

/-- A table keeps the slots whose entries its map keeps. -/
theorem of_keeps (h : FdMap.Keeps t.view t1.view named) : t.Kept t1 named := fun i fe hn hocc => by
  have hv : t.view i = some fe := view_eq_some.2 hocc
  exact view_eq_some.1 ((h i hn (by simp [hv])).trans hv)

end Kept

end FdTable

open FdTable

section Inserts

variable {m : RightsMasks} {sys sys' : Sys} {nfd : Int} {type : FileType}
  {rightsBase rightsInheriting : Rights} {mallocOk reallocOk : Bool} {draws : List Nat}

/-- The critical section of `fd_table_insert` fills a slot that was free. -/
theorem fdTableInsertLocked_view {t t' : FdTable} {fo fd : Nat}
    (h : fdTableInsertLocked t fo rightsBase rightsInheriting reallocOk draws =
      .ok (some (t', fd))) :
    t.view fd = none ∧
      t'.view = Function.update t.view fd (some ⟨fo, rightsBase, rightsInheriting⟩) := by
  unfold fdTableInsertLocked at h
  split at h
  · cases h
  · next tg hg =>
    obtain ⟨_, -, h⟩ := Except.bind_eq_ok h
    obtain ⟨t'', hatt, h⟩ := Except.bind_eq_ok h
    cases h
    rw [← view_grow hg]
    exact view_attach hatt

theorem fdTableInsertLocked_kept {t t' : FdTable} {fo fd : Nat}
    (h : fdTableInsertLocked t fo rightsBase rightsInheriting reallocOk draws =
      .ok (some (t', fd))) : t.Kept t' none :=
  let ⟨hfree, hv⟩ := fdTableInsertLocked_view h
  .of_keeps (.of_update_free hfree hv)

theorem fdTableInsert_view {fo : Nat} {r : Except Errno Nat}
    (h : fdTableInsert sys fo rightsBase rightsInheriting reallocOk draws = .ok (sys', r)) :
    sys'.table.view = sys.table.view ∨ FdMap.Install sys.table.view sys'.table.view := by
  obtain ⟨x, hl, h⟩ := Except.bind_eq_ok h
  rcases x with _ | ⟨t', fd⟩
  · obtain ⟨s, hrel, h⟩ := Except.bind_eq_ok h
    cases h
    exact .inl (congrArg view (fdObjectRelease_table hrel))
  · cases h
    obtain ⟨hfree, hv⟩ := fdTableInsertLocked_view hl
    exact .inr ⟨fd, _, hfree, hv⟩

theorem fdTableInsertFd_view {r : Except Errno Nat}
    (h : fdTableInsertFd sys nfd type rightsBase rightsInheriting mallocOk reallocOk draws =
      .ok (sys', r)) :
    sys'.table.view = sys.table.view ∨ FdMap.Install sys.table.view sys'.table.view := by
  unfold fdTableInsertFd at h
  split at h
  · cases h
    exact .inl rfl
  · next s fo hnew =>
    have ht : (s.setNumber fo nfd).table = sys.table := by
      rw [Sys.setNumber_table, fdObjectNew_table hnew]
    exact ht ▸ fdTableInsert_view h

/-- The critical section of `fd_table_insert_fdpair` fills two slots that were free, one after
the other. -/
theorem fdTableInsertFdpairLocked_view {t t' : FdTable} {fo1 fo2 fd1 fd2 : Nat}
    {rightsBase1 rightsBase2 : Rights}
    (h : fdTableInsertFdpairLocked t fo1 fo2 rightsBase1 rightsBase2 rightsInheriting reallocOk
      draws = .ok (some (t', fd1, fd2))) :
    ∃ v₁, FdMap.Install t.view v₁ ∧ FdMap.Install v₁ t'.view := by
  unfold fdTableInsertFdpairLocked at h
  split at h
  · cases h
  · next tg hg =>
    obtain ⟨_, -, h⟩ := Except.bind_eq_ok h
    obtain ⟨t1, hatt1, h⟩ := Except.bind_eq_ok h
    obtain ⟨_, -, h⟩ := Except.bind_eq_ok h
    obtain ⟨t2, hatt2, h⟩ := Except.bind_eq_ok h
    cases h
    rw [← view_grow hg]
    exact ⟨t1.view, install_of_attach hatt1, install_of_attach hatt2⟩

theorem fdTableInsertFdpair_view {nfd1 nfd2 : Int} {rightsBase1 rightsBase2 : Rights}
    {malloc1Ok malloc2Ok : Bool} {r : Except Errno (Nat × Nat)}
    (h : fdTableInsertFdpair sys nfd1 nfd2 type rightsBase1 rightsBase2 rightsInheriting malloc1Ok
      malloc2Ok reallocOk draws = .ok (sys', r)) :
    sys'.table.view = sys.table.view ∨
      ∃ v₁, FdMap.Install sys.table.view v₁ ∧ FdMap.Install v₁ sys'.table.view := by
  unfold fdTableInsertFdpair at h
  split at h
  · cases h
    exact .inl rfl
  · next s1 fo1 hnew1 =>
    have ht1 : (s1.setNumber fo1 nfd1).table = sys.table := by
      rw [Sys.setNumber_table, fdObjectNew_table hnew1]
    dsimp only at h
    split at h
    · obtain ⟨s, hrel, h⟩ := Except.bind_eq_ok h
      cases h
      exact .inl (congrArg view ((fdObjectRelease_table hrel).trans ht1))
    · next s2 fo2 hnew2 =>
      have ht2 : (s2.setNumber fo2 nfd2).table = sys.table := by
        rw [Sys.setNumber_table, fdObjectNew_table hnew2, ht1]
      obtain ⟨x, hl, h⟩ := Except.bind_eq_ok h
      rcases x with _ | ⟨t', fd1, fd2⟩
      · obtain ⟨s, hrel1, h⟩ := Except.bind_eq_ok h
        obtain ⟨s', hrel2, h⟩ := Except.bind_eq_ok h
        cases h
        exact .inl (congrArg view ((fdObjectRelease_table hrel2).trans
          ((fdObjectRelease_table hrel1).trans ht2)))
      · cases h
        exact .inr (ht2 ▸ fdTableInsertFdpairLocked_view hl)

theorem fdTableInsertExisting_view {slot : Nat} {out : Int} {info : HostFdInfo} {r : Bool}
    (h : fdTableInsertExisting m sys slot out info mallocOk reallocOk = .ok (sys', r)) :
    sys'.table.view = sys.table.view ∨ ∃ e, sys.table.view slot = none ∧
      sys'.table.view = Function.update sys.table.view slot (some e) := by
  unfold fdTableInsertExisting at h
  split at h
  · cases h
    exact .inl rfl
  · split at h
    · cases h
      exact .inl rfl
    · next s fo hnew =>
      have ht : (s.setNumber fo out).table = sys.table := by
        rw [Sys.setNumber_table, fdObjectNew_table hnew]
      obtain ⟨x, hl, h⟩ := Except.bind_eq_ok h
      rcases x with _ | t'
      · obtain ⟨s', hrel, h⟩ := Except.bind_eq_ok h
        cases h
        exact .inl (congrArg view ((fdObjectRelease_table hrel).trans ht))
      · cases h
        unfold fdTableInsertExistingLocked at hl
        split at hl
        · cases hl
        · next tg hg =>
          obtain ⟨t'', hatt, hl⟩ := Except.map_eq_ok hl
          cases hl
          rw [← ht, ← view_grow hg]
          exact .inr ⟨_, view_attach hatt⟩

theorem sysFileOpenInstall_view {info : HostFdInfo} {r : Except Errno Nat}
    (h : sysFileOpenInstall m sys nfd info rightsBase rightsInheriting mallocOk reallocOk draws =
      .ok (sys', r)) :
    sys'.table.view = sys.table.view ∨ FdMap.Install sys.table.view sys'.table.view := by
  unfold sysFileOpenInstall at h
  split at h
  · cases h
    exact .inl rfl
  · exact fdTableInsertFd_view h

theorem sysFileOpenInstall_kept {info : HostFdInfo} {r : Except Errno Nat}
    (h : sysFileOpenInstall m sys nfd info rightsBase rightsInheriting mallocOk reallocOk draws =
      .ok (sys', r)) : sys.table.Kept sys'.table none :=
  .of_keeps (.of_install_or (sysFileOpenInstall_view h))

theorem sockRecvInstall_view {info : HostFdInfo} {v : Int}
    (h : sockRecvInstall m sys nfd info mallocOk reallocOk draws = .ok (sys', v)) :
    sys'.table.view = sys.table.view ∨ FdMap.Install sys.table.view sys'.table.view := by
  unfold sockRecvInstall at h
  split at h
  · cases h
    exact .inl rfl
  · obtain ⟨⟨s, r⟩, hins, h⟩ := Except.bind_eq_ok h
    have hk := fdTableInsertFd_view hins
    cases r <;> cases h <;> exact hk

end Inserts

section SockRecv

variable {m : RightsMasks} {l : CmsgLayout} {answers : Nat → InstallAnswers} {st st' : RecvState}

theorem recvFds_view {nfds : List Int} (h : recvFds m answers st nfds = .ok st') :
    Relation.ReflTransGen FdMap.Install st.sys.table.view st'.sys.table.view := by
  induction nfds generalizing st with
  | nil =>
    cases h
    exact .refl
  | cons nfd nfds ih =>
    obtain ⟨⟨s, v⟩, hins, h⟩ := Except.bind_eq_ok h
    obtain ⟨_, -, h⟩ := Except.bind_eq_ok h
    refine .trans ?_ (ih h)
    rcases sockRecvInstall_view hins with hv | hv
    · exact hv ▸ .refl
    · exact .single hv

theorem recvMessages_view {msgs : List ControlMessage}
    (h : recvMessages m l answers st msgs = .ok st') :
    Relation.ReflTransGen FdMap.Install st.sys.table.view st'.sys.table.view := by
  induction msgs generalizing st with
  | nil =>
    cases h
    exact .refl
  | cons c cs ih =>
    rw [recvMessages] at h
    split at h <;> obtain ⟨st1, h1, h⟩ := Except.bind_eq_ok h
    · exact (recvFds_view h1).trans (ih h)
    · cases h1
      exact ih h

/-- `sys_sock_recv` only adds entries at free numbers: the receive does not touch the table and
each install of a received descriptor fills a free slot. -/
theorem sysSockRecv_view {sys sys' : Sys} {sock : Nat} {riFds : List Int} {mallocOk : Bool}
    {recvmsg : Nat → Except Errno RecvAnswer} {r : Except Errno (List Int × RecvOut)}
    (h : sysSockRecv m l sys sock riFds mallocOk recvmsg answers = .ok (sys', r)) :
    Relation.ReflTransGen FdMap.Install sys.table.view sys'.table.view := by
  unfold sysSockRecv at h
  split at h
  · cases h
    exact .refl
  obtain ⟨⟨s, r1⟩, hcall, h⟩ := Except.bind_eq_ok h
  rw [← fdObjectCall_table hcall]
  rcases r1 with e | a
  · cases h
    exact .refl
  · obtain ⟨st, hext, h⟩ := Except.bind_eq_ok h
    cases h
    exact recvMessages_view hext

theorem sysSockRecv_kept {sys sys' : Sys} {sock : Nat} {riFds : List Int} {mallocOk : Bool}
    {recvmsg : Nat → Except Errno RecvAnswer} {r : Except Errno (List Int × RecvOut)}
    (h : sysSockRecv m l sys sock riFds mallocOk recvmsg answers = .ok (sys', r)) :
    sys.table.Kept sys'.table none :=
  .of_keeps (.of_installs (sysSockRecv_view h))

end SockRecv

section Calls

variable {m : RightsMasks} {sys sys' : Sys}

theorem sysFdClose_view {fd : Nat} {r : Except Errno Unit} (h : sysFdClose sys fd = .ok (sys', r)) :
    sys'.table.view = sys.table.view ∨
      sys.table.view fd ≠ none ∧ sys'.table.view = Function.update sys.table.view fd none := by
  obtain ⟨x, hl, h⟩ := Except.bind_eq_ok h
  unfold sysFdCloseLocked at hl
  split at hl
  · cases hl
    cases h
    exact .inl rfl
  · obtain ⟨⟨t, fo⟩, hdet, hl⟩ := Except.map_eq_ok hl
    cases hl
    obtain ⟨s, hrel, h⟩ := Except.bind_eq_ok h
    cases h
    obtain ⟨⟨fe, hfe, -⟩, hv⟩ := view_detach hdet
    rw [fdObjectRelease_table hrel]
    exact .inr ⟨by simp [hfe], hv⟩

theorem sysFdDup_view {src : Nat} {reallocOk : Bool} {draws : List Nat} {r : Except Errno Nat}
    (h : sysFdDup sys src reallocOk draws = .ok (sys', r)) :
    sys'.table.view = sys.table.view ∨ ∃ fd, sys.table.view fd = none ∧
      sys.table.view src ≠ none ∧
      sys'.table.view = Function.update sys.table.view fd (sys.table.view src) := by
  unfold sysFdDup at h
  split at h
  · cases h
    exact .inl rfl
  · next fe hfe =>
    split at h
    · cases h
      exact .inl rfl
    · next tg hg =>
      split at h
      · cases h
      · obtain ⟨_, -, h⟩ := Except.bind_eq_ok h
        obtain ⟨s, hacq, h⟩ := Except.bind_eq_ok h
        obtain ⟨t', hatt, h⟩ := Except.bind_eq_ok h
        cases h
        rw [refcountAcquire_table hacq] at hatt
        obtain ⟨hfree, hv⟩ := view_attach hatt
        have hsrc : sys.table.view src = some fe := view_eq_some.2 (fdTableGetEntry_ok hfe)
        rw [view_grow hg] at hfree hv
        exact .inr ⟨_, hfree, by simp [hsrc], by rw [hv, hsrc]⟩

theorem sysFdReplace_view {src dst : Nat} {r : Except Errno Unit}
    (h : sysFdReplace sys src dst = .ok (sys', r)) :
    sys'.table.view = sys.table.view ∨ src ≠ dst ∧ sys.table.view src ≠ none ∧
      sys.table.view dst ≠ none ∧
      sys'.table.view = Function.update sys.table.view dst (sys.table.view src) := by
  obtain ⟨⟨s, x⟩, hl, h⟩ := Except.bind_eq_ok h
  have hk : s.table.view = sys.table.view ∨ src ≠ dst ∧ sys.table.view src ≠ none ∧
      sys.table.view dst ≠ none ∧
      s.table.view = Function.update sys.table.view dst (sys.table.view src) := by
    unfold sysFdReplaceLocked at hl
    split at hl
    · cases hl
      exact .inl rfl
    · split at hl
      · cases hl
        exact .inl rfl
      · obtain ⟨⟨t, fo⟩, hdet, hl⟩ := Except.bind_eq_ok hl
        obtain ⟨s1, hacq, hl⟩ := Except.bind_eq_ok hl
        split at hl
        · cases hl
        · next fe hfe =>
          obtain ⟨t', hatt, hl⟩ := Except.bind_eq_ok hl
          cases hl
          rw [refcountAcquire_table hacq] at hatt
          obtain ⟨⟨feD, hD, -⟩, hvt⟩ := view_detach hdet
          have hsrc : t.view src = some fe := hfe
          have hne : src ≠ dst := by
            rintro rfl
            rw [hvt, Function.update_same] at hsrc
            cases hsrc
          rw [hvt, Function.update_noteq hne] at hsrc
          refine .inr ⟨hne, by simp [hsrc], by simp [hD], ?_⟩
          rw [(view_attach hatt).2, hvt, Function.update_idem, hsrc]
  rcases x with e | fo
  · cases h
    exact hk
  · obtain ⟨s', hrel, h⟩ := Except.bind_eq_ok h
    cases h
    exact fdObjectRelease_table hrel ▸ hk

theorem sysFdStatPutRights_view {fd : Nat} {base inheriting : Rights} {r : Except Errno Unit}
    (h : sysFdStatPutRights sys fd base inheriting = .ok (sys', r)) :
    sys'.table.view = sys.table.view ∨ ∃ fe, sys.table.view fd = some fe ∧
      base.Subset fe.rightsBase ∧ inheriting.Subset fe.rightsInheriting ∧
      sys'.table.view = Function.update sys.table.view fd (some ⟨fe.object, base, inheriting⟩) := by
  unfold sysFdStatPutRights at h
  split at h
  · cases h
    exact .inl rfl
  · next fe hfe =>
    cases h
    obtain ⟨hb, hi⟩ := fdTableGetEntry_rights hfe
    have hocc := fdTableGetEntry_ok hfe
    exact .inr ⟨fe, view_eq_some.2 hocc, hb, hi, view_set (lt_size_of_getElem? hocc) _ _⟩

theorem ObjectCall.run_table (c : ObjectCall) (h : c.run m sys = .ok sys') :
    sys'.table = sys.table := by
  rcases c.shape m sys with hc | ⟨α, fd, rightsBase, host, hc⟩ <;> rw [hc] at h
  · cases h
    rfl
  · obtain ⟨⟨s, r⟩, hcall, h⟩ := Except.map_eq_ok h
    cases h
    exact fdObjectCall_table hcall

/-- What a call of `Syscall` may do to the map: the calls on the table do what their names say,
the object calls and `sys_sock_send` nothing, and the calls that make objects add entries at
free numbers. Each may leave the map as it was, when it fails. -/
def Syscall.OnMap : Syscall → FdMap → FdMap → Prop
  | .fdClose fd, v, v' => v' = v ∨ v fd ≠ none ∧ v' = Function.update v fd none
  | .fdDup src _ _, v, v' =>
    v' = v ∨ ∃ fd, v fd = none ∧ v src ≠ none ∧ v' = Function.update v fd (v src)
  | .fdReplace src dst, v, v' =>
    v' = v ∨ src ≠ dst ∧ v src ≠ none ∧ v dst ≠ none ∧ v' = Function.update v dst (v src)
  | .fdStatPutRights fd base inheriting, v, v' =>
    v' = v ∨ ∃ fe, v fd = some fe ∧ base.Subset fe.rightsBase ∧
      inheriting.Subset fe.rightsInheriting ∧
      v' = Function.update v fd (some ⟨fe.object, base, inheriting⟩)
  | .objectCall _, v, v' => v' = v
  | .sockSend .., v, v' => v' = v
  | .fdCreate1 .., v, v' => v' = v ∨ FdMap.Install v v'
  | .fdCreate2 .., v, v' => v' = v ∨ ∃ v₁, FdMap.Install v v₁ ∧ FdMap.Install v₁ v'
  | .fileOpen .., v, v' => v' = v ∨ FdMap.Install v v'
  | .sockRecvInstall .., v, v' => v' = v ∨ FdMap.Install v v'
  | .insertExisting slot .., v, v' =>
    v' = v ∨ ∃ e, v slot = none ∧ v' = Function.update v slot (some e)

/-- The table refines the map: every call of `Syscall` that returns changes the map as
`Syscall.OnMap` says. -/
theorem Syscall.run_onMap (c : Syscall) (h : c.run m sys = .ok sys') :
    c.OnMap sys.table.view sys'.table.view := by
  cases c <;> simp only [Syscall.run, Syscall.OnMap] at h ⊢
  case objectCall c => exact congrArg view (c.run_table h)
  all_goals obtain ⟨⟨s, r⟩, hc, rfl⟩ := Except.map_eq_ok h
  case fdClose => exact sysFdClose_view hc
  case fdDup => exact sysFdDup_view hc
  case fdReplace => exact sysFdReplace_view hc
  case fdStatPutRights => exact sysFdStatPutRights_view hc
  case sockSend => exact congrArg view (sysSockSend_table hc)
  case fdCreate1 =>
    unfold sysFdCreate1 at hc
    split at hc
    · split at hc
      · cases hc
        exact .inl rfl
      · exact fdTableInsertFd_view hc
    · cases hc
      exact .inl rfl
  case fdCreate2 =>
    unfold sysFdCreate2 at hc
    split at hc
    · split at hc
      · cases hc
        exact .inl rfl
      · exact fdTableInsertFdpair_view hc
    · cases hc
      exact .inl rfl
  case fileOpen => exact sysFileOpenInstall_view hc
  case sockRecvInstall => exact sockRecvInstall_view hc
  case insertExisting => exact fdTableInsertExisting_view hc

/-- The slot a call names: the one `sys_fd_close` frees, the target of `sys_fd_replace`, the
one whose rights `sys_fd_stat_put` rewrites. -/
def Syscall.names : Syscall → Option Nat
  | .fdClose fd => some fd
  | .fdReplace _ dst => some dst
  | .fdStatPutRights fd _ _ => some fd
  | _ => none

/-- What a call does to the map keeps every entry at a number it does not name. -/
theorem Syscall.OnMap.keeps {c : Syscall} {v v' : FdMap} (h : c.OnMap v v') :
    FdMap.Keeps v v' c.names := by
  cases c <;> simp only [Syscall.OnMap, Syscall.names] at h ⊢
  case fdClose => exact .of_eq_or h fun ⟨_, hv⟩ => .of_update hv
  case fdDup => exact .of_eq_or h fun ⟨_, hfree, _, hv⟩ => .of_update_free hfree hv
  case fdReplace => exact .of_eq_or h fun ⟨_, _, _, hv⟩ => .of_update hv
  case fdStatPutRights => exact .of_eq_or h fun ⟨_, _, _, _, hv⟩ => .of_update hv
  case objectCall | sockSend => exact h ▸ .refl v _
  case fdCreate2 =>
    exact .of_eq_or h fun ⟨_, h1, h2⟩ => (FdMap.Keeps.of_install h1).trans (.of_install h2)
  case insertExisting => exact .of_eq_or h fun ⟨_, hfree, hv⟩ => .of_update_free hfree hv
  all_goals exact .of_install_or h

/-- Every call of `Syscall` that returns keeps the entry of every occupied slot it does not
name. -/
theorem Syscall.run_kept (c : Syscall) (h : c.run m sys = .ok sys') :
    sys.table.Kept sys'.table c.names :=
  .of_keeps (c.run_onMap h).keeps

end Calls

end CloudabiEmulator
