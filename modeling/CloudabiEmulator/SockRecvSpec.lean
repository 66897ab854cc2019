import CloudabiEmulator.SockSendSpec
import CloudabiEmulator.TableFrame

/-! What `sys_sock_recv` does with the descriptors it receives. Its loop installs, in order, the
descriptors of the `SCM_RIGHTS` messages the walk visits, and stores the fate of the `j`-th in
`ri_fds[j]`: the number of the slot whose new object owns it, or `-1` once it has been closed.
From every state the threads reach, a call that returns has done this for every descriptor
received and for those alone: `ro_fdslen` counts them, the rest of `ri_fds` is as the caller left
it, and the other fields of `*out` are those of `recvmsg`. The installs only add to the process,
so no slot, object or close is lost and what an early store records stays true. Nothing is
assumed of the host, not even that the descriptors it passes are valid. -/

namespace CloudabiEmulator

open World

/-- The descriptors `sys_sock_recv` installs, in order: those of the `SCM_RIGHTS` messages among
`msgs`. -/
def recvDescriptors (l : CmsgLayout) : List ControlMessage → List Int
  | [] => []
  | c :: cs => (if c.rights then c.descriptors l else []) ++ recvDescriptors l cs

/-- What `ri_fds[j] = v` says of the received descriptor `nfd` in the process `sys`: `v` is `-1`
and `nfd` has been closed, or `v` is the number of a slot whose object owns `nfd`. -/
def Delivered (sys : Sys) (nfd v : Int) : Prop :=
  (v = -1 ∧ HostClose.close nfd ∈ sys.closed) ∨
    ∃ fd : Nat, v = fd ∧ ∃ fe obj, sys.table.entries[fd]? = some (some fe) ∧
      sys.objects fe.object = some obj ∧ obj.number = nfd

/-- What a later process keeps of an earlier one: its occupied slots, its live objects and the
descriptors it has closed. -/
structure Sys.Extends (sys sys' : Sys) : Prop where
  slots : sys.table.Kept sys'.table none
  objects : ∀ (o : Nat) (obj : FdObject), sys.objects o = some obj → sys'.objects o = some obj
  closed : sys.closed <+: sys'.closed

namespace Sys.Extends

variable {sys sys1 sys2 : Sys}

theorem refl (sys : Sys) : sys.Extends sys := ⟨.refl _ _, fun _ _ => id, List.prefix_refl _⟩

theorem trans (h1 : sys.Extends sys1) (h2 : sys1.Extends sys2) : sys.Extends sys2 :=
  ⟨h1.slots.trans h2.slots, fun o obj h => h2.objects o obj (h1.objects o obj h),
    h1.closed.trans h2.closed⟩

theorem close (sys : Sys) (c : HostClose) : sys.Extends { sys with closed := sys.closed ++ [c] } :=
  ⟨.refl _ _, fun _ _ => id, List.prefix_append _ _⟩

/-- Releasing an object the earlier process did not have keeps what the later one extends. -/
theorem release {fo : Nat} (he : sys.Extends sys1) (hfo : sys.objects fo = none)
    (h : fdObjectRelease sys1 fo = .ok sys2) : sys.Extends sys2 := by
  have hne : ∀ o obj, sys.objects o = some obj → o ≠ fo := by
    rintro o obj hobj rfl
    rw [hfo] at hobj
    cases hobj
  refine ⟨he.slots.trans (.of_eq (fdObjectRelease_table h)), fun o obj hobj => ?_, ?_⟩
  · obtain ⟨_, -, ⟨-, c, -, rfl⟩ | ⟨-, rfl⟩⟩ := fdObjectRelease_spec h <;>
      simpa [hne o obj hobj] using he.objects o obj hobj
  · obtain ⟨_, -, ⟨-, c, -, rfl⟩ | ⟨-, rfl⟩⟩ := fdObjectRelease_spec h
    · exact he.closed.trans (List.prefix_append _ _)
    · exact he.closed

end Sys.Extends

theorem Delivered.mono {sys sys' : Sys} {nfd v : Int} (he : sys.Extends sys') :
    Delivered sys nfd v → Delivered sys' nfd v
  | .inl ⟨hv, hc⟩ => .inl ⟨hv, he.closed.subset hc⟩
  | .inr ⟨fd, hv, fe, obj, hocc, hobj, hnum⟩ =>
    .inr ⟨fd, hv, fe, obj, he.slots _ _ nofun hocc, he.objects _ _ hobj, hnum⟩

section Install

variable {m : RightsMasks} {sys sys' : Sys} {nfd : Int} {type : FileType}
  {rightsBase rightsInheriting : Rights} {mallocOk reallocOk : Bool} {draws : List Nat}

/-- A descriptor `fd_table_insert_fd` reports installed is owned by the object of its slot. -/
theorem fdTableInsertFd_slot {fd : Nat}
    (h : fdTableInsertFd sys nfd type rightsBase rightsInheriting mallocOk reallocOk draws =
      .ok (sys', .ok fd)) :
    ∃ fe obj, sys'.table.entries[fd]? = some (some fe) ∧ sys'.objects fe.object = some obj ∧
      obj.number = nfd := by
  unfold fdTableInsertFd at h
  split at h
  · cases h
  · next s fo hnew =>
    obtain ⟨hobj, -, -⟩ := fdObjectNew_spec hnew
    obtain ⟨x, hl, h⟩ := Except.bind_eq_ok h
    rcases x with _ | ⟨t', fd'⟩
    · obtain ⟨_, -, h⟩ := Except.bind_eq_ok h
      cases h
    · cases h
      exact ⟨_, _, fdTableInsertLocked_attached hl, setNumber_objects_self hobj nfd, rfl⟩

variable (hfresh : ∀ o obj, sys.objects o = some obj → o < sys.nextObject)
include hfresh

/-- `fd_table_insert_fd` only adds to the process: its object is the next one, which no live
object is, and the slot it fills was free. -/
theorem fdTableInsertFd_extends {r : Except Errno Nat}
    (h : fdTableInsertFd sys nfd type rightsBase rightsInheriting mallocOk reallocOk draws =
      .ok (sys', r)) : sys.Extends sys' := by
  unfold fdTableInsertFd at h
  split at h
  · cases h
    exact .close sys _
  · next s fo hnew =>
    obtain ⟨rfl, -, hkeep⟩ := fdObjectNew_fresh hnew
    obtain ⟨-, hclosed, htable⟩ := fdObjectNew_spec hnew
    have h1 : sys.Extends (s.setNumber sys.nextObject nfd) := by
      refine ⟨.of_eq (by rw [Sys.setNumber_table, htable]), fun o obj hobj => ?_,
        by simp only [Sys.setNumber_closed, hclosed, List.prefix_refl]⟩
      have hne := (hfresh o obj hobj).ne
      rw [Sys.setNumber_objects, if_neg hne, hkeep o hne, hobj]
    obtain ⟨x, hl, h⟩ := Except.bind_eq_ok h
    rcases x with _ | ⟨t', fd⟩
    · obtain ⟨s', hrel, h⟩ := Except.bind_eq_ok h
      cases h
      have hfo : sys.objects sys.nextObject = none :=
        Option.eq_none_iff_forall_not_mem.mpr fun obj hobj => lt_irrefl _ (hfresh _ obj hobj)
      exact h1.release hfo hrel
    · cases h
      exact ⟨h1.slots.trans (fdTableInsertLocked_kept hl), h1.objects, h1.closed⟩

/-- The install of one received descriptor only adds to the process. -/
theorem sockRecvInstall_extends {info : HostFdInfo} {v : Int}
    (h : sockRecvInstall m sys nfd info mallocOk reallocOk draws = .ok (sys', v)) :
    sys.Extends sys' := by
  unfold sockRecvInstall at h
  split at h
  · cases h
    exact .close sys _
  · obtain ⟨⟨s, r⟩, hins, h⟩ := Except.bind_eq_ok h
    have he := fdTableInsertFd_extends hfresh hins
    cases r <;> cases h
    · exact he.trans (.close s _)
    · exact he

end Install

/-- What the install of one received descriptor stores records its fate. -/
theorem sockRecvInstall_delivered {m : RightsMasks} {sys sys' : Sys} {nfd v : Int}
    {info : HostFdInfo} {mallocOk reallocOk : Bool} {draws : List Nat}
    (h : sockRecvInstall m sys nfd info mallocOk reallocOk draws = .ok (sys', v)) :
    Delivered sys' nfd v := by
  unfold sockRecvInstall at h
  split at h
  · cases h
    exact .inl ⟨rfl, List.mem_concat_self _ _⟩
  · obtain ⟨⟨s, r⟩, hins, h⟩ := Except.bind_eq_ok h
    cases r <;> cases h
    · exact .inl ⟨rfl, List.mem_concat_self _ _⟩
    · exact .inr ⟨_, rfl, fdTableInsertFd_slot hins⟩

/-- The loop of `sys_sock_recv` after it has handled the received descriptors `done`, started
from the process `sys0` and the caller's array `riFds`: the invariant holds with the references
`held` of the other threads, the process extends `sys0`, `fdslen` counts `done`, each of
`ri_fds[0 .. fdslen)` records the fate of its descriptor, and the rest of the array is as the
caller left it. -/
structure RecvState.Handled (held : List Nat) (sys0 : Sys) (riFds done : List Int)
    (st : RecvState) : Prop where
  inv : World.Inv ⟨st.sys, held⟩
  kept : sys0.Extends st.sys
  fdslen : st.fdslen = done.length
  length : st.riFds.length = riFds.length
  rest : st.riFds.drop done.length = riFds.drop done.length
  delivered : List.Forall₂ (Delivered st.sys) done (st.riFds.take done.length)

section Loop

variable {m : RightsMasks} {l : CmsgLayout} {answers : Nat → InstallAnswers} {held : List Nat}
  {sys0 : Sys} {riFds done : List Int} {st st' : RecvState}

theorem RecvState.Handled.start (hi : World.Inv ⟨sys0, held⟩) :
    RecvState.Handled held sys0 riFds [] ⟨sys0, riFds, 0⟩ :=
  ⟨hi, .refl sys0, rfl, rfl, rfl, .nil⟩

/-- One turn of the inner loop: install the descriptor, store its fate at `ri_fds[fdslen]`. -/
theorem RecvState.Handled.install {nfd v : Int} {info : HostFdInfo} {mallocOk reallocOk : Bool}
    {draws : List Nat} {sys1 : Sys} {riFds1 : List Int} (hst : st.Handled held sys0 riFds done)
    (hins : sockRecvInstall m st.sys nfd info mallocOk reallocOk draws = .ok (sys1, v))
    (hw : writeFd st.riFds st.fdslen v = .ok riFds1) :
    RecvState.Handled held sys0 riFds (done ++ [nfd]) ⟨sys1, riFds1, st.fdslen + 1⟩ := by
  have hruns : Ends st.sys [] (sockRecvInstall m st.sys nfd info mallocOk reallocOk draws) :=
    sockRecvInstall_ends m nfd info mallocOk reallocOk draws
  rw [hins] at hruns
  have he := sockRecvInstall_extends (fun _ _ hobj => hst.inv.lt_next_of_live hobj) hins
  unfold writeFd at hw
  split at hw
  · next hlt =>
    cases hw
    have hj := hst.fdslen
    have hlen : (done ++ [nfd]).length = st.fdslen + 1 := by
      rw [List.length_append, List.length_singleton, hj]
    refine ⟨World.Inv.of_steps (hruns held) hst.inv, hst.kept.trans he, hlen.symm,
      (List.length_set ..).trans hst.length, ?_, ?_⟩ <;> dsimp only <;> rw [hlen]
    · rw [List.drop_set_of_lt _ _ (Nat.lt_add_one _), ← List.drop_drop, ← List.drop_drop, hj,
        hst.rest]
    · rw [List.take_succ, List.getElem?_set_self hlt, List.set_take,
        List.set_eq_of_length_le (List.length_take_le _ _), hj]
      exact List.rel_append (hst.delivered.imp fun _ _ => Delivered.mono he)
        (.cons (sockRecvInstall_delivered hins) .nil)
  · cases hw

theorem recvFds_handled {nfds : List Int} (hst : st.Handled held sys0 riFds done)
    (h : recvFds m answers st nfds = .ok st') : st'.Handled held sys0 riFds (done ++ nfds) := by
  induction nfds generalizing st done with
  | nil =>
    cases h
    simpa using hst
  | cons nfd nfds ih =>
    obtain ⟨⟨s, v⟩, hins, h⟩ := Except.bind_eq_ok h
    obtain ⟨riFds1, hw, h⟩ := Except.bind_eq_ok h
    simpa using ih (hst.install hins hw) h

theorem recvMessages_handled {msgs : List ControlMessage} (hst : st.Handled held sys0 riFds done)
    (h : recvMessages m l answers st msgs = .ok st') :
    st'.Handled held sys0 riFds (done ++ recvDescriptors l msgs) := by
  induction msgs generalizing st done with
  | nil =>
    cases h
    simpa [recvDescriptors] using hst
  | cons c cs ih =>
    rw [recvMessages] at h
    split at h
    · next hr =>
      obtain ⟨st1, h1, h⟩ := Except.bind_eq_ok h
      simpa [recvDescriptors, hr] using ih (recvFds_handled hst h1) h
    · next hr =>
      obtain ⟨st1, h1, h⟩ := Except.bind_eq_ok h
      cases h1
      simpa [recvDescriptors, hr] using ih hst h

end Loop

section Reachable

variable {w : World} (h : Relation.ReflTransGen Step World.init w)
include h

/-- Received descriptors are delivered: from every reachable state, a call that returns reports
`recvmsg`'s lengths and bits, `ro_fdslen` the number of descriptors the walk visits, the fate of
the `j`-th in `ri_fds[j]`, the rest of `ri_fds` untouched, and keeps every slot, object and close. -/
theorem sysSockRecv_delivers (m : RightsMasks) (l : CmsgLayout) (sock : Nat) (riFds : List Int)
    (mallocOk : Bool) (recvmsg : Nat → Except Errno RecvAnswer) (answers : Nat → InstallAnswers)
    {sys' : Sys} {riFds' : List Int} {out : RecvOut}
    (hrun : sysSockRecv m l w.sys sock riFds mallocOk recvmsg answers =
      .ok (sys', .ok (riFds', out))) :
    ∃ a nfds, recvmsg (recvControllen l riFds.length) = .ok a ∧
      nfds = recvDescriptors l (walk l a.controllen a.msgs) ∧
      out = ⟨a.datalen, nfds.length, a.ctrunc, a.trunc⟩ ∧ w.sys.Extends sys' ∧
      riFds'.length = riFds.length ∧ riFds'.drop nfds.length = riFds.drop nfds.length ∧
      List.Forall₂ (Delivered sys') nfds (riFds'.take nfds.length) := by
  have hi := reachable_inv h
  unfold sysSockRecv at hrun
  split at hrun
  · cases hrun
  obtain ⟨⟨s, r⟩, hcall, hrun⟩ := Except.bind_eq_ok hrun
  rcases r with e | a
  · cases hrun
  obtain ⟨type, ha⟩ := (fdObjectCall_answer hcall).resolve_left fun ⟨_, he⟩ => by cases he
  rw [fdObjectCall_eq_spec (fun _ _ => hi.refcount_pos)] at hcall
  obtain rfl : s = w.sys := objectCallSpec_sys hcall
  obtain ⟨st, hext, hrun⟩ := Except.bind_eq_ok hrun
  cases hrun
  have hst := recvMessages_handled
    (RecvState.Handled.start hi : RecvState.Handled w.held w.sys riFds [] ⟨w.sys, riFds, 0⟩) hext
  rw [List.nil_append] at hst
  exact ⟨a, _, ha, rfl, by rw [hst.fdslen], hst.kept, hst.length, hst.rest, hst.delivered⟩

omit h in
/-- Two descriptors received on slot 0 of `oneFile` that `fstat` rejects: both are closed and
`ri_fds` holds `-1` for each. -/
theorem sysSockRecv_delivers_rejected :
    ∃ sys', sysSockRecv default glibcLp64 oneFile 0 [0, 0] true (fun _ => .ok twoFdsAnswer)
        (fun _ => rejectedAnswers) = .ok (sys', .ok ([-1, -1], ⟨0, 2, false, false⟩)) ∧
      List.Forall₂ (Delivered sys') [3, 3] [-1, -1] := by
  obtain ⟨sys', hrun⟩ : ∃ sys', sysSockRecv default glibcLp64 oneFile 0 [0, 0] true
      (fun _ => .ok twoFdsAnswer) (fun _ => rejectedAnswers) =
        .ok (sys', .ok ([-1, -1], ⟨0, 2, false, false⟩)) := ⟨_, rfl⟩
  obtain ⟨a, nfds, ha, rfl, -, -, -, -, hd⟩ := sysSockRecv_delivers oneFile_world default
    glibcLp64 0 [0, 0] true (fun _ => .ok twoFdsAnswer) (fun _ => rejectedAnswers) hrun
  cases ha
  exact ⟨sys', hrun, hd⟩

end Reachable

end CloudabiEmulator
