import CloudabiEmulator.ObjectLifetime
import CloudabiEmulator.SockSend

/-! The system calls of the table as sequences of atomic steps. Run by one thread from any
state, whatever the other threads hold, each call is a sequence of `Step`s of the interleaving
model that ends with the thread holding no reference: every reference it takes (a lease of
`fd_object_get`, a new object, an object detached by `sys_fd_close` or `sys_fd_replace`) is
given to the table or released, on every path that returns. -/

namespace CloudabiEmulator

open World

/-- The state `sys'` is reached from `sys` by atomic steps of one thread that starts holding
the references `mine` and ends holding `mine'`, whatever the other threads hold. -/
def Runs (sys : Sys) (mine : List Nat) (sys' : Sys) (mine' : List Nat) : Prop :=
  ∀ held, Relation.ReflTransGen Step ⟨sys, mine ++ held⟩ ⟨sys', mine' ++ held⟩

namespace Runs

variable {sys sys1 sys2 : Sys} {mine mine1 mine2 : List Nat}

theorem refl (sys : Sys) (mine : List Nat) : Runs sys mine sys mine := fun _ => .refl

theorem trans (h1 : Runs sys mine sys1 mine1) (h2 : Runs sys1 mine1 sys2 mine2) :
    Runs sys mine sys2 mine2 :=
  fun held => (h1 held).trans (h2 held)

theorem new {o : Nat} {type : FileType} (number : Int)
    (h : fdObjectNew sys type true = .ok (sys1, o)) :
    Runs sys mine (sys1.setNumber o number) (o :: mine) :=
  fun _ => .single (Step.new type number h)

theorem get {fd o : Nat} {rightsBase rightsInheriting : Rights}
    (h : fdObjectGetLocked sys fd rightsBase rightsInheriting = .ok (sys1, .ok o)) :
    Runs sys mine sys1 (o :: mine) :=
  fun _ => .single (Step.get fd rightsBase rightsInheriting h)

theorem release {o : Nat} (hmem : o ∈ mine) (h : fdObjectRelease sys o = .ok sys1) :
    Runs sys mine sys1 (mine.erase o) := fun held => by
  have step := Step.release (w := ⟨sys, mine ++ held⟩) (List.mem_append_left held hmem) h
  rw [List.erase_append_left held hmem] at step
  exact .single step

theorem insert {t : FdTable} {o fd : Nat} {rightsBase rightsInheriting : Rights} {reallocOk : Bool}
    {draws : List Nat} (hmem : o ∈ mine)
    (h : fdTableInsertLocked sys.table o rightsBase rightsInheriting reallocOk draws =
      .ok (some (t, fd))) :
    Runs sys mine { sys with table := t } (mine.erase o) := fun held => by
  have step := Step.insert (w := ⟨sys, mine ++ held⟩) rightsBase rightsInheriting reallocOk draws
    (List.mem_append_left held hmem) h
  rw [List.erase_append_left held hmem] at step
  exact .single step

theorem insertPair {t : FdTable} {o1 o2 fd1 fd2 : Nat}
    {rightsBase1 rightsBase2 rightsInheriting : Rights} {reallocOk : Bool} {draws : List Nat}
    (hmem1 : o1 ∈ mine) (hmem2 : o2 ∈ mine.erase o1)
    (h : fdTableInsertFdpairLocked sys.table o1 o2 rightsBase1 rightsBase2 rightsInheriting
      reallocOk draws = .ok (some (t, fd1, fd2))) :
    Runs sys mine { sys with table := t } ((mine.erase o1).erase o2) := fun held => by
  have step := Step.insertPair (w := ⟨sys, mine ++ held⟩) rightsBase1 rightsBase2
    rightsInheriting reallocOk draws (List.mem_append_left held hmem1)
    (by rw [List.erase_append_left held hmem1]; exact List.mem_append_left held hmem2) h
  rw [List.erase_append_left held hmem1, List.erase_append_left held hmem2] at step
  exact .single step

theorem insertExisting {t : FdTable} {slot o : Nat} {rightsBase rightsInheriting : Rights}
    {reallocOk : Bool} (hmem : o ∈ mine)
    (h : fdTableInsertExistingLocked sys.table slot o rightsBase rightsInheriting reallocOk =
      .ok (some t)) :
    Runs sys mine { sys with table := t } (mine.erase o) := fun held => by
  have step := Step.insertExisting (w := ⟨sys, mine ++ held⟩) rightsBase rightsInheriting
    reallocOk (List.mem_append_left held hmem) h
  rw [List.erase_append_left held hmem] at step
  exact .single step

theorem close {t : FdTable} {fd o : Nat} (h : sysFdCloseLocked sys.table fd = .ok (.ok (t, o))) :
    Runs sys mine { sys with table := t } (o :: mine) :=
  fun _ => .single (Step.close h)

theorem replace {src dst o : Nat} (h : sysFdReplaceLocked sys src dst = .ok (sys1, .ok o)) :
    Runs sys mine sys1 (o :: mine) :=
  fun _ => .single (Step.replace h)

theorem dup {src fd : Nat} {reallocOk : Bool} {draws : List Nat}
    (h : sysFdDup sys src reallocOk draws = .ok (sys1, .ok fd)) : Runs sys mine sys1 mine :=
  fun _ => .single (Step.dup reallocOk draws h)

theorem statPutRights {fd : Nat} {base inheriting : Rights}
    (h : sysFdStatPutRights sys fd base inheriting = .ok (sys1, .ok ())) :
    Runs sys mine sys1 mine :=
  fun _ => .single (Step.statPutRights base inheriting h)

theorem hostClose (nfd : Int) :
    Runs sys mine { sys with closed := sys.closed ++ [.close nfd] } mine :=
  fun _ => .single (Step.hostClose nfd)

/-- A run of a thread that starts and ends with no reference of its own, while it holds `mine`. -/
theorem frame (h : Runs sys [] sys1 []) (mine : List Nat) : Runs sys mine sys1 mine :=
  fun held => by simpa using h (mine ++ held)

end Runs

/-- What a call may end in, run by a thread that holds `mine`: a fault, or a state the thread
reaches by atomic steps holding no reference of its own any more. -/
def Ends {α : Type} (sys : Sys) (mine : List Nat) : Except Fault (Sys × α) → Prop
  | .error _ => True
  | .ok (sys', _) => Runs sys mine sys' []

section Ends

variable {α : Type} {sys : Sys} {mine : List Nat}

theorem Ends.of_runs {sys1 : Sys} {mine1 : List Nat} {x : Except Fault (Sys × α)}
    (h : Runs sys mine sys1 mine1) (hx : Ends sys1 mine1 x) : Ends sys mine x := by
  cases x with
  | error => trivial
  | ok r => exact h.trans hx

theorem Ends.bind {β : Type} {x : Except Fault (Sys × β)} {k : Sys × β → Except Fault (Sys × α)}
    (hx : Ends sys mine x) (hk : ∀ s r, Ends s [] (k (s, r))) : Ends sys mine (x >>= k) := by
  cases x with
  | error => trivial
  | ok r => exact Ends.of_runs hx (hk r.1 r.2)

theorem Ends.bind_release {o : Nat} {k : Sys → Except Fault (Sys × α)} (hmem : o ∈ mine)
    (h : ∀ s, Ends s (mine.erase o) (k s)) : Ends sys mine (fdObjectRelease sys o >>= k) := by
  cases hrel : fdObjectRelease sys o with
  | error => trivial
  | ok s => exact Ends.of_runs (Runs.release hmem hrel) (h s)

end Ends

section Calls

variable {sys : Sys}

theorem fdTableInsert_ends (fo : Nat) (rightsBase rightsInheriting : Rights) (reallocOk : Bool)
    (draws : List Nat) :
    Ends sys [fo] (fdTableInsert sys fo rightsBase rightsInheriting reallocOk draws) := by
  have hmem := List.mem_singleton_self fo
  unfold fdTableInsert
  cases h : fdTableInsertLocked sys.table fo rightsBase rightsInheriting reallocOk draws with
  | error => trivial
  | ok r =>
    rcases r with _ | ⟨t, fd⟩
    · exact Ends.bind_release hmem fun s => by simpa using Runs.refl s []
    · simpa using Runs.insert hmem h

theorem fdTableInsertFd_ends (nfd : Int) (type : FileType) (rightsBase rightsInheriting : Rights)
    (mallocOk reallocOk : Bool) (draws : List Nat) :
    Ends sys []
      (fdTableInsertFd sys nfd type rightsBase rightsInheriting mallocOk reallocOk draws) := by
  unfold fdTableInsertFd
  cases h : fdObjectNew sys type mallocOk with
  | error => exact Runs.hostClose nfd
  | ok r =>
    obtain ⟨sys1, fo⟩ := r
    cases mallocOk
    · simp [fdObjectNew] at h
    · exact Ends.of_runs (Runs.new nfd h) (fdTableInsert_ends fo _ _ _ _)

theorem fdTableInsertFdpair_ends (nfd1 nfd2 : Int) (type : FileType)
    (rightsBase1 rightsBase2 rightsInheriting : Rights) (malloc1Ok malloc2Ok reallocOk : Bool)
    (draws : List Nat) :
    Ends sys [] (fdTableInsertFdpair sys nfd1 nfd2 type rightsBase1 rightsBase2 rightsInheriting
      malloc1Ok malloc2Ok reallocOk draws) := by
  unfold fdTableInsertFdpair
  cases h1 : fdObjectNew sys type malloc1Ok with
  | error => simpa using (@Runs.hostClose sys [] nfd1).trans (Runs.hostClose nfd2)
  | ok r1 =>
    obtain ⟨sys1, fo1⟩ := r1
    cases malloc1Ok
    · simp [fdObjectNew] at h1
    refine Ends.of_runs (Runs.new nfd1 h1) ?_
    dsimp only
    cases h2 : fdObjectNew (sys1.setNumber fo1 nfd1) type malloc2Ok with
    | error =>
      exact Ends.bind_release (List.mem_singleton_self fo1) fun s => by
        simpa using @Runs.hostClose s [] nfd2
    | ok r2 =>
      obtain ⟨sys2, fo2⟩ := r2
      cases malloc2Ok
      · simp [fdObjectNew] at h2
      refine Ends.of_runs (Runs.new nfd2 h2) ?_
      dsimp only
      have herase : [fo2, fo1].erase fo1 = [fo2] := by by_cases h : fo2 = fo1 <;> simp [h]
      cases h : fdTableInsertFdpairLocked (sys2.setNumber fo2 nfd2).table fo1 fo2 rightsBase1
        rightsBase2 rightsInheriting reallocOk draws with
      | error => trivial
      | ok r =>
        rcases r with _ | ⟨t, fd1, fd2⟩
        · refine Ends.bind_release (by simp) fun s => ?_
          rw [herase]
          exact Ends.bind_release (List.mem_singleton_self fo2) fun s' => by
            simpa using Runs.refl s' []
        · have : Runs (sys2.setNumber fo2 nfd2) [fo2, fo1] _ (([fo2, fo1].erase fo1).erase fo2) :=
            Runs.insertPair (by simp) (by simp [herase]) h
          rwa [herase, List.erase_cons_head] at this

theorem fdTableInsertExisting_ends (m : RightsMasks) (slot : Nat) (out : Int) (info : HostFdInfo)
    (mallocOk reallocOk : Bool) :
    Ends sys [] (fdTableInsertExisting m sys slot out info mallocOk reallocOk) := by
  unfold fdTableInsertExisting
  cases fdDetermineTypeRights m info with
  | error => exact Runs.refl sys []
  | ok r =>
    obtain ⟨type, rightsBase, rightsInheriting⟩ := r
    dsimp only
    cases h : fdObjectNew sys type mallocOk with
    | error => exact Runs.refl sys []
    | ok r =>
      obtain ⟨sys1, fo⟩ := r
      cases mallocOk
      · simp [fdObjectNew] at h
      refine Ends.of_runs (Runs.new out h) ?_
      dsimp only
      have hmem := List.mem_singleton_self fo
      cases hl : fdTableInsertExistingLocked (sys1.setNumber fo out).table slot fo rightsBase
        rightsInheriting reallocOk with
      | error => trivial
      | ok r =>
        rcases r with _ | t
        · exact Ends.bind_release hmem fun s => by simpa using Runs.refl s []
        · simpa using Runs.insertExisting hmem hl

theorem sysFdClose_ends (fd : Nat) : Ends sys [] (sysFdClose sys fd) := by
  unfold sysFdClose
  cases h : sysFdCloseLocked sys.table fd with
  | error => trivial
  | ok r =>
    rcases r with e | ⟨t, fo⟩
    · exact Runs.refl sys []
    · exact Ends.of_runs (Runs.close h)
        (Ends.bind_release (List.mem_singleton_self fo) fun s => by simpa using Runs.refl s [])

theorem sysFdReplace_ends (hw : sys.table.Wf) (src dst : Nat) :
    Ends sys [] (sysFdReplace sys src dst) := by
  unfold sysFdReplace
  rcases sysFdReplaceLocked_cases hw src dst with
    ⟨e, h, -⟩ | ⟨f, h, -⟩ | ⟨feS, feD, sys1, -, -, -, -, h⟩ <;> rw [h]
  · exact Runs.refl sys []
  · trivial
  · exact Ends.of_runs (Runs.replace h)
      (Ends.bind_release (List.mem_singleton_self _) fun s => by simpa using Runs.refl s [])

theorem sysFdDup_ends (hw : sys.table.Wf) (src : Nat) (reallocOk : Bool) (draws : List Nat) :
    Ends sys [] (sysFdDup sys src reallocOk draws) := by
  rcases sysFdDup_cases hw src reallocOk draws with
    ⟨e, h⟩ | ⟨f, h, -⟩ | ⟨fe, fd, sys1, -, -, -, -, h⟩ <;> rw [h]
  · exact Runs.refl sys []
  · trivial
  · exact Runs.dup h

theorem sysFdStatPutRights_ends (fd : Nat) (base inheriting : Rights) :
    Ends sys [] (sysFdStatPutRights sys fd base inheriting) := by
  rcases sysFdStatPutRights_cases sys fd base inheriting with ⟨e, h⟩ | ⟨fe, -, -, -, h⟩ <;> rw [h]
  · exact Runs.refl sys []
  · exact Runs.statPutRights h

theorem fdObjectCall_ends {α : Type} (fd : Nat) (rightsBase : Rights)
    (host : FileType → Except Errno α) :
    Ends sys [] (fdObjectCall sys fd rightsBase host) := by
  unfold fdObjectCall
  rcases fdObjectGetLocked_cases sys fd rightsBase 0 with
    ⟨e, h⟩ | ⟨f, h, -⟩ | ⟨fe, sys1, -, -, -, -, h⟩ <;> rw [h]
  · exact Runs.refl sys []
  · trivial
  · refine Ends.of_runs (Runs.get h) ?_
    simp only [bind, Except.bind]
    split
    · trivial
    · next obj _ =>
      cases fdNumber obj with
      | error => trivial
      | ok =>
        exact Ends.bind_release (List.mem_singleton_self _) fun s => by simpa using Runs.refl s []

theorem sysFdCreate1_ends (m : RightsMasks) (type : FileType) (shmOpen : Except Errno Int)
    (mallocOk reallocOk : Bool) (draws : List Nat) :
    Ends sys [] (sysFdCreate1 m sys type shmOpen mallocOk reallocOk draws) := by
  unfold sysFdCreate1
  split
  · split
    · exact Runs.refl sys []
    · exact fdTableInsertFd_ends _ _ _ _ _ _ _
  · exact Runs.refl sys []

theorem sysFdCreate2_ends (m : RightsMasks) (type : FileType)
    (socketpair : Except Errno (Int × Int)) (malloc1Ok malloc2Ok reallocOk : Bool)
    (draws : List Nat) :
    Ends sys [] (sysFdCreate2 m sys type socketpair malloc1Ok malloc2Ok reallocOk draws) := by
  unfold sysFdCreate2
  split
  · split
    · exact Runs.refl sys []
    · exact fdTableInsertFdpair_ends _ _ _ _ _ _ _ _ _ _
  · exact Runs.refl sys []

theorem sysFileOpenInstall_ends (m : RightsMasks) (nfd : Int) (info : HostFdInfo)
    (rightsBase rightsInheriting : Rights) (mallocOk reallocOk : Bool) (draws : List Nat) :
    Ends sys [] (sysFileOpenInstall m sys nfd info rightsBase rightsInheriting mallocOk reallocOk
      draws) := by
  unfold sysFileOpenInstall
  split
  · exact Runs.hostClose nfd
  · exact fdTableInsertFd_ends _ _ _ _ _ _ _

theorem sockRecvInstall_ends (m : RightsMasks) (nfd : Int) (info : HostFdInfo)
    (mallocOk reallocOk : Bool) (draws : List Nat) :
    Ends sys [] (sockRecvInstall m sys nfd info mallocOk reallocOk draws) := by
  unfold sockRecvInstall
  split
  · exact Runs.hostClose nfd
  · refine Ends.bind (fdTableInsertFd_ends _ _ _ _ _ _ _) fun s r => ?_
    cases r with
    | ok => exact Runs.refl s []
    | error => exact Runs.hostClose nfd

theorem sockSendAcquire_runs {l : CmsgLayout} {siFds : Nat → Nat} {fosSize controllen : Nat}
    {sys' : Sys} {i n : Nat} {fos : List Nat} {nums : List Int} {err : Option Errno}
    (h : sockSendAcquire l siFds fosSize controllen sys i n = .ok (sys', fos, nums, err))
    (mine : List Nat) : Runs sys mine sys' (fos.reverse ++ mine) := by
  induction n generalizing sys i fos nums mine with
  | zero => cases h; exact Runs.refl _ mine
  | succ n ih =>
    rcases sockSendAcquire_succ_cases h with ⟨e, -, rfl, rfl, -⟩ |
      ⟨fo, sys1, obj, hg, -, -, -, ⟨-, rfl, rfl, -⟩ | ⟨-, -, fos', nums', hrec, rfl, -⟩⟩
    · exact Runs.refl _ mine
    · exact Runs.get hg
    · simpa using (Runs.get hg).trans (ih hrec (fo :: mine))

theorem releaseAll_runs {sys' : Sys} {fos p : List Nat} (h : releaseAll sys fos = .ok sys')
    (hp : p.Perm fos) (mine : List Nat) : Runs sys (p ++ mine) sys' mine := by
  induction fos generalizing sys p with
  | nil =>
    cases h
    rw [List.perm_nil.1 hp]
    exact Runs.refl _ mine
  | cons fo fos ih =>
    obtain ⟨s, hrel, h⟩ := Except.bind_eq_ok h
    have hmem : fo ∈ p := hp.mem_iff.2 (List.mem_cons_self fo fos)
    have hstep := Runs.release (List.mem_append_left mine hmem) hrel
    rw [List.erase_append_left mine hmem] at hstep
    exact hstep.trans (ih h (by simpa using hp.erase fo))

theorem sysSockSend_ends (m : RightsMasks) (l : CmsgLayout) (sock : Nat) (siFds : Nat → Nat)
    (siFdsLen : Nat) (callocOk mallocOk : Bool) (sendmsg : List Int → Except Errno Nat) :
    Ends sys [] (sysSockSend m l sys sock siFds siFdsLen callocOk mallocOk sendmsg) := by
  cases h : sysSockSend m l sys sock siFds siFdsLen callocOk mallocOk sendmsg with
  | error => trivial
  | ok p =>
    rcases sysSockSend_cases h with h | rfl | ⟨_, _, sys1, fos, nums, _, sys2, hacq, hmid, hrel⟩
    · have hc : Ends sys [] (fdObjectCall sys sock m.fdWrite fun _ => sendmsg []) :=
        fdObjectCall_ends _ _ _
      rwa [h] at hc
    · exact Runs.refl _ []
    · have hfos : Runs sys [] sys1 fos.reverse := by simpa using sockSendAcquire_runs hacq []
      have hback : Runs sys2 fos.reverse p.1 [] := by
        simpa using releaseAll_runs hrel (List.reverse_perm fos) []
      refine hfos.trans (Runs.trans ?_ hback)
      rcases hmid with ⟨-, rfl⟩ | ⟨-, r2, hmid⟩
      · exact Runs.refl _ _
      · have hc : Ends sys1 [] (fdObjectCall sys1 sock m.fdWrite fun _ => sendmsg nums) :=
          fdObjectCall_ends _ _ _
        rw [hmid] at hc
        exact Runs.frame hc _

end Calls

theorem Ends.runs_of_map {α : Type} {sys sys' : Sys} {mine : List Nat} {x : Except Fault (Sys × α)}
    (hx : Ends sys mine x) (h : x.map Prod.fst = .ok sys') : Runs sys mine sys' [] := by
  cases x with
  | error => cases h
  | ok r => cases h; exact hx

/-- A call that reaches an object through `fd_object_get` is a sequence of steps that gives
back the reference it took. -/
theorem ObjectCall.run_runs (m : RightsMasks) (c : ObjectCall) {sys sys' : Sys}
    (h : c.run m sys = .ok sys') : Runs sys [] sys' [] := by
  rcases c.shape m sys with h' | ⟨α, fd, rightsBase, host, h'⟩ <;> rw [h'] at h
  · cases h
    exact Runs.refl sys []
  · exact (fdObjectCall_ends fd rightsBase host).runs_of_map h

/-- The system calls of the table and of the objects, each with the host's answers to the
calls it makes. -/
inductive Syscall where
  | fdClose (fd : Nat)
  | fdDup (src : Nat) (reallocOk : Bool) (draws : List Nat)
  | fdReplace (src dst : Nat)
  | fdStatPutRights (fd : Nat) (base inheriting : Rights)
  | objectCall (c : ObjectCall)
  | sockSend (l : CmsgLayout) (sock : Nat) (siFds : Nat → Nat) (siFdsLen : Nat)
      (callocOk mallocOk : Bool) (sendmsg : List Int → Except Errno Nat)
  | fdCreate1 (type : FileType) (shmOpen : Except Errno Int) (mallocOk reallocOk : Bool)
      (draws : List Nat)
  | fdCreate2 (type : FileType) (socketpair : Except Errno (Int × Int))
      (malloc1Ok malloc2Ok reallocOk : Bool) (draws : List Nat)
  | fileOpen (nfd : Int) (info : HostFdInfo) (rightsBase rightsInheriting : Rights)
      (mallocOk reallocOk : Bool) (draws : List Nat)
  | sockRecvInstall (nfd : Int) (info : HostFdInfo) (mallocOk reallocOk : Bool) (draws : List Nat)
  | insertExisting (slot : Nat) (out : Int) (info : HostFdInfo) (mallocOk reallocOk : Bool)

namespace Syscall

/-- The process state a call leaves, or its fault. -/
def run (m : RightsMasks) (sys : Sys) : Syscall → Except Fault Sys
  | fdClose fd => (sysFdClose sys fd).map Prod.fst
  | fdDup src reallocOk draws => (sysFdDup sys src reallocOk draws).map Prod.fst
  | fdReplace src dst => (sysFdReplace sys src dst).map Prod.fst
  | fdStatPutRights fd base inheriting => (sysFdStatPutRights sys fd base inheriting).map Prod.fst
  | objectCall c => c.run m sys
  | sockSend l sock siFds siFdsLen callocOk mallocOk sendmsg =>
    (sysSockSend m l sys sock siFds siFdsLen callocOk mallocOk sendmsg).map Prod.fst
  | fdCreate1 type shmOpen mallocOk reallocOk draws =>
    (sysFdCreate1 m sys type shmOpen mallocOk reallocOk draws).map Prod.fst
  | fdCreate2 type socketpair malloc1Ok malloc2Ok reallocOk draws =>
    (sysFdCreate2 m sys type socketpair malloc1Ok malloc2Ok reallocOk draws).map Prod.fst
  | fileOpen nfd info rightsBase rightsInheriting mallocOk reallocOk draws =>
    (sysFileOpenInstall m sys nfd info rightsBase rightsInheriting mallocOk reallocOk draws).map
      Prod.fst
  | sockRecvInstall nfd info mallocOk reallocOk draws =>
    (CloudabiEmulator.sockRecvInstall m sys nfd info mallocOk reallocOk draws).map Prod.fst
  | insertExisting slot out info mallocOk reallocOk =>
    (fdTableInsertExisting m sys slot out info mallocOk reallocOk).map Prod.fst

/-- Every call that returns is a sequence of atomic steps after which the thread holds no
reference of its own. -/
theorem run_runs (m : RightsMasks) (c : Syscall) {sys sys' : Sys} (hw : sys.table.Wf)
    (h : c.run m sys = .ok sys') : Runs sys [] sys' [] := by
  cases c with
  | fdClose => exact (sysFdClose_ends _).runs_of_map h
  | fdDup => exact (sysFdDup_ends hw _ _ _).runs_of_map h
  | fdReplace => exact (sysFdReplace_ends hw _ _).runs_of_map h
  | fdStatPutRights => exact (sysFdStatPutRights_ends _ _ _).runs_of_map h
  | objectCall c => exact c.run_runs m h
  | sockSend => exact (sysSockSend_ends _ _ _ _ _ _ _ _).runs_of_map h
  | fdCreate1 => exact (sysFdCreate1_ends _ _ _ _ _ _).runs_of_map h
  | fdCreate2 => exact (sysFdCreate2_ends _ _ _ _ _ _ _).runs_of_map h
  | fileOpen => exact (sysFileOpenInstall_ends _ _ _ _ _ _ _ _).runs_of_map h
  | sockRecvInstall => exact (sockRecvInstall_ends _ _ _ _ _ _).runs_of_map h
  | insertExisting => exact (fdTableInsertExisting_ends _ _ _ _ _ _).runs_of_map h

end Syscall

end CloudabiEmulator
