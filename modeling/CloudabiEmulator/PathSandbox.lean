import CloudabiEmulator.FileOpen
import CloudabiEmulator.PathConfinement

/-! The sandbox of the emulated build. A call on a path reaches the host only on the access its
slot grants, and with the emulated `path_get` that access is one the confinement of the lookup
bounds: on every tree and every host that answers according to it, the host is handed a
directory below the one the descriptor of the slot's object names, with `follow` false and a
residual path that is `.` or one component, while the slot holds the right the call asks for. -/

namespace CloudabiEmulator

open Path

/-- Slot `fd` of `sys` holds the base rights `rightsBase`, and the access `pa` names a residual
path in a directory below the one that `dirOf` gives for the host descriptor of the slot's
object, with `follow` false. -/
def Sys.Confines (sys : Sys) (fs : Tree) (dirOf : Int → Dir) (fd : Nat) (rightsBase : Rights)
    (pa : PathAccess) : Prop :=
  ∃ fe obj, sys.table.entries[fd]? = some (some fe) ∧ rightsBase.Subset fe.rightsBase ∧
    sys.objects fe.object = some obj ∧ Below fs (dirOf obj.number) pa.fd ∧ pa.follow = false ∧
    ResidualPath fs pa.fd pa.path

section Sandbox

variable {fs : Tree} {host : Host} {dirOf : Int → Dir} {sys : Sys} {fd : Nat} {rightsBase : Rights}
  {follow needsFinalComponent : Bool} {path : List Char} {pa : PathAccess}

/-- A lease of the emulated `path_get` names a residual path in a directory below its base. -/
theorem pathGetEmulated_lease (hsound : host.Sound fs) {base : Dir}
    (h : pathGetEmulated host base follow needsFinalComponent path = .ok (.ok pa)) :
    Below fs base pa.fd ∧ pa.follow = false ∧ ResidualPath fs pa.fd pa.path := by
  obtain ⟨s, _, _, hrun, rfl⟩ := finish_ok h
  obtain ⟨t, hst, ht⟩ := @run_exits host base follow needsFinalComponent (initState path)
  rw [hrun] at ht
  have hinit : Confined fs base (initState path) := fun d hd => by simp [initState] at hd
  obtain ⟨hs, hpath⟩ := step_success hsound (hst.confined hsound hinit) ht
  exact ⟨hs.top_below, rfl, hpath⟩

theorem Sys.Grants.confines (hsound : host.Sound fs)
    (h : sys.Grants fd rightsBase (Resolver.emulated host dirOf follow needsFinalComponent path) pa) :
    sys.Confines fs dirOf fd rightsBase pa :=
  let ⟨fe, obj, hocc, hb, hobj, hl⟩ := h
  ⟨fe, obj, hocc, hb, hobj, pathGetEmulated_lease hsound hl⟩

end Sandbox

/-- The calls on one path, with the emulated `path_get` on a host that answers according to the
tree: the answer is the error of `path_get`, or the host's answer on an access confined below
the directory of the slot, which holds the call's right. -/
theorem pathCall_sandbox {α : Type} {fs : Tree} {host : Host} (hsound : host.Sound fs)
    {dirOf : Int → Dir} {follow needsFinalComponent : Bool} {path : List Char} {sys sys' : Sys}
    {fd : Nat} {rightsBase : Rights} {mallocOk : Bool} {hostCall : PathAccess → Except Errno α}
    {r : Except Errno α}
    (h : pathCall sys fd (Resolver.emulated host dirOf follow needsFinalComponent path) rightsBase
      mallocOk hostCall = .ok (sys', r)) :
    (∃ e, pathGet sys fd (Resolver.emulated host dirOf follow needsFinalComponent path)
      rightsBase 0 mallocOk = .ok (sys', .error e) ∧ r = .error e) ∨
    ∃ pa, sys.Confines fs dirOf fd rightsBase pa ∧ r = hostCall pa := by
  rcases pathCall_cases h with he | ⟨_, _, pa, hg, rfl⟩
  · exact .inl he
  · exact .inr ⟨pa, (pathGet_grants hg).1.confines hsound, rfl⟩

theorem pathGetEmulated_allDirectories_a :
    pathGetEmulated (Host.ofTree allDirectories .eloop) [] false true ['a'] =
      .ok (.ok ⟨[], ['a'], false, some 0⟩) := by
  rw [pathGetEmulated, run_of_exit (rfl : step (Host.ofTree allDirectories .eloop) [] false true
    (initState ['a']) = .exit (.success _ ['a'] (some 0)))]
  rfl

theorem pathCall_sandbox_oneFile :
    ∃ sys', pathCall oneFile 0 (Resolver.emulated (Host.ofTree allDirectories .eloop)
        (fun _ => []) false true ['a']) 0 true (fun pa => .ok pa.path) = .ok (sys', .ok ['a']) ∧
      ∃ pa, oneFile.Confines allDirectories (fun _ => []) 0 0 pa ∧
        (.ok ['a'] : Except Errno (List Char)) = .ok pa.path := by
  obtain ⟨sys', h⟩ : ∃ sys', pathCall oneFile 0 (Resolver.emulated (Host.ofTree allDirectories
      .eloop) (fun _ => []) false true ['a']) 0 true (fun pa => .ok pa.path) =
      .ok (sys', .ok ['a']) :=
    ⟨_, by unfold Resolver.emulated; simp only [pathGetEmulated_allDirectories_a]; rfl⟩
  refine ⟨sys', h, ?_⟩
  rcases pathCall_sandbox (Host.ofTree_sound _ _) h with ⟨_, -, he⟩ | hc
  · cases he
  · exact hc

/-- The calls on two paths, with the emulated `path_get` on a host that answers according to the
tree: the answer is the error of one of the two `path_get`s, or the host's answer on two accesses
confined below the directories of the two slots, each holding its right. -/
theorem pathCall2_sandbox {α : Type} {fs : Tree} {host : Host} (hsound : host.Sound fs)
    {dirOf : Int → Dir} {follow1 needs1 follow2 needs2 : Bool} {path1 path2 : List Char}
    {sys sys' : Sys} {fd1 fd2 : Nat} {rightsBase1 rightsBase2 : Rights} {malloc1Ok malloc2Ok : Bool}
    {hostCall : PathAccess → PathAccess → Except Errno α} {r : Except Errno α}
    (h : pathCall2 sys fd1 (Resolver.emulated host dirOf follow1 needs1 path1) rightsBase1 malloc1Ok
      fd2 (Resolver.emulated host dirOf follow2 needs2 path2) rightsBase2 malloc2Ok hostCall =
        .ok (sys', r)) :
    (∃ s e, r = .error e ∧
      (pathGet sys fd1 (Resolver.emulated host dirOf follow1 needs1 path1) rightsBase1 0 malloc1Ok =
        .ok (s, .error e) ∨
      ∃ s₁ lease, pathGet sys fd1 (Resolver.emulated host dirOf follow1 needs1 path1) rightsBase1 0
          malloc1Ok = .ok (s₁, .ok lease) ∧
        pathGet s₁ fd2 (Resolver.emulated host dirOf follow2 needs2 path2) rightsBase2 0 malloc2Ok =
          .ok (s, .error e))) ∨
    ∃ pa1 pa2, sys.Confines fs dirOf fd1 rightsBase1 pa1 ∧
      sys.Confines fs dirOf fd2 rightsBase2 pa2 ∧ r = hostCall pa1 pa2 := by
  rcases pathCall2_cases h with he | ⟨_, _, pa1, _, _, pa2, hg1, hg2, rfl⟩
  · exact .inl he
  · obtain ⟨g1, g2⟩ := pathGet_grants₂ hg1 hg2
    exact .inr ⟨pa1, pa2, g1.confines hsound, g2.confines hsound, rfl⟩

theorem pathCall2_sandbox_oneFile :
    ∃ sys', pathCall2 oneFile 0 (Resolver.emulated (Host.ofTree allDirectories .eloop)
        (fun _ => []) false true ['a']) 0 true 0 (Resolver.emulated (Host.ofTree allDirectories
        .eloop) (fun _ => []) false true ['a']) 0 true (fun pa1 pa2 => .ok (pa1.path ++ pa2.path)) =
        .ok (sys', .ok ['a', 'a']) ∧
      ∃ pa1 pa2, oneFile.Confines allDirectories (fun _ => []) 0 0 pa1 ∧
        oneFile.Confines allDirectories (fun _ => []) 0 0 pa2 ∧
        (.ok ['a', 'a'] : Except Errno (List Char)) = .ok (pa1.path ++ pa2.path) := by
  obtain ⟨sys', h⟩ : ∃ sys', pathCall2 oneFile 0 (Resolver.emulated (Host.ofTree allDirectories
      .eloop) (fun _ => []) false true ['a']) 0 true 0 (Resolver.emulated (Host.ofTree
      allDirectories .eloop) (fun _ => []) false true ['a']) 0 true
      (fun pa1 pa2 => .ok (pa1.path ++ pa2.path)) = .ok (sys', .ok ['a', 'a']) :=
    ⟨_, by unfold Resolver.emulated; simp only [pathGetEmulated_allDirectories_a]; rfl⟩
  refine ⟨sys', h, ?_⟩
  rcases pathCall2_sandbox (Host.ofTree_sound _ _) h with ⟨_, _, he, -⟩ | hc
  · cases he
  · exact hc

end CloudabiEmulator
