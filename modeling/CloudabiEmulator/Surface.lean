import CloudabiEmulator.FileOpen
import CloudabiEmulator.Readdir
import CloudabiEmulator.Poll
import CloudabiEmulator.TableFrame

/-! The whole system-call surface. `Syscall` gathers the calls of the table and the single-lease
object calls; here the calls that hold leases across host calls join them: the path calls, with
one lease or two, `sys_file_open` from its `path_get` to the install, `sys_file_readdir`,
`sys_poll` with a reference for every polled descriptor, `sys_fd_pread` and `sys_fd_pwrite`
without `preadv` and `pwritev`, and `sys_sock_recv` with the descriptors it installs.
`sys_file_readdir` makes the one change to an object that no step of `Step` makes: `fdopendir`
installs the directory stream of an object the thread holds a reference to, under the object's
lock. With that step added, every call of the surface, run by one thread from any state, is a
sequence of atomic steps that gives back every reference it takes, and grants no right a slot or
a new object's type did not have. So the lifetime and the rights invariants hold over every
interleaving and every run of the whole surface. Seen as the map `FdTable.view`, the table
changes under a call only as its `Call.OnMap` says, so every call leaves each occupied slot as it
was, except the one slot it names. The cursor each directory handle holds is an argument of
`sys_file_readdir` here: these invariants hold whatever it is, and `Readdir` proves what it
is. -/

namespace CloudabiEmulator

open World
open Path (PathAccess)

/-- One atomic step of some thread on the whole surface: a step of `Step`, or `fdopendir`
installing the directory stream of an object the thread holds a reference to. -/
inductive SurfaceStep : World → World → Prop
  | step {w w' : World} : Step w w' → SurfaceStep w w'
  | opendir {w : World} {o : Nat} {obj : FdObject} : o ∈ w.held → w.sys.objects o = some obj →
      SurfaceStep w ⟨w.sys.setObject o (some { obj with directoryHandle := true }), w.held⟩

/-- The step lemma of the lifetime invariant on the surface: `fdopendir` rewrites the record of
a live object and leaves its count and every reference as they were. -/
theorem SurfaceStep.inv {w w' : World} (h : SurfaceStep w w') (hi : w.Inv) : w'.Inv := by
  cases h with
  | step h => exact h.inv hi
  | @opendir o _ _ hobj =>
    refine hi.of_update hi.table hobj rfl rfl (fun _ _ => rfl) ?_
    have hc := hi.consistent o
    simp only [Consistent, hobj] at hc
    simpa [Consistent, refs] using hc

theorem SurfaceStep.typesKept {w w' : World} (h : SurfaceStep w w') (hi : w.Inv) :
    TypesKept w w' := by
  cases h with
  | step h => exact h.typesKept hi
  | opendir _ hobj => exact .of_setObject hobj rfl rfl fun _ h => by cases h; rfl

theorem World.Inv.of_surfaceSteps {w w' : World} (h : Relation.ReflTransGen SurfaceStep w w')
    (hi : w.Inv) : w'.Inv := by
  induction h with
  | refl => exact hi
  | tail _ hstep ih => exact hstep.inv ih

theorem TypesKept.of_surfaceSteps {w w' : World} (h : Relation.ReflTransGen SurfaceStep w w')
    (hi : w.Inv) : TypesKept w w' := by
  induction h with
  | refl => exact .refl w
  | tail hsteps hstep ih => exact ih.trans (hstep.typesKept (hi.of_surfaceSteps hsteps))

/-- The state `sys'` is reached from `sys` by surface steps of one thread that starts holding
the references `mine` and ends holding `mine'`, whatever the other threads hold. -/
def SurfaceRuns (sys : Sys) (mine : List Nat) (sys' : Sys) (mine' : List Nat) : Prop :=
  ∀ held, Relation.ReflTransGen SurfaceStep ⟨sys, mine ++ held⟩ ⟨sys', mine' ++ held⟩

namespace SurfaceRuns

variable {sys sys1 sys2 : Sys} {mine mine1 mine2 : List Nat}

theorem trans (h1 : SurfaceRuns sys mine sys1 mine1) (h2 : SurfaceRuns sys1 mine1 sys2 mine2) :
    SurfaceRuns sys mine sys2 mine2 :=
  fun held => (h1 held).trans (h2 held)

/-- `fdopendir` on an object the thread holds. -/
theorem opendir {o : Nat} {obj : FdObject} (hmem : o ∈ mine) (hobj : sys.objects o = some obj) :
    SurfaceRuns sys mine (sys.setObject o (some { obj with directoryHandle := true })) mine :=
  fun _ => .single (.opendir (List.mem_append_left _ hmem) hobj)

end SurfaceRuns

theorem Runs.surface {sys sys' : Sys} {mine mine' : List Nat} (h : Runs sys mine sys' mine') :
    SurfaceRuns sys mine sys' mine' :=
  fun held => (h held).mono fun _ _ => SurfaceStep.step

/-- A step of a call that only holds leases: `fd_object_get`, `fd_object_release` of a reference
the thread holds, or `fdopendir`. None of them touches the table. -/
inductive LeaseStep : World → World → Prop
  | get {w : World} {sys : Sys} {o : Nat} (fd : Nat) (rightsBase rightsInheriting : Rights) :
      fdObjectGetLocked w.sys fd rightsBase rightsInheriting = .ok (sys, .ok o) →
      LeaseStep w ⟨sys, o :: w.held⟩
  | release {w : World} {sys : Sys} {o : Nat} :
      o ∈ w.held → fdObjectRelease w.sys o = .ok sys → LeaseStep w ⟨sys, w.held.erase o⟩
  | opendir {w : World} {o : Nat} {obj : FdObject} : o ∈ w.held → w.sys.objects o = some obj →
      LeaseStep w ⟨w.sys.setObject o (some { obj with directoryHandle := true }), w.held⟩

theorem LeaseStep.surface {w w' : World} : LeaseStep w w' → SurfaceStep w w'
  | .get fd rightsBase rightsInheriting h => .step (.get fd rightsBase rightsInheriting h)
  | .release hmem h => .step (.release hmem h)
  | .opendir hmem hobj => .opendir hmem hobj

theorem LeaseStep.kept {w w' : World} (h : LeaseStep w w') :
    w'.sys.table = w.sys.table ∧ w'.sys.nextObject = w.sys.nextObject := by
  cases h with
  | get fd rightsBase rightsInheriting hget =>
    rcases fdObjectGetLocked_cases w.sys fd rightsBase rightsInheriting with
      ⟨e, h'⟩ | ⟨f, h', -⟩ | ⟨fe, sys1, -, -, -, hacq, h'⟩ <;> rw [h'] at hget <;> cases hget
    obtain ⟨obj, -, rfl⟩ := refcountAcquire_spec hacq
    exact ⟨rfl, rfl⟩
  | release _ hrel =>
    obtain ⟨obj, -, ⟨-, c, -, rfl⟩ | ⟨-, rfl⟩⟩ := fdObjectRelease_spec hrel <;> exact ⟨rfl, rfl⟩
  | opendir => exact ⟨rfl, rfl⟩

/-- Lease steps of one thread that starts holding `mine` and ends holding `mine'`, whatever the
other threads hold. -/
def LeaseRuns (sys : Sys) (mine : List Nat) (sys' : Sys) (mine' : List Nat) : Prop :=
  ∀ held, Relation.ReflTransGen LeaseStep ⟨sys, mine ++ held⟩ ⟨sys', mine' ++ held⟩

namespace LeaseRuns

variable {sys sys1 sys2 : Sys} {mine mine1 mine2 : List Nat}

theorem refl (sys : Sys) (mine : List Nat) : LeaseRuns sys mine sys mine := fun _ => .refl

theorem trans (h1 : LeaseRuns sys mine sys1 mine1) (h2 : LeaseRuns sys1 mine1 sys2 mine2) :
    LeaseRuns sys mine sys2 mine2 :=
  fun held => (h1 held).trans (h2 held)

theorem get {fd o : Nat} {rightsBase rightsInheriting : Rights}
    (h : fdObjectGetLocked sys fd rightsBase rightsInheriting = .ok (sys1, .ok o)) :
    LeaseRuns sys mine sys1 (o :: mine) :=
  fun _ => .single (.get fd rightsBase rightsInheriting h)

theorem release {o : Nat} (hmem : o ∈ mine) (h : fdObjectRelease sys o = .ok sys1) :
    LeaseRuns sys mine sys1 (mine.erase o) := fun held => by
  have step := LeaseStep.release (w := ⟨sys, mine ++ held⟩) (List.mem_append_left held hmem) h
  rw [List.erase_append_left held hmem] at step
  exact .single step

theorem opendir {o : Nat} {obj : FdObject} (hmem : o ∈ mine) (hobj : sys.objects o = some obj) :
    LeaseRuns sys mine (sys.setObject o (some { obj with directoryHandle := true })) mine :=
  fun _ => .single (.opendir (List.mem_append_left _ hmem) hobj)

theorem surface (h : LeaseRuns sys mine sys1 mine1) : SurfaceRuns sys mine sys1 mine1 :=
  fun held => (h held).mono fun _ _ => LeaseStep.surface

/-- The run lemma: lease steps keep the table and the next allocation number. -/
theorem kept (h : LeaseRuns sys mine sys1 mine1) :
    sys1.table = sys.table ∧ sys1.nextObject = sys.nextObject := by
  have key : ∀ w w', Relation.ReflTransGen LeaseStep w w' →
      w'.sys.table = w.sys.table ∧ w'.sys.nextObject = w.sys.nextObject := by
    intro w w' hw
    induction hw with
    | refl => exact ⟨rfl, rfl⟩
    | tail _ hstep ih => exact ⟨hstep.kept.1.trans ih.1, hstep.kept.2.trans ih.2⟩
  exact key _ _ (h [])

end LeaseRuns

/-- What a call that only holds leases may end in, run by a thread that holds `mine`: a fault,
or a state it reaches by lease steps holding no reference of its own any more. -/
def LeaseEnds {α : Type} (sys : Sys) (mine : List Nat) : Except Fault (Sys × α) → Prop
  | .error _ => True
  | .ok (sys', _) => LeaseRuns sys mine sys' []

/-- The references a thread holds after a lookup answered `r`, when it held `mine` before: one
more, to the object `r` names, unless the lookup failed. -/
@[simp] def heldAfter (mine : List Nat) : Except Errno Nat → List Nat
  | .ok o => o :: mine
  | .error _ => mine

section LeaseEnds

variable {α β : Type} {sys sys' : Sys} {mine : List Nat}

theorem LeaseEnds.of_runs {sys1 : Sys} {mine1 : List Nat} {x : Except Fault (Sys × α)}
    (h : LeaseRuns sys mine sys1 mine1) (hx : LeaseEnds sys1 mine1 x) : LeaseEnds sys mine x := by
  cases x with
  | error => trivial
  | ok r => exact h.trans hx

theorem LeaseEnds.pure_nil (sys : Sys) (r : α) : LeaseEnds sys [] (pure (sys, r)) :=
  LeaseRuns.refl sys []

theorem LeaseEnds.runs_of_map {x : Except Fault (Sys × α)} (hx : LeaseEnds sys mine x)
    (h : x.map Prod.fst = .ok sys') : LeaseRuns sys mine sys' [] := by
  cases x with
  | error => cases h
  | ok r => cases h; exact hx

theorem LeaseEnds.bind_ok {b : β} {k : β → Except Fault (Sys × α)}
    (h : LeaseEnds sys mine (k b)) : LeaseEnds sys mine (Except.ok b >>= k) := h

theorem LeaseEnds.bind_value {x : Except Fault β} {k : β → Except Fault (Sys × α)}
    (hk : ∀ b, LeaseEnds sys mine (k b)) : LeaseEnds sys mine (x >>= k) := by
  cases x with
  | error => trivial
  | ok b => exact hk b

theorem LeaseEnds.bind_get {fd : Nat} {rightsBase rightsInheriting : Rights}
    {k : Sys × Except Errno Nat → Except Fault (Sys × α)}
    (hk : ∀ s r, LeaseEnds s (heldAfter mine r) (k (s, r))) :
    LeaseEnds sys mine (fdObjectGetLocked sys fd rightsBase rightsInheriting >>= k) := by
  rcases fdObjectGetLocked_cases sys fd rightsBase rightsInheriting with
    ⟨e, hg⟩ | ⟨f, hg, -⟩ | ⟨fe, sys1, -, -, -, -, hg⟩ <;> rw [hg]
  · exact hk sys (.error e)
  · trivial
  · exact LeaseEnds.of_runs (LeaseRuns.get hg) (hk sys1 (.ok fe.object))

theorem LeaseEnds.bind_release {o : Nat} {k : Sys → Except Fault (Sys × α)} (hmem : o ∈ mine)
    (hk : ∀ s, LeaseEnds s (mine.erase o) (k s)) :
    LeaseEnds sys mine (fdObjectRelease sys o >>= k) := by
  cases hrel : fdObjectRelease sys o with
  | error => trivial
  | ok s => exact LeaseEnds.of_runs (LeaseRuns.release hmem hrel) (hk s)

theorem LeaseEnds.bind_release_last {o : Nat} {k : Sys → Except Fault (Sys × α)}
    (hk : ∀ s, LeaseEnds s [] (k s)) : LeaseEnds sys [o] (fdObjectRelease sys o >>= k) :=
  LeaseEnds.bind_release (List.mem_singleton_self o) fun s => by
    rw [List.erase_cons_head]
    exact hk s

end LeaseEnds

section Leases

variable {α : Type} {sys sys' : Sys} {fd : Nat} {lookup : Lookup}
  {rightsBase rightsInheriting : Rights} {mallocOk : Bool} {mine : List Nat}

/-- `path_get` as steps: a lease holds one reference more, to the object of the slot, and an
error leaves the thread with the references it had. -/
theorem pathGet_runs {r : Except Errno (Nat × PathAccess)}
    (h : pathGet sys fd lookup rightsBase rightsInheriting mallocOk = .ok (sys', r))
    (mine : List Nat) : LeaseRuns sys mine sys' (heldAfter mine (r.map Prod.fst)) := by
  rcases pathGet_cases h with ⟨rfl, e, rfl⟩ |
    ⟨fo, sys1, obj, hg, -, -, ⟨e, -, hrel, rfl⟩ | ⟨pa, -, rfl, rfl⟩⟩
  · exact LeaseRuns.refl _ mine
  · simpa using (LeaseRuns.get hg : LeaseRuns sys mine sys1 (fo :: mine)).trans
      (LeaseRuns.release (List.mem_cons_self fo mine) hrel)
  · exact LeaseRuns.get hg

theorem pathPut_runs {fo : Nat} (h : pathPut sys fo = .ok sys') (hmem : fo ∈ mine) :
    LeaseRuns sys mine sys' (mine.erase fo) := by
  obtain ⟨-, -, -, hrel⟩ := pathPut_cases h
  exact LeaseRuns.release hmem hrel

theorem LeaseEnds.bind_pathGet {k : Sys × Except Errno (Nat × PathAccess) → Except Fault (Sys × α)}
    (hk : ∀ s r, LeaseEnds s (heldAfter mine (r.map Prod.fst)) (k (s, r))) :
    LeaseEnds sys mine (pathGet sys fd lookup rightsBase rightsInheriting mallocOk >>= k) := by
  rcases hg : pathGet sys fd lookup rightsBase rightsInheriting mallocOk with _ | ⟨s, r⟩
  · trivial
  · exact LeaseEnds.of_runs (pathGet_runs hg mine) (hk s r)

theorem LeaseEnds.bind_pathPut {fo : Nat} {k : Sys → Except Fault (Sys × α)} (hmem : fo ∈ mine)
    (hk : ∀ s, LeaseEnds s (mine.erase fo) (k s)) : LeaseEnds sys mine (pathPut sys fo >>= k) := by
  cases hp : pathPut sys fo with
  | error => trivial
  | ok s => exact LeaseEnds.of_runs (pathPut_runs hp hmem) (hk s)

theorem pathCall_ends (fd : Nat) (lookup : Lookup) (rightsBase : Rights) (mallocOk : Bool)
    (host : PathAccess → Except Errno α) :
    LeaseEnds sys [] (pathCall sys fd lookup rightsBase mallocOk host) := by
  refine LeaseEnds.bind_pathGet fun s r => ?_
  rcases r with e | ⟨fo, pa⟩
  · exact LeaseEnds.pure_nil s _
  · exact LeaseEnds.bind_pathPut (List.mem_singleton_self fo) fun s' => by
      simpa [Except.map] using LeaseEnds.pure_nil s' (host pa)

theorem pathCall2_ends (fd1 : Nat) (lookup1 : Lookup) (rightsBase1 : Rights) (malloc1Ok : Bool)
    (fd2 : Nat) (lookup2 : Lookup) (rightsBase2 : Rights) (malloc2Ok : Bool)
    (host : PathAccess → PathAccess → Except Errno α) :
    LeaseEnds sys [] (pathCall2 sys fd1 lookup1 rightsBase1 malloc1Ok fd2 lookup2 rightsBase2
      malloc2Ok host) := by
  refine LeaseEnds.bind_pathGet fun s r => ?_
  rcases r with e | ⟨fo1, pa1⟩
  · exact LeaseEnds.pure_nil s _
  refine LeaseEnds.bind_pathGet fun s r => ?_
  rcases r with e | ⟨fo2, pa2⟩
  · exact LeaseEnds.bind_pathPut (List.mem_singleton_self fo1) fun s' => by
      simpa [Except.map] using LeaseEnds.pure_nil s' (.error e : Except Errno α)
  have herase : [fo2, fo1].erase fo1 = [fo2] := by
    by_cases h : fo2 = fo1 <;> simp [h]
  refine LeaseEnds.bind_pathPut (List.mem_cons_of_mem fo2 (List.mem_singleton_self fo1))
    fun s' => ?_
  simp only [heldAfter, Except.map, herase]
  exact LeaseEnds.bind_pathPut (List.mem_singleton_self fo2) fun s'' => by
    simpa using LeaseEnds.pure_nil s'' (host pa1 pa2)

end Leases

/-- Every call on a path is a sequence of lease steps that gives back each lease it took. -/
theorem PathCall.run_runs (m : RightsMasks) (resolve : Resolver) (c : PathCall) {sys sys' : Sys}
    (h : c.run m resolve sys = .ok sys') : LeaseRuns sys [] sys' [] := by
  rcases c.shape m resolve sys with h' | ⟨α, fd, lookup, rightsBase, mallocOk, host, h'⟩ |
    ⟨α, fd1, lookup1, rightsBase1, malloc1Ok, fd2, lookup2, rightsBase2, malloc2Ok, host, h'⟩ <;>
    rw [h'] at h
  · cases h
    exact LeaseRuns.refl sys []
  · exact (pathCall_ends fd lookup rightsBase mallocOk host).runs_of_map h
  · exact (pathCall2_ends fd1 lookup1 rightsBase1 malloc1Ok fd2 lookup2 rightsBase2 malloc2Ok
      host).runs_of_map h

section Calls

variable {m : RightsMasks} {sys sys' : Sys} {mine : List Nat}

theorem fdObjectGetLocked_runs {fd : Nat} {rightsBase rightsInheriting : Rights}
    {r : Except Errno Nat} (h : fdObjectGetLocked sys fd rightsBase rightsInheriting = .ok (sys', r))
    (mine : List Nat) : LeaseRuns sys mine sys' (heldAfter mine r) := by
  rcases fdObjectGetLocked_cases sys fd rightsBase rightsInheriting with
    ⟨e, hg⟩ | ⟨f, hg, -⟩ | ⟨fe, sys1, -, -, -, -, hg⟩ <;> rw [hg] at h <;> cases h
  · exact LeaseRuns.refl sys mine
  · exact LeaseRuns.get hg

theorem fileOpenLease_runs {cfg : HostConfig} {resolve : Resolver} {dirfd : Nat} {follow : Bool}
    {path : List Char} {oflags : FileOflags} {fds : FdStat} {mallocOk : Bool}
    {r : Except Errno (Nat × PathAccess × OpenFlags)}
    (h : fileOpenLease m cfg resolve sys dirfd follow path oflags fds mallocOk = .ok (sys', r)) :
    LeaseRuns sys [] sys' (heldAfter [] (r.map Prod.fst)) := by
  unfold fileOpenLease at h
  obtain ⟨⟨s, r'⟩, hg, h⟩ := Except.bind_eq_ok h
  have hr := pathGet_runs hg []
  rcases r' with e | ⟨fo, pa⟩ <;> cases h <;> exact hr

/-- `sys_file_open` as steps: the lease and its release, then the install of the new descriptor
when `openat` succeeds. -/
theorem sysFileOpen_runs {cfg : HostConfig} {resolve : Resolver} {dirfd : Nat} {follow : Bool}
    {path : List Char} {oflags : FileOflags} {fds : FdStat} {pathMallocOk : Bool}
    {openat : PathAccess → OpenFlags → Except Errno Int} {fstatatSock : PathAccess → Bool}
    {info : HostFdInfo} {mallocOk reallocOk : Bool} {draws : List Nat} {r : Except Errno Nat}
    (h : sysFileOpen m cfg resolve sys dirfd follow path oflags fds pathMallocOk openat fstatatSock
      info mallocOk reallocOk draws = .ok (sys', r)) :
    ∃ sys2, LeaseRuns sys [] sys2 [] ∧ (sys' = sys2 ∨ ∃ nfd r',
      sysFileOpenInstall m sys2 nfd info fds.fsRightsBase fds.fsRightsInheriting mallocOk
        reallocOk draws = .ok (sys', r')) := by
  unfold sysFileOpen at h
  obtain ⟨⟨s1, r1⟩, hl, h⟩ := Except.bind_eq_ok h
  rcases r1 with e | ⟨fo, pa, flags⟩
  · cases h
    exact ⟨_, fileOpenLease_runs hl, .inl rfl⟩
  have hr : LeaseRuns sys [] s1 [fo] := fileOpenLease_runs hl
  dsimp only at h
  split at h <;> obtain ⟨s2, hp, h⟩ := Except.bind_eq_ok h <;>
    have hrun := hr.trans (pathPut_runs hp (List.mem_singleton_self fo)) <;>
    rw [List.erase_cons_head] at hrun
  · refine ⟨s2, hrun, .inl ?_⟩
    split_ifs at h <;> cases h <;> rfl
  · exact ⟨s2, hrun, .inr ⟨_, _, h⟩⟩

theorem pollConvertOne_runs {p p' : PollPrep} {s : Subscription}
    (h : pollConvertOne m sys p s = .ok (sys', p')) (mine : List Nat) :
    ∃ fo : Option Nat, p'.fos = p.fos ++ [fo] ∧ LeaseRuns sys mine sys' (fo.toList ++ mine) := by
  unfold pollConvertOne at h
  split at h
  iterate 2
    obtain ⟨⟨s1, r⟩, hg, h⟩ := Except.bind_eq_ok h
    have hr := fdObjectGetLocked_runs hg mine
    rcases r with e | fo
    · cases h
      exact ⟨none, rfl, hr⟩
    · dsimp only at h
      split at h
      · cases h
      · obtain ⟨n, -, h⟩ := Except.bind_eq_ok h
        cases h
        exact ⟨some fo, rfl, hr⟩
  · split at h <;> cases h <;> exact ⟨none, rfl, LeaseRuns.refl sys mine⟩
  · cases h
    exact ⟨none, rfl, LeaseRuns.refl sys mine⟩

/-- The conversion loop takes a reference for every entry of `fos` it fills with one. -/
theorem pollConvert_runs : ∀ (subs : List Subscription) {sys sys' : Sys} {p p' : PollPrep}
    (mine : List Nat), pollConvert m sys p subs = .ok (sys', p') →
    ∃ fos, p'.fos = p.fos ++ fos ∧ LeaseRuns sys mine sys' ((fos.filterMap id).reverse ++ mine)
  | [], _, _, _, _, mine, h => by
    cases h
    exact ⟨[], by simp, by simpa using LeaseRuns.refl _ mine⟩
  | s :: rest, _, _, _, _, mine, h => by
    obtain ⟨⟨s1, p1⟩, h1, h⟩ := Except.bind_eq_ok h
    obtain ⟨fo, hfo, hr1⟩ := pollConvertOne_runs h1 mine
    obtain ⟨fos, hfos, hr⟩ := pollConvert_runs rest (fo.toList ++ mine) h
    refine ⟨fo :: fos, by rw [hfos, hfo, List.append_assoc, List.singleton_append], ?_⟩
    have hheld : ((fo :: fos).filterMap id).reverse ++ mine =
        (fos.filterMap id).reverse ++ (fo.toList ++ mine) := by
      cases fo <;> simp
    rw [hheld]
    exact hr1.trans hr

theorem releaseAll_leaseRuns {fos p : List Nat} (h : releaseAll sys fos = .ok sys')
    (hp : p.Perm fos) (mine : List Nat) : LeaseRuns sys (p ++ mine) sys' mine := by
  induction fos generalizing sys p with
  | nil =>
    cases h
    rw [List.perm_nil.1 hp]
    exact LeaseRuns.refl _ mine
  | cons fo fos ih =>
    obtain ⟨s, hrel, h⟩ := Except.bind_eq_ok h
    have hmem : fo ∈ p := hp.mem_iff.2 (List.mem_cons_self fo fos)
    have hstep := LeaseRuns.release (List.mem_append_left mine hmem) hrel
    rw [List.erase_append_left mine hmem] at hstep
    exact hstep.trans (ih h (by simpa using hp.erase fo))

theorem sysPollGeneral_ends (host : PollHost) (subs : List Subscription)
    (mallocFos mallocPfds : Bool) : LeaseEnds sys [] (sysPollGeneral m host sys subs mallocFos
      mallocPfds) := by
  unfold sysPollGeneral
  split
  · exact LeaseRuns.refl sys []
  split
  · exact LeaseRuns.refl sys []
  rcases hc : pollConvert m sys ⟨[], [], [], none⟩ subs with _ | ⟨s1, p⟩
  · trivial
  obtain ⟨fos, hfos, hr⟩ := pollConvert_runs subs [] hc
  simp only [bind, Except.bind]
  rcases hrel : releaseAll s1 (p.fos.filterMap id) with _ | s2
  · trivial
  · refine hr.trans (releaseAll_leaseRuns hrel ?_ [])
    rw [hfos]
    exact List.reverse_perm _

theorem sysPoll_ends (host : PollHost) (futex : Option (List Event)) (sleep : Option Errno)
    (subs : List Subscription) (mallocFos mallocPfds : Bool) :
    LeaseEnds sys [] (sysPoll m host futex sleep sys subs mallocFos mallocPfds) := by
  unfold sysPoll
  split
  · exact LeaseRuns.refl sys []
  split
  · split
    · exact LeaseRuns.refl sys []
    · exact sysPollGeneral_ends host _ mallocFos mallocPfds
  · exact sysPollGeneral_ends host subs mallocFos mallocPfds

theorem sysFdPwriteEmulated_ends (fd : Nat) (iov : List Bytes) (mallocOk : Bool)
    (pwrite : Bytes → Except Errno Nat) :
    LeaseEnds sys [] (sysFdPwriteEmulated m sys fd iov mallocOk pwrite) := by
  unfold sysFdPwriteEmulated
  split
  · exact LeaseRuns.refl sys []
  refine LeaseEnds.bind_get fun s r => ?_
  rcases r with e | fo
  · exact LeaseRuns.refl s []
  dsimp only
  split
  · trivial
  split
  · exact LeaseEnds.bind_value fun _ =>
      LeaseEnds.bind_release_last fun s' => LeaseEnds.pure_nil s' _
  · split
    · exact LeaseEnds.bind_release_last fun s' => LeaseEnds.pure_nil s' _
    · exact LeaseEnds.bind_value fun _ => LeaseEnds.bind_value fun _ =>
        LeaseEnds.bind_release_last fun s' => LeaseEnds.pure_nil s' _

theorem sysFdPreadEmulated_ends (fd : Nat) (iov : List Bytes) (mallocOk : Bool)
    (pread : Nat → Except Errno (List UInt8)) :
    LeaseEnds sys [] (sysFdPreadEmulated m sys fd iov mallocOk pread) := by
  unfold sysFdPreadEmulated
  split
  · exact LeaseRuns.refl sys []
  refine LeaseEnds.bind_get fun s r => ?_
  rcases r with e | fo
  · exact LeaseRuns.refl s []
  dsimp only
  split
  · trivial
  split
  · exact LeaseEnds.bind_value fun _ =>
      LeaseEnds.bind_release_last fun s' => LeaseEnds.pure_nil s' _
  · split
    · exact LeaseEnds.bind_release_last fun s' => LeaseEnds.pure_nil s' _
    · refine LeaseEnds.bind_value fun _ => LeaseEnds.bind_release_last fun s' => ?_
      split
      · exact LeaseEnds.pure_nil s' _
      · exact LeaseEnds.bind_value fun _ => LeaseEnds.pure_nil s' _

/-- `fdopendir`, when it installs a stream, is the one step that changes the object. -/
theorem fileReaddirOpen_runs {fdopendir : Except Errno Unit} {dirs : Nat → Option DirCursor}
    {fo : Nat} {obj : FdObject} {cur : DirCursor}
    (h : fileReaddirOpen fdopendir sys dirs fo obj = .ok (.ok (sys', cur))) (hmem : fo ∈ mine)
    (hobj : sys.objects fo = some obj) : LeaseRuns sys mine sys' mine := by
  unfold fileReaddirOpen at h
  rcases hd : dirs fo with _ | cur' <;> simp only [hd] at h
  · obtain ⟨_, -, h⟩ := Except.bind_eq_ok h
    cases fdopendir <;> simp only [pure, Except.pure, Except.map, Except.ok.injEq] at h
    · cases h
    · obtain ⟨rfl, -⟩ := Prod.mk.inj h
      exact LeaseRuns.opendir hmem hobj
  · cases h
    exact LeaseRuns.refl sys mine

theorem sysFileReaddir_ends (streams : Nat → DirStream) (fdopendir : Except Errno Unit)
    (dirs : Nat → Option DirCursor) (fd : Nat) (buf : Bytes) (nbyte : Nat) (cookie : UInt64) :
    LeaseEnds sys [] (sysFileReaddir m streams fdopendir sys dirs fd buf nbyte cookie) := by
  unfold sysFileReaddir
  refine LeaseEnds.bind_get fun s r => ?_
  rcases r with e | fo
  · exact LeaseRuns.refl s []
  dsimp only
  split
  · trivial
  next obj hobj =>
  rcases ho : fileReaddirOpen fdopendir s dirs fo obj with _ | r
  · trivial
  rcases r with e | ⟨s2, cur⟩
  · exact LeaseEnds.bind_release_last fun s' => LeaseEnds.pure_nil s' _
  · refine LeaseEnds.of_runs (fileReaddirOpen_runs ho (List.mem_singleton_self fo) hobj)
      (LeaseEnds.bind_ok ?_)
    exact LeaseEnds.bind_value fun ⟨_, _, _, _⟩ =>
      LeaseEnds.bind_release_last fun s' => LeaseEnds.pure_nil s' _

end Calls

section Grants

variable {m : RightsMasks} {sys1 sys2 sys3 : Sys}

/-- Rights granted after steps that kept the table and the next allocation number are granted
from the state before them. -/
theorem RightsFrom.of_kept (ht : sys2.table = sys1.table) (hn : sys2.nextObject = sys1.nextObject)
    (h : RightsFrom m sys2 sys3) : RightsFrom m sys1 sys3 := by
  intro i fe hslot
  rcases h i fe hslot with ⟨hnew, obj, hobj, hmax⟩ | ⟨j, fe0, hj, hsame, hb, hin⟩
  · exact .inl ⟨hn ▸ hnew, obj, hobj, hmax⟩
  · exact .inr ⟨j, fe0, ht ▸ hj, hsame, hb, hin⟩

/-- Two calls that grant no new right in turn grant none: an object the first made keeps its
type through the second. -/
theorem RightsFrom.trans (h12 : RightsFrom m sys1 sys2) (h23 : RightsFrom m sys2 sys3)
    (hi2 : World.Inv ⟨sys2, []⟩) (hi3 : World.Inv ⟨sys3, []⟩)
    (hk : TypesKept ⟨sys2, []⟩ ⟨sys3, []⟩) (hn : sys1.nextObject ≤ sys2.nextObject) :
    RightsFrom m sys1 sys3 := by
  intro i fe hslot
  rcases h23 i fe hslot with ⟨hnew, obj, hobj, hmax⟩ | ⟨j, fe0, hj, hsame, hb, hin⟩
  · exact .inl ⟨hn.trans hnew, obj, hobj, hmax⟩
  rcases h12 j fe0 hj with ⟨hnew, obj, hobj, hmax⟩ | ⟨k, fe1, hk1, hsame1, hb1, hin1⟩
  · obtain ⟨obj', hobj'⟩ := hi3.live_of_slot hslot
    rw [← hsame] at hobj'
    obtain ⟨obj2, h2, htype⟩ := hk.2 _ _ hobj' (hi2.lt_next_of_live hobj)
    rw [hobj] at h2
    cases h2
    exact .inl ⟨hsame ▸ hnew, obj', hsame ▸ hobj', htype ▸ hmax.narrow hb hin⟩
  · exact .inr ⟨k, fe1, hk1, hsame1.trans hsame, Rights.subset_trans hb hb1,
      Rights.subset_trans hin hin1⟩

theorem RightsFrom.trans_runs (hi : World.Inv ⟨sys1, []⟩) (hr12 : Runs sys1 [] sys2 [])
    (h12 : RightsFrom m sys1 sys2) (hr23 : Runs sys2 [] sys3 []) (h23 : RightsFrom m sys2 sys3) :
    RightsFrom m sys1 sys3 :=
  have hi2 := hi.of_steps (hr12 [])
  h12.trans h23 hi2 (hi2.of_steps (hr23 [])) (.of_steps (hr23 []) hi2)
    (TypesKept.of_steps (hr12 []) hi).1

end Grants

section Receive

variable {m : RightsMasks} {l : CmsgLayout} {answers : Nat → InstallAnswers} {st st' : RecvState}

theorem fdObjectCall_leaseEnds {α : Type} {sys : Sys} (fd : Nat) (rightsBase : Rights)
    (host : FileType → Except Errno α) : LeaseEnds sys [] (fdObjectCall sys fd rightsBase host) := by
  unfold fdObjectCall
  refine LeaseEnds.bind_get fun s r => ?_
  rcases r with e | fo
  · exact LeaseRuns.refl s []
  dsimp only
  split
  · trivial
  · exact LeaseEnds.bind_value fun _ =>
      LeaseEnds.bind_release_last fun s' => LeaseEnds.pure_nil s' _

theorem sockRecvInstall_runs {sys sys' : Sys} {nfd : Int} {info : HostFdInfo}
    {mallocOk reallocOk : Bool} {draws : List Nat} {v : Int}
    (h : sockRecvInstall m sys nfd info mallocOk reallocOk draws = .ok (sys', v)) :
    Runs sys [] sys' [] := by
  have hr : Ends sys [] (sockRecvInstall m sys nfd info mallocOk reallocOk draws) :=
    sockRecvInstall_ends m nfd info mallocOk reallocOk draws
  rwa [h] at hr

theorem sockRecvInstall_rightsFrom {sys sys' : Sys} {nfd : Int} {info : HostFdInfo}
    {mallocOk reallocOk : Bool} {draws : List Nat} {v : Int} (hw : sys.table.Wf)
    (h : sockRecvInstall m sys nfd info mallocOk reallocOk draws = .ok (sys', v)) :
    RightsFrom m sys sys' := by
  have hf : RightsEnd m sys (sockRecvInstall m sys nfd info mallocOk reallocOk draws) :=
    sockRecvInstall_rightsEnd hw nfd info mallocOk reallocOk draws
  rwa [h] at hf

/-- The inner loop of `sys_sock_recv` as steps: each descriptor is installed or closed. -/
theorem recvFds_runs {nfds : List Int} (h : recvFds m answers st nfds = .ok st') :
    Runs st.sys [] st'.sys [] := by
  induction nfds generalizing st with
  | nil =>
    cases h
    exact Runs.refl _ []
  | cons nfd nfds ih =>
    obtain ⟨⟨s, v⟩, hinst, h⟩ := Except.bind_eq_ok h
    obtain ⟨riFds, -, h⟩ := Except.bind_eq_ok h
    exact (sockRecvInstall_runs hinst).trans (ih h)

theorem recvMessages_runs {msgs : List ControlMessage}
    (h : recvMessages m l answers st msgs = .ok st') : Runs st.sys [] st'.sys [] := by
  induction msgs generalizing st with
  | nil =>
    cases h
    exact Runs.refl _ []
  | cons c cs ih =>
    rw [recvMessages] at h
    split at h
    · obtain ⟨st1, h1, h⟩ := Except.bind_eq_ok h
      exact (recvFds_runs h1).trans (ih h)
    · exact ih h

theorem recvFds_rightsFrom {nfds : List Int} (hi : World.Inv ⟨st.sys, []⟩)
    (h : recvFds m answers st nfds = .ok st') : RightsFrom m st.sys st'.sys := by
  induction nfds generalizing st with
  | nil =>
    cases h
    exact RightsFrom.of_table_eq rfl
  | cons nfd nfds ih =>
    obtain ⟨⟨s, v⟩, hinst, h⟩ := Except.bind_eq_ok h
    obtain ⟨riFds, -, h⟩ := Except.bind_eq_ok h
    have hr := sockRecvInstall_runs hinst
    exact .trans_runs hi hr (sockRecvInstall_rightsFrom hi.table hinst) (recvFds_runs h)
      (ih (hi.of_steps (hr [])) h)

theorem recvMessages_rightsFrom {msgs : List ControlMessage} (hi : World.Inv ⟨st.sys, []⟩)
    (h : recvMessages m l answers st msgs = .ok st') : RightsFrom m st.sys st'.sys := by
  induction msgs generalizing st with
  | nil =>
    cases h
    exact RightsFrom.of_table_eq rfl
  | cons c cs ih =>
    rw [recvMessages] at h
    split at h
    · obtain ⟨st1, h1, h⟩ := Except.bind_eq_ok h
      have hr := recvFds_runs h1
      exact .trans_runs hi hr (recvFds_rightsFrom hi h1) (recvMessages_runs h)
        (ih (hi.of_steps (hr [])) h)
    · exact ih hi h

variable {sys sys' : Sys} {sock : Nat} {riFds : List Int} {mallocOk : Bool}
  {recvmsg : Nat → Except Errno RecvAnswer} {r : Except Errno (List Int × RecvOut)}

/-- `sys_sock_recv` after its allocation: the lease on the socket, a run of lease steps, then
the extraction from what the host answered. -/
theorem sysSockRecv_cases (h : sysSockRecv m l sys sock riFds mallocOk recvmsg answers = .ok (sys', r)) :
    ∃ s1, LeaseRuns sys [] s1 [] ∧ (sys' = s1 ∨
      ∃ (a : RecvAnswer) (st : RecvState),
        sockRecvExtract m l answers s1 riFds a.controllen a.msgs = .ok st ∧ sys' = st.sys) := by
  unfold sysSockRecv at h
  split at h
  · cases h
    exact ⟨sys, LeaseRuns.refl sys [], .inl rfl⟩
  obtain ⟨⟨s1, r1⟩, hc, h⟩ := Except.bind_eq_ok h
  refine ⟨s1, (fdObjectCall_leaseEnds sock m.fdRead _).runs_of_map (by rw [hc]; rfl), ?_⟩
  rcases r1 with e | a
  · cases h
    exact .inl rfl
  obtain ⟨st, hx, h⟩ := Except.bind_eq_ok h
  cases h
  exact .inr ⟨a, st, hx, rfl⟩

theorem sysSockRecv_runs (h : sysSockRecv m l sys sock riFds mallocOk recvmsg answers = .ok (sys', r)) :
    SurfaceRuns sys [] sys' [] := by
  obtain ⟨s1, hl, rfl | ⟨a, st, hx, rfl⟩⟩ := sysSockRecv_cases h
  · exact hl.surface
  · exact hl.surface.trans (Runs.surface (recvMessages_runs hx))

/-- `sys_sock_recv` grants each received descriptor no more than its type's rights. -/
theorem sysSockRecv_rightsFrom (hi : World.Inv ⟨sys, []⟩)
    (h : sysSockRecv m l sys sock riFds mallocOk recvmsg answers = .ok (sys', r)) :
    RightsFrom m sys sys' := by
  obtain ⟨s1, hl, rfl | ⟨a, st, hx, rfl⟩⟩ := sysSockRecv_cases h
  · exact RightsFrom.of_table_eq hl.kept.1
  · obtain ⟨ht, hn⟩ := hl.kept
    exact .of_kept ht hn (recvMessages_rightsFrom (hi.of_surfaceSteps (hl.surface [])) hx)

end Receive

/-- The calls of the whole surface, each with the host's answers to the calls it makes: the
calls of `Syscall`, the path calls over a resolver, and the calls that hold leases across host
calls. -/
inductive Call where
  | syscall (c : Syscall)
  | pathCall (resolve : Resolver) (c : PathCall)
  | fileOpen (cfg : HostConfig) (resolve : Resolver) (dirfd : Nat) (follow : Bool)
      (path : List Char) (oflags : FileOflags) (fds : FdStat) (pathMallocOk : Bool)
      (openat : PathAccess → OpenFlags → Except Errno Int) (fstatatSock : PathAccess → Bool)
      (info : HostFdInfo) (mallocOk reallocOk : Bool) (draws : List Nat)
  | fileReaddir (streams : Nat → DirStream) (fdopendir : Except Errno Unit)
      (dirs : Nat → Option DirCursor) (fd : Nat) (buf : Bytes) (nbyte : Nat) (cookie : UInt64)
  | poll (host : PollHost) (futex : Option (List Event)) (sleep : Option Errno)
      (subs : List Subscription) (mallocFos mallocPfds : Bool)
  | fdPread (fd : Nat) (iov : List Bytes) (mallocOk : Bool)
      (pread : Nat → Except Errno (List UInt8))
  | fdPwrite (fd : Nat) (iov : List Bytes) (mallocOk : Bool) (pwrite : Bytes → Except Errno Nat)
  | sockRecv (l : CmsgLayout) (sock : Nat) (riFds : List Int) (mallocOk : Bool)
      (recvmsg : Nat → Except Errno RecvAnswer) (answers : Nat → InstallAnswers)

namespace Call

/-- The process state a call leaves, or its fault. -/
def run (m : RightsMasks) (sys : Sys) : Call → Except Fault Sys
  | syscall c => c.run m sys
  | pathCall resolve c => c.run m resolve sys
  | fileOpen cfg resolve dirfd follow path oflags fds pathMallocOk openat fstatatSock info mallocOk
      reallocOk draws =>
    (sysFileOpen m cfg resolve sys dirfd follow path oflags fds pathMallocOk openat fstatatSock info
      mallocOk reallocOk draws).map Prod.fst
  | fileReaddir streams fdopendir dirs fd buf nbyte cookie =>
    (sysFileReaddir m streams fdopendir sys dirs fd buf nbyte cookie).map Prod.fst
  | poll host futex sleep subs mallocFos mallocPfds =>
    (sysPoll m host futex sleep sys subs mallocFos mallocPfds).map Prod.fst
  | fdPread fd iov mallocOk pread => (sysFdPreadEmulated m sys fd iov mallocOk pread).map Prod.fst
  | fdPwrite fd iov mallocOk pwrite =>
    (sysFdPwriteEmulated m sys fd iov mallocOk pwrite).map Prod.fst
  | sockRecv l sock riFds mallocOk recvmsg answers =>
    (sysSockRecv m l sys sock riFds mallocOk recvmsg answers).map Prod.fst

variable {m : RightsMasks} {sys sys' : Sys}

/-- What a call of the surface that returns is: a call of `Syscall`, a run of lease steps, the
lease of `sys_file_open` followed by its install, or `sys_sock_recv`. -/
theorem run_cases (c : Call) (h : c.run m sys = .ok sys') :
    (∃ c' : Syscall, c'.run m sys = .ok sys') ∨ LeaseRuns sys [] sys' [] ∨
    (∃ sys2 nfd info rightsBase rightsInheriting mallocOk reallocOk draws r',
      LeaseRuns sys [] sys2 [] ∧ sysFileOpenInstall m sys2 nfd info rightsBase rightsInheriting
        mallocOk reallocOk draws = .ok (sys', r')) ∨
    ∃ l sock riFds mallocOk recvmsg answers r,
      sysSockRecv m l sys sock riFds mallocOk recvmsg answers = .ok (sys', r) := by
  cases c with
  | syscall c => exact .inl ⟨c, h⟩
  | pathCall resolve c => exact .inr (.inl (c.run_runs m resolve h))
  | fileOpen =>
    obtain ⟨⟨_, _⟩, h', rfl⟩ := Except.map_eq_ok h
    obtain ⟨sys2, hl, rfl | ⟨nfd, r', hinst⟩⟩ := sysFileOpen_runs h'
    · exact .inr (.inl hl)
    · exact .inr (.inr (.inl ⟨sys2, nfd, _, _, _, _, _, _, r', hl, hinst⟩))
  | fileReaddir => exact .inr (.inl ((sysFileReaddir_ends _ _ _ _ _ _ _).runs_of_map h))
  | poll => exact .inr (.inl ((sysPoll_ends _ _ _ _ _ _).runs_of_map h))
  | fdPread => exact .inr (.inl ((sysFdPreadEmulated_ends _ _ _ _).runs_of_map h))
  | fdPwrite => exact .inr (.inl ((sysFdPwriteEmulated_ends _ _ _ _).runs_of_map h))
  | sockRecv =>
    obtain ⟨⟨_, r⟩, h', rfl⟩ := Except.map_eq_ok h
    exact .inr (.inr (.inr ⟨_, _, _, _, _, _, r, h'⟩))

/-- The step lemma of the lifetime on the surface: every call that returns is a run of surface
steps after which the thread holds no reference. -/
theorem run_surfaceRuns (c : Call) (hw : sys.table.Wf) (h : c.run m sys = .ok sys') :
    SurfaceRuns sys [] sys' [] := by
  rcases c.run_cases h with ⟨c', h'⟩ | hl | ⟨sys2, nfd, info, rb, ri, mallocOk, reallocOk, draws,
    r', hl, hinst⟩ | ⟨_, _, _, _, _, _, r, h'⟩
  · exact Runs.surface (c'.run_runs m hw h')
  · exact hl.surface
  · have hr : Ends sys2 [] (sysFileOpenInstall m sys2 nfd info rb ri mallocOk reallocOk draws) :=
      sysFileOpenInstall_ends _ _ _ _ _ _ _ _
    rw [hinst] at hr
    exact hl.surface.trans (Runs.surface hr)
  · exact sysSockRecv_runs h'

/-- The step lemma of the rights on the surface: every call that returns grants no right a slot
or a new object's type did not have. -/
theorem run_rightsFrom (c : Call) (hi : World.Inv ⟨sys, []⟩) (h : c.run m sys = .ok sys') :
    RightsFrom m sys sys' := by
  rcases c.run_cases h with ⟨c', h'⟩ | hl | ⟨sys2, nfd, info, rb, ri, mallocOk, reallocOk, draws,
    r', hl, hinst⟩ | ⟨_, _, _, _, _, _, r, h'⟩
  · exact c'.run_rightsFrom m hi.table h'
  · exact RightsFrom.of_table_eq hl.kept.1
  · obtain ⟨ht, hn⟩ := hl.kept
    have hf : RightsEnd m sys2 (sysFileOpenInstall m sys2 nfd info rb ri mallocOk reallocOk draws) :=
      sysFileOpenInstall_rightsEnd (ht ▸ hi.table) _ _ _ _ _ _ _
    rw [hinst] at hf
    exact .of_kept ht hn hf
  · exact sysSockRecv_rightsFrom hi h'

/-- The states a run of calls of the surface reaches from the first process state. -/
inductive Reachable (m : RightsMasks) : Sys → Prop
  | init : Reachable m Sys.init
  | step {sys sys' : Sys} (c : Call) : Reachable m sys → c.run m sys = .ok sys' → Reachable m sys'

/-- The run lemma: with no call in flight, the lifetime invariant and the rights invariant hold
in every state the surface reaches. -/
theorem Reachable.inv (h : Reachable m sys) : World.Inv ⟨sys, []⟩ ∧ RightsInv m sys := by
  induction h with
  | init => exact ⟨init_inv, fun i fe h => by simp [Sys.init, fdTableInit] at h⟩
  | step c _ hrun ih =>
    obtain ⟨hi, hinv⟩ := ih
    have hruns := c.run_surfaceRuns hi.table hrun []
    have hi' := hi.of_surfaceSteps hruns
    exact ⟨hi', hinv.step hi hi' (.of_surfaceSteps hruns hi) (c.run_rightsFrom hi hrun)⟩

end Call

/-- The first `sys_file_open` of host descriptor 3, a regular file, as a call of the surface. -/
theorem oneFile_call : (Call.syscall (.fileOpen 3 regularFileInfo 0 0 true true [0])).run default
    Sys.init = .ok oneFile :=
  openedFile_open default 0 0

theorem oneFile_surface_reachable : Call.Reachable default oneFile := .step _ .init oneFile_call

/-- The sequential runs of the surface refine its interleaving model: every state a run of calls
reaches is one the surface steps reach with no reference in flight. -/
theorem Call.Reachable.interleaved {m : RightsMasks} {sys : Sys} (h : Call.Reachable m sys) :
    Relation.ReflTransGen SurfaceStep World.init ⟨sys, []⟩ := by
  induction h with
  | init => exact .refl
  | step c _ hrun ih =>
    exact ih.trans (c.run_surfaceRuns (init_inv.of_surfaceSteps ih).table hrun [])

theorem oneFile_surface_world : Relation.ReflTransGen SurfaceStep World.init ⟨oneFile, []⟩ :=
  Call.Reachable.interleaved oneFile_surface_reachable

theorem World.Inv.refcount_eq {w : World} (hi : w.Inv) {o : Nat} {obj : FdObject}
    (hobj : w.sys.objects o = some obj) : obj.refcount = w.refs o := by
  have hc := hi.consistent o
  simp only [Consistent, hobj] at hc
  exact hc.1

theorem World.Inv.refs_eq_zero {w : World} (hi : w.Inv) {o : Nat} (hnone : w.sys.objects o = none) :
    w.refs o = 0 := by
  have hc := hi.consistent o
  simp only [Consistent, hnone] at hc
  exact hc

/-- Object lifetime under every interleaving of surface steps: counts match the slots and held
references, a held reference is live, the last release gives back the object's own descriptor,
and every call of the surface is a run of steps that returns every reference it took. -/
theorem object_lifetime (m : RightsMasks) {w : World}
    (h : Relation.ReflTransGen SurfaceStep World.init w) :
    (∀ o obj, w.sys.objects o = some obj → obj.refcount = w.refs o) ∧
    (∀ o, w.sys.objects o = none → w.refs o = 0) ∧
    (∀ o ∈ w.held, w.sys.objects o ≠ none) ∧
    (∀ o ∈ w.held, ∀ sys', fdObjectRelease w.sys o = .ok sys' → w.ReleaseExact o sys') ∧
    ∀ (c : Call) sys', c.run m w.sys = .ok sys' →
      Relation.ReflTransGen SurfaceStep w ⟨sys', w.held⟩ :=
  have hi := init_inv.of_surfaceSteps h
  ⟨fun _ _ => hi.refcount_eq, fun _ => hi.refs_eq_zero, fun _ => hi.held_live,
    fun _ hmem _ => hi.release_exact hmem, fun c _ hrun => c.run_surfaceRuns hi.table hrun w.held⟩

/-- A thread that has just made the first object, for host descriptor 3, holds the one
reference to it. -/
theorem object_lifetime_fresh_object :
    World.refs ⟨(Sys.mk fdTableInit
      (Sys.init.setObject 0 (some ⟨1, .regularFile, -1, false⟩)).objects 1 []).setNumber 0 3,
      [0]⟩ 0 = 1 :=
  ((object_lifetime default (.single (.step (Step.new .regularFile 3 rfl)))).1 0
    ⟨1, .regularFile, 3, false⟩ rfl).symm

/-- Rights never amplify over the whole surface: a call leaves each slot with an object it made,
within the largest rights of its type, or one a slot held before, with no more rights. -/
theorem surface_rights_never_amplify (m : RightsMasks) {sys : Sys} (h : Call.Reachable m sys) :
    (∀ (c : Call) sys', c.run m sys = .ok sys' →
      ∀ (i : Nat) (fe : FdEntry), sys'.table.entries[i]? = some (some fe) →
        EntryFrom m sys sys' fe) ∧
    ∀ (i : Nat) (fe : FdEntry), sys.table.entries[i]? = some (some fe) →
      ∃ obj, sys.objects fe.object = some obj ∧
        WithinMax m obj.type fe.rightsBase fe.rightsInheriting :=
  ⟨fun c _ hrun => c.run_rightsFrom h.inv.1 hrun, h.inv.2⟩

theorem surface_rights_never_amplify_oneFile :
    ∃ obj, oneFile.objects 0 = some obj ∧ WithinMax default obj.type 0 0 :=
  (surface_rights_never_amplify default oneFile_surface_reachable).2 0 ⟨0, 0, 0⟩ rfl

/-- A reference taken with some rights is to a live object whose type can be granted them, which
is what lets every call use the members of the object's union. -/
theorem surface_get_within_type (m : RightsMasks) {sys sys' : Sys} {fd o : Nat}
    {rightsBase rightsInheriting : Rights} (h : Call.Reachable m sys)
    (hget : fdObjectGetLocked sys fd rightsBase rightsInheriting = .ok (sys', .ok o)) :
    ∃ obj, sys.objects o = some obj ∧ WithinMax m obj.type rightsBase rightsInheriting := by
  rcases fdObjectGetLocked_cases sys fd rightsBase rightsInheriting with
    ⟨e, h'⟩ | ⟨f, h', -⟩ | ⟨fe, sys1, hocc, hb, hi, -, h'⟩ <;> rw [h'] at hget <;> cases hget
  obtain ⟨obj, hobj, hmax⟩ := h.inv.2 fd fe hocc
  exact ⟨obj, hobj, hmax.narrow hb hi⟩

theorem surface_get_within_type_oneFile :
    ∃ obj, oneFile.objects 0 = some obj ∧ WithinMax default obj.type 0 0 :=
  surface_get_within_type default oneFile_surface_reachable
    (rfl : fdObjectGetLocked oneFile 0 0 0 =
      .ok (oneFile.setObject 0 (some ⟨2, .regularFile, 3, false⟩), .ok 0))

/-- The slot a call of the surface names: that of its `Syscall`, none for the others. -/
def Call.names : Call → Option Nat
  | .syscall c => c.names
  | _ => none

/-- Slot isolation over the whole surface: a call leaves every occupied slot but the one it names
as it was; every other change to the table fills a free slot. -/
theorem surface_slots_kept (m : RightsMasks) {sys sys' : Sys} (c : Call)
    (h : c.run m sys = .ok sys') : sys.table.Kept sys'.table c.names := by
  cases c with
  | syscall c => exact c.run_kept h
  | pathCall resolve c => exact .of_eq (c.run_runs m resolve h).kept.1
  | fileOpen =>
    obtain ⟨⟨_, _⟩, h', rfl⟩ := Except.map_eq_ok h
    obtain ⟨sys2, hl, rfl | ⟨nfd, r', hinst⟩⟩ := sysFileOpen_runs h'
    · exact .of_eq hl.kept.1
    · exact (FdTable.Kept.of_eq hl.kept.1).trans (sysFileOpenInstall_kept hinst)
  | fileReaddir => exact .of_eq ((sysFileReaddir_ends _ _ _ _ _ _ _).runs_of_map h).kept.1
  | poll => exact .of_eq ((sysPoll_ends _ _ _ _ _ _).runs_of_map h).kept.1
  | fdPread => exact .of_eq ((sysFdPreadEmulated_ends _ _ _ _).runs_of_map h).kept.1
  | fdPwrite => exact .of_eq ((sysFdPwriteEmulated_ends _ _ _ _).runs_of_map h).kept.1
  | sockRecv =>
    obtain ⟨⟨_, _⟩, h', rfl⟩ := Except.map_eq_ok h
    exact sysSockRecv_kept h'

theorem surface_slots_kept_oneFile : Sys.init.table.Kept oneFile.table none :=
  surface_slots_kept default _ oneFile_call

/-- What a call of the surface may do to the table seen as a map: what its `Syscall` may do;
nothing for the path calls, `sys_file_readdir`, `sys_poll` and the vectored I/O emulation; one
entry more at a free number for `sys_file_open`, and any number, in turn, for `sys_sock_recv`. -/
def Call.OnMap : Call → FdMap → FdMap → Prop
  | .syscall c, v, v' => c.OnMap v v'
  | .fileOpen .., v, v' => v' = v ∨ FdMap.Install v v'
  | .sockRecv .., v, v' => Relation.ReflTransGen FdMap.Install v v'
  | _, v, v' => v' = v

/-- The descriptor table refines a map from descriptor numbers to entries over the whole
surface: from every state, a call that returns changes the map only as `Call.OnMap` says. -/
theorem surface_refines_fdMap (m : RightsMasks) {sys sys' : Sys} (c : Call)
    (h : c.run m sys = .ok sys') : c.OnMap sys.table.view sys'.table.view := by
  cases c with
  | syscall c => exact c.run_onMap h
  | pathCall resolve c => exact congrArg FdTable.view (c.run_runs m resolve h).kept.1
  | fileOpen =>
    obtain ⟨⟨_, _⟩, h', rfl⟩ := Except.map_eq_ok h
    obtain ⟨sys2, hl, rfl | ⟨nfd, r', hinst⟩⟩ := sysFileOpen_runs h'
    · exact .inl (congrArg FdTable.view hl.kept.1)
    · exact hl.kept.1 ▸ sysFileOpenInstall_view hinst
  | fileReaddir =>
    exact congrArg FdTable.view ((sysFileReaddir_ends _ _ _ _ _ _ _).runs_of_map h).kept.1
  | poll => exact congrArg FdTable.view ((sysPoll_ends _ _ _ _ _ _).runs_of_map h).kept.1
  | fdPread => exact congrArg FdTable.view ((sysFdPreadEmulated_ends _ _ _ _).runs_of_map h).kept.1
  | fdPwrite => exact congrArg FdTable.view ((sysFdPwriteEmulated_ends _ _ _ _).runs_of_map h).kept.1
  | sockRecv =>
    obtain ⟨⟨_, _⟩, h', rfl⟩ := Except.map_eq_ok h
    exact sysSockRecv_view h'

theorem surface_refines_fdMap_close : ∃ sys', (Call.syscall (.fdClose 0)).run default oneFile =
    .ok sys' ∧ (Call.syscall (.fdClose 0)).OnMap oneFile.table.view sys'.table.view := by
  obtain ⟨sys', h⟩ : ∃ sys', (Call.syscall (.fdClose 0)).run default oneFile = .ok sys' :=
    ⟨_, rfl⟩
  exact ⟨sys', h, surface_refines_fdMap default _ h⟩

end CloudabiEmulator
