import CloudabiEmulator.PathLoop

/-! Confinement of the emulated `path_get`. Whatever the tree and whatever the host's
failures, every directory on the stack `fds` is the handle's directory or one reached from
it through real directory entries, every `openat` and `readlinkat` is given such a
directory and a single component, and a successful lookup leaves a lease whose directory is
such a directory, with `follow` false and a residual path that is `.` or one component
(with its trailing slashes, only if it is not a symbolic link). -/

namespace CloudabiEmulator.Path

/-- Every directory on the stack is below the handle's directory `base`. -/
def Confined (fs : Tree) (base : Dir) (s : LoopState) : Prop := ∀ d ∈ s.fds, Below fs base d

/-- What a lease may name inside its directory `dir`: the directory itself (`.`), or a
single component, possibly followed by slashes, in which case it is not a symbolic link. -/
def ResidualPath (fs : Tree) (dir : Dir) (path : List Char) : Prop :=
  path = ['.'] ∨ ∃ name slashes, path = name ++ slashes ∧ ValidName name ∧
    (∀ c ∈ slashes, c = '/') ∧ (slashes ≠ [] → ∀ t, fs (dir ++ [name]) ≠ some (.symlink t))

theorem Confined.top_below {fs : Tree} {base : Dir} {s : LoopState} (h : Confined fs base s) :
    Below fs base (s.top base) := by
  unfold LoopState.top
  cases hfds : s.fds with
  | nil => exact .base
  | cons d _ => exact h d (by simp [hfds])

theorem splitComponent_valid {p : List Char} (h0 : (splitComponent p).file ≠ [])
    (h1 : (splitComponent p).file ≠ ['.']) (h2 : (splitComponent p).file ≠ ['.', '.']) :
    ValidName (splitComponent p).file := by
  refine ⟨h0, fun hmem => ?_, h1, h2⟩
  simpa using List.mem_takeWhile_imp hmem

/-- The text of a component is the name followed by the slashes after it and the rest. -/
theorem splitComponent_eq (p : List Char) :
    p = (splitComponent p).file ++ p.dropWhile (· != '/') := by
  simp only [splitComponent, List.takeWhile_append_dropWhile]

section Scan

variable {host : Host} {base : Dir} {follow needsFinalComponent : Bool}

theorem scan_next {s : LoopState} {c : Component} {fds : List Dir} {h}
    (hscan : scan host base follow needsFinalComponent s c = .next fds h) :
    fds = s.fds ∨ fds = s.fds.tail ∨
      (c.file ≠ [] ∧ c.file ≠ ['.'] ∧ c.file ≠ ['.', '.'] ∧
        ∃ d, host.openat s (s.top base) c.file = .ok d ∧ fds = d :: s.fds) := by
  unfold scan at hscan
  by_cases h0 : c.file.isEmpty
  · rw [if_pos h0] at hscan; cases hscan
  rw [if_neg h0] at hscan
  by_cases h1 : c.file = ['.']
  · rw [if_pos h1] at hscan
    cases hscan
    exact .inl rfl
  rw [if_neg h1] at hscan
  by_cases h2 : c.file = ['.', '.']
  · rw [if_pos h2] at hscan
    split at hscan
    · cases hscan
    · next hfds =>
      cases hscan
      exact .inr (.inl (by simp [hfds]))
  rw [if_neg h2] at hscan
  split at hscan
  · split at hscan
    · next d hd =>
      split at hscan
      · cases hscan
      · cases hscan
        exact .inr (.inr ⟨by simpa using h0, h1, h2, d, hd, rfl⟩)
    · split at hscan
      · cases hscan
      · split at hscan <;> cases hscan
  · split at hscan
    · split at hscan
      · cases hscan
      · split at hscan <;> cases hscan
    · cases hscan

theorem scan_finish {s : LoopState} {c : Component}
    (hscan : scan host base follow needsFinalComponent s c = .finish) :
    c.file ≠ [] ∧ c.file ≠ ['.'] ∧ c.file ≠ ['.', '.'] ∧ c.rest = [] ∧
      (c.endsWithSlashes = true → ∃ e, host.readlinkatDup s (s.top base) c.file = .error e ∧
        (e = .einval ∨ e = .enoent)) := by
  unfold scan at hscan
  by_cases h0 : c.file.isEmpty
  · rw [if_pos h0] at hscan; cases hscan
  rw [if_neg h0] at hscan
  by_cases h1 : c.file = ['.']
  · rw [if_pos h1] at hscan; cases hscan
  rw [if_neg h1] at hscan
  by_cases h2 : c.file = ['.', '.']
  · rw [if_pos h2] at hscan
    split at hscan <;> cases hscan
  rw [if_neg h2] at hscan
  split at hscan
  · split at hscan
    · split at hscan <;> cases hscan
    · split at hscan
      · cases hscan
      · split at hscan <;> cases hscan
  · next hdir =>
    have hrest : c.rest = [] := (by simpa using hdir : (_ ∧ _) ∧ _).1.2
    split at hscan
    · split at hscan
      · cases hscan
      · next e he =>
        split at hscan
        · cases hscan
        · next hcode =>
          refine ⟨by simpa using h0, h1, h2, hrest, fun _ => ⟨e, he, ?_⟩⟩
          by_contra hne
          exact hcode (by simpa only [not_or] using hne)
    · next hnot =>
      refine ⟨by simpa using h0, h1, h2, hrest, fun hs => ?_⟩
      simp [hs] at hnot

/-- The arguments the iteration at `s` gives `openat` and `readlinkat_dup` when it calls
them: the top of the stack and the component, unless the component is empty, `.` or `..`. -/
def hostCall (base : Dir) (s : LoopState) : Option (Dir × List Char) :=
  let c := splitComponent s.cur.rest
  if c.file.isEmpty ∨ c.file = ['.'] ∨ c.file = ['.', '.'] then none else some (s.top base, c.file)

theorem afterComponent_success {s s' : LoopState} {path : List Char} {ps : Option Nat}
    (h : afterComponent s = .exit (.success s' path ps)) : s'.fds = s.fds ∧ path = ['.'] := by
  unfold afterComponent at h
  split at h
  · split at h
    · split at h
      · cases h
        exact ⟨rfl, rfl⟩
      · cases h
    · split at h <;> cases h
  · cases h

theorem pushSymlink_ne_success {s s' : LoopState} {b : Bool} {t path : List Char}
    {ps : Option Nat} : pushSymlink s b t ≠ .exit (.success s' path ps) := by
  unfold pushSymlink
  split
  · simp
  · split
    · split <;> simp
    · split <;> simp

end Scan

section Confinement

variable {fs : Tree} {host : Host} {base : Dir} {follow needsFinalComponent : Bool}

theorem scan_next_confined (hsound : host.Sound fs) {s : LoopState} {fds : List Dir} {h}
    (hs : Confined fs base s)
    (hscan :
      scan host base follow needsFinalComponent s (splitComponent s.cur.rest) = .next fds h) :
    ∀ d ∈ fds, Below fs base d := by
  rcases scan_next hscan with rfl | rfl | ⟨h0, h1, h2, d, hd, rfl⟩
  · exact hs
  · exact fun d hd => hs d (List.mem_of_mem_tail hd)
  · obtain ⟨rfl, hdir⟩ := hsound.openat_ok hd
    intro d' hd'
    rcases List.mem_cons.1 hd' with rfl | hd'
    · exact .child hs.top_below (splitComponent_valid h0 h1 h2) hdir
    · exact hs d' hd'

theorem step_confined (hsound : host.Sound fs) {s s' : LoopState} (hs : Confined fs base s)
    (h : step host base follow needsFinalComponent s = .next s') : Confined fs base s' := by
  simp only [step] at h
  split at h
  · cases h
  · cases h
  · next fds hfds hscan =>
    rw [Confined, (afterComponent_next h).2.2]
    exact scan_next_confined hsound hs hscan
  · rw [Confined, (pushSymlink_next h).2]
    exact hs

theorem Steps.confined (hsound : host.Sound fs) {s t : LoopState} (hs : Confined fs base s)
    (hst : Steps host base follow needsFinalComponent s t) : Confined fs base t := by
  induction hst with
  | refl => exact hs
  | head h _ ih => exact ih (step_confined hsound hs h)

/-- The iteration that returns a final component returns the text it started from: the
name and the slashes after it, which are not a symbolic link. -/
theorem residualPath_of_finish (hsound : host.Sound fs) {s : LoopState}
    (hscan : scan host base follow needsFinalComponent s (splitComponent s.cur.rest) = .finish) :
    ResidualPath fs (s.top base) s.cur.rest := by
  obtain ⟨h0, h1, h2, hrest, hslash⟩ := scan_finish hscan
  refine .inr ⟨_, s.cur.rest.dropWhile (· != '/'), splitComponent_eq _,
    splitComponent_valid h0 h1 h2, fun c hc => ?_, fun hne t => ?_⟩
  · simpa using List.dropWhile_eq_nil_iff.1 hrest c hc
  · have hsl : (splitComponent s.cur.rest).endsWithSlashes = true := by
      simpa [splitComponent] using hne
    obtain ⟨e, he, rfl | rfl⟩ := hslash hsl
    · exact hsound.readlinkatDup_einval he t
    · simp [hsound.readlinkatDup_enoent he]

theorem step_success (hsound : host.Sound fs) {s s' : LoopState} {path : List Char}
    {ps : Option Nat} (hs : Confined fs base s)
    (h : step host base follow needsFinalComponent s = .exit (.success s' path ps)) :
    Confined fs base s' ∧ ResidualPath fs (s'.top base) path := by
  simp only [step] at h
  split at h
  · cases h
  · next hscan =>
    cases h
    exact ⟨hs, residualPath_of_finish hsound hscan⟩
  · next fds hfds hscan =>
    obtain ⟨hfds', rfl⟩ := afterComponent_success h
    refine ⟨?_, .inl rfl⟩
    rw [Confined, hfds']
    exact scan_next_confined hsound hs hscan
  · exact absurd h pushSymlink_ne_success

theorem finish_ok {e : Exit} {pa : PathAccess} (h : finish base e = .ok (.ok pa)) :
    ∃ s path ps, e = .success s path ps ∧ pa = ⟨s.top base, path, false, ps⟩ := by
  unfold finish at h
  split at h
  · cases h
    exact ⟨_, _, _, rfl, rfl⟩
  · split at h <;> cases h
  · cases h

/-- Confinement of the emulated `path_get`: on every tree and every host that answers according to
it, each directory on the stack is reached from `base` through real entries, each host call names
one component of such a directory, and a lease names one with `follow` false and a residual path
of at most one component. -/
theorem pathGet_confined (hsound : host.Sound fs) (path : List Char) :
    (∀ s, Steps host base follow needsFinalComponent (initState path) s →
      (∀ d ∈ s.fds, Below fs base d) ∧
      ∀ d name, hostCall base s = some (d, name) → Below fs base d ∧ ValidName name) ∧
    (∀ pa, pathGetEmulated host base follow needsFinalComponent path = .ok (.ok pa) →
      Below fs base pa.fd ∧ pa.follow = false ∧ ResidualPath fs pa.fd pa.path) := by
  have hinit : Confined fs base (initState path) := fun d hd => by simp [initState] at hd
  refine ⟨fun s hst => ⟨hst.confined hsound hinit, fun d name hcall => ?_⟩, fun pa hpa => ?_⟩
  · have hs := hst.confined hsound hinit
    simp only [hostCall] at hcall
    split at hcall
    · cases hcall
    · next hcond =>
      cases hcall
      obtain ⟨h0, h1, h2⟩ := not_or.1 hcond |>.imp_right not_or.1
      exact ⟨hs.top_below, splitComponent_valid (by simpa using h0) h1 h2⟩
  · obtain ⟨s', path', ps, hrun, rfl⟩ := finish_ok hpa
    obtain ⟨t, hst, ht⟩ := @run_exits host base follow needsFinalComponent (initState path)
    rw [hrun] at ht
    obtain ⟨hs', hpath⟩ := step_success hsound (hst.confined hsound hinit) ht
    exact ⟨hs'.top_below, rfl, hpath⟩

end Confinement

/-- A tree in which every name is a directory. -/
def allDirectories : Tree := fun _ => some .directory

theorem pathGet_confined_allDirectories :
    (Host.ofTree allDirectories .eloop).Sound allDirectories ∧
    ((∀ s, Steps (Host.ofTree allDirectories .eloop) [] false false (initState ['a', '/', 'b']) s →
      (∀ d ∈ s.fds, Below allDirectories [] d) ∧
      ∀ d name, hostCall [] s = some (d, name) → Below allDirectories [] d ∧ ValidName name) ∧
    (∀ pa, pathGetEmulated (Host.ofTree allDirectories .eloop) [] false false ['a', '/', 'b'] =
        .ok (.ok pa) →
      Below allDirectories [] pa.fd ∧ pa.follow = false ∧
        ResidualPath allDirectories pa.fd pa.path)) :=
  ⟨Host.ofTree_sound _ _, pathGet_confined (Host.ofTree_sound _ _) _⟩

end CloudabiEmulator.Path
