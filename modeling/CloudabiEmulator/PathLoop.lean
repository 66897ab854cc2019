import Mathlib.Algebra.Order.Ring.Nat
import CloudabiEmulator.PathModel

/-! The whole loop of `path_get`: every iteration that goes round again lowers
`(128 - expansions, characters left on the path stack, curpath)` lexicographically, so the
loop is a function by well-founded recursion on that triple, and every run reaches an exit
after finitely many iterations. -/

namespace CloudabiEmulator.Path

/-- The characters left in `paths[0..curpath]`. -/
def LoopState.charsLeft (s : LoopState) : Nat :=
  s.cur.rest.length + (s.saved.map (·.rest.length)).sum

def LoopState.measure (s : LoopState) : Nat × Nat × Nat :=
  (128 - s.expansions, s.charsLeft, s.saved.length)

/-- The order the measure falls in. -/
abbrev MeasureLt : Nat × Nat × Nat → Nat × Nat × Nat → Prop :=
  Prod.Lex (· < ·) (Prod.Lex (· < ·) (· < ·))

theorem splitComponent_rest_lt {p : List Char} (h : (splitComponent p).file ≠ []) :
    (splitComponent p).rest.length < p.length := by
  have hsplit := List.takeWhile_append_dropWhile (· != '/') p
  have hfile : 0 < (p.takeWhile (· != '/')).length := List.length_pos.2 h
  have hrest := (@List.dropWhile_suffix _ (p.dropWhile (· != '/')) (· == '/')).length_le
  have hlen := congrArg List.length hsplit
  simp only [List.length_append] at hlen
  simp only [splitComponent]
  omega

section Step

variable {host : Host} {base : Dir} {follow needsFinalComponent : Bool}

theorem scan_next_file_ne {s : LoopState} {c : Component} {fds : List Dir} {h}
    (hscan : scan host base follow needsFinalComponent s c = .next fds h) : c.file ≠ [] := by
  rintro hfile
  simp [scan, hfile] at hscan

theorem afterComponent_next {s s' : LoopState} (h : afterComponent s = .next s') :
    s'.expansions = s.expansions ∧ s'.charsLeft ≤ s.charsLeft ∧ s'.fds = s.fds := by
  unfold afterComponent at h
  split at h
  · split at h
    · split at h <;> cases h
    · next p saved hsaved =>
      split at h
      · cases h
        refine ⟨rfl, ?_, rfl⟩
        simp only [LoopState.charsLeft, hsaved, List.map_cons, List.sum_cons]
        omega
      · cases h
  · cases h
    exact ⟨rfl, le_rfl, rfl⟩

theorem pushSymlink_next {s s' : LoopState} {b : Bool} {t : List Char}
    (h : pushSymlink s b t = .next s') : s'.expansions = s.expansions + 1 ∧ s'.fds = s.fds := by
  unfold pushSymlink at h
  split at h
  · cases h
  · split at h
    · split at h
      · cases h
        exact ⟨rfl, rfl⟩
      · cases h
    · split at h
      · cases h
      · cases h
        exact ⟨rfl, rfl⟩

theorem advance_charsLeft (s : LoopState) (c : Component) :
    (advance s c).charsLeft = c.rest.length + (s.saved.map (·.rest.length)).sum := rfl

/-- Each iteration that goes round again lowers the measure: it consumes a character of
`paths[curpath]` (and possibly pops a finished target), or it makes an expansion. -/
theorem step_measure_lt {s s' : LoopState}
    (h : step host base follow needsFinalComponent s = .next s') :
    MeasureLt s'.measure s.measure := by
  simp only [step] at h
  split at h
  · cases h
  · cases h
  · rename_i fds hfds hscan
    obtain ⟨hexp, hchars, -⟩ := afterComponent_next h
    have hlt := splitComponent_rest_lt (scan_next_file_ne hscan)
    have hle : s'.charsLeft < s.charsLeft := by
      have := advance_charsLeft s (splitComponent s.cur.rest)
      simp only [LoopState.charsLeft] at hchars this ⊢
      omega
    simp only [LoopState.measure]
    rw [hexp]
    exact Prod.Lex.right _ (Prod.Lex.left _ _ hle)
  · obtain ⟨hexp, -⟩ := pushSymlink_next h
    have := s'.expansions_lt
    simp only [LoopState.measure]
    exact Prod.Lex.left _ _ (by simp only [advance] at hexp; omega)

end Step

/-- The loop, run to its exit. -/
def run (host : Host) (base : Dir) (follow needsFinalComponent : Bool) (s : LoopState) : Exit :=
  match _h : step host base follow needsFinalComponent s with
  | .next s' => run host base follow needsFinalComponent s'
  | .exit e => e
termination_by s.measure
decreasing_by exact step_measure_lt _h

/-- The emulated `path_get` from the point where `fds[0]` holds the handle's directory
`base`, on the NUL-terminated copy `path` of the caller's path. -/
def pathGetEmulated (host : Host) (base : Dir) (follow needsFinalComponent : Bool)
    (path : List Char) : Except Fault (Except Errno PathAccess) :=
  finish base (run host base follow needsFinalComponent (initState path))

/-- A handle's directory holding a directory `x` and a symbolic link `l` to it. -/
def linkToDirectory : Tree := fun p =>
  if p = [] ∨ p = [['x']] then some .directory
  else if p = [['l']] then some (.symlink ['x'])
  else none

section Run

variable {host : Host} {base : Dir} {follow needsFinalComponent : Bool}

theorem run_eq (s : LoopState) : run host base follow needsFinalComponent s =
    match step host base follow needsFinalComponent s with
    | .next s' => run host base follow needsFinalComponent s'
    | .exit e => e := by
  rw [run]
  split <;> simp_all

theorem run_of_next {s s' : LoopState}
    (h : step host base follow needsFinalComponent s = .next s') :
    run host base follow needsFinalComponent s = run host base follow needsFinalComponent s' := by
  rw [run_eq, h]

theorem run_of_exit {s : LoopState} {e : Exit}
    (h : step host base follow needsFinalComponent s = .exit e) :
    run host base follow needsFinalComponent s = e := by
  rw [run_eq, h]

variable (host base follow needsFinalComponent) in
/-- The iterations of a run: `Steps s t` when the loop goes from `s` to `t` going round. -/
inductive Steps : LoopState → LoopState → Prop
  | refl (s : LoopState) : Steps s s
  | head {s s' t : LoopState} : step host base follow needsFinalComponent s = .next s' →
      Steps s' t → Steps s t

theorem Steps.tail {s t t' : LoopState} (hst : Steps host base follow needsFinalComponent s t)
    (h : step host base follow needsFinalComponent t = .next t') :
    Steps host base follow needsFinalComponent s t' := by
  induction hst with
  | refl => exact .head h (.refl _)
  | head hs _ ih => exact .head hs (ih h)

theorem Steps.run_eq {s t : LoopState} (hst : Steps host base follow needsFinalComponent s t) :
    run host base follow needsFinalComponent s = run host base follow needsFinalComponent t := by
  induction hst with
  | refl => rfl
  | head hs _ ih => rw [run_of_next hs, ih]

/-- Every run of the loop ends: from any state the iterations reach, after finitely many
steps, a state whose iteration exits, and the run returns that exit. -/
theorem run_exits (s : LoopState) : ∃ t, Steps host base follow needsFinalComponent s t ∧
    step host base follow needsFinalComponent t =
      .exit (run host base follow needsFinalComponent s) := by
  match h : step host base follow needsFinalComponent s with
  | .next s' =>
    obtain ⟨t, hst, ht⟩ := run_exits s'
    exact ⟨t, .head h hst, by rw [run_of_next h]; exact ht⟩
  | .exit e => exact ⟨s, .refl s, by rw [run_of_exit h]; exact h⟩
termination_by s.measure
decreasing_by exact step_measure_lt h

theorem step_of_expand {s : LoopState} {t : List Char}
    (h : scan host base follow needsFinalComponent s (splitComponent s.cur.rest) = .expand t) :
    step host base follow needsFinalComponent s =
      pushSymlink (advance s (splitComponent s.cur.rest))
        (splitComponent s.cur.rest).endsWithSlashes t := by
  simp only [step, h]

theorem pushSymlink_of_limit {s : LoopState} (b : Bool) (t : List Char) (h : s.expansions = 127) :
    pushSymlink s b t = .exit (.fail s .eloop) := by
  simp [pushSymlink, h]

end Run

/-- Looking up `l/f` through a symbolic link met before the last component, on a host whose
`openat` reports `ELOOP` for it: once the target `x/` in buffer `1` is used up, the loop runs
`free(paths[curpath--])` with `paths[1]` two bytes into that buffer, not an allocation's start. -/
theorem pathGet_frees_advanced_cursor :
    pathGetEmulated (Host.ofTree linkToDirectory .eloop) [] false false ['l', '/', 'f'] =
      .error .invalidFree := by
  obtain ⟨s1, h1, h2⟩ : ∃ s1,
      step (Host.ofTree linkToDirectory .eloop) [] false false (initState ['l', '/', 'f']) =
        .next s1 ∧
      step (Host.ofTree linkToDirectory .eloop) [] false false s1 = .exit (.fault .invalidFree) :=
    ⟨_, rfl, rfl⟩
  rw [pathGetEmulated, run_of_next h1, run_of_exit h2]
  rfl

/-- `path_get`'s loop terminates on every host: each iteration lowers `(128 - expansions,
characters left, curpath)` lexicographically, every run reaches an exit, no state holds more than
127 expansions, and the iteration that would make the 128th fails with `ELOOP`. -/
theorem pathGet_loop_terminates (host : Host) (base : Dir) (follow needsFinalComponent : Bool) :
    (∀ s s', step host base follow needsFinalComponent s = .next s' →
      MeasureLt s'.measure s.measure) ∧
    (∀ s, ∃ t, Steps host base follow needsFinalComponent s t ∧
      step host base follow needsFinalComponent t =
        .exit (run host base follow needsFinalComponent s)) ∧
    (∀ s t, Steps host base follow needsFinalComponent s t → t.expansions ≤ 127) ∧
    (∀ s t, scan host base follow needsFinalComponent s (splitComponent s.cur.rest) = .expand t →
      s.expansions = 127 → ∃ s', run host base follow needsFinalComponent s = .fail s' .eloop) := by
  refine ⟨fun _ _ h => step_measure_lt h, run_exits, fun _ t _ => by have := t.expansions_lt; omega,
    fun s t hscan hexp => ⟨advance s (splitComponent s.cur.rest), run_of_exit ?_⟩⟩
  rw [step_of_expand hscan]
  exact pushSymlink_of_limit _ t hexp

end CloudabiEmulator.Path
