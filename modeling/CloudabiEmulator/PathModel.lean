import CloudabiEmulator.Abi

/-! The emulated lookup of `path_get` (the branch without `CONFIG_HAS_CAP_ENTER`): one
iteration of its `for (;;)` loop over the directory stack `fds` and the path stack
`paths`/`paths_start`, against a host that answers `openat` and `readlinkat_dup`. Host
directories are named by their component paths from the host root, so a descriptor on the
stack is the directory it denotes. Path buffers are named by their allocation: buffer `0`
is the copy of the caller's path, buffer `k` the target read by the `k`-th expansion, and
`free` faults unless it gets offset `0` of a live buffer. The bounds of the C arrays
`fds[128]` and `paths[32]` and the expansion limit are fields of the loop state, so a state
the code could not hold cannot be built. -/

namespace CloudabiEmulator.Path

/-- A host directory, named by the components that lead to it from the host root. -/
abbrev Dir := List (List Char)

/-- What a name of a host directory refers to. -/
inductive Entry where
  | directory
  | regular
  | symlink (target : List Char)
  deriving DecidableEq, Repr

/-- A fixed host file system: the entry, if any, at each component path. -/
abbrev Tree := Dir → Option Entry

/-- A name that `openat` and `readlinkat` resolve as one entry of the directory they are
given: nonempty, without `/`, and neither `.` nor `..`. -/
def ValidName (name : List Char) : Prop :=
  name ≠ [] ∧ '/' ∉ name ∧ name ≠ ['.'] ∧ name ≠ ['.', '.']

/-- The directories reached from `base` by descending through real directory entries,
never through a symbolic link and never upwards. -/
inductive Below (fs : Tree) (base : Dir) : Dir → Prop
  | base : Below fs base base
  | child {d : Dir} {name : List Char} : Below fs base d → ValidName name →
      fs (d ++ [name]) = some .directory → Below fs base (d ++ [name])

/-- One pathname component as the loop extracts it: `strcspn(file, "/")` characters, whether
a slash follows, and the text after the run of slashes (`strspn(file_end, "/")`). -/
structure Component where
  file : List Char
  endsWithSlashes : Bool
  rest : List Char

def splitComponent (p : List Char) : Component :=
  let after := p.dropWhile (· != '/')
  { file := p.takeWhile (· != '/'), endsWithSlashes := !after.isEmpty,
    rest := after.dropWhile (· == '/') }

/-- An entry of the path stack: `paths_start[i]` (the buffer) and `paths[i]` (its cursor:
the offset into the buffer and the text from there to the terminating NUL). -/
structure PathSlot where
  start : Nat
  offset : Nat
  rest : List Char
  deriving DecidableEq, Repr

/-- The loop's state. `fds` lists `fds[curfd], …, fds[1]` (the handle's own directory
`fds[0]` is never popped and is not stored); `cur` is `paths[curpath]` and `saved` lists
`paths[curpath - 1], …, paths[0]`; `live` holds the path buffers not yet freed. -/
structure LoopState where
  fds : List Dir
  cur : PathSlot
  saved : List PathSlot
  expansions : Nat
  live : List Nat
  fds_lt : fds.length < 128
  saved_lt : saved.length < 32
  expansions_lt : expansions < 128

/-- `fds[curfd]`. -/
def LoopState.top (base : Dir) (s : LoopState) : Dir := s.fds.headD base

/-- The two host calls of the loop. The answer may depend on the loop state at the call,
so a host that fails at any one call (for lack of descriptors or memory, say) is a host
too. `readlinkatDup` is what `readlinkat_dup` returns: the target, or the `errno` it
leaves behind. -/
structure Host where
  openat : LoopState → Dir → List Char → Except Errno Dir
  readlinkatDup : LoopState → Dir → List Char → Except Errno (List Char)

/-- A host that answers according to a tree: `openat(d, name, O_DIRECTORY | O_NOFOLLOW)`
only ever opens the directory entry `name` of `d`, and `readlinkat` reports a target only
for a symbolic link, `EINVAL` only for an entry that is not one and `ENOENT` only for a
missing entry. Every other failure is allowed at every call. -/
structure Host.Sound (fs : Tree) (host : Host) : Prop where
  openat_ok : ∀ {s d name d'}, host.openat s d name = .ok d' →
    d' = d ++ [name] ∧ fs (d ++ [name]) = some .directory
  readlinkatDup_ok : ∀ {s d name t}, host.readlinkatDup s d name = .ok t →
    fs (d ++ [name]) = some (.symlink t)
  readlinkatDup_einval : ∀ {s d name}, host.readlinkatDup s d name = .error .einval →
    ∀ t, fs (d ++ [name]) ≠ some (.symlink t)
  readlinkatDup_enoent : ∀ {s d name}, host.readlinkatDup s d name = .error .enoent →
    fs (d ++ [name]) = none

/-- The host that never fails for want of resources. `symlinkErrno` is what its `openat`
with `O_DIRECTORY | O_NOFOLLOW` reports for a symbolic link: `ELOOP`, `EMLINK` (FreeBSD) or
`ENOTDIR`, all of which POSIX permits. -/
def Host.ofTree (fs : Tree) (symlinkErrno : Errno) : Host where
  openat _ d name :=
    match fs (d ++ [name]) with
    | some .directory => .ok (d ++ [name])
    | some (.symlink _) => .error symlinkErrno
    | some .regular => .error .enotdir
    | none => .error .enoent
  readlinkatDup _ d name :=
    match fs (d ++ [name]) with
    | some (.symlink t) => .ok t
    | some _ => .error .einval
    | none => .error .enoent

theorem Host.ofTree_sound (fs : Tree) (symlinkErrno : Errno) :
    (Host.ofTree fs symlinkErrno).Sound fs where
  openat_ok {s d name d'} h := by
    simp only [Host.ofTree] at h
    split at h <;> simp_all
  readlinkatDup_ok {s d name t} h := by
    simp only [Host.ofTree] at h
    split at h <;> simp_all
  readlinkatDup_einval {s d name} h t := by
    simp only [Host.ofTree] at h
    split at h <;> simp_all
  readlinkatDup_enoent {s d name} h := by
    simp only [Host.ofTree] at h
    split at h <;> simp_all

/-- What the component does, decided by the `if`/`else if` chain of the loop body with its
host calls. `next` carries the directory stack after the component (unchanged for `.`,
popped for `..`, pushed for an entered directory), `expand` the target of a symbolic link
to push (`goto push_symlink`), `finish` returns the final component. -/
inductive Scan where
  | fail (error : Errno)
  | finish
  | next (fds : List Dir) (h : fds.length < 128)
  | expand (symlink : List Char)

def scan (host : Host) (base : Dir) (follow needsFinalComponent : Bool) (s : LoopState)
    (c : Component) : Scan :=
  if c.file.isEmpty then .fail (if c.endsWithSlashes then .enotcapable else .enoent)
  else if c.file = ['.'] then .next s.fds s.fds_lt
  else if c.file = ['.', '.'] then
    match h : s.fds with
    | [] => .fail .enotcapable
    | _ :: fds => .next fds (by have := s.fds_lt; simp only [h, List.length_cons] at this; omega)
  else if !s.saved.isEmpty || !c.rest.isEmpty || (c.endsWithSlashes && !needsFinalComponent) then
    match host.openat s (s.top base) c.file with
    | .ok newdir =>
      if h : s.fds.length + 1 = 128 then .fail .enametoolong
      else .next (newdir :: s.fds) (by have := s.fds_lt; simp only [List.length_cons]; omega)
    | .error e =>
      if e ≠ .eloop ∧ e ≠ .emlink then .fail e
      else
        match host.readlinkatDup s (s.top base) c.file with
        | .ok symlink => .expand symlink
        | .error e => .fail e
  else if c.endsWithSlashes || follow then
    match host.readlinkatDup s (s.top base) c.file with
    | .ok symlink => .expand symlink
    | .error e => if e ≠ .einval ∧ e ≠ .enoent then .fail e else .finish
  else .finish

/-- How the loop leaves: `goto success` with `pa->path` and `pa->path_start` set, `goto fail`
with the error, or a fault. -/
inductive Exit where
  | success (s : LoopState) (path : List Char) (pathStart : Option Nat)
  | fail (s : LoopState) (error : Errno)
  | fault (fault : Fault)

inductive Iteration where
  | next (s : LoopState)
  | exit (e : Exit)

/-- `free(p)` of a path buffer, `p` being offset `offset` into buffer `start`. -/
def freeBuffer (live : List Nat) (start offset : Nat) : Option (List Nat) :=
  if offset = 0 ∧ start ∈ live then some (live.erase start) else none

/-- The block after a handled component: when `paths[curpath]` is used up, either the whole
path is (return `.`, freeing `paths_start[0]`) or a symbolic link is, which the code frees
with `free(paths[curpath--])`. -/
def afterComponent (s : LoopState) : Iteration :=
  if s.cur.rest.isEmpty then
    match h : s.saved with
    | [] =>
      match freeBuffer s.live s.cur.start 0 with
      | some live => .exit (.success { s with live } ['.'] none)
      | none => .exit (.fault .invalidFree)
    | p :: saved =>
      match freeBuffer s.live s.cur.start s.cur.offset with
      | some live =>
        .next { s with
          cur := p, saved, live
          saved_lt := by have := s.saved_lt; simp only [h, List.length_cons] at this; omega }
      | none => .exit (.fault .invalidFree)
  else .next s

/-- The target as pushed: `strcat(symlink, "/")` when the component had trailing slashes. -/
def withSlash (endsWithSlashes : Bool) (symlink : List Char) : List Char :=
  if endsWithSlashes then symlink ++ ['/'] else symlink

/-- `push_symlink:`. The new buffer gets the number of the expansion; the `free(symlink)` on
the two `ELOOP` exits releases a buffer that never entered `live`. -/
def pushSymlink (s : LoopState) (endsWithSlashes : Bool) (symlink : List Char) : Iteration :=
  if hexp : s.expansions + 1 = 128 then .exit (.fail s .eloop)
  else
    let slot : PathSlot := ⟨s.expansions + 1, 0, withSlash endsWithSlashes symlink⟩
    if s.cur.rest.isEmpty then
      match freeBuffer s.live s.cur.start 0 with
      | some live =>
        .next { s with
          cur := slot, expansions := s.expansions + 1, live := slot.start :: live
          expansions_lt := by have := s.expansions_lt; omega }
      | none => .exit (.fault .invalidFree)
    else if hpath : s.saved.length + 1 = 32 then .exit (.fail s .eloop)
    else
      .next { s with
        cur := slot, saved := s.cur :: s.saved, expansions := s.expansions + 1
        live := slot.start :: s.live
        saved_lt := by have := s.saved_lt; simp only [List.length_cons]; omega
        expansions_lt := by have := s.expansions_lt; omega }

/-- `paths[curpath]` moved past the component and its slashes. -/
def advance (s : LoopState) (c : Component) : LoopState :=
  { s with cur := { s.cur with offset := s.cur.offset + (s.cur.rest.length - c.rest.length),
                               rest := c.rest } }

/-- One iteration of the loop. -/
def step (host : Host) (base : Dir) (follow needsFinalComponent : Bool) (s : LoopState) :
    Iteration :=
  let c := splitComponent s.cur.rest
  match scan host base follow needsFinalComponent s c with
  | .fail e => .exit (.fail (advance s c) e)
  | .finish => .exit (.success (advance s c) s.cur.rest (some s.cur.start))
  | .next fds h => afterComponent { advance s c with fds, fds_lt := h }
  | .expand symlink => pushSymlink (advance s c) c.endsWithSlashes symlink

/-- The state on entry to the loop: `paths[0] = paths_start[0] = path` in buffer `0`. -/
def initState (path : List Char) : LoopState where
  fds := []
  cur := ⟨0, 0, path⟩
  saved := []
  expansions := 0
  live := [0]
  fds_lt := by decide
  saved_lt := by decide
  expansions_lt := by decide

/-- `struct path_access` without its object reference: the directory `fd`, the residual
`path`, `follow`, and the buffer `path_start` (`none` for `NULL`). -/
structure PathAccess where
  fd : Dir
  path : List Char
  follow : Bool
  pathStart : Option Nat

/-- `fail:` frees `paths_start[0]`, …, `paths_start[curpath]`. -/
def freeStarts (live : List Nat) (slots : List PathSlot) : Option (List Nat) :=
  slots.foldlM (fun live p => freeBuffer live p.start 0) live

/-- The code after the loop: `success:` returns the lease on `fds[curfd]` with
`pa->follow = false`; `fail:` frees the path stack and returns the error. -/
def finish (base : Dir) : Exit → Except Fault (Except Errno PathAccess)
  | .success s path pathStart =>
    .ok (.ok { fd := s.top base, path, follow := false, pathStart })
  | .fail s e =>
    match freeStarts s.live (s.cur :: s.saved).reverse with
    | some _ => .ok (.error e)
    | none => .error .invalidFree
  | .fault f => .error f

end CloudabiEmulator.Path
