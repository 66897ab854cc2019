import CloudabiEmulator.ObjectCallSpec

/-! `sys_file_advise` and `sys_file_allocate` in builds for hosts without `posix_fadvise` and
`posix_fallocate`, and `sys_mem_sync`. Without `posix_fadvise` the advice is checked and the
descriptor looked up under the read lock, and nothing else is done: from every state the threads
reach, that build answers as the one with `posix_fadvise` does when the host accepts the advice.
Without `posix_fallocate` the call grows the file with `ftruncate` to `offset + len` when `fstat`
reports it shorter. The two host calls return `-1` on failure, and the call hands that value, not
`errno`, to `convert_errno`, which maps every negative value to `ENOSYS`. On a file as POSIX
specifies `fstat` and `ftruncate`, while `offset + len` fits in an `off_t` the file ends at the
larger of the size `fstat` saw and `offset + len`, however other writers changed it between the
two calls; the 64-bit sum can wrap, and then the file is set short of `offset + len` and the call
reports success. `sys_mem_sync` hands `msync` the caller's flags, not the host's it computes. -/

namespace CloudabiEmulator

open World

/-- `sys_file_advise` in a build without `posix_fadvise`: the advice is checked, and
`fd_table_get_entry` looks `fd` up with `CLOUDABI_RIGHT_FILE_ADVISE` under the read lock; its
error is the call's. -/
def sysFileAdviseEmulated (m : RightsMasks) (sys : Sys) (fd : Nat) (advice : Advice) :
    Except Errno Unit :=
  if advice = .other then .error .einval
  else (fdTableGetEntry sys.table fd m.fileAdvise 0).map fun _ => ()

/-- The build without `posix_fadvise` answers, from every state the threads reach, as the build
with it does when the host accepts the advice; that build can also stop on the assertion of
`fd_number`, for an object with no host descriptor, which the other never calls. -/
theorem sysFileAdvise_emulated (m : RightsMasks) {w : World}
    (h : Relation.ReflTransGen Step World.init w) (fd : Nat) (advice : Advice) :
    sysFileAdvise m w.sys fd advice (.ok ()) = .ok (w.sys, sysFileAdviseEmulated m w.sys fd advice) ∨
      sysFileAdvise m w.sys fd advice (.ok ()) =
        .error (.assertion "fd_number() called on virtual file descriptor") := by
  unfold sysFileAdvise sysFileAdviseEmulated
  split
  · exact .inl rfl
  rcases fdObjectCall_reachable h fd m.fileAdvise fun _ => .ok () with
    ⟨e, he, hc⟩ | ⟨fe, obj, he, -, hc⟩ <;> rw [hc, he]
  · exact .inl rfl
  · split
    · exact .inl rfl
    · exact .inr rfl

theorem sysFileAdvise_emulated_init :
    sysFileAdvise default Sys.init 0 .normal (.ok ()) =
        .ok (Sys.init, sysFileAdviseEmulated default Sys.init 0 .normal) ∨
      sysFileAdvise default Sys.init 0 .normal (.ok ()) =
        .error (.assertion "fd_number() called on virtual file descriptor") :=
  sysFileAdvise_emulated default (w := World.init) .refl 0 .normal

/-- The calls the emulation of `posix_fallocate` makes on the file, over the host's state `σ` of
it: `fstat` reports `st_size` or fails, and `ftruncate` changes the file or fails. -/
structure FileOps (σ : Type) where
  fstat : σ → Except Errno Int
  ftruncate : σ → Int → σ × Except Errno Unit

/-- `convert_errno`: the code the table `errors` gives a host `errno` value, and `ENOSYS` for a
negative value and for one the table does not list. -/
def convertErrno (errors : Nat → Option Errno) (error : Int) : Errno :=
  if error < 0 then .enosys else (errors error.toNat).getD .enosys

/-- A 64-bit `cloudabi_filesize_t` read as the signed `off_t` that `ftruncate` takes. -/
def toOffT (x : Nat) : Int := if x < 2 ^ 63 then x else x - 2 ^ 64

/-- The `#else` branch of `sys_file_allocate`: the file as its last host call leaves it, and
`ret`, `0` or the `-1` of a failed call. `sb.st_size < offset + len` compares in 64 bits, and
`ftruncate` takes the sum as an `off_t`. Other writers may change the file between the two calls,
the race of the code's `TODO`: `between` is what they do. -/
def fileAllocateEmulated {σ : Type} (ops : FileOps σ) (offset len : UInt64) (between : σ → σ)
    (f : σ) : σ × Int :=
  match ops.fstat f with
  | .error _ => (f, -1)
  | .ok size =>
    if size % 2 ^ 64 < ((offset + len).toNat : Int) then
      match ops.ftruncate (between f) (toOffT (offset + len).toNat) with
      | (f', .ok ()) => (f', 0)
      | (f', .error _) => (f', -1)
    else (f, 0)

/-- The end of `sys_file_allocate`: `convert_errno(ret)` for a nonzero `ret`. -/
def fileAllocateAnswer (errors : Nat → Option Errno) (ret : Int) : Except Errno Unit :=
  if ret ≠ 0 then .error (convertErrno errors ret) else .ok ()

/-- `sys_file_allocate` in a build without `posix_fallocate`, on the host file `file` of the
descriptor's object: the call of the `fd_object_get` family with the emulation's answer. -/
def sysFileAllocateEmulated {σ : Type} (m : RightsMasks) (sys : Sys) (fd : Nat)
    (errors : Nat → Option Errno) (ops : FileOps σ) (offset len : UInt64) (between : σ → σ)
    (file : σ) : Except Fault (Sys × Except Errno Unit) :=
  sysFileAllocate m sys fd
    (fileAllocateAnswer errors (fileAllocateEmulated ops offset len between file).2)

/-- A host file as POSIX specifies `fstat` and `ftruncate` on it, its state being its size:
`ftruncate` sets the size, and refuses a negative length with `EINVAL`. -/
def posixFile : FileOps Nat where
  fstat size := .ok size
  ftruncate size length := if length < 0 then (size, .error .einval) else (length.toNat, .ok ())

theorem UInt64.toNat_add' (a b : UInt64) : (a + b).toNat = (a.toNat + b.toNat) % 2 ^ 64 := by
  simp [UInt64.toNat, UInt64.add_def, Fin.val_add]

theorem posixFile_ftruncate (size : Nat) {n : Nat} (hn : n < 2 ^ 64) :
    posixFile.ftruncate size (toOffT n) =
      if n < 2 ^ 63 then (n, .ok ()) else (size, .error .einval) := by
  unfold toOffT
  by_cases h : n < 2 ^ 63
  · have hpos : ¬ (n : Int) < 0 := by omega
    simp only [posixFile, if_pos h, if_neg hpos, Int.toNat_natCast]
  · have hneg : (n : Int) - 2 ^ 64 < 0 := by omega
    simp only [posixFile, if_neg h, if_pos hneg]

/-- The emulation on a POSIX file whose size `fstat` sees is `size`, an `off_t`: when the 64-bit
sum `offset + len` is larger, `ftruncate` sets the file to it if it fits in an `off_t`, whatever
the file became in between, and fails otherwise. -/
theorem fileAllocateEmulated_posixFile (offset len : UInt64) (between : Nat → Nat) {size : Nat}
    (hsize : size < 2 ^ 63) :
    fileAllocateEmulated posixFile offset len between size =
      let sum := (offset.toNat + len.toNat) % 2 ^ 64
      if size < sum then
        if sum < 2 ^ 63 then (sum, 0) else (between size, -1)
      else (size, 0) := by
  have hlt : (offset.toNat + len.toNat) % 2 ^ 64 < 2 ^ 64 := Nat.mod_lt _ (Nat.two_pow_pos 64)
  have hmod : ((size : Int) % 2 ^ 64) = size := Int.emod_eq_of_lt (by omega) (by omega)
  simp only [fileAllocateEmulated, show posixFile.fstat size = .ok size from rfl, hmod,
    UInt64.toNat_add', Int.ofNat_lt, posixFile_ftruncate (between size) hlt]
  split_ifs <;> rfl

/-- On a POSIX file, while `offset + len` fits in an `off_t`, the emulation succeeds and its last
host call leaves the file `max size (offset + len)` bytes long, `size` being what `fstat` saw,
whatever other writers did to the file in between: one they grew beyond that is cut back. -/
theorem fileAllocateEmulated_sets_size (offset len : UInt64) (between : Nat → Nat) {size : Nat}
    (hsize : size < 2 ^ 63) (hfit : offset.toNat + len.toNat < 2 ^ 63) :
    fileAllocateEmulated posixFile offset len between size =
      (max size (offset.toNat + len.toNat), 0) := by
  rw [fileAllocateEmulated_posixFile offset len between hsize]
  dsimp only
  rw [Nat.mod_eq_of_lt (by omega)]
  split_ifs <;> first | omega | (congr 1; omega)

/-- A file of 100 bytes when `ftruncate` runs, that `fstat` saw empty, is cut to `2 + 3`. -/
theorem fileAllocateEmulated_sets_size_race :
    ((0 : Nat) < 2 ^ 63 ∧ (2 : UInt64).toNat + (3 : UInt64).toNat < 2 ^ 63) ∧
      fileAllocateEmulated posixFile 2 3 (fun _ => 100) 0 = (max 0 (2 + 3), 0) :=
  ⟨⟨by decide, by decide⟩, fileAllocateEmulated_sets_size 2 3 (fun _ => 100) (by decide) (by decide)⟩

/-- A sum `offset + len` that wraps past `2^64` to a length below `2^63` that the file does not
reach: the emulation sets the file to the wrapped length, short of `offset + len`, and reports
success. -/
theorem fileAllocateEmulated_wraps (errors : Nat → Option Errno) (offset len : UInt64)
    (between : Nat → Nat) (size : Nat) (hwrap : 2 ^ 64 ≤ offset.toNat + len.toNat)
    (hshort : size < offset.toNat + len.toNat - 2 ^ 64)
    (hfit : offset.toNat + len.toNat - 2 ^ 64 < 2 ^ 63) :
    (fileAllocateEmulated posixFile offset len between size).1 =
        offset.toNat + len.toNat - 2 ^ 64 ∧
      fileAllocateAnswer errors (fileAllocateEmulated posixFile offset len between size).2 =
        .ok () := by
  have hlt : offset.toNat + len.toNat < 2 ^ 64 + 2 ^ 64 := by
    have := offset.toNat_lt_size
    have := len.toNat_lt_size
    simp only [UInt64.size] at *
    omega
  have hmod : (offset.toNat + len.toNat) % 2 ^ 64 = offset.toNat + len.toNat - 2 ^ 64 := by
    omega
  rw [fileAllocateEmulated_posixFile offset len between (by omega)]
  dsimp only
  rw [hmod, if_pos hshort, if_pos hfit]
  exact ⟨rfl, rfl⟩

theorem fileAllocateEmulated_wraps_one :
    (fileAllocateEmulated posixFile 18446744073709551615 2 id 0).1 = 1 ∧
      fileAllocateAnswer (fun _ => none) (fileAllocateEmulated posixFile 18446744073709551615 2 id 0).2 =
        .ok () :=
  fileAllocateEmulated_wraps _ 18446744073709551615 2 id 0 (by decide) (by decide) (by decide)

/-- The encoding of the `msync` flags `MS_ASYNC`, `MS_INVALIDATE` and `MS_SYNC`, of CloudABI
(`CLOUDABI_MS_*`) or of the host. -/
structure MsFlags where
  async : Nat
  invalidate : Nat
  sync : Nat

/-- The host flags `nflags` that `sys_mem_sync` computes from the CloudABI `flags`: `none`, for
`EINVAL`, unless exactly one of `CLOUDABI_MS_ASYNC` and `CLOUDABI_MS_SYNC` is set. -/
def memSyncFlags (cloudabi host : MsFlags) (flags : Nat) : Option Nat :=
  let sel := flags &&& (cloudabi.async ||| cloudabi.sync)
  let nflags := if sel = cloudabi.async then some host.async
    else if sel = cloudabi.sync then some host.sync else none
  nflags.map fun n => if flags &&& cloudabi.invalidate ≠ 0 then n ||| host.invalidate else n

/-- `sys_mem_sync`: `msync` is the host's answer for the flags it is handed, which are the
caller's `flags`, not `nflags`. -/
def sysMemSync (cloudabi host : MsFlags) (flags : Nat) (msync : Nat → Except Errno Unit) :
    Except Errno Unit :=
  match memSyncFlags cloudabi host flags with
  | none => .error .einval
  | some _ => msync flags

end CloudabiEmulator
