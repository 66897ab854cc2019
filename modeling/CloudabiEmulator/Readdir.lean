import CloudabiEmulator.ObjectCallSpec
import CloudabiEmulator.VectorIo

/-! `sys_file_readdir` and `file_readdir_put`. The directory is a stream of host entries: after
entry `k` is read, `telldir` answers a cookie `c_k` other than `CLOUDABI_DIRCOOKIE_START`, and
`seekdir(c_k)` resumes after entry `k`. The handle caches in `fo->directory.offset` the cookie of
the stream's position, and every call keeps that cache true, whatever cookie it is given, so a
call starts at the position of its cookie. From there a successful call copies the first
`min(nbyte, L)` bytes of the listing, the `cloudabi_dirent_t` record and the name of every entry
after that position, `L` bytes in all, and writes nothing else; a caller that resumes from the
`d_next` of the last complete record it received sees every entry once, in order. The loop does
not stop when the buffer is full: `nbyte` never changes, so every call reads the stream to its
end and leaves the handle there.

The record layout and the `cloudabi_filetype_t` values are those of the CloudABI headers,
which are not under `src/`; the three bytes of padding after `d_type` are taken to be zero, as
the initializer of `cde` leaves them on the compilers the emulator is built with. -/

namespace CloudabiEmulator

/-- `CLOUDABI_DIRCOOKIE_START`. -/
def dircookieStart : UInt64 := 0

/-- The `d_type` of a host `struct dirent`. -/
inductive HostDirType where
  | blk | chr | dir | fifo | lnk | reg | sock | other (t : Nat)
  deriving DecidableEq, Repr

/-- A host `struct dirent`: `d_ino`, the bytes of `d_name` before its NUL and `d_type`. `d_name`
is an array of at most 1024 bytes on every host the emulator builds for. -/
structure HostDirent where
  ino : UInt64
  name : List UInt8
  type : HostDirType
  name_lt : name.length < 1024

/-- The `switch` on `de->d_type`. -/
def direntType : HostDirType → FileType
  | .blk => .blockDevice
  | .chr => .characterDevice
  | .dir => .directory
  | .fifo => .socketStream
  | .lnk => .symbolicLink
  | .reg => .regularFile
  | .sock => .socketStream
  | .other _ => .unknown

/-- `cloudabi_filetype_t`. -/
def FileType.code : FileType → UInt8
  | .unknown => 0
  | .blockDevice => 16
  | .characterDevice => 17
  | .directory => 32
  | .regularFile => 96
  | .sharedMemory => 112
  | .socketDgram => 128
  | .socketStream => 130
  | .symbolicLink => 144

/-- The file type a `cloudabi_filetype_t` byte names, `unknown` for a byte that names none. -/
def FileType.ofCode (b : UInt8) : FileType :=
  if b = 16 then .blockDevice else if b = 17 then .characterDevice
  else if b = 32 then .directory else if b = 96 then .regularFile
  else if b = 112 then .sharedMemory else if b = 128 then .socketDgram
  else if b = 130 then .socketStream else if b = 144 then .symbolicLink else .unknown

@[simp] theorem FileType.ofCode_code (t : FileType) : FileType.ofCode t.code = t := by
  cases t <;> decide

/-- `w` bytes of `x`, least significant first. -/
def leBytes : Nat → Nat → List UInt8
  | 0, _ => []
  | w + 1, x => (x % 256).toUInt8 :: leBytes w (x / 256)

/-- The number the bytes `bs` hold, least significant first. -/
def leValue : List UInt8 → Nat
  | [] => 0
  | b :: bs => b.toNat + 256 * leValue bs

@[simp] theorem leBytes_length (w x : Nat) : (leBytes w x).length = w := by
  induction w generalizing x with
  | zero => rfl
  | succ w ih => simp [leBytes, ih]

theorem leValue_leBytes (w x : Nat) : leValue (leBytes w x) = x % 256 ^ w := by
  induction w generalizing x with
  | zero => simp [leBytes, leValue, Nat.mod_one]
  | succ w ih =>
    have hb : ((x % 256).toUInt8).toNat = x % 256 := by
      simp [Nat.toUInt8, UInt8.ofNat, UInt8.toNat, Fin.ofNat]
    rw [leBytes, leValue, ih, hb, Nat.pow_succ', Nat.mod_mul]

/-- `cloudabi_dirent_t`. -/
structure Dirent where
  next : UInt64
  ino : UInt64
  namlen : UInt32
  type : FileType
  deriving DecidableEq, Repr

/-- The 24 bytes of a `cloudabi_dirent_t`: `d_next`, `d_ino`, `d_namlen`, `d_type` and the
padding. -/
def Dirent.bytes (d : Dirent) : List UInt8 :=
  leBytes 8 d.next.toNat ++ leBytes 8 d.ino.toNat ++ leBytes 4 d.namlen.toNat ++ [d.type.code, 0, 0, 0]

/-- `sizeof(cloudabi_dirent_t)`. -/
@[simp] theorem Dirent.bytes_length (d : Dirent) : d.bytes.length = 24 := by
  simp [Dirent.bytes]

/-- The record a caller reads from the first 24 bytes of `bs`. -/
def Dirent.decode (bs : List UInt8) : Dirent :=
  ⟨(leValue (bs.take 8)).toUInt64, (leValue ((bs.drop 8).take 8)).toUInt64,
    (leValue ((bs.drop 16).take 4)).toUInt32, FileType.ofCode ((bs.drop 20).headD 0)⟩

theorem leValue_leBytes_uint64 (x : UInt64) : (leValue (leBytes 8 x.toNat)).toUInt64 = x := by
  have hx : x.toNat < 256 ^ 8 := x.val.isLt
  rw [leValue_leBytes, Nat.mod_eq_of_lt hx]
  cases x
  simp [Nat.toUInt64, UInt64.ofNat, UInt64.toNat, Fin.ofNat]

theorem leValue_leBytes_uint32 (x : UInt32) : (leValue (leBytes 4 x.toNat)).toUInt32 = x := by
  have hx : x.toNat < 256 ^ 4 := x.val.isLt
  rw [leValue_leBytes, Nat.mod_eq_of_lt hx]
  cases x
  simp [Nat.toUInt32, UInt32.ofNat, UInt32.toNat, Fin.ofNat]

/-- A record reads back from its bytes, whatever follows them. -/
theorem Dirent.decode_bytes (d : Dirent) (rest : List UInt8) :
    Dirent.decode (d.bytes ++ rest) = d := by
  have hsplit : d.bytes ++ rest = leBytes 8 d.next.toNat ++ (leBytes 8 d.ino.toNat ++
      (leBytes 4 d.namlen.toNat ++ (d.type.code :: 0 :: 0 :: 0 :: rest))) := by
    simp [Dirent.bytes]
  have h16 : ∀ l : List UInt8, l.drop 16 = (l.drop 8).drop 8 := fun l => by rw [List.drop_drop]
  have h20 : ∀ l : List UInt8, l.drop 20 = ((l.drop 8).drop 8).drop 4 := fun l => by
    rw [List.drop_drop, List.drop_drop]
  simp only [Dirent.decode, hsplit, h16, h20, List.take_left' (leBytes_length _ _),
    List.drop_left' (leBytes_length _ _), leValue_leBytes_uint64, leValue_leBytes_uint32,
    List.headD_cons, FileType.ofCode_code]

/-- A directory as `readdir` reads it: its entries in order, the cookie `telldir` answers once
entry `k` was read (`c_k`), the position `seekdir` moves the stream to, and the `errno` that
`readdir` leaves when it returns `NULL` (`none` at a clean end). No `c_k` is the start cookie, and
`seekdir(c_k)` resumes after entry `k`. -/
structure DirStream where
  entries : List HostDirent
  telldir : Nat → UInt64
  seekdir : UInt64 → Nat
  errno : Option Errno
  telldir_ne_start : ∀ k < entries.length, telldir k ≠ dircookieStart
  seekdir_telldir : ∀ k < entries.length, seekdir (telldir k) = k + 1

/-- `fo->directory` once `fdopendir` installed the stream: its position, in entries read, and
the cookie cached in `offset`. -/
structure DirCursor where
  pos : Nat
  offset : UInt64
  deriving DecidableEq, Repr

namespace DirStream

variable (s : DirStream)

/-- The seek of `sys_file_readdir`: nothing when the cookie is the cached one, `rewinddir` for
the start cookie and `seekdir` for any other. -/
def seek (cur : DirCursor) (cookie : UInt64) : DirCursor :=
  if cur.offset ≠ cookie then
    if cookie = dircookieStart then ⟨0, cookie⟩ else ⟨s.seekdir cookie, cookie⟩
  else cur

/-- The record `sys_file_readdir` crafts for the entry `de`, read at position `i`. -/
def dirent (i : Nat) (de : HostDirent) : Dirent :=
  ⟨s.telldir i, de.ino, de.name.length.toUInt32, direntType de.type⟩

end DirStream

/-- `file_readdir_put`: as much of `elem` as the `bufsize` bytes of `buf` hold after the
`bufused` already used, copied at `bufused`. `bufused` never exceeds `bufsize`, so the `size_t`
difference does not wrap. -/
def fileReaddirPut (buf : Bytes) (bufsize bufused : Nat) (elem : List UInt8) :
    Except Fault (Bytes × Nat) := do
  let elemsize := min elem.length (bufsize - bufused)
  let buf ← memcpyAt buf bufused (elem.map some) 0 elemsize
  return (buf, bufused + elemsize)

/-- The loop of `sys_file_readdir` over the entries `readdir` still returns, the first at
position `pos`: while `nbyte > 0`, each entry sets `offset` to `telldir` and copies its record and
its name; when `readdir` returns `NULL` the call answers success if `errno` is zero or some bytes
were copied. -/
def readdirLoop (s : DirStream) (nbyte : Nat) :
    Nat → UInt64 → Bytes → Nat → List HostDirent →
      Except Fault (DirCursor × Bytes × Nat × Option Errno)
  | pos, offset, buf, bufused, [] =>
    if nbyte > 0 then
      .ok (⟨pos, offset⟩, buf, bufused, if s.errno = none ∨ bufused > 0 then none else s.errno)
    else .ok (⟨pos, offset⟩, buf, bufused, none)
  | pos, offset, buf, bufused, de :: rest =>
    if nbyte > 0 then do
      let offset := s.telldir pos
      let (buf, bufused) ← fileReaddirPut buf nbyte bufused (s.dirent pos de).bytes
      let (buf, bufused) ← fileReaddirPut buf nbyte bufused de.name
      readdirLoop s nbyte (pos + 1) offset buf bufused rest
    else .ok (⟨pos, offset⟩, buf, bufused, none)

/-- The part of `sys_file_readdir` under `fo->directory.lock` once the stream is installed: the
seek, then the loop from `*bufused = 0`. -/
def fileReaddirLocked (s : DirStream) (cur : DirCursor) (buf : Bytes) (nbyte : Nat)
    (cookie : UInt64) : Except Fault (DirCursor × Bytes × Nat × Option Errno) :=
  let cur := s.seek cur cookie
  readdirLoop s nbyte cur.pos cur.offset buf 0 (s.entries.drop cur.pos)

/-- The stream of the object `fo`, installed by `fdopendir(fd_number(fo))` when it has none yet,
at the start of the directory with `offset = CLOUDABI_DIRCOOKIE_START`. -/
def fileReaddirOpen (fdopendir : Except Errno Unit) (sys : Sys) (dirs : Nat → Option DirCursor)
    (fo : Nat) (obj : FdObject) : Except Fault (Except Errno (Sys × DirCursor)) :=
  match dirs fo with
  | some cur => .ok (.ok (sys, cur))
  | none => do
    let _ ← fdNumber obj
    return fdopendir.map fun _ =>
      (sys.setObject fo (some { obj with directoryHandle := true }), ⟨0, dircookieStart⟩)

/-- `sys_file_readdir`. `dirs` is `fo->directory` of every object, `streams` the directory each
object reads, and `fdopendir` the host's answer. The answer is the buffer and `*bufused`. -/
def sysFileReaddir (m : RightsMasks) (streams : Nat → DirStream) (fdopendir : Except Errno Unit)
    (sys : Sys) (dirs : Nat → Option DirCursor) (fd : Nat) (buf : Bytes) (nbyte : Nat)
    (cookie : UInt64) :
    Except Fault (Sys × (Nat → Option DirCursor) × Except Errno (Bytes × Nat)) := do
  match ← fdObjectGetLocked sys fd m.fileReaddir 0 with
  | (sys, .error e) => return (sys, dirs, .error e)
  | (sys, .ok fo) =>
    match sys.objects fo with
    | none => .error .useAfterFree
    | some obj =>
      match ← fileReaddirOpen fdopendir sys dirs fo obj with
      | .error e =>
        let sys ← fdObjectRelease sys fo
        return (sys, dirs, .error e)
      | .ok (sys, cur) =>
        let (cur, buf, bufused, err) ← fileReaddirLocked (streams fo) cur buf nbyte cookie
        let sys ← fdObjectRelease sys fo
        let dirs := fun o => if o = fo then some cur else dirs o
        return (sys, dirs, match err with
          | none => .ok (buf, bufused)
          | some e => .error e)

namespace DirStream

variable (s : DirStream)

/-- The record and the name of every entry of `rest`, the first read at position `i`. -/
def listingFrom : Nat → List HostDirent → List UInt8
  | _, [] => []
  | i, de :: rest => (s.dirent i de).bytes ++ de.name ++ listingFrom (i + 1) rest

/-- The listing from position `p`: the record and the name of every entry after the first `p`. -/
def listing (p : Nat) : List UInt8 := s.listingFrom p (s.entries.drop p)

/-- The position a cookie names: the start for `CLOUDABI_DIRCOOKIE_START`, where `seekdir` moves
the stream for any other. -/
def position (c : UInt64) : Nat := if c = dircookieStart then 0 else s.seekdir c

/-- The cookie cached in the handle names the stream's position. -/
def Synced (cur : DirCursor) : Prop := cur.pos = s.position cur.offset

theorem position_start : s.position dircookieStart = 0 := if_pos rfl

theorem position_telldir {k : Nat} (hk : k < s.entries.length) :
    s.position (s.telldir k) = k + 1 := by
  rw [position, if_neg (s.telldir_ne_start k hk), s.seekdir_telldir k hk]

/-- From a handle whose cache is true, the seek puts the stream at the position of the cookie,
and the cache stays true. -/
theorem seek_synced {cur : DirCursor} (h : s.Synced cur) (cookie : UInt64) :
    (s.seek cur cookie).pos = s.position cookie ∧ (s.seek cur cookie).offset = cookie := by
  unfold seek
  by_cases hc : cur.offset = cookie
  · simp only [hc, ne_eq, not_true_eq_false, if_false, and_true]
    rw [h, hc]
  · by_cases hs : cookie = dircookieStart
    · subst hs
      simp [hc, position_start]
    · simp [hc, hs, position]

end DirStream

/-- `buf` with the bytes `bs` stored from offset `i`. -/
def writeAt (buf : Bytes) (i : Nat) (bs : List UInt8) : Bytes :=
  buf.take i ++ bs.map some ++ buf.drop (i + bs.length)

theorem writeAt_writeAt (buf : Bytes) {i j : Nat} (a b : List UInt8) (hj : i + a.length = j)
    (h : j ≤ buf.length) : writeAt (writeAt buf i a) j b = writeAt buf i (a ++ b) := by
  subst hj
  have hlen : (buf.take i ++ a.map some).length = i + a.length := by simp; omega
  simp only [writeAt, List.append_assoc]
  rw [← List.append_assoc (buf.take i), List.take_left' hlen, List.drop_append_eq_append_drop, hlen,
    List.drop_eq_nil_of_le (by omega : (buf.take i ++ a.map some).length ≤ i + a.length + b.length)]
  simp only [Nat.add_sub_cancel_left, Nat.add_sub_add_left, List.nil_append, List.drop_drop,
    List.map_append, List.length_append, List.append_assoc, Nat.add_assoc, Nat.add_comm b.length]

@[simp] theorem writeAt_nil (buf : Bytes) (i : Nat) : writeAt buf i [] = buf := by
  simp [writeAt]

@[simp] theorem writeAt_length {buf : Bytes} {i : Nat} {bs : List UInt8}
    (h : i + bs.length ≤ buf.length) : (writeAt buf i bs).length = buf.length := by
  simp only [writeAt, List.length_append, List.length_take, List.length_map, List.length_drop]
  omega

theorem take_min_append {α : Type} (e x : List α) (a : Nat) :
    (e ++ x).take (min (e.length + x.length) a) =
      e.take (min e.length a) ++ x.take (min x.length (a - min e.length a)) := by
  have hmin {l : List α} {n : Nat} : l.take (min l.length n) = l.take n :=
    List.take_eq_take.2 (by omega)
  rw [← List.length_append, hmin, hmin, hmin, List.take_append_eq_append_take,
    show a - min e.length a = a - e.length by omega]

theorem fileReaddirPut_ok {buf buf' : Bytes} {bufsize bufused bufused' : Nat} {elem : List UInt8}
    (h : fileReaddirPut buf bufsize bufused elem = .ok (buf', bufused')) :
    bufused' = bufused + min elem.length (bufsize - bufused) ∧ bufused' ≤ buf.length ∧
      buf' = writeAt buf bufused (elem.take (bufused' - bufused)) := by
  by_cases hfit : bufused + min elem.length (bufsize - bufused) ≤ buf.length
  · have hsrc : 0 + min elem.length (bufsize - bufused) ≤ (elem.map some).length := by simp
    simp only [fileReaddirPut, memcpyAt_ok hfit hsrc, bind, Except.bind, pure, Except.pure,
      Except.ok.injEq, Prod.mk.injEq] at h
    obtain ⟨rfl, rfl⟩ := h
    refine ⟨rfl, hfit, ?_⟩
    simp only [writeAt, List.drop_zero, Nat.add_sub_cancel_left, List.map_take, List.length_take,
      Nat.min_eq_left (Nat.min_le_left _ _), List.append_assoc]
  · simp only [fileReaddirPut, memcpyAt_fault (fun h => hfit h.1), bind, Except.bind] at h
    cases h

theorem min_add_min_sub (a b c : Nat) : min a c + min b (c - min a c) = min (a + b) c := by
  omega

theorem fileReaddirPut_then {buf buf₁ buf' : Bytes} {nbyte used used₁ used' : Nat}
    {elem x : List UInt8} (h : fileReaddirPut buf nbyte used elem = .ok (buf₁, used₁))
    (hused : used' = used₁ + min x.length (nbyte - used₁))
    (hbuf : buf' = writeAt buf₁ used₁ (x.take (used' - used₁))) :
    used' = used + min (elem ++ x).length (nbyte - used) ∧
      buf' = writeAt buf used ((elem ++ x).take (used' - used)) := by
  obtain ⟨rfl, hfit, rfl⟩ := fileReaddirPut_ok h
  subst hused hbuf
  have hsum := min_add_min_sub elem.length x.length (nbyte - used)
  rw [Nat.sub_sub] at hsum
  simp only [Nat.add_assoc, Nat.add_sub_cancel_left, Nat.add_sub_add_left, hsum, List.length_append,
    true_and]
  rw [writeAt_writeAt buf _ _ (by simp) hfit, take_min_append, Nat.sub_sub, ← hsum, Nat.add_sub_cancel_left]

/-- A loop that returns copied as much of the listing of the entries it was given as fit. -/
theorem readdirLoop_ok (s : DirStream) (nbyte : Nat) :
    ∀ (rest : List HostDirent) (pos : Nat) (offset : UInt64) (buf : Bytes) (used : Nat)
      {cur : DirCursor} {buf' : Bytes} {used' : Nat} {err : Option Errno}, used ≤ nbyte →
      readdirLoop s nbyte pos offset buf used rest = .ok (cur, buf', used', err) →
      used' = used + min (s.listingFrom pos rest).length (nbyte - used) ∧
        buf' = writeAt buf used ((s.listingFrom pos rest).take (used' - used))
  | [], pos, offset, buf, used, cur, buf', used', err, hle, h => by
    simp only [readdirLoop] at h
    split at h <;>
    · simp only [Except.ok.injEq, Prod.mk.injEq] at h
      obtain ⟨-, rfl, rfl, -⟩ := h
      simp [DirStream.listingFrom]
  | de :: rest, pos, offset, buf, used, cur, buf', used', err, hle, h => by
    simp only [readdirLoop] at h
    split at h
    · obtain ⟨⟨buf₁, used₁⟩, h₁, h⟩ := Except.bind_eq_ok h
      obtain ⟨⟨buf₂, used₂⟩, h₂, h⟩ := Except.bind_eq_ok h
      obtain ⟨hu₁, -⟩ := fileReaddirPut_ok h₁
      obtain ⟨hu₂, -⟩ := fileReaddirPut_ok h₂
      obtain ⟨hrest, hbuf⟩ := readdirLoop_ok s nbyte rest (pos + 1) _ buf₂ used₂ (by omega) h
      obtain ⟨hname, hbuf⟩ := fileReaddirPut_then h₂ hrest hbuf
      obtain ⟨hrec, hbuf⟩ := fileReaddirPut_then h₁ hname hbuf
      simp only [DirStream.listingFrom, List.append_assoc] at hrec hbuf ⊢
      exact ⟨hrec, hbuf⟩
    · simp only [Except.ok.injEq, Prod.mk.injEq] at h
      obtain ⟨-, rfl, rfl, -⟩ := h
      have : nbyte = 0 := by omega
      subst this
      simp [show used = 0 by omega]

/-- Where a loop that returns leaves the stream, and its error: while `nbyte > 0` it reads every
entry it was given, `offset` ending at the cookie of the last, and it fails only when nothing was
copied and the stream ended on an error. -/
theorem readdirLoop_end (s : DirStream) (nbyte : Nat) :
    ∀ (rest : List HostDirent) (pos : Nat) (offset : UInt64) (buf : Bytes) (used : Nat)
      {cur : DirCursor} {buf' : Bytes} {used' : Nat} {err : Option Errno},
      readdirLoop s nbyte pos offset buf used rest = .ok (cur, buf', used', err) →
      cur = (if 0 < nbyte ∧ 0 < rest.length then
        ⟨pos + rest.length, s.telldir (pos + rest.length - 1)⟩ else ⟨pos, offset⟩) ∧
      err = if 0 < nbyte ∧ used' = 0 then s.errno else none
  | [], pos, offset, buf, used, cur, buf', used', err, h => by
    simp only [readdirLoop] at h
    split at h <;>
    · simp only [Except.ok.injEq, Prod.mk.injEq] at h
      obtain ⟨rfl, -, rfl, rfl⟩ := h
      by_cases hu : used = 0 <;> cases herr : s.errno <;> simp_all
  | de :: rest, pos, offset, buf, used, cur, buf', used', err, h => by
    simp only [readdirLoop] at h
    split at h
    · rename_i hn
      obtain ⟨⟨buf₁, used₁⟩, -, h⟩ := Except.bind_eq_ok h
      obtain ⟨⟨buf₂, used₂⟩, -, h⟩ := Except.bind_eq_ok h
      obtain ⟨rfl, rfl⟩ := readdirLoop_end s nbyte rest (pos + 1) _ buf₂ used₂ h
      rcases rest with _ | ⟨de', rest⟩
      · simp [hn]
      · simp only [hn, true_and, List.length_cons, Nat.zero_lt_succ, if_true, and_true]
        rw [show pos + 1 + (rest.length + 1) = pos + (rest.length + 1 + 1) by omega]
    · simp only [Except.ok.injEq, Prod.mk.injEq] at h
      obtain ⟨rfl, -, -, rfl⟩ := h
      simp [*]

section Locked

variable {s : DirStream} {cur cur' : DirCursor} {buf buf' : Bytes} {nbyte used : Nat}
  {cookie : UInt64} {err : Option Errno}

/-- The part under the lock, from a handle whose cache is true: the first `min(nbyte, L)` bytes
of the listing from the cookie's position copied to `buf`, the stream left at its end when
`nbyte > 0`, and an error only when nothing was copied. -/
theorem fileReaddirLocked_ok (hsync : s.Synced cur)
    (h : fileReaddirLocked s cur buf nbyte cookie = .ok (cur', buf', used, err)) :
    used = min (s.listing (s.position cookie)).length nbyte ∧
      buf' = writeAt buf 0 ((s.listing (s.position cookie)).take used) ∧
      cur' = (if 0 < nbyte ∧ s.position cookie < s.entries.length then
        ⟨s.entries.length, s.telldir (s.entries.length - 1)⟩ else ⟨s.position cookie, cookie⟩) ∧
      err = if 0 < nbyte ∧ used = 0 then s.errno else none := by
  obtain ⟨hpos, hoff⟩ := s.seek_synced hsync cookie
  simp only [fileReaddirLocked, hpos, hoff] at h
  obtain ⟨hused, hbuf⟩ := readdirLoop_ok s nbyte _ _ _ buf 0 (Nat.zero_le _) h
  obtain ⟨hcur, herr⟩ := readdirLoop_end s nbyte _ _ _ buf 0 h
  refine ⟨by rw [hused, DirStream.listing]; omega, by rw [hbuf, DirStream.listing, Nat.sub_zero],
    ?_, herr⟩
  rw [hcur, List.length_drop]
  by_cases hlt : s.position cookie < s.entries.length
  · simp only [hlt, Nat.sub_pos_of_lt, and_true, Nat.add_sub_cancel' hlt.le]
  · simp [hlt, Nat.sub_eq_zero_of_le (Nat.le_of_not_lt hlt)]

theorem fileReaddirLocked_synced (hsync : s.Synced cur)
    (h : fileReaddirLocked s cur buf nbyte cookie = .ok (cur', buf', used, err)) :
    s.Synced cur' := by
  rw [(fileReaddirLocked_ok hsync h).2.2.1]
  split
  · rename_i hc
    show s.entries.length = s.position (s.telldir (s.entries.length - 1))
    rw [s.position_telldir (by omega)]
    omega
  · rfl

end Locked

section Call

variable {m : RightsMasks} {streams : Nat → DirStream} {fdopendir : Except Errno Unit} {sys sys' : Sys}
  {dirs dirs' : Nat → Option DirCursor} {fd : Nat} {buf : Bytes} {nbyte : Nat} {cookie : UInt64}

theorem fileReaddirOpen_cur {fo : Nat} {obj : FdObject} {cur : DirCursor}
    (h : fileReaddirOpen fdopendir sys dirs fo obj = .ok (.ok (sys', cur))) :
    dirs fo = some cur ∨ dirs fo = none ∧ cur = ⟨0, dircookieStart⟩ := by
  unfold fileReaddirOpen at h
  rcases hd : dirs fo with _ | cur' <;> simp only [hd] at h
  · obtain ⟨_, -, h⟩ := Except.bind_eq_ok h
    cases fdopendir <;> simp only [pure, Except.pure, Except.map, Except.ok.injEq] at h
    · cases h
    · exact .inr ⟨rfl, (Prod.mk.inj h).2.symm⟩
  · cases h
    exact .inl rfl

/-- A call that returns either failed and left every handle as it was, or ran the part under the
lock on the handle of the object of slot `fd`, installed at the start if it had none, and answers
its result. -/
theorem sysFileReaddir_cases {res : Except Errno (Bytes × Nat)}
    (h : sysFileReaddir m streams fdopendir sys dirs fd buf nbyte cookie = .ok (sys', dirs', res)) :
    (dirs' = dirs ∧ ∃ e, res = .error e) ∨
      ∃ fe cur cur' buf' used err, sys.table.entries[fd]? = some (some fe) ∧
      (dirs fe.object = some cur ∨ dirs fe.object = none ∧ cur = ⟨0, dircookieStart⟩) ∧
      fileReaddirLocked (streams fe.object) cur buf nbyte cookie = .ok (cur', buf', used, err) ∧
      dirs' = (fun o => if o = fe.object then some cur' else dirs o) ∧
      res = match err with
        | none => .ok (buf', used)
        | some e => .error e := by
  unfold sysFileReaddir at h
  rcases fdObjectGetLocked_cases sys fd m.fileReaddir 0 with
    ⟨e, he⟩ | ⟨f, he, -⟩ | ⟨fe, sys₁, hocc, -, -, -, he⟩ <;> rw [he] at h
  · simp only [bind, Except.bind, pure, Except.pure, Except.ok.injEq, Prod.mk.injEq] at h
    exact .inl ⟨h.2.1.symm, e, h.2.2.symm⟩
  · cases h
  simp only [bind, Except.bind] at h
  rcases hobj : sys₁.objects fe.object with _ | obj <;> simp only [hobj] at h
  · cases h
  obtain ⟨r, hopen, h⟩ := Except.bind_eq_ok h
  rcases r with e | ⟨sys₂, cur⟩
  · obtain ⟨_, -, h⟩ := Except.bind_eq_ok h
    simp only [pure, Except.pure, Except.ok.injEq, Prod.mk.injEq] at h
    exact .inl ⟨h.2.1.symm, e, h.2.2.symm⟩
  obtain ⟨⟨cur', buf', used, err⟩, hl, h⟩ := Except.bind_eq_ok h
  obtain ⟨_, -, h⟩ := Except.bind_eq_ok h
  simp only [pure, Except.pure, Except.ok.injEq, Prod.mk.injEq] at h
  exact .inr ⟨fe, cur, cur', buf', used, err, hocc, fileReaddirOpen_cur hopen, hl, h.2.1.symm,
    h.2.2.symm⟩

end Call

/-- Every handle caches the cookie of its stream's position. -/
def DirsSynced (streams : Nat → DirStream) (dirs : Nat → Option DirCursor) : Prop :=
  ∀ o cur, dirs o = some cur → (streams o).Synced cur

/-- The handle states that calls of `sys_file_readdir` leave, from objects with no stream yet.
No other call of the emulator touches `fo->directory`. -/
inductive ReaddirReachable (m : RightsMasks) (streams : Nat → DirStream) :
    (Nat → Option DirCursor) → Prop
  | init : ReaddirReachable m streams fun _ => none
  | step {dirs dirs' : Nat → Option DirCursor} {sys sys' : Sys} {fdopendir : Except Errno Unit}
      {fd : Nat} {buf : Bytes} {nbyte : Nat} {cookie : UInt64} {res : Except Errno (Bytes × Nat)} :
      ReaddirReachable m streams dirs →
      sysFileReaddir m streams fdopendir sys dirs fd buf nbyte cookie = .ok (sys', dirs', res) →
      ReaddirReachable m streams dirs'

section Call

variable {m : RightsMasks} {streams : Nat → DirStream} {fdopendir : Except Errno Unit} {sys sys' : Sys}
  {dirs dirs' : Nat → Option DirCursor} {fd : Nat} {buf : Bytes} {nbyte : Nat} {cookie : UInt64}

theorem synced_of_cases {s : DirStream} {cur : DirCursor} {d : Option DirCursor}
    (hs : ∀ c, d = some c → s.Synced c) (hcur : d = some cur ∨ d = none ∧ cur = ⟨0, dircookieStart⟩) :
    s.Synced cur := by
  rcases hcur with hd | ⟨-, rfl⟩
  · exact hs _ hd
  · exact s.position_start.symm

/-- Every call keeps every cache true. -/
theorem sysFileReaddir_synced {res : Except Errno (Bytes × Nat)} (hs : DirsSynced streams dirs)
    (h : sysFileReaddir m streams fdopendir sys dirs fd buf nbyte cookie = .ok (sys', dirs', res)) :
    DirsSynced streams dirs' := by
  rcases sysFileReaddir_cases h with ⟨rfl, -⟩ | ⟨fe, cur, cur', _, _, _, -, hcur, hl, rfl, -⟩
  · exact hs
  intro o c hc
  by_cases ho : o = fe.object
  · subst ho
    simp only [if_true, Option.some.injEq] at hc
    subst hc
    exact fileReaddirLocked_synced (synced_of_cases (hs _) hcur) hl
  · simp only [ho, if_false] at hc
    exact hs o c hc

theorem ReaddirReachable.synced (h : ReaddirReachable m streams dirs) : DirsSynced streams dirs := by
  induction h with
  | init => intro _ _ h; cases h
  | step _ hcall ih => exact sysFileReaddir_synced ih hcall

/-- Directory listing: from every handle state earlier calls left, a successful call copies the
first `min(nbyte, L)` bytes of the listing from the cookie's position to the start of `buf` and
leaves the rest of `buf` as it was. -/
theorem sysFileReaddir_listing {buf' : Bytes} {used : Nat} (hreach : ReaddirReachable m streams dirs)
    (h : sysFileReaddir m streams fdopendir sys dirs fd buf nbyte cookie =
      .ok (sys', dirs', .ok (buf', used))) :
    ∃ fe, sys.table.entries[fd]? = some (some fe) ∧
      let s := streams fe.object
      used = min nbyte (s.listing (s.position cookie)).length ∧
        buf' = ((s.listing (s.position cookie)).take used).map some ++ buf.drop used := by
  rcases sysFileReaddir_cases h with ⟨-, _, he⟩ | ⟨fe, cur, cur', buf'', used', err, hocc, hcur, hl, -, hres⟩
  · cases he
  obtain ⟨hused, hbuf, -, herr⟩ := fileReaddirLocked_ok (synced_of_cases (hreach.synced _) hcur) hl
  rcases err with _ | e <;> simp only [Except.ok.injEq, Prod.mk.injEq, reduceCtorEq] at hres
  obtain ⟨rfl, rfl⟩ := hres
  refine ⟨fe, hocc, by rw [hused, Nat.min_comm], ?_⟩
  rw [hbuf, writeAt, List.take_zero, List.nil_append, Nat.zero_add, List.length_take, hused]
  simp

/-- A directory of slot 0 with one reference and host descriptor 3. -/
def oneDirectory : Sys :=
  ⟨⟨[some ⟨0, 0, 0⟩, none], 1⟩, fun o => if o = 0 then some ⟨1, .directory, 3, false⟩ else none,
    1, []⟩

/-- A directory of two entries, `a` and `b`, whose cookies are the positions. -/
def twoEntryDir : DirStream where
  entries := [⟨1, [97], .reg, by decide⟩, ⟨2, [98], .dir, by decide⟩]
  telldir k := (k + 1).toUInt64
  seekdir c := c.toNat
  errno := none
  telldir_ne_start := by decide
  seekdir_telldir := by decide

/-- Four bytes of the listing from the start: the first half of `d_next = 1` of entry `a`. -/
example :
    ∃ sys' dirs', sysFileReaddir default (fun _ => twoEntryDir) (.ok ()) oneDirectory
      (fun _ => none) 0 (List.replicate 4 none) 4 dircookieStart =
        .ok (sys', dirs', .ok ([some 1, some 0, some 0, some 0], 4)) ∧
      ∃ fe, oneDirectory.table.entries[0]? = some (some fe) ∧
        let s := (fun _ => twoEntryDir) fe.object
        4 = min 4 (s.listing (s.position dircookieStart)).length ∧
          [some 1, some 0, some 0, some 0] =
            ((s.listing (s.position dircookieStart)).take 4).map some ++
              (List.replicate 4 none).drop 4 := by
  have h : sysFileReaddir default (fun _ => twoEntryDir) (.ok ()) oneDirectory (fun _ => none) 0
      (List.replicate 4 none) 4 dircookieStart =
        .ok (_, _, .ok ([some 1, some 0, some 0, some 0], 4)) := rfl
  exact ⟨_, _, h, sysFileReaddir_listing .init h⟩

/-- The loop reads to the end of the stream: a call with `nbyte > 0` that succeeds leaves the
handle after the last entry, at its cookie, however few bytes it copied. -/
theorem sysFileReaddir_reads_to_end {r : Bytes × Nat} (hreach : ReaddirReachable m streams dirs)
    (hn : 0 < nbyte)
    (h : sysFileReaddir m streams fdopendir sys dirs fd buf nbyte cookie = .ok (sys', dirs', .ok r)) :
    ∃ fe, sys.table.entries[fd]? = some (some fe) ∧
      let s := streams fe.object
      dirs' fe.object = some (if s.position cookie < s.entries.length then
        ⟨s.entries.length, s.telldir (s.entries.length - 1)⟩ else ⟨s.position cookie, cookie⟩) := by
  rcases sysFileReaddir_cases h with ⟨-, _, he⟩ | ⟨fe, cur, cur', _, _, _, hocc, hcur, hl, rfl, -⟩
  · cases he
  obtain ⟨-, -, hcur', -⟩ := fileReaddirLocked_ok (synced_of_cases (hreach.synced _) hcur) hl
  refine ⟨fe, hocc, ?_⟩
  simp only [if_true, hcur', hn, true_and]

theorem sysFileReaddir_reads_to_end_one_byte :
    ∃ sys' dirs', sysFileReaddir default (fun _ => twoEntryDir) (.ok ()) oneDirectory
      (fun _ => none) 0 [none] 1 dircookieStart = .ok (sys', dirs', .ok ([some 1], 1)) ∧
      dirs' 0 = some ⟨2, 2⟩ := by
  have h : sysFileReaddir default (fun _ => twoEntryDir) (.ok ()) oneDirectory (fun _ => none) 0
      [none] 1 dircookieStart = .ok (_, _, .ok ([some 1], 1)) := rfl
  obtain ⟨fe, hocc, hd⟩ := sysFileReaddir_reads_to_end .init Nat.one_pos h
  cases hocc
  exact ⟨_, _, h, hd⟩

end Call

/-! A caller that pages through a directory. -/

/-- What a caller finds in the bytes it received: each complete record with the name after it,
up to the first record that is cut off. -/
def parseListing (bs : List UInt8) : List (Dirent × List UInt8) :=
  if 24 ≤ bs.length then
    let d := Dirent.decode bs
    if h : 24 + d.namlen.toNat ≤ bs.length then
      (d, (bs.drop 24).take d.namlen.toNat) :: parseListing (bs.drop (24 + d.namlen.toNat))
    else []
  else []
termination_by bs.length
decreasing_by simp only [List.length_drop]; omega

/-- The records and the names of the entries of `rest`, the first read at position `i`. -/
def DirStream.recordsFrom (s : DirStream) : Nat → List HostDirent → List (Dirent × List UInt8)
  | _, [] => []
  | i, de :: rest => (s.dirent i de, de.name) :: s.recordsFrom (i + 1) rest

theorem DirStream.recordsFrom_append (s : DirStream) :
    ∀ (i : Nat) (a b : List HostDirent),
      s.recordsFrom i (a ++ b) = s.recordsFrom i a ++ s.recordsFrom (i + a.length) b
  | _, [], _ => rfl
  | i, de :: a, b => by
    rw [List.cons_append, recordsFrom, recordsFrom, s.recordsFrom_append (i + 1) a b,
      List.cons_append, List.length_cons, Nat.add_right_comm, Nat.add_assoc]

theorem DirStream.recordsFrom_getLast? (s : DirStream) :
    ∀ (i : Nat) (de : HostDirent) (rest : List HostDirent),
      ((s.recordsFrom i (de :: rest)).getLast?).map (·.1.next) =
        some (s.telldir (i + rest.length))
  | _, _, [] => rfl
  | i, _, de' :: rest => by
    have ih := s.recordsFrom_getLast? (i + 1) de' rest
    simp only [recordsFrom] at ih ⊢
    rw [List.getLast?_cons_cons, ih, List.length_cons, Nat.add_assoc, Nat.add_comm 1]

/-- `d_namlen` is the length of the name: host names are shorter than `2^32`. -/
@[simp] theorem DirStream.dirent_namlen (s : DirStream) (i : Nat) (de : HostDirent) :
    (s.dirent i de).namlen.toNat = de.name.length := by
  have h := de.name_lt
  simp only [DirStream.dirent, Nat.toUInt32, UInt32.toNat, UInt32.ofNat, BitVec.toNat_ofNat]
  omega

@[simp] theorem parseListing_nil : parseListing [] = [] := by
  rw [parseListing, if_neg (by decide)]

theorem parseListing_record (d : Dirent) (name rest : List UInt8) (h : d.namlen.toNat = name.length) :
    parseListing (d.bytes ++ name ++ rest) = (d, name) :: parseListing rest := by
  have hdec : Dirent.decode (d.bytes ++ (name ++ rest)) = d := Dirent.decode_bytes d _
  rw [List.append_assoc, parseListing, if_pos (by simp), dif_pos (by simp [hdec, h])]
  simp only [hdec, h, List.drop_left' (Dirent.bytes_length d), List.take_left' rfl,
    ← List.drop_drop, List.drop_left' rfl]

theorem parseListing_cut (d : Dirent) (name : List UInt8) (h : d.namlen.toNat = name.length)
    {b : Nat} (hb : b < 24 + name.length) : parseListing ((d.bytes ++ name).take b) = [] := by
  rw [parseListing]
  split
  · rename_i h24
    have hdec : Dirent.decode ((d.bytes ++ name).take b) = d := by
      rw [List.take_append_eq_append_take,
        List.take_of_length_le (by simp at h24 ⊢; omega), Dirent.decode_bytes]
    rw [dif_neg (by simp only [hdec, h, List.length_take, List.length_append, Dirent.bytes_length]; omega)]
  · rfl

/-- What a caller finds in the first `b` bytes of a listing: the complete records of a run of
its first entries, at least one when the first record and its name fit. -/
theorem DirStream.parseListing_take (s : DirStream) :
    ∀ (rest : List HostDirent) (i b : Nat), ∃ j, j ≤ rest.length ∧
      parseListing ((s.listingFrom i rest).take b) = s.recordsFrom i (rest.take j) ∧
      ∀ de rest', rest = de :: rest' → 24 + de.name.length ≤ b → 0 < j
  | [], _, _ => ⟨0, le_refl _, by simp [listingFrom, parseListing, recordsFrom], fun _ _ h => nomatch h⟩
  | de :: rest, i, b => by
    by_cases hb : 24 + de.name.length ≤ b
    · obtain ⟨j, hj, hparse, -⟩ := s.parseListing_take rest (i + 1) (b - (24 + de.name.length))
      refine ⟨j + 1, by simp only [List.length_cons]; omega, ?_, fun _ _ _ _ => Nat.succ_pos j⟩
      have htake : (s.listingFrom i (de :: rest)).take b = (s.dirent i de).bytes ++ de.name ++
          (s.listingFrom (i + 1) rest).take (b - (24 + de.name.length)) := by
        rw [listingFrom, List.take_append_eq_append_take,
          List.take_of_length_le (by simp only [List.length_append, Dirent.bytes_length]; omega)]
        simp
      rw [htake, parseListing_record _ _ _ (s.dirent_namlen i de), hparse]
      rfl
    · refine ⟨0, Nat.zero_le _, ?_, fun de' rest' he hb' => ?_⟩
      · have htake : (s.listingFrom i (de :: rest)).take b =
            ((s.dirent i de).bytes ++ de.name).take b := by
          rw [listingFrom, List.take_append_of_le_length
            (by simp only [List.length_append, Dirent.bytes_length]; omega)]
        rw [htake, parseListing_cut _ _ (s.dirent_namlen i de) (by omega)]
        rfl
      · cases he
        exact absurd hb' hb

/-- A page from position `p` whose first record and name fit: the records of a nonempty run of
the entries from `p`, the last pointing at the position after the run, where the rest of the
records start. -/
theorem DirStream.parseListing_page (s : DirStream) {p nbyte : Nat} {de : HostDirent}
    {rest : List HostDirent} (hdrop : s.entries.drop p = de :: rest)
    (hfit : 24 + de.name.length ≤ nbyte) :
    ∃ j d name recs, parseListing ((s.listing p).take nbyte) = recs ∧
      recs.getLast? = some (d, name) ∧ s.position d.next = p + (j + 1) ∧
      p + (j + 1) ≤ s.entries.length ∧
      s.recordsFrom p (s.entries.drop p) =
        recs ++ s.recordsFrom (p + (j + 1)) (s.entries.drop (p + (j + 1))) := by
  obtain ⟨j, hj, hparse, hone⟩ := s.parseListing_take (de :: rest) p nbyte
  obtain ⟨j, rfl⟩ : ∃ j', j = j' + 1 := ⟨j - 1, by have := hone de rest rfl hfit; omega⟩
  have hsize : rest.length + 1 = s.entries.length - p := by
    rw [← List.length_drop, hdrop, List.length_cons]
  simp only [List.length_cons] at hj
  obtain ⟨⟨d, name⟩, hx, hnext⟩ := Option.map_eq_some'.1 (s.recordsFrom_getLast? p de (rest.take j))
  have hlen : (rest.take j).length = j := by simp only [List.length_take]; omega
  have hd₂ : s.entries.drop (p + (j + 1)) = rest.drop j := by
    rw [← List.drop_drop, hdrop]
    rfl
  have happ := s.recordsFrom_append p (de :: rest.take j) (rest.drop j)
  rw [List.cons_append, List.take_append_drop, List.length_cons, hlen] at happ
  refine ⟨j, d, name, _, by rw [listing, hdrop, hparse, List.take_succ_cons], hx, ?_, by omega,
    by rw [hd₂, hdrop, happ]⟩
  rw [hnext, hlen, s.position_telldir (by omega), Nat.add_assoc]

theorem fileReaddirPut_total {buf : Bytes} {bufsize bufused : Nat} (elem : List UInt8)
    (hle : bufused ≤ bufsize) (hbuf : bufsize ≤ buf.length) :
    ∃ buf' bufused', fileReaddirPut buf bufsize bufused elem = .ok (buf', bufused') ∧
      bufused' ≤ bufsize ∧ buf'.length = buf.length := by
  have hfit : bufused + min elem.length (bufsize - bufused) ≤ buf.length := by omega
  have hsrc : 0 + min elem.length (bufsize - bufused) ≤ (elem.map some).length := by simp
  refine ⟨_, _, by simp only [fileReaddirPut, memcpyAt_ok hfit hsrc]; rfl, by omega, ?_⟩
  simp only [List.length_append, List.length_take, List.length_drop, List.length_map]
  omega

theorem readdirLoop_total (s : DirStream) (nbyte : Nat) :
    ∀ (rest : List HostDirent) (pos : Nat) (offset : UInt64) (buf : Bytes) (used : Nat),
      used ≤ nbyte → nbyte ≤ buf.length → ∃ r, readdirLoop s nbyte pos offset buf used rest = .ok r
  | [], _, _, _, _, _, _ => by
    simp only [readdirLoop]
    split <;> exact ⟨_, rfl⟩
  | de :: rest, pos, _, buf, used, hle, hbuf => by
    simp only [readdirLoop]
    split
    · obtain ⟨buf₁, used₁, h₁, hle₁, hlen₁⟩ := fileReaddirPut_total (s.dirent pos de).bytes hle hbuf
      obtain ⟨buf₂, used₂, h₂, hle₂, hlen₂⟩ :=
        fileReaddirPut_total de.name hle₁ (hlen₁ ▸ hbuf : nbyte ≤ buf₁.length)
      simp only [h₁, h₂, bind, Except.bind]
      exact readdirLoop_total s nbyte rest _ _ _ _ hle₂ (by rw [hlen₂, hlen₁]; exact hbuf)
    · exact ⟨_, rfl⟩

theorem fileReaddirLocked_total (s : DirStream) (cur : DirCursor) {buf : Bytes} {nbyte : Nat}
    (cookie : UInt64) (h : nbyte ≤ buf.length) :
    ∃ r, fileReaddirLocked s cur buf nbyte cookie = .ok r :=
  readdirLoop_total s nbyte _ _ _ buf 0 (Nat.zero_le _) h

/-- A call on a live object whose slot holds `FILE_READDIR`, with `fdopendir` succeeding: the
part under the lock on the object's handle, installed at the start if it had none, and the object
back with the references it had. -/
theorem sysFileReaddir_live {m : RightsMasks} {streams : Nat → DirStream} {sys : Sys}
    {dirs : Nat → Option DirCursor} {fd : Nat} {buf : Bytes} {nbyte : Nat} {cookie : UInt64}
    {fe : FdEntry} {obj : FdObject} (hocc : sys.table.entries[fd]? = some (some fe))
    (hb : m.fileReaddir.Subset fe.rightsBase) (hobj : sys.objects fe.object = some obj)
    (hpos : 0 < obj.refcount) (hnum : 0 ≤ obj.number) {r : DirCursor × Bytes × Nat × Option Errno}
    (hl : fileReaddirLocked (streams fe.object) ((dirs fe.object).getD ⟨0, dircookieStart⟩) buf
      nbyte cookie = .ok r) :
    ∃ obj', obj'.refcount = obj.refcount ∧ obj'.number = obj.number ∧
      sysFileReaddir m streams (.ok ()) sys dirs fd buf nbyte cookie =
        .ok (sys.setObject fe.object (some obj'), (fun o => if o = fe.object then some r.1 else dirs o),
          match r.2.2.2 with
          | none => .ok (r.2.1, r.2.2.1)
          | some e => .error e) := by
  obtain ⟨cur', buf', used, err⟩ := r
  unfold sysFileReaddir
  rw [fdObjectGetLocked_of_live hocc hb (Rights.zero_subset _) hobj]
  simp only [bind, Except.bind, Sys.setObject_objects, if_true]
  unfold fileReaddirOpen
  cases hd : dirs fe.object with
  | some cur =>
    simp only [hd, Option.getD_some] at hl ⊢
    simp only [hl, fdObjectRelease_acquire hobj hpos, pure, Except.pure]
    exact ⟨obj, rfl, rfl, by rw [Sys.setObject_self hobj]⟩
  | none =>
    simp only [hd, Option.getD_none] at hl ⊢
    have hnum' : fdNumber { obj with refcount := obj.refcount + 1 } = .ok obj.number := if_pos hnum
    have hrel := @fdObjectRelease_acquire (sys.setObject fe.object (some { obj with directoryHandle := true }))
      fe.object { obj with directoryHandle := true } (by simp) hpos
    rw [Sys.setObject_setObject] at hrel
    simp only [hnum', pure, Except.pure, Except.map, Sys.setObject_setObject, hl]
    dsimp only at hrel
    refine ⟨{ obj with directoryHandle := true }, rfl, rfl, ?_⟩
    simp only [bind, Except.bind, hl, hrel, pure, Except.pure]

/-- A caller paging through the directory of slot `fd` with a fresh buffer of `nbyte` bytes per
call: it keeps the complete records of each answer and resumes from the `d_next` of the last,
until an answer holds none or is an error. `fuel` bounds the calls. -/
def readdirCaller (m : RightsMasks) (streams : Nat → DirStream) (fdopendir : Except Errno Unit)
    (fd nbyte : Nat) : Nat → Sys → (Nat → Option DirCursor) → UInt64 →
      Except Fault (List (Dirent × List UInt8))
  | 0, _, _, _ => .error .unfinished
  | fuel + 1, sys, dirs, cookie => do
    match ← sysFileReaddir m streams fdopendir sys dirs fd (List.replicate nbyte none) nbyte cookie with
    | (_, _, .error _) => return []
    | (sys, dirs, .ok (buf, used)) =>
      let recs := parseListing ((buf.take used).filterMap id)
      match recs.getLast? with
      | none => return []
      | some (d, _) => return recs ++ (← readdirCaller m streams fdopendir fd nbyte fuel sys dirs d.next)

section Caller

variable {m : RightsMasks} {streams : Nat → DirStream} {fd nbyte : Nat} {fe : FdEntry}

/-- One call of the caller: the object keeps its references and host descriptor, every cache
stays true, and the bytes received are the first `nbyte` of the listing from the cookie's
position; an error comes only at the end of the listing. -/
theorem sysFileReaddir_page (nbyte : Nat) {sys : Sys} {dirs : Nat → Option DirCursor} {obj : FdObject}
    (hocc : sys.table.entries[fd]? = some (some fe)) (hb : m.fileReaddir.Subset fe.rightsBase)
    (hobj : sys.objects fe.object = some obj) (hpos : 0 < obj.refcount) (hnum : 0 ≤ obj.number)
    (hs : DirsSynced streams dirs) (cookie : UInt64) :
    ∃ obj' dirs' res, obj'.refcount = obj.refcount ∧ obj'.number = obj.number ∧
      DirsSynced streams dirs' ∧
      sysFileReaddir m streams (.ok ()) sys dirs fd (List.replicate nbyte none) nbyte cookie =
        .ok (sys.setObject fe.object (some obj'), dirs', res) ∧
      let s := streams fe.object
      match res with
      | .ok (buf', used) => (buf'.take used).filterMap id = (s.listing (s.position cookie)).take nbyte
      | .error _ => s.listing (s.position cookie) = [] := by
  have hcur : (streams fe.object).Synced ((dirs fe.object).getD ⟨0, dircookieStart⟩) := by
    cases hd : dirs fe.object with
    | none => exact (streams fe.object).position_start.symm
    | some cur => exact hs _ _ hd
  obtain ⟨⟨cur', buf', used, err⟩, hl⟩ := fileReaddirLocked_total (streams fe.object)
    ((dirs fe.object).getD ⟨0, dircookieStart⟩) cookie (by simp : nbyte ≤ (List.replicate nbyte none).length)
  obtain ⟨obj', href, hnum', hcall⟩ := sysFileReaddir_live hocc hb hobj hpos hnum hl
  refine ⟨obj', _, _, href, hnum', sysFileReaddir_synced hs hcall, hcall, ?_⟩
  obtain ⟨hused, hbuf, -, herr⟩ := fileReaddirLocked_ok hcur hl
  cases err with
  | none =>
    show (buf'.take used).filterMap id = _
    rw [hbuf, writeAt, List.take_zero, List.nil_append, Nat.zero_add, List.take_left' (by simp; omega),
      List.filterMap_map, Function.id_comp, List.filterMap_some]
    exact List.take_eq_take.2 (by omega)
  | some e =>
    show _ = []
    split at herr
    · rw [← List.length_eq_zero]
      omega
    · cases herr

theorem readdirCaller_from (hb : m.fileReaddir.Subset fe.rightsBase)
    (hnames : ∀ de ∈ (streams fe.object).entries, 24 + de.name.length ≤ nbyte) :
    ∀ (k fuel : Nat) (sys : Sys) (obj : FdObject) (dirs : Nat → Option DirCursor) (cookie : UInt64),
      sys.table.entries[fd]? = some (some fe) → sys.objects fe.object = some obj →
      0 < obj.refcount → 0 ≤ obj.number → DirsSynced streams dirs →
      (streams fe.object).entries.length - (streams fe.object).position cookie = k → k < fuel →
      readdirCaller m streams (.ok ()) fd nbyte fuel sys dirs cookie =
        .ok ((streams fe.object).recordsFrom ((streams fe.object).position cookie)
          ((streams fe.object).entries.drop ((streams fe.object).position cookie))) := by
  intro k
  induction k using Nat.strong_induction_on with
  | _ k ih =>
  intro fuel sys obj dirs cookie hocc hobj hpos hnum hs hk hfuel
  obtain ⟨f, rfl⟩ : ∃ f, fuel = f + 1 := ⟨fuel - 1, by omega⟩
  obtain ⟨obj', dirs', res, href, hnum', hs', hcall, hres⟩ :=
    sysFileReaddir_page nbyte hocc hb hobj hpos hnum hs cookie
  simp only [readdirCaller, hcall, bind, Except.bind]
  simp only at hres
  generalize hst : streams fe.object = s at *
  generalize hp : s.position cookie = p at *
  by_cases hlt : p < s.entries.length
  · obtain ⟨de, rest, hdrop⟩ : ∃ de rest, s.entries.drop p = de :: rest :=
      ⟨_, _, List.drop_eq_getElem_cons hlt⟩
    have hde : de ∈ s.entries := List.mem_of_mem_drop (by rw [hdrop]; exact List.mem_cons_self _ _)
    rcases res with e | ⟨buf', used⟩
    · simp only [DirStream.listing, hdrop, DirStream.listingFrom, List.append_eq_nil] at hres
      simpa using congrArg List.length hres.1.1
    obtain ⟨j, d, name, recs, hparse, hlast, hpos', hle, happ⟩ :=
      s.parseListing_page hdrop (hnames de hde)
    dsimp only at hres ⊢
    rw [hres, hparse, hlast]
    dsimp only
    rw [ih (s.entries.length - (p + (j + 1))) (by omega) f (sys.setObject fe.object (some obj')) obj'
      dirs' d.next (by simpa using hocc) (by simp) (by rw [href]; exact hpos)
      (by rw [hnum']; exact hnum) hs' (by rw [hpos']) (by omega), hpos', happ]
    rfl
  · have hdrop : s.entries.drop p = [] := List.drop_eq_nil_of_le (by omega)
    rcases res with e | ⟨buf', used⟩
    · rw [hdrop]
      rfl
    dsimp only at hres ⊢
    rw [hres, DirStream.listing, hdrop, DirStream.listingFrom, List.take_nil, parseListing_nil]
    rfl

/-- Each entry once, in order: the records a run of entries yields carry their inodes and
names. -/
theorem DirStream.recordsFrom_entries (s : DirStream) :
    ∀ (i : Nat) (l : List HostDirent),
      (s.recordsFrom i l).map (fun r => (r.1.ino, r.2)) = l.map fun de => (de.ino, de.name)
  | _, [] => rfl
  | i, _ :: l => by
    simp only [recordsFrom, List.map_cons, s.recordsFrom_entries (i + 1) l]
    rfl

end Caller

/-- Directory listing, paged: each call copies the first `min(nbyte, L)` bytes of the listing from
its cookie's position; a caller whose buffer holds a record and the longest name, resuming from
the `d_next` of the last complete record, receives every entry once, in order. -/
theorem sysFileReaddir_pages (m : RightsMasks) (streams : Nat → DirStream)
    {dirs : Nat → Option DirCursor} (hreach : ReaddirReachable m streams dirs) :
    (∀ (fdopendir : Except Errno Unit) (sys sys' : Sys) (dirs' : Nat → Option DirCursor)
        (fd : Nat) (buf : Bytes) (nbyte : Nat) (cookie : UInt64) (buf' : Bytes) (used : Nat),
      sysFileReaddir m streams fdopendir sys dirs fd buf nbyte cookie =
        .ok (sys', dirs', .ok (buf', used)) →
      ∃ fe, sys.table.entries[fd]? = some (some fe) ∧
        let s := streams fe.object
        used = min nbyte (s.listing (s.position cookie)).length ∧
          buf' = ((s.listing (s.position cookie)).take used).map some ++ buf.drop used) ∧
    (∀ (sys : Sys) (fd : Nat) (fe : FdEntry) (obj : FdObject) (nbyte fuel : Nat),
      sys.table.entries[fd]? = some (some fe) → m.fileReaddir.Subset fe.rightsBase →
      sys.objects fe.object = some obj → 0 < obj.refcount → 0 ≤ obj.number →
      (∀ de ∈ (streams fe.object).entries, 24 + de.name.length ≤ nbyte) →
      (streams fe.object).entries.length < fuel →
      readdirCaller m streams (.ok ()) fd nbyte fuel sys dirs dircookieStart =
        .ok ((streams fe.object).recordsFrom 0 (streams fe.object).entries)) := by
  refine ⟨fun _ _ _ _ _ _ _ _ _ _ h => sysFileReaddir_listing hreach h, ?_⟩
  intro sys fd fe obj nbyte fuel hocc hb hobj hpos hnum hnames hfuel
  have h := readdirCaller_from hb hnames _ fuel sys obj dirs dircookieStart hocc hobj hpos hnum
    hreach.synced rfl (by rw [DirStream.position_start]; omega)
  rwa [DirStream.position_start, List.drop_zero] at h

theorem sysFileReaddir_pages_two :
    readdirCaller default (fun _ => twoEntryDir) (.ok ()) 0 25 3 oneDirectory (fun _ => none)
      dircookieStart = .ok (twoEntryDir.recordsFrom 0 twoEntryDir.entries) :=
  (sysFileReaddir_pages default (fun _ => twoEntryDir) .init).2 oneDirectory 0 ⟨0, 0, 0⟩
    ⟨1, .directory, 3, false⟩ 25 3 rfl (by decide) rfl (by decide) (by decide) (by decide)
    (by decide)

end CloudabiEmulator
