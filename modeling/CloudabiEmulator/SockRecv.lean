import CloudabiEmulator.TableOps

/-! `sys_sock_recv`. When descriptors are asked for, it allocates a control buffer of
`CMSG_SPACE(ri_fds_len * sizeof(int))` bytes, computed in a 64-bit `size_t`; it receives through
`sock` like the calls of `ObjectCalls`, and after releasing the socket it walks the control
messages with `CMSG_FIRSTHDR` and `CMSG_NXTHDR` and, for each `SCM_RIGHTS` message, installs
`(cmsg_len - CMSG_LEN(0)) / sizeof(int)` descriptors, storing each result in
`in->ri_fds[fdslen++]`. The `CMSG_*` macros belong to the host's C library, not to `src/`:
they are modelled as glibc defines them, over the sizes of its `struct cmsghdr` and `size_t`.
The stores stay within `ri_fds` whenever `CMSG_SPACE` adds no padding after the descriptors,
whatever control data the host places in the buffer; with four bytes of padding, on glibc for
an odd `ri_fds_len`, one more descriptor fits and is stored past the array. -/

namespace CloudabiEmulator

/-- `sizeof(struct cmsghdr)` and `sizeof(size_t)`, the alignment of `CMSG_ALIGN`. -/
structure CmsgLayout where
  hdrSize : Nat
  align : Nat

/-- glibc on an LP64 host. -/
def glibcLp64 : CmsgLayout := ⟨16, 8⟩

namespace CmsgLayout

/-- `CMSG_ALIGN(len)`: `len` rounded up to a multiple of `sizeof(size_t)`. -/
def cmsgAlign (l : CmsgLayout) (len : Nat) : Nat := (len + l.align - 1) / l.align * l.align

/-- `CMSG_SPACE(len)`. -/
def cmsgSpace (l : CmsgLayout) (len : Nat) : Nat := l.cmsgAlign len + l.cmsgAlign l.hdrSize

/-- `CMSG_LEN(len)`. -/
def cmsgLen (l : CmsgLayout) (len : Nat) : Nat := l.cmsgAlign l.hdrSize + len

/-- `__CMSG_PADDING(len)`. -/
def padding (l : CmsgLayout) (len : Nat) : Nat := (l.align - len % l.align) % l.align

/-- The checks of `__cmsg_nxthdr` on the message of length `len` at offset `off` of the
`controllen` bytes of control data: it has a full header, and it and the next header fit. -/
def nxthdrOk (l : CmsgLayout) (controllen off len : Nat) : Bool :=
  decide (l.hdrSize ≤ len ∧ l.hdrSize + l.padding len ≤ controllen - off ∧
    len ≤ controllen - off - (l.hdrSize + l.padding len))

end CmsgLayout

/-- A control message as the host placed it: `cmsg_len`, whether it is `SOL_SOCKET` /
`SCM_RIGHTS`, and the `int`s from `CMSG_DATA` on. -/
structure ControlMessage where
  len : Nat
  rights : Bool
  word : Nat → Int

/-- The messages the loop visits, of those the host placed one after the other from offset
`off`: after each, `CMSG_NXTHDR` moves `CMSG_ALIGN(cmsg_len)` further or ends the walk. -/
def walkFrom (l : CmsgLayout) (controllen : Nat) (off : Nat) :
    List ControlMessage → List ControlMessage
  | [] => []
  | c :: cs =>
    c :: if l.nxthdrOk controllen off c.len then walkFrom l controllen (off + l.cmsgAlign c.len) cs
      else []

/-- `for (chdr = CMSG_FIRSTHDR(&hdr); chdr != NULL; chdr = CMSG_NXTHDR(&hdr, chdr))`. -/
def walk (l : CmsgLayout) (controllen : Nat) (msgs : List ControlMessage) : List ControlMessage :=
  if l.hdrSize ≤ controllen then walkFrom l controllen 0 msgs else []

/-- Control data the host may place in `controllen` bytes from offset `off`: every message has
a full header and ends within the data, and each starts `CMSG_ALIGN` of its predecessor's
length after it. -/
def Placed (l : CmsgLayout) (controllen : Nat) : Nat → List ControlMessage → Prop
  | _, [] => True
  | off, c :: cs => l.hdrSize ≤ c.len ∧ off + c.len ≤ controllen ∧
      Placed l controllen (off + l.cmsgAlign c.len) cs

/-- The descriptors of an `SCM_RIGHTS` message: `(cmsg_len - CMSG_LEN(0)) / sizeof(int)` of
them, read with `memcpy` from `CMSG_DATA(chdr) + i * sizeof(int)`. -/
def ControlMessage.descriptors (l : CmsgLayout) (c : ControlMessage) : List Int :=
  (List.range ((c.len - l.cmsgLen 0) / 4)).map c.word

/-- What the host answers while the `k`-th received descriptor is installed. -/
structure InstallAnswers where
  info : HostFdInfo
  mallocOk : Bool
  reallocOk : Bool
  draws : List Nat

/-- The loop's state: the process, the caller's array `ri_fds` and `fdslen`. -/
structure RecvState where
  sys : Sys
  riFds : List Int
  fdslen : Nat

/-- `in->ri_fds[j] = v`: a store past the end of the array is a fault. -/
def writeFd (riFds : List Int) (j : Nat) (v : Int) : Except Fault (List Int) :=
  if j < riFds.length then .ok (riFds.set j v) else .error .outOfBounds

/-- The inner loop, over the descriptors of one `SCM_RIGHTS` message. -/
def recvFds (m : RightsMasks) (answers : Nat → InstallAnswers) (st : RecvState) :
    List Int → Except Fault RecvState
  | [] => .ok st
  | nfd :: nfds => do
    let a := answers st.fdslen
    let (sys, v) ← sockRecvInstall m st.sys nfd a.info a.mallocOk a.reallocOk a.draws
    let riFds ← writeFd st.riFds st.fdslen v
    recvFds m answers ⟨sys, riFds, st.fdslen + 1⟩ nfds

/-- The outer loop, over the messages the walk visits. -/
def recvMessages (m : RightsMasks) (l : CmsgLayout) (answers : Nat → InstallAnswers)
    (st : RecvState) : List ControlMessage → Except Fault RecvState
  | [] => .ok st
  | c :: cs => do
    let st ← if c.rights then recvFds m answers st (c.descriptors l) else .ok st
    recvMessages m l answers st cs

/-- The extraction in `sys_sock_recv` on `controllen` bytes of control data `msgs`: the
process, `ri_fds` and `ro_fdslen` afterwards. -/
def sockRecvExtract (m : RightsMasks) (l : CmsgLayout) (answers : Nat → InstallAnswers)
    (sys : Sys) (riFds : List Int) (controllen : Nat) (msgs : List ControlMessage) :
    Except Fault RecvState :=
  recvMessages m l answers ⟨sys, riFds, 0⟩ (walk l controllen msgs)

/-- What `recvmsg` reports: the bytes of data received, the control data it placed
(`msg_controllen` and the messages), and the bits `MSG_CTRUNC` and `MSG_TRUNC` of
`msg_flags`. -/
structure RecvAnswer where
  datalen : Nat
  controllen : Nat
  msgs : List ControlMessage
  ctrunc : Bool
  trunc : Bool

/-- `cloudabi_recv_out_t`: `ro_datalen`, `ro_fdslen`, and the bits
`CLOUDABI_SOCK_RECV_FDS_TRUNCATED` and `CLOUDABI_SOCK_RECV_DATA_TRUNCATED` of `ro_flags`. -/
structure RecvOut where
  datalen : Nat
  fdslen : Nat
  fdsTruncated : Bool
  dataTruncated : Bool

/-- `hdr.msg_controllen` before `recvmsg`: `CMSG_SPACE(ri_fds_len * sizeof(int))` in a 64-bit
`size_t` when descriptors are asked for, and no control buffer otherwise. -/
def recvControllen (l : CmsgLayout) (riFdsLen : Nat) : Nat :=
  if 0 < riFdsLen then l.cmsgSpace (riFdsLen * 4 % 2 ^ 64) % 2 ^ 64 else 0

/-- `sys_sock_recv` on the caller's array `ri_fds`: `mallocOk` is what the `malloc` of the
control buffer returns, `recvmsg` the host's answer for a control buffer of the given size, and
`answers k` the host's answers while the `k`-th received descriptor is installed. The receive is
the shape of `fdObjectCall` on `sock` with `CLOUDABI_RIGHT_FD_READ`, and the extraction runs
after the socket is released. The result is `ri_fds` and `*out`. -/
def sysSockRecv (m : RightsMasks) (l : CmsgLayout) (sys : Sys) (sock : Nat) (riFds : List Int)
    (mallocOk : Bool) (recvmsg : Nat → Except Errno RecvAnswer) (answers : Nat → InstallAnswers) :
    Except Fault (Sys × Except Errno (List Int × RecvOut)) :=
  if 0 < riFds.length ∧ mallocOk = false then .ok (sys, .error .enomem)
  else do
    let (sys, r) ← fdObjectCall sys sock m.fdRead fun _ => recvmsg (recvControllen l riFds.length)
    match r with
    | .error e => return (sys, .error e)
    | .ok a =>
      let st ← sockRecvExtract m l answers sys riFds a.controllen a.msgs
      return (st.sys, .ok (st.riFds, ⟨a.datalen, st.fdslen, a.ctrunc, a.trunc⟩))

/-- A received descriptor that `fd_determine_type_rights` rejects, `fstat` failing on it. -/
def rejectedAnswers : InstallAnswers :=
  ⟨⟨.error .ebadf, false, .error .ebadf, .other⟩, true, true, []⟩

theorem sockRecvInstall_rejected (m : RightsMasks) (sys : Sys) (nfd : Int) :
    sockRecvInstall m sys nfd rejectedAnswers.info rejectedAnswers.mallocOk
      rejectedAnswers.reallocOk rejectedAnswers.draws =
      .ok ({ sys with closed := sys.closed ++ [.close nfd] }, -1) := rfl

/-- With every descriptor rejected, each one is closed and `-1` is stored at `ri_fds[fdslen]`;
the loop faults once `fdslen` reaches the end of `ri_fds` with descriptors left. -/
theorem recvFds_rejected_overflows (m : RightsMasks) (st : RecvState) (nfds : List Int)
    (hle : st.fdslen ≤ st.riFds.length) (hlt : st.riFds.length < st.fdslen + nfds.length) :
    recvFds m (fun _ => rejectedAnswers) st nfds = .error .outOfBounds := by
  induction nfds generalizing st with
  | nil => simp at hlt; omega
  | cons nfd nfds ih =>
    by_cases hroom : st.fdslen < st.riFds.length
    · simp only [recvFds, bind, Except.bind, sockRecvInstall_rejected]
      rw [show writeFd st.riFds st.fdslen (-1) = .ok (st.riFds.set st.fdslen (-1)) from
        if_pos hroom]
      exact ih _ (by simp; omega) (by simp at hlt ⊢; omega)
    · simp only [recvFds, bind, Except.bind, sockRecvInstall_rejected]
      rw [show writeFd st.riFds st.fdslen (-1) = .error .outOfBounds from if_neg hroom]

theorem cmsgSpace_odd {n : Nat} (h : n % 2 = 1) : glibcLp64.cmsgSpace (n * 4) = n * 4 + 20 := by
  simp only [CmsgLayout.cmsgSpace, CmsgLayout.cmsgAlign, glibcLp64]
  omega

theorem cmsgLen_glibcLp64 (len : Nat) : glibcLp64.cmsgLen len = 16 + len := rfl

/-- On glibc LP64, with an odd `ri_fds_len`, `CMSG_SPACE(ri_fds_len * sizeof(int))` holds four
bytes of padding: an `SCM_RIGHTS` message of `CMSG_LEN((ri_fds_len + 1) * sizeof(int))` bytes
fits, and the loop stores its last descriptor at `ri_fds[ri_fds_len]`, past the caller's
array. -/
theorem sockRecvExtract_overflows (m : RightsMasks) (sys : Sys) (riFds : List Int)
    (word : Nat → Int) (hodd : riFds.length % 2 = 1) :
    Placed glibcLp64 (glibcLp64.cmsgSpace (riFds.length * 4)) 0
        [⟨glibcLp64.cmsgLen ((riFds.length + 1) * 4), true, word⟩] ∧
      sockRecvExtract m glibcLp64 (fun _ => rejectedAnswers) sys riFds
        (glibcLp64.cmsgSpace (riFds.length * 4))
        [⟨glibcLp64.cmsgLen ((riFds.length + 1) * 4), true, word⟩] = .error .outOfBounds := by
  rw [cmsgSpace_odd hodd, cmsgLen_glibcLp64]
  refine ⟨⟨by simp [glibcLp64], by dsimp only; omega, trivial⟩, ?_⟩
  have hdescr : (ControlMessage.descriptors glibcLp64
      ⟨16 + (riFds.length + 1) * 4, true, word⟩).length = riFds.length + 1 := by
    simp only [ControlMessage.descriptors, List.length_map, List.length_range, cmsgLen_glibcLp64]
    omega
  have hrun := recvFds_rejected_overflows m ⟨sys, riFds, 0⟩ _ (Nat.zero_le _)
    (by dsimp only; rw [hdescr]; omega)
  simp only [sockRecvExtract, walk, walkFrom, ite_self, recvMessages, if_pos (show
    glibcLp64.hdrSize ≤ riFds.length * 4 + 20 by simp [glibcLp64]), if_true, hrun]
  rfl

theorem sockRecvExtract_overflows_one :
    [(7 : Int)].length % 2 = 1 ∧
      sockRecvExtract default glibcLp64 (fun _ => rejectedAnswers) Sys.init [7]
        (glibcLp64.cmsgSpace ([(7 : Int)].length * 4))
        [⟨glibcLp64.cmsgLen (([(7 : Int)].length + 1) * 4), true, fun _ => 3⟩] =
          .error .outOfBounds :=
  ⟨rfl, (sockRecvExtract_overflows default Sys.init [7] (fun _ => 3) rfl).2⟩

/-- A computation that stores nothing past the end of a buffer: it may fault, but not with
`outOfBounds`. -/
def InBounds {α : Type} (x : Except Fault α) : Prop := x ≠ .error .outOfBounds

namespace InBounds

variable {α β : Type}

theorem ok (a : α) : InBounds (.ok a : Except Fault α) := nofun

theorem bind {x : Except Fault α} {f : α → Except Fault β} (hx : InBounds x)
    (hf : ∀ a, x = .ok a → InBounds (f a)) : InBounds (x >>= f) := by
  cases x with
  | error e => exact fun h => hx (by rw [Except.error.inj h])
  | ok a => exact hf a rfl

theorem map {x : Except Fault α} (f : α → β) (hx : InBounds x) : InBounds (x.map f) := by
  cases x with
  | error e => exact fun h => hx (by rw [Except.error.inj h])
  | ok a => exact ok _

end InBounds

section InBounds

open InBounds

variable {sys : Sys}

/-! Only the stores into `ri_fds` and the buffers of `sys_sock_send` and the `pread`/`pwrite`
emulation can fault with `outOfBounds`; the table and the objects fault otherwise. -/

theorem refcountAcquire_inBounds (o : Option Nat) : InBounds (refcountAcquire sys o) := by
  unfold refcountAcquire
  split <;> (try split) <;> simp [InBounds]

theorem fdNumber_inBounds (obj : FdObject) : InBounds (fdNumber obj) := by
  unfold fdNumber
  split <;> simp [InBounds]

theorem fdObjectRelease_inBounds (o : Nat) : InBounds (fdObjectRelease sys o) := by
  unfold fdObjectRelease releaseClose
  split
  · simp [InBounds]
  · split
    · split
      · exact ok _
      · exact ((fdNumber_inBounds _).map _).map _
    · exact ok _

theorem fdObjectGetLocked_inBounds (fd : Nat) (rightsBase rightsInheriting : Rights) :
    InBounds (fdObjectGetLocked sys fd rightsBase rightsInheriting) := by
  unfold fdObjectGetLocked
  split
  · exact ok _
  · exact (refcountAcquire_inBounds _).bind fun _ _ => ok _

theorem fdObjectCall_inBounds {α : Type} (fd : Nat) (rightsBase : Rights)
    (host : FileType → Except Errno α) : InBounds (fdObjectCall sys fd rightsBase host) := by
  unfold fdObjectCall
  refine (fdObjectGetLocked_inBounds fd rightsBase 0).bind fun ⟨s, r⟩ _ => ?_
  rcases r with e | fo
  · exact ok _
  · dsimp only
    split
    · simp [InBounds]
    · exact (fdNumber_inBounds _).bind fun _ _ =>
        (fdObjectRelease_inBounds fo).bind fun _ _ => ok _

theorem unusedLoop_inBounds (t : FdTable) (draws : List Nat) : InBounds (unusedLoop t draws) := by
  induction draws with
  | nil => simp [unusedLoop, InBounds]
  | cons r draws ih =>
    unfold unusedLoop
    split
    · exact ok _
    · exact ih

theorem fdTableAttach_inBounds (t : FdTable) (fd fo : Nat) (rightsBase rightsInheriting : Rights) :
    InBounds (fdTableAttach t fd fo rightsBase rightsInheriting) := by
  simp only [fdTableAttach]
  split_ifs <;> simp [InBounds]

theorem fdTableInsert_inBounds (fo : Nat) (rightsBase rightsInheriting : Rights)
    (reallocOk : Bool) (draws : List Nat) :
    InBounds (fdTableInsert sys fo rightsBase rightsInheriting reallocOk draws) := by
  have hlocked : InBounds (fdTableInsertLocked sys.table fo rightsBase rightsInheriting reallocOk
      draws) := by
    unfold fdTableInsertLocked fdTableUnused
    split
    · exact ok _
    · refine InBounds.bind ?_ fun _ _ => (fdTableAttach_inBounds _ _ _ _ _).bind fun _ _ => ok _
      split
      · exact unusedLoop_inBounds _ draws
      · simp [InBounds]
  unfold fdTableInsert
  refine hlocked.bind fun r _ => ?_
  rcases r with _ | ⟨t, fd⟩
  · exact (fdObjectRelease_inBounds _).bind fun _ _ => ok _
  · exact ok _

theorem fdTableInsertFd_inBounds (nfd : Int) (type : FileType)
    (rightsBase rightsInheriting : Rights) (mallocOk reallocOk : Bool) (draws : List Nat) :
    InBounds (fdTableInsertFd sys nfd type rightsBase rightsInheriting mallocOk reallocOk
      draws) := by
  unfold fdTableInsertFd
  split
  · exact ok _
  · exact fdTableInsert_inBounds _ _ _ _ _

theorem sockRecvInstall_inBounds (m : RightsMasks) (nfd : Int) (info : HostFdInfo)
    (mallocOk reallocOk : Bool) (draws : List Nat) :
    InBounds (sockRecvInstall m sys nfd info mallocOk reallocOk draws) := by
  unfold sockRecvInstall
  split
  · exact ok _
  · exact (fdTableInsertFd_inBounds _ _ _ _ _ _ _).bind fun ⟨_, r⟩ _ => by
      cases r <;> exact ok _

end InBounds

/-- The host's answer of a call of the `fd_object_get` family is the one it returns, unless
the lookup failed. -/
theorem fdObjectCall_answer {α : Type} {sys sys' : Sys} {fd : Nat} {rightsBase : Rights}
    {host : FileType → Except Errno α} {r : Except Errno α}
    (h : fdObjectCall sys fd rightsBase host = .ok (sys', r)) :
    (∃ e, r = .error e) ∨ ∃ type, host type = r := by
  unfold fdObjectCall at h
  obtain ⟨⟨s1, r1⟩, -, h⟩ := Except.bind_eq_ok h
  rcases r1 with e | fo
  · cases h
    exact .inl ⟨e, rfl⟩
  · dsimp only at h
    split at h
    · cases h
    · obtain ⟨_, -, h⟩ := Except.bind_eq_ok h
      obtain ⟨_, -, h⟩ := Except.bind_eq_ok h
      cases h
      exact .inr ⟨_, rfl⟩

section Count

variable {l : CmsgLayout}

/-- The descriptors the loop installs from the message `c`: none unless it is `SCM_RIGHTS`. -/
def ControlMessage.count (l : CmsgLayout) (c : ControlMessage) : Nat :=
  if c.rights then (c.descriptors l).length else 0

/-- The descriptors the loop installs from the messages `msgs`. -/
def recvCount (l : CmsgLayout) : List ControlMessage → Nat
  | [] => 0
  | c :: cs => c.count l + recvCount l cs

theorem ControlMessage.count_le (c : ControlMessage) : 4 * c.count l ≤ c.len - l.cmsgLen 0 := by
  unfold ControlMessage.count ControlMessage.descriptors
  split
  · simp only [List.length_map, List.length_range]
    omega
  · omega

theorem CmsgLayout.le_cmsgAlign (hl : 0 < l.align) (len : Nat) : len ≤ l.cmsgAlign len := by
  have := Nat.lt_div_mul_add (a := len + l.align - 1) hl
  unfold CmsgLayout.cmsgAlign
  omega

theorem CmsgLayout.cmsgAlign_mono {x y : Nat} (h : x ≤ y) : l.cmsgAlign x ≤ l.cmsgAlign y :=
  Nat.mul_le_mul_right _ (Nat.div_le_div_right (by omega))

/-- The messages the walk visits from offset `off` carry their descriptors within the control
data: after the last one that has any, a `CMSG_LEN(0)` still fits. -/
theorem walkFrom_count (hl : 0 < l.align) {controllen : Nat} :
    ∀ {off : Nat} {msgs : List ControlMessage}, Placed l controllen off msgs →
      recvCount l (walkFrom l controllen off msgs) = 0 ∨
        off + 4 * recvCount l (walkFrom l controllen off msgs) + l.cmsgLen 0 ≤ controllen
  | _, [], _ => .inl rfl
  | off, c :: cs, ⟨_, hend, hrest⟩ => by
    have hc := c.count_le (l := l)
    have halign := l.le_cmsgAlign hl c.len
    rw [walkFrom]
    split
    · have := walkFrom_count hl hrest
      simp only [recvCount]
      omega
    · simp only [recvCount]
      omega

/-- The descriptors of the control data the host placed take at most its length less one
`CMSG_LEN(0)`. -/
theorem walk_count (hl : 0 < l.align) {controllen : Nat} {msgs : List ControlMessage}
    (hp : Placed l controllen 0 msgs) :
    4 * recvCount l (walk l controllen msgs) ≤ controllen - l.cmsgLen 0 := by
  unfold walk
  split
  · rcases walkFrom_count hl hp with h | h <;> omega
  · simp [recvCount]

end Count

section Stores

variable {m : RightsMasks} {l : CmsgLayout} {answers : Nat → InstallAnswers} {st st' : RecvState}

theorem writeFd_length {riFds riFds' : List Int} {j : Nat} {v : Int}
    (h : writeFd riFds j v = .ok riFds') : riFds'.length = riFds.length := by
  unfold writeFd at h
  split at h <;> cases h
  exact List.length_set ..

/-- The inner loop counts every descriptor of the message and keeps the length of `ri_fds`. -/
theorem recvFds_fdslen {nfds : List Int} (h : recvFds m answers st nfds = .ok st') :
    st'.fdslen = st.fdslen + nfds.length ∧ st'.riFds.length = st.riFds.length := by
  induction nfds generalizing st with
  | nil =>
    cases h
    exact ⟨rfl, rfl⟩
  | cons nfd nfds ih =>
    obtain ⟨⟨s, v⟩, -, h⟩ := Except.bind_eq_ok h
    obtain ⟨riFds, hw, h⟩ := Except.bind_eq_ok h
    obtain ⟨h1, h2⟩ := ih h
    dsimp only at h1 h2
    refine ⟨by rw [h1, List.length_cons]; omega, h2.trans (writeFd_length hw)⟩

/-- The inner loop stores within `ri_fds` when the descriptors fit in what is left of it. -/
theorem recvFds_inBounds (nfds : List Int) (st : RecvState)
    (hroom : st.fdslen + nfds.length ≤ st.riFds.length) : InBounds (recvFds m answers st nfds) := by
  induction nfds generalizing st with
  | nil => exact InBounds.ok _
  | cons nfd nfds ih =>
    rw [List.length_cons] at hroom
    have hlt : st.fdslen < st.riFds.length := by omega
    rw [recvFds]
    refine (sockRecvInstall_inBounds _ _ _ _ _ _).bind fun ⟨s, v⟩ _ => ?_
    dsimp only
    rw [show writeFd st.riFds st.fdslen v = .ok (st.riFds.set st.fdslen v) from if_pos hlt]
    exact ih _ (by simp only [List.length_set]; omega)

theorem recvMessages_inBounds (msgs : List ControlMessage) (st : RecvState)
    (hroom : st.fdslen + recvCount l msgs ≤ st.riFds.length) :
    InBounds (recvMessages m l answers st msgs) := by
  induction msgs generalizing st with
  | nil => exact InBounds.ok _
  | cons c cs ih =>
    rw [recvCount] at hroom
    rw [recvMessages]
    split
    · next hr =>
      rw [ControlMessage.count, if_pos hr] at hroom
      exact (recvFds_inBounds _ st (by omega)).bind fun st1 h1 =>
        ih st1 (by have := recvFds_fdslen h1; omega)
    · next hr =>
      rw [ControlMessage.count, if_neg hr] at hroom
      exact ih st (by omega)

/-- The extraction stores within `ri_fds` when the control data the host placed leaves, after
one `CMSG_LEN(0)`, at most four bytes for each entry of the array. -/
theorem sockRecvExtract_inBounds (hl : 0 < l.align) {sys : Sys} {riFds : List Int}
    {controllen : Nat} {msgs : List ControlMessage} (hp : Placed l controllen 0 msgs)
    (hroom : controllen - l.cmsgLen 0 ≤ 4 * riFds.length) :
    InBounds (sockRecvExtract m l answers sys riFds controllen msgs) :=
  recvMessages_inBounds _ _ (by have := walk_count hl hp; dsimp only; omega)

/-- The control buffer `sys_sock_recv` offers holds, after one `CMSG_LEN(0)`, no more than
`CMSG_ALIGN(ri_fds_len * sizeof(int))` bytes, whatever the 64-bit sizes wrap to. -/
theorem recvControllen_sub_le (n : Nat) :
    recvControllen l n - l.cmsgLen 0 ≤ l.cmsgAlign (n * 4) := by
  unfold recvControllen
  split
  · have h1 := l.cmsgAlign_mono (Nat.mod_le (n * 4) (2 ^ 64))
    have h2 := Nat.mod_le (l.cmsgSpace (n * 4 % 2 ^ 64)) (2 ^ 64)
    simp only [CmsgLayout.cmsgSpace, CmsgLayout.cmsgLen] at h2 ⊢
    omega
  · omega

/-- `sys_sock_recv` never stores past `ri_fds` when `CMSG_SPACE` adds no padding after the
descriptors: whatever control data the host places within the buffer it was offered, the loop
installs at most `ri_fds_len` descriptors. On glibc LP64 that is every even `ri_fds_len`;
`sockRecvExtract_overflows` is the odd case. -/
theorem sysSockRecv_inBounds (m : RightsMasks) (l : CmsgLayout) (sys : Sys) (sock : Nat)
    (riFds : List Int) (mallocOk : Bool) (recvmsg : Nat → Except Errno RecvAnswer)
    (answers : Nat → InstallAnswers) (hl : 0 < l.align)
    (hpad : l.cmsgAlign (riFds.length * 4) = riFds.length * 4)
    (hhost : ∀ a, recvmsg (recvControllen l riFds.length) = .ok a →
      a.controllen ≤ recvControllen l riFds.length ∧ Placed l a.controllen 0 a.msgs) :
    InBounds (sysSockRecv m l sys sock riFds mallocOk recvmsg answers) := by
  have hbuf := recvControllen_sub_le (l := l) riFds.length
  unfold sysSockRecv
  split
  · exact InBounds.ok _
  refine (fdObjectCall_inBounds _ _ _).bind fun ⟨s, r⟩ hc => ?_
  rcases r with e | a
  · exact InBounds.ok _
  obtain ⟨e, he⟩ | ⟨_, ha⟩ := fdObjectCall_answer hc
  · cases he
  obtain ⟨hle, hp⟩ := hhost a ha
  exact (sockRecvExtract_inBounds hl hp (by omega)).bind fun _ _ => InBounds.ok _

/-- A host that places one `SCM_RIGHTS` message with two descriptors in the `CMSG_SPACE(8)`
bytes offered for an array of two. -/
def twoFdsAnswer : RecvAnswer := ⟨0, 24, [⟨glibcLp64.cmsgLen 8, true, fun _ => 3⟩], false, false⟩

theorem sysSockRecv_inBounds_two :
    0 < glibcLp64.align ∧ glibcLp64.cmsgAlign ([(0 : Int), 0].length * 4) = [(0 : Int), 0].length * 4 ∧
      InBounds (sysSockRecv default glibcLp64 Sys.init 0 [0, 0] true (fun _ => .ok twoFdsAnswer)
        (fun _ => rejectedAnswers)) :=
  ⟨by decide, by decide, sysSockRecv_inBounds default glibcLp64 Sys.init 0 [0, 0] true
    (fun _ => .ok twoFdsAnswer) (fun _ => rejectedAnswers) (by decide) (by decide)
    fun a ha => by
      cases ha
      exact ⟨by decide, by decide, by decide, trivial⟩⟩

end Stores

end CloudabiEmulator
