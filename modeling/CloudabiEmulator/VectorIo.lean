import Mathlib.Algebra.Order.Ring.Nat
import CloudabiEmulator.TableInvariant
import CloudabiEmulator.ObjectCalls

/-! `sys_fd_pread` and `sys_fd_pwrite` in builds without `preadv` and `pwritev`: a vector of
two or more buffers goes through one bounce buffer of `totalsize` bytes, gathered before a single
`pwrite` and scattered after a single `pread`. `totalsize` and the copy offset are `size_t`
sums. While the lengths sum below `2^64` the emulation is the vectored call: `pwrite` is handed
the concatenation of the buffers, and the bytes `pread` returns fill the buffers in order, each
with as many as fit, the rest of every buffer untouched. When they sum to `2^64` or more the
bounce buffer is allocated with the wrapped size and the gather loop copies the unwrapped lengths
into it, past its end; the scatter loop reads past its end for some answers of `pread`. -/

namespace CloudabiEmulator

/-- Memory byte by byte, `none` where nothing has been stored. -/
abbrev Bytes := List (Option UInt8)

/-- `memcpy(dst + dstOff, src + srcOff, n)`, faulting when either range leaves its block. -/
def memcpyAt (dst : Bytes) (dstOff : Nat) (src : Bytes) (srcOff n : Nat) : Except Fault Bytes :=
  if dstOff + n ≤ dst.length ∧ srcOff + n ≤ src.length then
    .ok (dst.take dstOff ++ (src.drop srcOff).take n ++ dst.drop (dstOff + n))
  else .error .outOfBounds

/-- `for (i = 0; i < iovcnt; ++i) totalsize += iov[i].buf_len;` in `size_t`. -/
def sizeSum (lens : List Nat) : Nat := lens.foldl (fun t l => (t + l) % 2 ^ 64) 0

/-- A positional read of `data` into the block `buf`: as many bytes as fit, the rest of the
block untouched. -/
def readInto (buf : Bytes) (data : List UInt8) : Bytes :=
  (data.take buf.length).map some ++ buf.drop (min data.length buf.length)

/-- The gather loop of `sys_fd_pwrite`: each buffer copied at `bufoff`, which advances in
`size_t`. -/
def gatherLoop (buf : Bytes) (bufoff : Nat) : List Bytes → Except Fault Bytes
  | [] => .ok buf
  | v :: vs => do
    let buf ← memcpyAt buf bufoff v 0 v.length
    gatherLoop buf ((bufoff + v.length) % 2 ^ 64) vs

/-- The scatter loop of `sys_fd_pread` over the buffers, from the bytes `bufoff` of the bounce
buffer handed out so far, `len` the count `pread` returned: a buffer ending before `len` is
filled whole, and the first one that reaches it gets `len - bufoff` bytes and ends the loop. -/
def scatterLoop (buf : Bytes) (len bufoff : Nat) : List Bytes → Except Fault (List Bytes)
  | [] => .ok []
  | v :: vs =>
    if (bufoff + v.length) % 2 ^ 64 < len then do
      let v' ← memcpyAt v 0 buf bufoff v.length
      let vs' ← scatterLoop buf len ((bufoff + v.length) % 2 ^ 64) vs
      return v' :: vs'
    else do
      let v' ← memcpyAt v 0 buf bufoff ((len + 2 ^ 64 - bufoff) % 2 ^ 64)
      return v' :: vs

/-- `sys_fd_pwrite` in a build without `pwritev`: `pwrite` is the host's answer to the bytes it
is handed, and `mallocOk` what `malloc` of the bounce buffer returns. -/
def sysFdPwriteEmulated (m : RightsMasks) (sys : Sys) (fd : Nat) (iov : List Bytes)
    (mallocOk : Bool) (pwrite : Bytes → Except Errno Nat) : Except Fault (Sys × Except Errno Nat) :=
  if iov = [] then .ok (sys, .error .einval)
  else do
    match ← fdObjectGetLocked sys fd (m.fdWrite ||| m.fdSeek) 0 with
    | (sys, .error e) => return (sys, .error e)
    | (sys, .ok fo) =>
      match sys.objects fo with
      | none => .error .useAfterFree
      | some obj =>
        match iov with
        | [v] => do
          let _ ← fdNumber obj
          let sys ← fdObjectRelease sys fo
          return (sys, pwrite v)
        | _ =>
          let totalsize := sizeSum (iov.map List.length)
          if !mallocOk then do
            let sys ← fdObjectRelease sys fo
            return (sys, .error .enomem)
          else do
            let buf ← gatherLoop (List.replicate totalsize none) 0 iov
            let _ ← fdNumber obj
            let sys ← fdObjectRelease sys fo
            return (sys, pwrite buf)

/-- `sys_fd_pread` in a build without `preadv`: `pread n` is what the host reads when asked for
`n` bytes; the call answers the count and the buffers. -/
def sysFdPreadEmulated (m : RightsMasks) (sys : Sys) (fd : Nat) (iov : List Bytes)
    (mallocOk : Bool) (pread : Nat → Except Errno (List UInt8)) :
    Except Fault (Sys × Except Errno (Nat × List Bytes)) :=
  if iov = [] then .ok (sys, .error .einval)
  else do
    match ← fdObjectGetLocked sys fd (m.fdRead ||| m.fdSeek) 0 with
    | (sys, .error e) => return (sys, .error e)
    | (sys, .ok fo) =>
      match sys.objects fo with
      | none => .error .useAfterFree
      | some obj =>
        match iov with
        | [v] => do
          let _ ← fdNumber obj
          let sys ← fdObjectRelease sys fo
          return (sys, (pread v.length).map fun data => (min data.length v.length, [readInto v data]))
        | _ =>
          let totalsize := sizeSum (iov.map List.length)
          if !mallocOk then do
            let sys ← fdObjectRelease sys fo
            return (sys, .error .enomem)
          else do
            let _ ← fdNumber obj
            let sys ← fdObjectRelease sys fo
            match pread totalsize with
            | .error e => return (sys, .error e)
            | .ok data =>
              let len := min data.length totalsize
              let iov ← scatterLoop (readInto (List.replicate totalsize none) data) len 0 iov
              return (sys, .ok (len, iov))

/-- What `preadv` does with the bytes `data` it read: the buffers filled in order, each with as
many as fit, the rest of every buffer untouched. -/
def preadvFill : List Bytes → List UInt8 → List Bytes
  | [], _ => []
  | v :: vs, data => readInto v data :: preadvFill vs (data.drop v.length)

theorem sizeSum_eq (lens : List Nat) : sizeSum lens = lens.sum % 2 ^ 64 := by
  suffices h : ∀ a, lens.foldl (fun t l => (t + l) % 2 ^ 64) (a % 2 ^ 64) = (a + lens.sum) % 2 ^ 64 by
    simpa using h 0
  induction lens with
  | nil => intro a; simp
  | cons l lens ih =>
    intro a
    rw [List.foldl_cons, Nat.mod_add_mod, ih, List.sum_cons, Nat.add_assoc]

section Memcpy

variable {dst src : Bytes} {dstOff srcOff n : Nat}

theorem memcpyAt_ok (hd : dstOff + n ≤ dst.length) (hs : srcOff + n ≤ src.length) :
    memcpyAt dst dstOff src srcOff n =
      .ok (dst.take dstOff ++ (src.drop srcOff).take n ++ dst.drop (dstOff + n)) :=
  if_pos ⟨hd, hs⟩

theorem memcpyAt_fault (h : ¬ (dstOff + n ≤ dst.length ∧ srcOff + n ≤ src.length)) :
    memcpyAt dst dstOff src srcOff n = .error .outOfBounds :=
  if_neg h

end Memcpy

/-- Gathering into a blank tail after the bytes `pre` already copied: the buffers are laid end to
end, while they fit and the offset stays below `2^64`. -/
theorem gatherLoop_concat :
    ∀ (vs : List Bytes) (pre blank : Bytes), (vs.map List.length).sum ≤ blank.length →
      pre.length + blank.length < 2 ^ 64 →
      gatherLoop (pre ++ blank) pre.length vs =
        .ok (pre ++ vs.flatten ++ blank.drop (vs.map List.length).sum)
  | [], pre, blank, _, _ => by simp [gatherLoop]
  | v :: vs, pre, blank, hfit, hlt => by
    simp only [List.map_cons, List.sum_cons] at hfit
    have hcopy : memcpyAt (pre ++ blank) pre.length v 0 v.length =
        .ok ((pre ++ v) ++ blank.drop v.length) := by
      rw [memcpyAt_ok (by simp; omega) (by simp), List.take_left, List.drop_zero, List.take_length,
        List.drop_append_eq_append_drop, List.drop_eq_nil_of_le (by simp), List.nil_append,
        Nat.add_sub_cancel_left]
    have hoff : (pre.length + v.length) % 2 ^ 64 = (pre ++ v).length := by
      rw [List.length_append, Nat.mod_eq_of_lt (by omega)]
    simp only [gatherLoop, hcopy, bind, Except.bind, hoff]
    rw [gatherLoop_concat vs (pre ++ v) (blank.drop v.length) (by simp; omega) (by simp; omega)]
    simp [List.drop_drop, Nat.add_comm]

/-- Gathering more bytes than the buffer holds stores past its end, at the first buffer that
does not fit. -/
theorem gatherLoop_overflow :
    ∀ (vs : List Bytes) (buf : Bytes) (bufoff : Nat), bufoff ≤ buf.length → buf.length < 2 ^ 64 →
      buf.length < bufoff + (vs.map List.length).sum → gatherLoop buf bufoff vs = .error .outOfBounds
  | [], _, _, hoff, _, hover => absurd hover (by simpa using hoff)
  | v :: vs, buf, bufoff, hoff, hlt, hover => by
    simp only [List.map_cons, List.sum_cons] at hover
    by_cases hfit : bufoff + v.length ≤ buf.length
    · have hlen : (buf.take bufoff ++ (v.drop 0).take v.length ++ buf.drop (bufoff + v.length)).length
          = buf.length := by
        simp only [List.length_append, List.length_take, List.length_drop, List.drop_zero]
        omega
      have hmod : (bufoff + v.length) % 2 ^ 64 = bufoff + v.length := Nat.mod_eq_of_lt (by omega)
      simp only [gatherLoop, @memcpyAt_ok buf v bufoff 0 v.length hfit (by simp), bind, Except.bind,
        hmod]
      exact gatherLoop_overflow vs _ (bufoff + v.length) (by rw [hlen]; omega) (by rw [hlen]; omega)
        (by rw [hlen]; omega)
    · simp only [gatherLoop, memcpyAt_fault (fun h => hfit h.1), bind, Except.bind]

section Fill

theorem preadvFill_nil : ∀ vs : List Bytes, preadvFill vs [] = vs
  | [] => rfl
  | v :: vs => by simp [preadvFill, readInto, preadvFill_nil vs]

/-- Buffer `i` gets the bytes read from the sum `o_i` of the lengths before it on: the first
`min(buf_len_i, len - o_i)` of its bytes, the rest of it untouched. -/
theorem preadvFill_getElem? : ∀ (vs : List Bytes) (data : List UInt8) (i : Nat),
    (preadvFill vs data)[i]? =
      vs[i]?.map fun v => readInto v (data.drop ((vs.take i).map List.length).sum)
  | [], _, _ => rfl
  | _ :: _, _, 0 => by simp [preadvFill]
  | v :: vs, data, i + 1 => by
    simp [preadvFill, preadvFill_getElem? vs (data.drop v.length) i, List.drop_drop, Nat.add_comm]

theorem preadvFill_take : ∀ (vs : List Bytes) (data : List UInt8),
    preadvFill vs (data.take (vs.map List.length).sum) = preadvFill vs data
  | [], _ => rfl
  | v :: vs, data => by
    simp only [preadvFill, List.map_cons, List.sum_cons, readInto, List.take_take, List.length_take,
      List.drop_take, Nat.add_sub_cancel_left, preadvFill_take vs (data.drop v.length)]
    rw [Nat.min_eq_left (by omega : v.length ≤ v.length + (vs.map List.length).sum),
      show min (min (v.length + (vs.map List.length).sum) data.length) v.length =
        min data.length v.length by omega]

theorem drop_take_of_read {buf : Bytes} {d : List UInt8} (htake : buf.take d.length = d.map some)
    {bufoff k : Nat} (hk : bufoff + k ≤ d.length) :
    (buf.drop bufoff).take k = ((d.drop bufoff).take k).map some := by
  have h := congrArg (fun l => (l.drop bufoff).take k) htake
  simp only [List.drop_take, List.take_take] at h
  rw [Nat.min_eq_left (by omega)] at h
  rw [h, List.map_take, List.map_drop]

/-- The scatter loop after `pread` returned the bytes `d` at the start of the bounce buffer: the
buffers from `bufoff` on get what `preadv` would have put in them, while the offsets stay below
`2^64`. -/
theorem scatterLoop_fill {buf : Bytes} {d : List UInt8} (htake : buf.take d.length = d.map some)
    (hlen : d.length ≤ buf.length) :
    ∀ (vs : List Bytes) (bufoff : Nat), bufoff ≤ d.length →
      bufoff + (vs.map List.length).sum < 2 ^ 64 →
      scatterLoop buf d.length bufoff vs = .ok (preadvFill vs (d.drop bufoff))
  | [], _, _, _ => rfl
  | v :: vs, bufoff, hoff, hlt => by
    simp only [List.map_cons, List.sum_cons] at hlt
    have hmod : (bufoff + v.length) % 2 ^ 64 = bufoff + v.length := Nat.mod_eq_of_lt (by omega)
    by_cases hfull : bufoff + v.length < d.length
    · rw [scatterLoop, hmod, if_pos hfull,
        @memcpyAt_ok v buf 0 bufoff v.length (by simp) (by omega)]
      simp only [bind, Except.bind, scatterLoop_fill htake hlen vs (bufoff + v.length) (by omega)
        (by omega), pure, Except.pure, preadvFill, readInto, List.drop_drop,
        drop_take_of_read htake (by omega : bufoff + v.length ≤ d.length)]
      simp [Nat.add_comm, show min (d.length - bufoff) v.length = v.length by omega]
    · have hcount : (d.length + 2 ^ 64 - bufoff) % 2 ^ 64 = d.length - bufoff := by omega
      rw [scatterLoop, hmod, if_neg hfull, hcount,
        @memcpyAt_ok v buf 0 bufoff (d.length - bufoff) (by simp; omega) (by omega)]
      simp only [bind, Except.bind, pure, Except.pure, preadvFill, readInto, List.drop_drop,
        drop_take_of_read htake (by omega : bufoff + (d.length - bufoff) ≤ d.length),
        List.drop_eq_nil_of_le (by omega : d.length ≤ bufoff + v.length), preadvFill_nil]
      simp [List.take_of_length_le (by simp; omega : (d.drop bufoff).length ≤ v.length),
        show min (d.length - bufoff) v.length = d.length - bufoff by omega]

@[simp] theorem readInto_length (buf : Bytes) (data : List UInt8) :
    (readInto buf data).length = buf.length := by
  simp only [readInto, List.length_append, List.length_map, List.length_take, List.length_drop]
  omega

theorem gatherLoop_blank (vs : List Bytes) (hsum : (vs.map List.length).sum < 2 ^ 64) :
    gatherLoop (List.replicate (vs.map List.length).sum none) 0 vs = .ok vs.flatten := by
  simpa using gatherLoop_concat vs [] (List.replicate (vs.map List.length).sum none) (by simp)
    (by simpa using hsum)

/-- Scattering the bytes of one `pread` into a blank bounce buffer of the exact size fills the
buffers as `preadv` does. -/
theorem scatterLoop_blank (vs : List Bytes) (data : List UInt8)
    (hsum : (vs.map List.length).sum < 2 ^ 64) :
    scatterLoop (readInto (List.replicate (vs.map List.length).sum none) data)
      (min data.length (vs.map List.length).sum) 0 vs = .ok (preadvFill vs data) := by
  have hd : (data.take (vs.map List.length).sum).length =
      min data.length (vs.map List.length).sum := by simp [Nat.min_comm]
  rw [← hd, scatterLoop_fill _ _ vs 0 (Nat.zero_le _) (by simpa using hsum), List.drop_zero,
    preadvFill_take]
  · simp [readInto]
  · simp only [readInto_length, List.length_replicate, List.length_take]
    omega

end Fill

section Emulation

variable (m : RightsMasks) (sys : Sys) (fd : Nat)

/-- While the lengths sum below `2^64`, `sys_fd_pwrite` without `pwritev` is `sys_fd_pwrite`
with it, `pwritev` writing the concatenation of the buffers. -/
theorem sysFdPwriteEmulated_eq (iov : List Bytes) (pwrite : Bytes → Except Errno Nat)
    (hsum : (iov.map List.length).sum < 2 ^ 64) :
    sysFdPwriteEmulated m sys fd iov true pwrite =
      sysFdPwrite m sys fd iov.length (pwrite iov.flatten) := by
  rcases iov with _ | ⟨v, vs⟩
  · rfl
  simp only [sysFdPwriteEmulated, sysFdPwrite, fdObjectCall, reduceCtorEq, if_false,
    List.length_cons, Nat.succ_ne_zero]
  rcases fdObjectGetLocked sys fd (m.fdWrite ||| m.fdSeek) 0 with _ | ⟨sys', _ | fo⟩
  · rfl
  · rfl
  simp only [bind, Except.bind]
  rcases sys'.objects fo with _ | obj
  · rfl
  rcases vs with _ | ⟨w, ws⟩
  · simp
  simp only [sizeSum_eq, Nat.mod_eq_of_lt hsum, gatherLoop_blank _ hsum]
  rfl

theorem sysFdPwriteEmulated_eq_oneFile :
    sysFdPwriteEmulated default oneFile 0 [[some 1], [some 2, some 3]] true (fun b => .ok b.length) =
      sysFdPwrite default oneFile 0 2 (.ok 3) :=
  sysFdPwriteEmulated_eq default oneFile 0 _ _ (by decide)

/-- While the lengths sum below `2^64`, `sys_fd_pread` without `preadv` answers what `preadv`
would: the count of bytes read and the buffers filled with them in order. -/
theorem sysFdPreadEmulated_eq (iov : List Bytes) (pread : Nat → Except Errno (List UInt8))
    (hsum : (iov.map List.length).sum < 2 ^ 64) :
    sysFdPreadEmulated m sys fd iov true pread =
      if iov = [] then .ok (sys, .error .einval)
      else fdObjectCall sys fd (m.fdRead ||| m.fdSeek) fun _ =>
        (pread (iov.map List.length).sum).map fun data =>
          (min data.length (iov.map List.length).sum, preadvFill iov data) := by
  rcases iov with _ | ⟨v, vs⟩
  · rfl
  simp only [sysFdPreadEmulated, fdObjectCall, reduceCtorEq, if_false]
  rcases fdObjectGetLocked sys fd (m.fdRead ||| m.fdSeek) 0 with _ | ⟨sys', _ | fo⟩
  · rfl
  · rfl
  simp only [bind, Except.bind]
  rcases sys'.objects fo with _ | obj
  · rfl
  rcases vs with _ | ⟨w, ws⟩
  · simp [preadvFill]
  dsimp only
  simp only [sizeSum_eq, Nat.mod_eq_of_lt hsum, Bool.not_true, Bool.false_eq_true, if_false]
  rcases fdNumber obj with _ | _
  · rfl
  rcases fdObjectRelease sys' fo with _ | sys''
  · rfl
  rcases pread ((v :: w :: ws).map List.length).sum with _ | data
  · rfl
  simp only [bind, Except.bind, scatterLoop_blank _ _ hsum]
  rfl

theorem sysFdPreadEmulated_eq_oneFile :
    sysFdPreadEmulated default oneFile 0 [[none], [none, none]] true (fun _ => .ok [7, 8, 9]) =
      fdObjectCall oneFile 0 ((default : RightsMasks).fdRead ||| (default : RightsMasks).fdSeek)
        fun _ => .ok (3, [[some 7], [some 8, some 9]]) :=
  (sysFdPreadEmulated_eq default oneFile 0 _ _ (by decide)).trans rfl

theorem two_le_of_sum_wraps {iov : List Bytes} (hlen : ∀ v ∈ iov, v.length < 2 ^ 64)
    (hsum : 2 ^ 64 ≤ (iov.map List.length).sum) : ∃ v w ws, iov = v :: w :: ws := by
  match iov, hlen, hsum with
  | [], _, hsum => simp at hsum
  | [v], hlen, hsum =>
    have := hlen v (List.mem_singleton_self v)
    simp only [List.map_cons, List.map_nil, List.sum_cons, List.sum_nil, Nat.add_zero] at hsum
    omega
  | v :: w :: ws, _, _ => exact ⟨v, w, ws, rfl⟩

/-- When the `size_t` lengths sum to `2^64` or more, `sys_fd_pwrite` without `pwritev` does not
fail with an error: once the lookup and `malloc` succeed, the gather loop copies the unwrapped
lengths into a bounce buffer of the wrapped size, past its end. -/
theorem sysFdPwriteEmulated_wraps {fe : FdEntry} {obj : FdObject}
    (hocc : sys.table.entries[fd]? = some (some fe))
    (hb : (m.fdWrite ||| m.fdSeek).Subset fe.rightsBase) (hobj : sys.objects fe.object = some obj)
    (iov : List Bytes) (pwrite : Bytes → Except Errno Nat) (hlen : ∀ v ∈ iov, v.length < 2 ^ 64)
    (hsum : 2 ^ 64 ≤ (iov.map List.length).sum) :
    sysFdPwriteEmulated m sys fd iov true pwrite = .error .outOfBounds := by
  obtain ⟨v, w, ws, rfl⟩ := two_le_of_sum_wraps hlen hsum
  have hover := gatherLoop_overflow (v :: w :: ws)
    (List.replicate (sizeSum ((v :: w :: ws).map List.length)) none) 0 (Nat.zero_le _)
    (by simp only [List.length_replicate, sizeSum_eq]; omega)
    (by simp only [List.length_replicate, sizeSum_eq]; omega)
  simp only [sysFdPwriteEmulated, fdObjectGetLocked,
    fdTableGetEntry_of_subset hocc hb (Rights.zero_subset _), refcountAcquire, hobj, bind,
    Except.bind, pure, Except.pure, Sys.setObject_objects, if_true, reduceCtorEq, if_false,
    Bool.not_true, Bool.false_eq_true, hover]

end Emulation

theorem sysFdPwriteEmulated_wraps_halves :
    sysFdPwriteEmulated default oneFile 0 [List.replicate (2 ^ 63) none, List.replicate (2 ^ 63) none]
      true (fun _ => .ok 0) = .error .outOfBounds :=
  sysFdPwriteEmulated_wraps default oneFile 0 rfl (by decide) rfl _ _
    (by
      simp only [List.forall_mem_cons, List.length_replicate]
      exact ⟨by omega, by omega, nofun⟩)
    (by
      simp only [List.map_cons, List.map_nil, List.length_replicate, List.sum_cons, List.sum_nil]
      omega)

end CloudabiEmulator
