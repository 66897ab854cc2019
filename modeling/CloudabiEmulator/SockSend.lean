import CloudabiEmulator.ObjectCalls
import CloudabiEmulator.ObjectLifetime
import CloudabiEmulator.SockRecv

/-! `sys_sock_send`. When descriptors are to be sent it allocates the control buffer,
`CMSG_SPACE(si_fds_len * sizeof(int))` bytes, and the array `fos` of `si_fds_len` object
pointers, both sizes computed in 64-bit `size_t`. Under the read lock it takes a reference to
the object of each descriptor, asking for no right, stores it in `fos[i]` and copies the
object's host descriptor into the control message; it stops at a descriptor not in the table,
or at an object with no host descriptor. Then it sends through `sock` like the other calls of
`ObjectCalls`, and at `out:` releases the `nfos` references it took. The sizes wrap: for
`si_fds_len = 2^62 + 1` both are a few bytes, and the loop stores past the end of `fos`. -/

namespace CloudabiEmulator

/-- The loop of `sys_sock_send` from index `i`, with `n` iterations left: the process, the
references taken (`fos[0..nfos)`), the host descriptors copied into the message, and the error
that stopped the loop. `fosSize` and `controllen` are the sizes of the two buffers; a store past
either is a fault. -/
def sockSendAcquire (l : CmsgLayout) (siFds : Nat → Nat) (fosSize controllen : Nat) (sys : Sys) :
    (i n : Nat) → Except Fault (Sys × List Nat × List Int × Option Errno)
  | _, 0 => .ok (sys, [], [], none)
  | i, n + 1 => do
    match ← fdObjectGetLocked sys (siFds i) 0 0 with
    | (sys, .error e) => return (sys, [], [], some e)
    | (sys, .ok fo) =>
      if fosSize < 8 * (i + 1) then .error .outOfBounds
      else
        match sys.objects fo with
        | none => .error .useAfterFree
        | some obj =>
          if obj.number < 0 then return (sys, [fo], [], some .ebadf)
          else if controllen < l.cmsgLen (4 * (i + 1)) then .error .outOfBounds
          else do
            let (sys, fos, nums, err) ← sockSendAcquire l siFds fosSize controllen sys (i + 1) n
            return (sys, fo :: fos, obj.number :: nums, err)

/-- `for (size_t i = 0; i < nfos; ++i) fd_object_release(fos[i])`. -/
def releaseAll (sys : Sys) : List Nat → Except Fault Sys
  | [] => .ok sys
  | fo :: fos => do releaseAll (← fdObjectRelease sys fo) fos

/-- `sys_sock_send` on the layout `l` of the host's C library: `siFds i` is `in->si_fds[i]`,
`callocOk` and `mallocOk` what the two allocations return, and `sendmsg` the host's answer for
the host descriptors in the control message. -/
def sysSockSend (m : RightsMasks) (l : CmsgLayout) (sys : Sys) (sock : Nat) (siFds : Nat → Nat)
    (siFdsLen : Nat) (callocOk mallocOk : Bool) (sendmsg : List Int → Except Errno Nat) :
    Except Fault (Sys × Except Errno Nat) :=
  if siFdsLen = 0 then fdObjectCall sys sock m.fdWrite fun _ => sendmsg []
  else if !callocOk then .ok (sys, .error .enomem)
  else if !mallocOk then .ok (sys, .error .enomem)
  else
    let controllen := l.cmsgSpace (siFdsLen * 4 % 2 ^ 64) % 2 ^ 64
    if controllen < l.hdrSize then .error .nullDeref
    else do
      let (sys, fos, nums, err) ←
        sockSendAcquire l siFds (siFdsLen * 8 % 2 ^ 64) controllen sys 0 siFdsLen
      let (sys, r) ← match err with
        | some e => pure (sys, .error e)
        | none => fdObjectCall sys sock m.fdWrite fun _ => sendmsg nums
      let sys ← releaseAll sys fos
      return (sys, r)

section Loop

variable {l : CmsgLayout} {siFds : Nat → Nat} {fosSize controllen : Nat} {sys sys' : Sys}
  {i n : Nat} {fos : List Nat} {nums : List Int} {err : Option Errno}

/-- What one iteration of the loop can do: stop at a descriptor not in the table, or take a
reference `fo` to a live object within the bounds of `fos`, then stop if the object has no host
descriptor and go on with its descriptor copied otherwise. -/
theorem sockSendAcquire_succ_cases
    (h : sockSendAcquire l siFds fosSize controllen sys i (n + 1) = .ok (sys', fos, nums, err)) :
    (∃ e, fdObjectGetLocked sys (siFds i) 0 0 = .ok (sys, .error e) ∧ sys' = sys ∧ fos = [] ∧
      nums = [] ∧ err = some e) ∨
    ∃ fo sys1 obj, fdObjectGetLocked sys (siFds i) 0 0 = .ok (sys1, .ok fo) ∧
      refcountAcquire sys (some fo) = .ok sys1 ∧ 8 * (i + 1) ≤ fosSize ∧
      sys1.objects fo = some obj ∧
      ((obj.number < 0 ∧ sys' = sys1 ∧ fos = [fo] ∧ nums = [] ∧ err = some .ebadf) ∨
       (0 ≤ obj.number ∧ l.cmsgLen (4 * (i + 1)) ≤ controllen ∧ ∃ fos' nums',
        sockSendAcquire l siFds fosSize controllen sys1 (i + 1) n = .ok (sys', fos', nums', err) ∧
        fos = fo :: fos' ∧ nums = obj.number :: nums')) := by
  simp only [sockSendAcquire, bind, Except.bind] at h
  rcases fdObjectGetLocked_cases sys (siFds i) 0 0 with
    ⟨e, hg⟩ | ⟨f, hg, -⟩ | ⟨fe, sys1, -, -, -, hacq, hg⟩ <;> rw [hg] at h
  · cases h
    exact .inl ⟨e, hg, rfl, rfl, rfl, rfl⟩
  · cases h
  · dsimp only at h
    split at h
    · cases h
    · next hfit =>
      split at h
      · cases h
      · next obj hobj =>
        refine .inr ⟨fe.object, sys1, obj, hg, hacq, by omega, hobj, ?_⟩
        split at h
        · next hneg =>
          cases h
          exact .inl ⟨hneg, rfl, rfl, rfl, rfl⟩
        · next hpos =>
          split at h
          · cases h
          · next hdata =>
            cases hrec : sockSendAcquire l siFds fosSize controllen sys1 (i + 1) n with
            | error => rw [hrec] at h; cases h
            | ok r =>
              obtain ⟨s, fos', nums', err'⟩ := r
              rw [hrec] at h
              cases h
              exact .inr ⟨by omega, by omega, fos', nums', rfl, rfl, rfl⟩

theorem sockSendAcquire_table
    (h : sockSendAcquire l siFds fosSize controllen sys i n = .ok (sys', fos, nums, err)) :
    sys'.table = sys.table := by
  induction n generalizing sys i fos nums with
  | zero => cases h; rfl
  | succ n ih =>
    rcases sockSendAcquire_succ_cases h with ⟨e, -, rfl, -⟩ |
      ⟨fo, sys1, obj, -, hacq, -, -, ⟨-, rfl, -⟩ | ⟨-, -, fos', nums', hrec, -⟩⟩
    · rfl
    · exact refcountAcquire_table hacq
    · exact (ih hrec).trans (refcountAcquire_table hacq)

end Loop

theorem releaseAll_table {sys sys' : Sys} {fos : List Nat} (h : releaseAll sys fos = .ok sys') :
    sys'.table = sys.table := by
  induction fos generalizing sys with
  | nil => cases h; rfl
  | cons fo fos ih =>
    obtain ⟨s, hrel, h⟩ := Except.bind_eq_ok h
    exact (ih h).trans (fdObjectRelease_table hrel)

/-- `sys_sock_send` computes the sizes of its two buffers in 64-bit `size_t`. For
`si_fds_len = 2^62 + 1` the control buffer gets `CMSG_SPACE(4)` bytes and `fos` 8: once the
first descriptor is copied, the loop stores the reference to the second object past the end
of `fos`. -/
theorem sysSockSend_overflows (m : RightsMasks) (sys : Sys) (sock : Nat) (siFds : Nat → Nat)
    (sendmsg : List Int → Except Errno Nat) {fe0 fe1 : FdEntry} {obj0 obj1 : FdObject}
    (hocc0 : sys.table.entries[siFds 0]? = some (some fe0))
    (hobj0 : sys.objects fe0.object = some obj0) (hnum : 0 ≤ obj0.number)
    (hocc1 : sys.table.entries[siFds 1]? = some (some fe1))
    (hobj1 : sys.objects fe1.object = some obj1) :
    sysSockSend m glibcLp64 sys sock siFds (2 ^ 62 + 1) true true sendmsg = .error .outOfBounds := by
  let sys1 := sys.setObject fe0.object (some { obj0 with refcount := obj0.refcount + 1 })
  have hget0 : fdObjectGetLocked sys (siFds 0) 0 0 = .ok (sys1, .ok fe0.object) :=
    fdObjectGetLocked_of_live hocc0 (Rights.zero_subset _) (Rights.zero_subset _) hobj0
  obtain ⟨obj1', hobj1'⟩ : ∃ obj1', sys1.objects fe1.object = some obj1' := by
    by_cases h : fe1.object = fe0.object <;> simp [sys1, h, hobj1]
  have hocc1' : sys1.table.entries[siFds 1]? = some (some fe1) := hocc1
  have hget1 := fdObjectGetLocked_of_live hocc1' (Rights.zero_subset _) (Rights.zero_subset _) hobj1'
  have hloop : sockSendAcquire glibcLp64 siFds 8 24 sys 0 (2 ^ 62 + 1) = .error .outOfBounds := by
    rw [sockSendAcquire.eq_2]
    simp only [hget0, bind, Except.bind, sys1, Sys.setObject_objects, if_true]
    rw [if_neg (by decide), if_neg (by omega), if_neg (by decide),
      show (2 : Nat) ^ 62 = 2 ^ 62 - 1 + 1 by decide, sockSendAcquire.eq_2]
    simp only [hget1, bind, Except.bind]
    rfl
  unfold sysSockSend
  rw [if_neg (by decide), if_neg (by decide), if_neg (by decide)]
  dsimp only
  rw [show glibcLp64.cmsgSpace ((2 ^ 62 + 1) * 4 % 2 ^ 64) % 2 ^ 64 = 24 by decide,
    show (2 ^ 62 + 1) * 8 % 2 ^ 64 = 8 by decide, if_neg (by decide), hloop]
  rfl

example : sysSockSend default glibcLp64
    ⟨⟨[some ⟨0, 0, 0⟩, none], 1⟩, fun o => if o = 0 then some ⟨1, .regularFile, 3, false⟩ else none,
      1, []⟩ 0 (fun _ => 0) (2 ^ 62 + 1) true true (fun _ => .ok 0) = .error .outOfBounds :=
  sysSockSend_overflows default _ 0 _ _ rfl rfl (by decide) rfl rfl

section Cases

variable {m : RightsMasks} {l : CmsgLayout} {sys sys' : Sys} {sock : Nat} {siFds : Nat → Nat}
  {siFdsLen : Nat} {callocOk mallocOk : Bool} {sendmsg : List Int → Except Errno Nat}
  {r : Except Errno Nat}

/-- What a `sys_sock_send` that returns did: the call of the family on `sock` with no descriptor
to send; a refused allocation, with the process untouched; or the loop taking the references
`fos`, the call on `sock` if it stopped on no error, and the release of `fos`. -/
theorem sysSockSend_cases
    (h : sysSockSend m l sys sock siFds siFdsLen callocOk mallocOk sendmsg = .ok (sys', r)) :
    fdObjectCall sys sock m.fdWrite (fun _ => sendmsg []) = .ok (sys', r) ∨ sys' = sys ∨
    ∃ fosSize controllen sys1 fos nums err sys2,
      sockSendAcquire l siFds fosSize controllen sys 0 siFdsLen = .ok (sys1, fos, nums, err) ∧
      ((err ≠ none ∧ sys2 = sys1) ∨ (err = none ∧
        ∃ r2, fdObjectCall sys1 sock m.fdWrite (fun _ => sendmsg nums) = .ok (sys2, r2))) ∧
      releaseAll sys2 fos = .ok sys' := by
  unfold sysSockSend at h
  split at h
  · exact .inl h
  split at h
  · cases h; exact .inr (.inl rfl)
  split at h
  · cases h; exact .inr (.inl rfl)
  dsimp only at h
  split at h
  · cases h
  obtain ⟨⟨s1, fos, nums, err⟩, hacq, h⟩ := Except.bind_eq_ok h
  cases err with
  | some e =>
    obtain ⟨_, hpure, h⟩ := Except.bind_eq_ok h
    cases hpure
    obtain ⟨s3, hrel, h⟩ := Except.bind_eq_ok h
    cases h
    exact .inr (.inr ⟨_, _, s1, fos, nums, _, s1, hacq, .inl ⟨nofun, rfl⟩, hrel⟩)
  | none =>
    obtain ⟨⟨s2, r2⟩, hmid, h⟩ := Except.bind_eq_ok h
    obtain ⟨s3, hrel, h⟩ := Except.bind_eq_ok h
    cases h
    exact .inr (.inr ⟨_, _, s1, fos, nums, _, s2, hacq, .inr ⟨rfl, r2, hmid⟩, hrel⟩)

/-- `sys_sock_send` leaves the table as it was. -/
theorem sysSockSend_table
    (h : sysSockSend m l sys sock siFds siFdsLen callocOk mallocOk sendmsg = .ok (sys', r)) :
    sys'.table = sys.table := by
  rcases sysSockSend_cases h with h | rfl | ⟨_, _, sys1, fos, _, _, sys2, hacq, hmid, hrel⟩
  · exact fdObjectCall_table h
  · rfl
  · rw [releaseAll_table hrel, ← sockSendAcquire_table hacq]
    rcases hmid with ⟨-, rfl⟩ | ⟨-, r2, hmid⟩
    · rfl
    · exact fdObjectCall_table hmid

end Cases

end CloudabiEmulator
