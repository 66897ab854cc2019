import CloudabiEmulator.ObjectCallSpec

/-! `sys_sock_send` from the states the threads reach, with `0 < si_fds_len < 2^61` (so neither
buffer size wraps) and both allocations granted: it is its read-only contract `sendLookup` then
`objectCallSpec`. The descriptors in the message are those of the objects of `si_fds`, looked up
with no right asked; the first descriptor not in the table, or whose object has no host
descriptor, makes the call answer `EBADF`; and every reference the loop took is given back, so the
process is as it was. The proof follows the loop with the process it leaves, `Sys.bump`: the
process whose counts are raised by the references the thread holds. -/

namespace CloudabiEmulator

open World

/-- The process while a thread holds the references `fos` it took: the count of each object
raised by its number of occurrences in `fos`. -/
def Sys.bump (sys : Sys) (fos : List Nat) : Sys :=
  { sys with objects := fun o => (sys.objects o).map fun obj =>
      { obj with refcount := obj.refcount + fos.count o } }

namespace Sys

variable {sys : Sys} {fos : List Nat}

@[simp] theorem bump_table : (sys.bump fos).table = sys.table := rfl

theorem bump_nil (sys : Sys) : sys.bump [] = sys := by
  obtain ⟨table, objects, nextObject, closed⟩ := sys
  simp only [bump, List.count_nil, Nat.add_zero, mk.injEq, true_and, and_true]
  funext o
  cases objects o <;> rfl

theorem bump_objects (o : Nat) : (sys.bump fos).objects o =
    (sys.objects o).map fun obj => { obj with refcount := obj.refcount + fos.count o } := rfl

theorem bump_acquire {fo : Nat} {obj : FdObject} (hobj : sys.objects fo = some obj) :
    (sys.bump fos).setObject fo
      (some { obj with refcount := obj.refcount + fos.count fo + 1 }) = sys.bump (fos ++ [fo]) := by
  simp only [setObject, bump, mk.injEq, true_and, and_true]
  funext o
  by_cases h : o = fo
  · subst h
    simp [hobj, List.count_append, Nat.add_assoc]
  · simp [h, List.count_append, List.count_singleton', Ne.symm h]

theorem bump_release {fo : Nat} {obj : FdObject} (hobj : sys.objects fo = some obj)
    (hpos : 0 < obj.refcount) : fdObjectRelease (sys.bump (fo :: fos)) fo = .ok (sys.bump fos) := by
  have hne : obj.refcount + (fo :: fos).count fo ≠ 1 := by simp; omega
  simp only [fdObjectRelease, bump_objects, hobj, Option.map_some', hne, if_false]
  congr 1
  simp only [setObject, bump, mk.injEq, true_and, and_true]
  funext o
  by_cases h : o = fo
  · subst h
    simp [hobj]
  · simp [h, List.count_cons, Ne.symm h]

end Sys

/-- `fd_object_get_locked` while a thread holds `fos`: the lookup in the table, and one reference
more on the object it finds. -/
theorem fdObjectGetLocked_bump (sys : Sys) (fos : List Nat) (fd : Nat) (rb ri : Rights) :
    fdObjectGetLocked (sys.bump fos) fd rb ri =
      match fdTableGetEntry sys.table fd rb ri with
      | .error e => .ok (sys.bump fos, .error e)
      | .ok fe =>
        match sys.objects fe.object with
        | none => .error .useAfterFree
        | some _ => .ok (sys.bump (fos ++ [fe.object]), .ok fe.object) := by
  unfold fdObjectGetLocked
  rw [Sys.bump_table]
  cases fdTableGetEntry sys.table fd rb ri with
  | error e => rfl
  | ok fe =>
    cases hobj : sys.objects fe.object with
    | none => simp [refcountAcquire, Sys.bump_objects, hobj, bind, Except.bind]
    | some obj =>
      simp [refcountAcquire, Sys.bump_objects, hobj, bind, Except.bind, pure, Except.pure,
        ← Sys.bump_acquire hobj]

/-- Releasing the references a thread holds gives back the process before it took them. -/
theorem releaseAll_bump {sys : Sys} {fos : List Nat}
    (hlive : ∀ fo ∈ fos, ∃ obj, sys.objects fo = some obj ∧ 0 < obj.refcount) :
    releaseAll (sys.bump fos) fos = .ok sys := by
  induction fos with
  | nil => exact congrArg Except.ok (Sys.bump_nil sys)
  | cons fo fos ih =>
    obtain ⟨obj, hobj, hpos⟩ := hlive fo (List.mem_cons_self fo fos)
    simp only [releaseAll, bind, Except.bind, Sys.bump_release hobj hpos]
    exact ih fun fo' h => hlive fo' (List.mem_cons_of_mem fo h)

theorem objectCallSpec_bump {α : Type} (sys : Sys) (fos : List Nat) (fd : Nat) (rightsBase : Rights)
    (host : FileType → Except Errno α) :
    objectCallSpec (sys.bump fos) fd rightsBase host =
      (objectCallSpec sys fd rightsBase host).map fun p => (sys.bump fos, p.2) := by
  unfold objectCallSpec
  simp only [Sys.bump_table]
  cases fdTableGetEntry sys.table fd rightsBase 0 with
  | error e => rfl
  | ok fe =>
    simp only [Sys.bump_objects]
    cases sys.objects fe.object with
    | none => rfl
    | some obj =>
      have hnum : fdNumber { obj with refcount := obj.refcount + fos.count fe.object } =
        fdNumber obj := rfl
      simp only [Option.map_some', hnum]
      cases fdNumber obj <;> rfl

/-- What `sys_sock_send` puts in its message, as its contract has it: the host descriptors of
the objects of `siFds i`, …, `siFds (i + n - 1)`, or `EBADF` at the first descriptor that names
no object, or an object without one. No right is asked of them. -/
def sendLookup (sys : Sys) (siFds : Nat → Nat) : (i n : Nat) → Except Errno (List Int)
  | _, 0 => .ok []
  | i, n + 1 =>
    match (sys.table.entries[siFds i]?).join.bind fun fe => sys.objects fe.object with
    | none => .error .ebadf
    | some obj =>
      if obj.number < 0 then .error .ebadf
      else (sendLookup sys siFds (i + 1) n).map (obj.number :: ·)

/-- The loop of `sys_sock_send` from a state where every slot's object is live, while the thread
already holds `acc`: it takes the references `fos`, and copies the descriptors `sendLookup`
names, or stops with its error. -/
theorem sockSendAcquire_bump {l : CmsgLayout} {siFds : Nat → Nat} {fosSize controllen : Nat}
    {sys : Sys} (hlive : ∀ (fd : Nat) (fe : FdEntry), sys.table.entries[fd]? = some (some fe) →
      ∃ obj, sys.objects fe.object = some obj) :
    ∀ (i n : Nat) (acc : List Nat), 8 * (i + n) ≤ fosSize → l.cmsgLen (4 * (i + n)) ≤ controllen →
    ∃ fos nums err, (∀ fo ∈ fos, ∃ obj, sys.objects fo = some obj) ∧
      sockSendAcquire l siFds fosSize controllen (sys.bump acc) i n =
        .ok (sys.bump (acc ++ fos), fos, nums, err) ∧
      ((err = none ∧ sendLookup sys siFds i n = .ok nums) ∨
        (err = some .ebadf ∧ sendLookup sys siFds i n = .error .ebadf))
  | i, 0, acc, _, _ => ⟨[], [], none, by simp, by simp [sockSendAcquire], .inl ⟨rfl, rfl⟩⟩
  | i, n + 1, acc, hfit, hctl => by
    cases hslot : sys.table.entries[siFds i]? with
    | none =>
      refine ⟨[], [], some .ebadf, by simp, ?_, .inr ⟨rfl, by simp [sendLookup, hslot]⟩⟩
      simp [sockSendAcquire, fdObjectGetLocked, fdTableGetEntry, hslot, bind, Except.bind, pure,
        Except.pure]
    | some x =>
      cases x with
      | none =>
        refine ⟨[], [], some .ebadf, by simp, ?_, .inr ⟨rfl, by simp [sendLookup, hslot]⟩⟩
        simp [sockSendAcquire, fdObjectGetLocked, fdTableGetEntry, hslot, bind, Except.bind, pure,
          Except.pure]
      | some fe =>
        obtain ⟨obj, hobj⟩ := hlive _ _ hslot
        have hocc : (sys.bump acc).table.entries[siFds i]? = some (some fe) := hslot
        have hget : fdObjectGetLocked (sys.bump acc) (siFds i) 0 0 =
            .ok (sys.bump (acc ++ [fe.object]), .ok fe.object) := by
          rw [← Sys.bump_acquire hobj]
          exact fdObjectGetLocked_of_live hocc (Rights.zero_subset _) (Rights.zero_subset _)
            (show (sys.bump acc).objects fe.object =
              some { obj with refcount := obj.refcount + acc.count fe.object } by
                simp [Sys.bump_objects, hobj])
        simp only [sockSendAcquire, hget, bind, Except.bind]
        rw [if_neg (show ¬ fosSize < 8 * (i + 1) by omega)]
        simp only [Sys.bump_objects, hobj, Option.map_some']
        by_cases hneg : obj.number < 0
        · rw [if_pos hneg]
          exact ⟨[fe.object], [], some .ebadf, by simp [hobj], rfl,
            .inr ⟨rfl, by simp [sendLookup, hslot, hobj, hneg]⟩⟩
        · rw [if_neg hneg, if_neg (show ¬ controllen < l.cmsgLen (4 * (i + 1)) by
            simp only [CmsgLayout.cmsgLen] at hctl ⊢; omega)]
          obtain ⟨fos, nums, err, hfos, hrec, hspec⟩ :=
            @sockSendAcquire_bump l siFds fosSize controllen sys hlive (i + 1) n (acc ++ [fe.object])
              (by omega) (by simp only [CmsgLayout.cmsgLen] at hctl ⊢; omega)
          rw [hrec]
          refine ⟨fe.object :: fos, obj.number :: nums, err, ?_, by simp [pure, Except.pure], ?_⟩
          · simp only [List.mem_cons, forall_eq_or_imp, hobj]
            exact ⟨⟨obj, rfl⟩, hfos⟩
          · simp only [sendLookup, hslot, Option.join, Option.bind_some, hobj, if_neg hneg]
            rcases hspec with ⟨rfl, hs⟩ | ⟨rfl, hs⟩ <;> simp [hs, hobj, hneg, Except.map]

theorem Sys.bump_refcount_pos {sys : Sys} (fos : List Nat)
    (hpos : ∀ o obj, sys.objects o = some obj → 0 < obj.refcount) :
    ∀ o obj, (sys.bump fos).objects o = some obj → 0 < obj.refcount := by
  intro o obj h
  simp only [Sys.bump_objects, Option.map_eq_some'] at h
  obtain ⟨obj0, h0, rfl⟩ := h
  exact Nat.lt_of_lt_of_le (hpos _ _ h0) (Nat.le_add_right _ _)

theorem objectCallSpec_sys {α : Type} {sys : Sys} {fd : Nat} {rightsBase : Rights}
    {host : FileType → Except Errno α} {p : Sys × Except Errno α}
    (h : objectCallSpec sys fd rightsBase host = .ok p) : p.1 = sys := by
  unfold objectCallSpec at h
  split at h
  · cases h; rfl
  · split at h
    · cases h
    · next obj _ =>
      cases hnum : fdNumber obj <;> rw [hnum] at h <;> cases h
      rfl

section Reachable

variable {w : World} (h : Relation.ReflTransGen Step World.init w)
include h

/-- From every state any interleaving reaches, `sys_sock_send` of `0 < n < 2^61` descriptors, with
both allocations granted, answers the `EBADF` of the lookup with the process unchanged, or sends
the host descriptors the lookup finds through `sock` as any call of the family does. -/
theorem sysSockSend_reachable (m : RightsMasks) (sock : Nat) (siFds : Nat → Nat) {n : Nat}
    (hn : 0 < n) (hsmall : n < 2 ^ 61) (sendmsg : List Int → Except Errno Nat) :
    sysSockSend m glibcLp64 w.sys sock siFds n true true sendmsg =
      match sendLookup w.sys siFds 0 n with
      | .error e => .ok (w.sys, .error e)
      | .ok nums => objectCallSpec w.sys sock m.fdWrite fun _ => sendmsg nums := by
  have hi := reachable_inv h
  have hpos : ∀ o obj, w.sys.objects o = some obj → 0 < obj.refcount :=
    fun _ _ => hi.refcount_pos
  have hlen : n * 4 % 2 ^ 64 = n * 4 := Nat.mod_eq_of_lt (by omega)
  have hspace : glibcLp64.cmsgSpace (n * 4) % 2 ^ 64 = glibcLp64.cmsgSpace (n * 4) := by
    simp only [CmsgLayout.cmsgSpace, CmsgLayout.cmsgAlign, glibcLp64]
    exact Nat.mod_eq_of_lt (by omega)
  have hfos : n * 8 % 2 ^ 64 = n * 8 := Nat.mod_eq_of_lt (by omega)
  obtain ⟨fos, nums, err, hlive, hloop, hspec⟩ :=
    @sockSendAcquire_bump glibcLp64 siFds (n * 8) (glibcLp64.cmsgSpace (n * 4)) w.sys
      (fun _ _ => hi.live_of_slot) 0 n [] (by omega)
      (by simp only [CmsgLayout.cmsgSpace, CmsgLayout.cmsgLen, CmsgLayout.cmsgAlign, glibcLp64]; omega)
  rw [Sys.bump_nil, List.nil_append] at hloop
  have hctl : ¬ glibcLp64.cmsgSpace (n * 4) < glibcLp64.hdrSize := by
    simp only [CmsgLayout.cmsgSpace, CmsgLayout.cmsgAlign, glibcLp64]; omega
  have hrel := releaseAll_bump fun fo hfo =>
    let ⟨obj, hobj⟩ := hlive fo hfo; ⟨obj, hobj, hpos _ _ hobj⟩
  simp only [sysSockSend, if_neg hn.ne', Bool.not_true, Bool.false_eq_true, if_false, hlen, hspace,
    if_neg hctl, hfos, hloop, bind, Except.bind]
  rcases hspec with ⟨rfl, hs⟩ | ⟨rfl, hs⟩
  · rw [fdObjectCall_eq_spec (Sys.bump_refcount_pos fos hpos), objectCallSpec_bump]
    simp only [hs]
    cases hc : objectCallSpec w.sys sock m.fdWrite fun _ => sendmsg nums with
    | error f => rfl
    | ok p =>
      obtain ⟨s, r⟩ := p
      obtain rfl : s = w.sys := objectCallSpec_sys hc
      simp only [Except.map, hrel, pure, Except.pure]
  · simp only [pure, Except.pure, hrel, hs]

omit h in
theorem sysSockSend_reachable_oneFile :
    sysSockSend default glibcLp64 oneFile 0 (fun _ => 0) 1 true true (fun _ => .ok 1) =
      objectCallSpec oneFile 0 (default : RightsMasks).fdWrite fun _ => .ok 1 :=
  (sysSockSend_reachable oneFile_world default 0 (fun _ => 0) (by decide) (by decide) _).trans rfl

end Reachable

end CloudabiEmulator
