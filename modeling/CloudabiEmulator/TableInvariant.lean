import CloudabiEmulator.TableSpec

/-! The representation invariant of the descriptor table over whole runs: it holds of
`fd_table_init`, and every operation that completes keeps it, so it holds in every reachable
state. On the calls the operations make from such states, the assertions of
`fd_table_attach`, `fd_table_detach` and `fd_table_unused` hold. -/

namespace CloudabiEmulator

open FdTable

/-- What an operation may end in from a table with the invariant: a fault that is not one of
the table's assertions, or a table with the invariant whose occupied slots are the old ones
without `lost`, plus the slots `gained` of its result, distinct and free before. -/
def Keeps {α : Type} (sys : Sys) (lost : Option Nat) (gained : α → List Nat) :
    Except Fault (Sys × α) → Prop
  | .error f => f.isTableAssertion = false
  | .ok (sys', r) => sys'.table.Wf ∧ (gained r).Nodup ∧ (∀ i ∈ gained r, ¬ sys.table.Occupied i) ∧
      ∀ i, sys'.table.Occupied i ↔ (sys.table.Occupied i ∧ lost ≠ some i) ∨ i ∈ gained r

theorem Keeps.map {β : Type} {x : Except Fault (Sys × β)} {g : β → List Nat}
    (h : Keeps sys lost g x) : Keeps sys lost id (x.map fun p => (p.1, g p.2)) := by
  cases x <;> exact h

theorem Keeps.of_table {α : Type} {sys sys' : Sys} {lost : Option Nat} {gained : α → List Nat}
    {x : Except Fault (Sys × α)} (ht : sys'.table = sys.table) (h : Keeps sys' lost gained x) :
    Keeps sys lost gained x := by
  unfold Keeps at *
  rw [← ht]
  exact h

/-- An operation that leaves the table as it found it. -/
theorem Keeps.unchanged {α : Type} {sys sys' : Sys} {lost : Option Nat} {gained : α → List Nat}
    {r : α} (hw : sys.table.Wf) (ht : sys'.table = sys.table) (hg : gained r = [])
    (hlost : ∀ i, lost = some i → ¬ sys.table.Occupied i) :
    Keeps sys lost gained (.ok (sys', r)) := by
  refine ⟨ht ▸ hw, by simp [hg], by simp [hg], fun i => ?_⟩
  rw [ht, hg]
  by_cases h : lost = some i
  · simp [h, hlost i h]
  · simp [h]

section Keeps

variable {α : Type} {sys : Sys} {lost : Option Nat} {gained : α → List Nat}

theorem Keeps.bind_release {s0 : Sys} {o : Nat} {k : Sys → Except Fault (Sys × α)}
    (h : ∀ s, s.table = s0.table → Keeps sys lost gained (k s)) :
    Keeps sys lost gained (fdObjectRelease s0 o >>= k) := by
  cases hrel : fdObjectRelease s0 o with
  | error f => exact fdObjectRelease_fault hrel
  | ok s => exact h s (fdObjectRelease_table hrel)

theorem Keeps.of_ok {sys' : Sys} {r : α} (hw : sys'.table.Wf) (hnodup : (gained r).Nodup)
    (hfree : ∀ i ∈ gained r, ¬ sys.table.Occupied i)
    (hocc : ∀ i, sys'.table.Occupied i ↔ (sys.table.Occupied i ∧ lost ≠ some i) ∨ i ∈ gained r) :
    Keeps sys lost gained (.ok (sys', r)) :=
  And.intro hw ⟨hnodup, hfree, hocc⟩

end Keeps

section Ops

variable {sys : Sys}

theorem fdTableInsert_keeps (hw : sys.table.Wf) (fo : Nat) (rightsBase rightsInheriting : Rights)
    (reallocOk : Bool) (draws : List Nat) :
    Keeps sys none (fun r => r.toOption.toList)
      (fdTableInsert sys fo rightsBase rightsInheriting reallocOk draws) := by
  unfold fdTableInsert
  rcases fdTableInsertLocked_cases hw fo rightsBase rightsInheriting reallocOk draws with
    h | ⟨-, h⟩ | ⟨tg, fd, hg, hfree, h⟩ <;> rw [h]
  · rfl
  · exact Keeps.bind_release fun s hs => Keeps.unchanged hw hs rfl (by simp)
  · obtain ⟨hw', -, -, hroom, hocc⟩ := hw.grow hg
    exact Keeps.of_ok (hw'.put hfree hroom _) (by simp [Except.toOption])
      (by simpa [Except.toOption, ← hocc] using not_occupied_of_free hfree)
      fun i => by simp [Except.toOption, occupied_put (lt_size_of_getElem? hfree), hocc, eq_comm]

theorem fdTableInsertFd_keeps (hw : sys.table.Wf) (nfd : Int) (type : FileType)
    (rightsBase rightsInheriting : Rights) (mallocOk reallocOk : Bool) (draws : List Nat) :
    Keeps sys none (fun r => r.toOption.toList)
      (fdTableInsertFd sys nfd type rightsBase rightsInheriting mallocOk reallocOk draws) := by
  unfold fdTableInsertFd
  split
  · exact Keeps.unchanged hw rfl rfl (by simp)
  · next sys' fo hnew =>
    have ht : (sys'.setNumber fo nfd).table = sys.table := by simp [fdObjectNew_table hnew]
    exact Keeps.of_table ht (fdTableInsert_keeps (ht ▸ hw) _ _ _ _ _)

/-- The slots of a successful `fd_table_insert_fdpair`. -/
def pairSlots : Except Errno (Nat × Nat) → List Nat
  | .ok (fd1, fd2) => [fd1, fd2]
  | .error _ => []

/-- `fd_table_insert_fdpair` returns two distinct slots that were free: the second is picked
on the table where the first is already taken. -/
theorem fdTableInsertFdpair_keeps (hw : sys.table.Wf) (nfd1 nfd2 : Int) (type : FileType)
    (rightsBase1 rightsBase2 rightsInheriting : Rights) (malloc1Ok malloc2Ok reallocOk : Bool)
    (draws : List Nat) :
    Keeps sys none pairSlots (fdTableInsertFdpair sys nfd1 nfd2 type rightsBase1 rightsBase2
      rightsInheriting malloc1Ok malloc2Ok reallocOk draws) := by
  unfold fdTableInsertFdpair
  split
  · exact Keeps.unchanged hw rfl rfl (by simp)
  · next sys1 fo1 hnew1 =>
    have ht1 := fdObjectNew_table hnew1
    dsimp only
    split
    · exact Keeps.bind_release fun s hs => Keeps.unchanged hw (by simp [hs, ht1]) rfl (by simp)
    · next sys2 fo2 hnew2 =>
      have ht2 : sys2.table = sys.table := by simp [fdObjectNew_table hnew2, ht1]
      rw [Sys.setNumber_table, ht2]
      rcases fdTableInsertFdpairLocked_cases hw fo1 fo2 rightsBase1 rightsBase2 rightsInheriting
        reallocOk draws with h | ⟨-, h⟩ | ⟨tg, fd1, fd2, hg, hfree1, hfree2, h⟩ <;> rw [h]
      · rfl
      · exact Keeps.bind_release fun s hs => Keeps.bind_release fun s' hs' =>
          Keeps.unchanged hw (by simp [hs', hs, ht2]) rfl (by simp)
      · obtain ⟨hw', -, -, hroom, hocc⟩ := hw.grow hg
        have hlt1 := lt_size_of_getElem? hfree1
        have hw1 := hw'.put hfree1 (by omega) ⟨fo1, rightsBase1, rightsInheriting⟩
        have h2 := not_occupied_of_free hfree2
        rw [occupied_put hlt1, not_or, hocc] at h2
        refine Keeps.of_ok (hw1.put hfree2 (by simp; omega) _) ?_ ?_ fun i => ?_
        · simpa [pairSlots] using Ne.symm h2.2
        · have h1 := not_occupied_of_free hfree1
          rw [hocc] at h1
          simp [pairSlots, h1, h2.1]
        · simp [pairSlots, occupied_put (lt_size_of_getElem? hfree2), occupied_put hlt1, hocc,
            or_assoc]

theorem fdTableInsertExisting_keeps (m : RightsMasks) (hw : sys.table.Wf) {slot : Nat}
    (hslot : ¬ sys.table.Occupied slot) (out : Int) (info : HostFdInfo)
    (mallocOk reallocOk : Bool) :
    Keeps sys none (fun ok => if ok then [slot] else [])
      (fdTableInsertExisting m sys slot out info mallocOk reallocOk) := by
  unfold fdTableInsertExisting
  split
  · exact Keeps.unchanged hw rfl rfl (by simp)
  · split
    · exact Keeps.unchanged hw rfl rfl (by simp)
    · next sys1 fo hnew =>
      have ht := fdObjectNew_table hnew
      dsimp only
      rw [Sys.setNumber_table, ht]
      rcases fdTableInsertExistingLocked_cases hw hslot fo _ _ reallocOk with
        ⟨-, h⟩ | ⟨tg, hg, hfree, h⟩ <;> rw [h]
      · exact Keeps.bind_release fun s hs => Keeps.unchanged hw (by simp [hs, ht]) rfl (by simp)
      · obtain ⟨hw', -, -, hroom, hocc⟩ := hw.grow hg
        exact Keeps.of_ok (hw'.put hfree hroom _) (by simp) (by simpa using hslot)
          fun i => by simp [occupied_put (lt_size_of_getElem? hfree), hocc]

theorem sysFdClose_keeps (hw : sys.table.Wf) (fd : Nat) :
    Keeps sys (some fd) (fun _ => []) (sysFdClose sys fd) := by
  unfold sysFdClose
  rcases sysFdCloseLocked_cases hw fd with ⟨hnot, e, h⟩ | ⟨fe, hocc, h⟩ <;> rw [h]
  · exact Keeps.unchanged hw rfl rfl fun i hi => by cases hi; exact hnot
  · exact Keeps.bind_release fun s hs => Keeps.of_ok (by rw [hs]; exact hw.clear hocc)
      (by simp) (by simp) fun i => by simp [hs, occupied_clear (lt_size_of_getElem? hocc), eq_comm]

/-- `sys_fd_dup` keeps the invariant. When the table has to grow, it ends in a fault. -/
theorem sysFdDup_keeps (hw : sys.table.Wf) (src : Nat) (reallocOk : Bool) (draws : List Nat) :
    Keeps sys none (fun r => r.toOption.toList) (sysFdDup sys src reallocOk draws) := by
  rcases sysFdDup_cases hw src reallocOk draws with
    ⟨e, h⟩ | ⟨f, h, hf⟩ | ⟨fe, fd, sys1, -, hfree, hroom, -, h⟩ <;> rw [h]
  · exact Keeps.unchanged hw rfl rfl (by simp)
  · exact hf
  · exact Keeps.of_ok (hw.put hfree hroom fe) (by simp [Except.toOption])
      (by simpa [Except.toOption] using not_occupied_of_free hfree)
      fun i => by simp [Except.toOption, occupied_put (lt_size_of_getElem? hfree), eq_comm]

/-- `sys_fd_replace` keeps the invariant and the set of occupied slots. -/
theorem sysFdReplace_keeps (hw : sys.table.Wf) (src dst : Nat) :
    Keeps sys none (fun _ => []) (sysFdReplace sys src dst) := by
  unfold sysFdReplace
  rcases sysFdReplaceLocked_cases hw src dst with
    ⟨e, h, -⟩ | ⟨f, h, hf⟩ | ⟨feS, feD, sys1, -, hD, -, -, h⟩ <;> rw [h]
  · exact Keeps.unchanged hw rfl rfl (by simp)
  · exact hf
  · have hlt := lt_size_of_getElem? hD
    have hfree : (sys.table.clear dst).entries[dst]? = some none := by simp [getElem?_clear hlt]
    have hroom : ((sys.table.clear dst).used + 1) * 2 ≤ (sys.table.clear dst).size := by
      have := hw.half_free
      have := hw.used_pos hD
      simp only [used_clear, size_clear]
      omega
    have hdst : sys.table.Occupied dst := ⟨feD, hD⟩
    exact Keeps.bind_release fun s hs =>
      Keeps.of_ok (by rw [hs]; exact (hw.clear hD).put hfree hroom _)
      (by simp) (by simp) fun i => by
        simp only [hs, occupied_put (lt_size_of_getElem? hfree), occupied_clear hlt,
          List.not_mem_nil, or_false]
        by_cases hi : i = dst
        · simp [hi, hdst]
        · simp [hi]

/-- The rights branch of `sys_fd_stat_put` only rewrites the rights of an occupied slot. -/
theorem sysFdStatPutRights_keeps (hw : sys.table.Wf) (fd : Nat) (base inheriting : Rights) :
    Keeps sys none (fun _ => []) (sysFdStatPutRights sys fd base inheriting) := by
  rcases sysFdStatPutRights_cases sys fd base inheriting with
    ⟨e, h⟩ | ⟨fe, hocc, -, -, h⟩ <;> rw [h]
  · exact Keeps.unchanged hw rfl rfl (by simp)
  · exact Keeps.of_ok (hw.update hocc _) (by simp) (by simp)
      fun i => by simp [occupied_update ⟨fe, hocc⟩]

theorem fdObjectGetLocked_keeps (hw : sys.table.Wf) (fd : Nat)
    (rightsBase rightsInheriting : Rights) :
    Keeps sys none (fun _ => []) (fdObjectGetLocked sys fd rightsBase rightsInheriting) := by
  rcases fdObjectGetLocked_cases sys fd rightsBase rightsInheriting with
    ⟨e, h⟩ | ⟨f, h, hf⟩ | ⟨fe, sys1, -, -, -, hacq, h⟩ <;> rw [h]
  · exact Keeps.unchanged hw rfl rfl (by simp)
  · exact hf
  · exact Keeps.unchanged hw (refcountAcquire_table hacq) rfl (by simp)

end Ops

/-- The operations on the table, each with the host's answers it depends on: whether `malloc`
and `realloc` succeed, and the random draws of `fd_table_unused`. -/
inductive TableOp where
  | insertExisting (slot : Nat) (out : Int) (info : HostFdInfo) (mallocOk reallocOk : Bool)
  | insertFd (nfd : Int) (type : FileType) (rightsBase rightsInheriting : Rights)
      (mallocOk reallocOk : Bool) (draws : List Nat)
  | insertFdpair (nfd1 nfd2 : Int) (type : FileType)
      (rightsBase1 rightsBase2 rightsInheriting : Rights) (malloc1Ok malloc2Ok reallocOk : Bool)
      (draws : List Nat)
  | dup (src : Nat) (reallocOk : Bool) (draws : List Nat)
  | replace (src dst : Nat)
  | close (fd : Nat)
  | statPutRights (fd : Nat) (base inheriting : Rights)
  | get (fd : Nat) (rightsBase rightsInheriting : Rights)

namespace TableOp

/-- The slot a `sys_fd_close` names. -/
def closes : TableOp → Option Nat
  | .close fd => some fd
  | _ => none

/-- The operation, with the slots its result hands out. -/
def apply (m : RightsMasks) (sys : Sys) : TableOp → Except Fault (Sys × List Nat)
  | .insertExisting slot out info mallocOk reallocOk =>
    (fdTableInsertExisting m sys slot out info mallocOk reallocOk).map fun p =>
      (p.1, if p.2 then [slot] else [])
  | .insertFd nfd type rightsBase rightsInheriting mallocOk reallocOk draws =>
    (fdTableInsertFd sys nfd type rightsBase rightsInheriting mallocOk reallocOk draws).map fun p =>
      (p.1, p.2.toOption.toList)
  | .insertFdpair nfd1 nfd2 type rightsBase1 rightsBase2 rightsInheriting malloc1Ok malloc2Ok
      reallocOk draws =>
    (fdTableInsertFdpair sys nfd1 nfd2 type rightsBase1 rightsBase2 rightsInheriting malloc1Ok
      malloc2Ok reallocOk draws).map fun p => (p.1, pairSlots p.2)
  | .dup src reallocOk draws =>
    (sysFdDup sys src reallocOk draws).map fun p => (p.1, p.2.toOption.toList)
  | .replace src dst => (sysFdReplace sys src dst).map fun p => (p.1, [])
  | .close fd => (sysFdClose sys fd).map fun p => (p.1, [])
  | .statPutRights fd base inheriting =>
    (sysFdStatPutRights sys fd base inheriting).map fun p => (p.1, [])
  | .get fd rightsBase rightsInheriting =>
    (fdObjectGetLocked sys fd rightsBase rightsInheriting).map fun p => (p.1, [])

/-- `fd_table_insert_existing` is only called on a number that is not occupied. -/
def Allowed (sys : Sys) : TableOp → Prop
  | .insertExisting slot .. => ¬ sys.table.Occupied slot
  | _ => True

theorem closes_ne_iff (op : TableOp) (i : Nat) : op.closes ≠ some i ↔ op ≠ .close i := by
  cases op <;> simp [closes]

/-- Every operation keeps the invariant: the step lemma. -/
theorem apply_keeps (m : RightsMasks) {sys : Sys} {op : TableOp} (hw : sys.table.Wf)
    (hop : op.Allowed sys) : Keeps sys op.closes id (op.apply m sys) := by
  cases op with
  | insertExisting => exact (fdTableInsertExisting_keeps m hw hop _ _ _ _).map
  | insertFd => exact (fdTableInsertFd_keeps hw _ _ _ _ _ _ _).map
  | insertFdpair => exact (fdTableInsertFdpair_keeps hw _ _ _ _ _ _ _ _ _ _).map
  | dup => exact (sysFdDup_keeps hw _ _ _).map
  | replace => exact (sysFdReplace_keeps hw _ _).map
  | close => exact (sysFdClose_keeps hw _).map
  | statPutRights => exact (sysFdStatPutRights_keeps hw _ _ _).map
  | get => exact (fdObjectGetLocked_keeps hw _ _ _).map

end TableOp

/-- The states reachable from `fd_table_init` by operations that complete. -/
inductive Reachable (m : RightsMasks) : Sys → Prop
  | init : Reachable m Sys.init
  | step {sys sys' : Sys} {op : TableOp} {slots : List Nat} : Reachable m sys → op.Allowed sys →
      op.apply m sys = .ok (sys', slots) → Reachable m sys'

/-- The run lemma: every reachable table has the invariant. -/
theorem Reachable.wf {m : RightsMasks} {sys : Sys} (h : Reachable m sys) : sys.table.Wf := by
  induction h with
  | init => exact init_wf
  | step _ hop happ ih =>
    have := TableOp.apply_keeps m ih hop
    rw [happ] at this
    exact this.1

/-- The representation invariant of the table holds in every state reachable from
`fd_table_init`; no operation fails an assertion of the table; `fd_table_unused` returns an empty
slot below `size`; and an operation hands out distinct free slots and changes no other occupied
slot than the one `sys_fd_close` names. -/
theorem table_invariant (m : RightsMasks) :
    (∀ sys, Reachable m sys → sys.table.Wf) ∧
    (∀ sys (op : TableOp), Reachable m sys → op.Allowed sys →
      ∀ f, op.apply m sys = .error f → f.isTableAssertion = false) ∧
    (∀ t draws fd rest, fdTableUnused t draws = .ok (fd, rest) →
      fd < t.size ∧ t.entries[fd]? = some none) ∧
    (∀ sys (op : TableOp) sys' slots, Reachable m sys → op.Allowed sys →
      op.apply m sys = .ok (sys', slots) →
      slots.Nodup ∧ (∀ i ∈ slots, ¬ sys.table.Occupied i) ∧
      ∀ i, sys'.table.Occupied i ↔ (sys.table.Occupied i ∧ op ≠ .close i) ∨ i ∈ slots) := by
  refine ⟨fun _ h => h.wf, fun sys op h hop f hf => ?_, fun _ _ _ _ => fdTableUnused_free,
    fun sys op sys' slots h hop hok => ?_⟩
  · have := TableOp.apply_keeps m h.wf hop
    rw [hf] at this
    exact this
  · have := TableOp.apply_keeps m h.wf hop
    rw [hok] at this
    obtain ⟨-, hnodup, hfree, hocc⟩ := this
    exact ⟨hnodup, hfree, fun i => by simpa [TableOp.closes_ne_iff] using hocc i⟩

/-- `sys_fd_replace(x, x)` on an occupied slot: `fe_from` and `fe_to` are the same entry, whose
object `fd_table_detach` has just set to `NULL`, and `refcount_acquire` dereferences it. -/
theorem sysFdReplace_self_nullDeref {sys : Sys} {x : Nat} (hw : sys.table.Wf)
    (hx : sys.table.Occupied x) : sysFdReplace sys x x = .error .nullDeref := by
  obtain ⟨fe, hocc⟩ := hx
  simp only [sysFdReplace, sysFdReplaceLocked, fdTableGetEntry_of_occupied hocc,
    fdTableDetach_ok hw hocc]
  simp [getElem?_clear (lt_size_of_getElem? hocc), refcountAcquire, bind, Except.bind]

/-- The process after one `fd_table_insert_fd` of host descriptor `3`, a regular file, into a
fresh table, with the draw `0`. -/
def oneFile : Sys :=
  ⟨⟨[some ⟨0, 0, 0⟩, none], 1⟩, fun o => if o = 0 then some ⟨1, .regularFile, 3, false⟩ else none,
    1, []⟩

theorem sysFdReplace_self_oneFile :
    oneFile.table.Wf ∧ oneFile.table.Occupied 0 ∧ sysFdReplace oneFile 0 0 = .error .nullDeref :=
  ⟨⟨rfl, by decide⟩, ⟨_, rfl⟩, sysFdReplace_self_nullDeref ⟨rfl, by decide⟩ ⟨_, rfl⟩⟩

/-- `sys_fd_dup` on a table that has to grow: `fd_table_grow` reallocates the array that `fe`
points into, and the code then reads `fe->object` and `fe`'s rights through the stale
pointer. -/
theorem sysFdDup_grow_useAfterFree {sys : Sys} {src : Nat} {draws : List Nat}
    (hocc : sys.table.Occupied src) (hfull : sys.table.size < (sys.table.used + 1) * 2) :
    sysFdDup sys src true draws = .error .useAfterFree := by
  obtain ⟨fe, hfe⟩ := hocc
  obtain ⟨tg, hg⟩ : ∃ tg, fdTableGrow sys.table 0 1 true = some tg := by
    unfold fdTableGrow
    split <;> simp
  have hsize := (fdTableGrow_spec hg).2.2
  simp only [sysFdDup, fdTableGetEntry_of_occupied hfe, hg]
  rw [if_pos (by omega)]

example : sysFdDup oneFile 0 true [] = .error .useAfterFree :=
  sysFdDup_grow_useAfterFree ⟨_, rfl⟩ (by decide)

end CloudabiEmulator
