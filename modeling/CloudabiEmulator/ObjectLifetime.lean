import CloudabiEmulator.TableSpec
import Mathlib.Logic.Relation

/-! The lifetime of descriptor objects under every interleaving of threads. A `World` is the
process together with the references that in-flight system calls hold; each table-lock
critical section, each `fd_object_new`, each `fd_object_get` and each `fd_object_release` is
one atomic step. In every state reachable by any interleaving of steps, a live object's
reference count is the number of slots pointing to it plus the references held on it, and an
object is destroyed, its own host descriptor closed, exactly when that number drops to zero.
Every system call of the table is
a sequence of steps that ends holding exactly the references it started with.

`fd_object_get` looks the slot up and calls `refcount_acquire` under the read lock, which
excludes every step that changes the table; only other references' `refcount_acquire` and
`refcount_release` can come between the two, and they commute with it, so the pair is one
step. -/

namespace CloudabiEmulator

namespace FdTable

/-- Whether a slot's object is `o`. -/
def pointsTo (o : Nat) : Option FdEntry → Bool
  | some fe => decide (fe.object = o)
  | none => false

/-- The references the table holds on `o`: the slots whose object is `o`. -/
def slotRefs (t : FdTable) (o : Nat) : Nat := t.entries.countP (pointsTo o)

section Refs

variable {t : FdTable} {fd : Nat}

theorem slotRefs_put (hfree : t.entries[fd]? = some none) (e : FdEntry) (o : Nat) :
    (t.put fd e).slotRefs o = if e.object = o then t.slotRefs o + 1 else t.slotRefs o := by
  have := countP_set (p := pointsTo o) hfree (some e)
  simp only [pointsTo, Bool.toNat_false, add_zero] at this
  simp only [slotRefs, put, this]
  split <;> simp [*]

theorem slotRefs_clear {fe : FdEntry} (hocc : t.entries[fd]? = some (some fe)) (o : Nat) :
    (t.clear fd).slotRefs o + (if fe.object = o then 1 else 0) = t.slotRefs o := by
  have := countP_set (p := pointsTo o) hocc none
  simp only [pointsTo, Bool.toNat_false, add_zero] at this
  simp only [slotRefs, clear, ← this]
  split <;> simp [*]

theorem slotRefs_update {fe : FdEntry} (hocc : t.entries[fd]? = some (some fe)) {e : FdEntry}
    (he : e.object = fe.object) (o : Nat) : (t.update fd e).slotRefs o = t.slotRefs o := by
  have := countP_set (p := pointsTo o) hocc (some e)
  simp only [pointsTo, he, Nat.add_right_cancel_iff] at this
  exact this

theorem slotRefs_grow {t' : FdTable} {min incr : Nat} {reallocOk : Bool}
    (h : fdTableGrow t min incr reallocOk = some t') (o : Nat) : t'.slotRefs o = t.slotRefs o := by
  obtain ⟨⟨k, rfl⟩, -, -⟩ := fdTableGrow_spec h
  simp [slotRefs, List.countP_replicate, pointsTo]

theorem slotRefs_pos {fe : FdEntry} (hocc : t.entries[fd]? = some (some fe)) :
    0 < t.slotRefs fe.object :=
  List.countP_pos_iff.2 ⟨_, List.getElem?_mem hocc, by simp [pointsTo]⟩

end Refs

end FdTable

open FdTable

theorem refcountAcquire_spec {sys sys' : Sys} {o : Nat}
    (h : refcountAcquire sys (some o) = .ok sys') :
    ∃ obj, sys.objects o = some obj ∧
      sys' = sys.setObject o (some { obj with refcount := obj.refcount + 1 }) := by
  simp only [refcountAcquire] at h
  split at h
  · next obj hobj =>
    cases h
    exact ⟨obj, hobj, rfl⟩
  · cases h

/-- The descriptor `fd_object_release` gives back is the object's own: by `closedir` when a
directory stream was installed, by `close` otherwise. -/
theorem releaseClose_ok {obj : FdObject} {c : HostClose} (h : releaseClose obj = .ok c) :
    c = if obj.type = .directory ∧ obj.directoryHandle then .closedir obj.number
      else .close obj.number := by
  unfold releaseClose fdNumber at h
  split_ifs at h with hd <;> cases h <;> simp [hd]

/-- `fd_object_release` of a live object: it destroys the object, giving its descriptor back,
when the count drops from one, and lowers the count otherwise. -/
theorem fdObjectRelease_spec {sys sys' : Sys} {o : Nat} (h : fdObjectRelease sys o = .ok sys') :
    ∃ obj, sys.objects o = some obj ∧
      ((obj.refcount = 1 ∧ ∃ c, releaseClose obj = .ok c ∧
          sys' = { sys.setObject o none with closed := sys.closed ++ [c] }) ∨
       (obj.refcount ≠ 1 ∧
        sys' = sys.setObject o (some { obj with refcount := obj.refcount - 1 }))) := by
  unfold fdObjectRelease at h
  split at h
  · cases h
  · next obj hobj =>
    refine ⟨obj, hobj, ?_⟩
    split at h
    · next h1 =>
      cases hc : releaseClose obj <;> rw [hc] at h <;> cases h
      exact .inl ⟨h1, _, rfl, rfl⟩
    · next h1 =>
      cases h
      exact .inr ⟨h1, rfl⟩

/-- The process together with the references in-flight system calls hold, one entry per
reference: a lease from `fd_object_get`, an object `fd_object_new` made that is not yet in the
table, or an object `sys_fd_close` or `sys_fd_replace` detached and has not yet released. -/
structure World where
  sys : Sys
  held : List Nat

namespace World

/-- No thread in a system call, and no descriptor yet. -/
def init : World := ⟨Sys.init, []⟩

/-- The references to `o`: the slots pointing to it and the references held on it. -/
def refs (w : World) (o : Nat) : Nat := w.sys.table.slotRefs o + w.held.count o

/-- Object `o` is live exactly when something refers to it, and then its count is the number
of references to it. -/
def Consistent (w : World) (o : Nat) : Prop :=
  match w.sys.objects o with
  | some obj => obj.refcount = w.refs o ∧ 0 < obj.refcount
  | none => w.refs o = 0

/-- The lifetime invariant. -/
structure Inv (w : World) : Prop where
  table : w.sys.table.Wf
  consistent : ∀ o, w.Consistent o
  fresh : ∀ o, w.sys.nextObject ≤ o → w.sys.objects o = none

theorem init_inv : init.Inv :=
  ⟨init_wf, fun _ => rfl, fun _ _ => rfl⟩

theorem consistent_congr {w w' : World} {o : Nat} (hobj : w'.sys.objects o = w.sys.objects o)
    (hrefs : w'.refs o = w.refs o) (h : w.Consistent o) : w'.Consistent o := by
  unfold Consistent at *
  rw [hobj, hrefs]
  exact h

/-- A step that moves references between the table and the threads, leaving every object and
its number of references as they were, keeps the invariant. -/
theorem Inv.of_moves {w w' : World} (hi : w.Inv) (hw : w'.sys.table.Wf)
    (hobj : w'.sys.objects = w.sys.objects) (hnext : w'.sys.nextObject = w.sys.nextObject)
    (hrefs : ∀ o, w'.refs o = w.refs o) : w'.Inv :=
  ⟨hw, fun o => consistent_congr (congrFun hobj o) (hrefs o) (hi.consistent o),
    fun o ho => by rw [hobj]; exact hi.fresh o (hnext ▸ ho)⟩

/-- A step that rewrites or frees the record of the live object `p`, leaving it consistent,
and leaves every other object with the references it had, keeps the invariant. -/
theorem Inv.of_update {w w' : World} {p : Nat} {obj : FdObject} {v : Option FdObject}
    (hi : w.Inv) (hw : w'.sys.table.Wf) (hp : w.sys.objects p = some obj)
    (hobj : w'.sys.objects = (w.sys.setObject p v).objects)
    (hnext : w'.sys.nextObject = w.sys.nextObject) (hrefs : ∀ o, o ≠ p → w'.refs o = w.refs o)
    (hcons : w'.Consistent p) : w'.Inv := by
  refine ⟨hw, fun o => ?_, fun o ho => ?_⟩
  · by_cases hop : o = p
    · exact hop ▸ hcons
    · exact consistent_congr (by simp [hobj, hop]) (hrefs o hop) (hi.consistent o)
  · have hnone := hi.fresh o (hnext ▸ ho)
    have hop : o ≠ p := by rintro rfl; simp [hp] at hnone
    simp [hobj, hop, hnone]

/-- A step that takes one more reference to the live object `p` with `refcount_acquire`, and
otherwise only moves references, keeps the invariant. -/
theorem Inv.of_acquire {w w' : World} {p : Nat} {obj : FdObject} (hi : w.Inv)
    (hw : w'.sys.table.Wf) (hp : w.sys.objects p = some obj)
    (hobj : w'.sys.objects =
      (w.sys.setObject p (some { obj with refcount := obj.refcount + 1 })).objects)
    (hnext : w'.sys.nextObject = w.sys.nextObject)
    (hrefs : ∀ o, w'.refs o = w.refs o + if p = o then 1 else 0) : w'.Inv := by
  refine hi.of_update hw hp hobj hnext (fun o hop => by simp [hrefs o, Ne.symm hop]) ?_
  have := hi.consistent p
  simp only [Consistent, hp] at this
  simp only [Consistent, hobj, Sys.setObject_objects, if_true, hrefs p]
  omega

end World

open World

/-- One atomic step of some thread: a critical section of the table lock, an
`fd_object_new`, an `fd_object_get`, an `fd_object_release` of a reference the thread holds,
or a `close` of a host descriptor no object owns. -/
inductive Step : World → World → Prop
  | new {w : World} {sys : Sys} {o : Nat} (type : FileType) (number : Int) :
      fdObjectNew w.sys type true = .ok (sys, o) → Step w ⟨sys.setNumber o number, o :: w.held⟩
  | get {w : World} {sys : Sys} {o : Nat} (fd : Nat) (rightsBase rightsInheriting : Rights) :
      fdObjectGetLocked w.sys fd rightsBase rightsInheriting = .ok (sys, .ok o) →
      Step w ⟨sys, o :: w.held⟩
  | release {w : World} {sys : Sys} {o : Nat} :
      o ∈ w.held → fdObjectRelease w.sys o = .ok sys → Step w ⟨sys, w.held.erase o⟩
  | insert {w : World} {t : FdTable} {o fd : Nat} (rightsBase rightsInheriting : Rights)
      (reallocOk : Bool) (draws : List Nat) : o ∈ w.held →
      fdTableInsertLocked w.sys.table o rightsBase rightsInheriting reallocOk draws =
        .ok (some (t, fd)) →
      Step w ⟨{ w.sys with table := t }, w.held.erase o⟩
  | insertPair {w : World} {t : FdTable} {o1 o2 fd1 fd2 : Nat}
      (rightsBase1 rightsBase2 rightsInheriting : Rights) (reallocOk : Bool) (draws : List Nat) :
      o1 ∈ w.held → o2 ∈ w.held.erase o1 →
      fdTableInsertFdpairLocked w.sys.table o1 o2 rightsBase1 rightsBase2 rightsInheriting
        reallocOk draws = .ok (some (t, fd1, fd2)) →
      Step w ⟨{ w.sys with table := t }, (w.held.erase o1).erase o2⟩
  | insertExisting {w : World} {t : FdTable} {slot o : Nat} (rightsBase rightsInheriting : Rights)
      (reallocOk : Bool) : o ∈ w.held →
      fdTableInsertExistingLocked w.sys.table slot o rightsBase rightsInheriting reallocOk =
        .ok (some t) →
      Step w ⟨{ w.sys with table := t }, w.held.erase o⟩
  | close {w : World} {t : FdTable} {fd o : Nat} :
      sysFdCloseLocked w.sys.table fd = .ok (.ok (t, o)) →
      Step w ⟨{ w.sys with table := t }, o :: w.held⟩
  | replace {w : World} {sys : Sys} {src dst o : Nat} :
      sysFdReplaceLocked w.sys src dst = .ok (sys, .ok o) → Step w ⟨sys, o :: w.held⟩
  | dup {w : World} {sys : Sys} {src fd : Nat} (reallocOk : Bool) (draws : List Nat) :
      sysFdDup w.sys src reallocOk draws = .ok (sys, .ok fd) → Step w ⟨sys, w.held⟩
  | statPutRights {w : World} {sys : Sys} {fd : Nat} (base inheriting : Rights) :
      sysFdStatPutRights w.sys fd base inheriting = .ok (sys, .ok ()) → Step w ⟨sys, w.held⟩
  | hostClose {w : World} (nfd : Int) :
      Step w ⟨{ w.sys with closed := w.sys.closed ++ [.close nfd] }, w.held⟩

theorem count_erase_add {l : List Nat} {o : Nat} (h : o ∈ l) (o' : Nat) :
    (l.erase o).count o' + (if o = o' then 1 else 0) = l.count o' := by
  by_cases hoo : o = o'
  · subst hoo
    have := List.count_pos_iff.2 h
    simp only [List.count_erase_self, if_true]
    omega
  · simp [List.count_erase_of_ne (Ne.symm hoo), hoo]

theorem count_cons_eq (l : List Nat) (o o' : Nat) :
    (o :: l).count o' = l.count o' + if o = o' then 1 else 0 := by
  simp [List.count_cons]

namespace World

section Steps

variable {w : World}

theorem Inv.new {sys : Sys} {o : Nat} {type : FileType} (number : Int) (hi : w.Inv)
    (h : fdObjectNew w.sys type true = .ok (sys, o)) :
    World.Inv ⟨sys.setNumber o number, o :: w.held⟩ := by
  simp only [fdObjectNew, if_true, Except.ok.injEq, Prod.mk.injEq] at h
  obtain ⟨rfl, rfl⟩ := h
  have hnone := hi.fresh w.sys.nextObject le_rfl
  have hzero := hi.consistent w.sys.nextObject
  simp only [Consistent, hnone] at hzero
  refine ⟨by simpa using hi.table, fun o' => ?_, fun o' ho' => ?_⟩
  · by_cases ho : o' = w.sys.nextObject
    · subst ho
      simp only [Consistent, refs, Sys.setNumber_objects, Sys.setObject_objects, if_true,
        Option.map_some', Sys.setNumber_table, Sys.setObject_table, count_cons_eq]
      simp only [refs] at hzero
      omega
    · exact consistent_congr (by simp [ho]) (by simp [refs, count_cons_eq, Ne.symm ho])
        (hi.consistent o')
  · have : o' ≠ w.sys.nextObject := by simp at ho'; omega
    simp only [Sys.setNumber_objects, Sys.setObject_objects, this, if_false]
    exact hi.fresh o' (by simp at ho'; omega)

theorem Inv.get {sys : Sys} {o fd : Nat} {rightsBase rightsInheriting : Rights} (hi : w.Inv)
    (h : fdObjectGetLocked w.sys fd rightsBase rightsInheriting = .ok (sys, .ok o)) :
    World.Inv ⟨sys, o :: w.held⟩ := by
  rcases fdObjectGetLocked_cases w.sys fd rightsBase rightsInheriting with
    ⟨e, h'⟩ | ⟨f, h', -⟩ | ⟨fe, sys1, -, -, -, hacq, h'⟩ <;> rw [h'] at h <;> cases h
  obtain ⟨obj, hp, rfl⟩ := refcountAcquire_spec hacq
  exact hi.of_acquire (by simpa using hi.table) hp rfl rfl fun o' => by
    simp only [refs, Sys.setObject_table, count_cons_eq]
    omega

theorem Inv.release {sys : Sys} {o : Nat} (hi : w.Inv) (hmem : o ∈ w.held)
    (h : fdObjectRelease w.sys o = .ok sys) : World.Inv ⟨sys, w.held.erase o⟩ := by
  have herase := count_erase_add hmem
  have hcount := List.count_pos_iff.2 hmem
  have hc := hi.consistent o
  have hothers : ∀ o', o' ≠ o → w.sys.table.slotRefs o' + (w.held.erase o).count o' = w.refs o' :=
    fun o' hop => by simp [refs, ← herase o', Ne.symm hop]
  have hlast := herase o
  simp only [if_true] at hlast
  -- the record is freed when the count was one and lowered otherwise; both match `refs - 1`
  obtain ⟨obj, hobj, ⟨h1, c, -, rfl⟩ | ⟨h1, rfl⟩⟩ := fdObjectRelease_spec h <;>
    simp only [Consistent, hobj, refs] at hc <;>
    refine hi.of_update (by simpa using hi.table) hobj rfl rfl hothers ?_ <;>
    simp only [Consistent, refs, Sys.setObject_objects, if_true, Sys.setObject_table] <;>
    omega

theorem Inv.insert {t : FdTable} {o fd : Nat} {rightsBase rightsInheriting : Rights}
    {reallocOk : Bool} {draws : List Nat} (hi : w.Inv) (hmem : o ∈ w.held)
    (h : fdTableInsertLocked w.sys.table o rightsBase rightsInheriting reallocOk draws =
      .ok (some (t, fd))) : World.Inv ⟨{ w.sys with table := t }, w.held.erase o⟩ := by
  rcases fdTableInsertLocked_cases hi.table o rightsBase rightsInheriting reallocOk draws with
    h' | ⟨-, h'⟩ | ⟨tg, fd', hg, hfree, h'⟩ <;> rw [h'] at h <;> cases h
  obtain ⟨hwg, -, -, hroom, -⟩ := hi.table.grow hg
  refine hi.of_moves (hwg.put hfree hroom _) rfl rfl fun o' => ?_
  have := count_erase_add hmem o'
  simp only [refs, slotRefs_put hfree, slotRefs_grow hg]
  by_cases hoo : o = o' <;> simp only [hoo, if_true, if_false] at this ⊢ <;> omega

theorem Inv.insertPair {t : FdTable} {o1 o2 fd1 fd2 : Nat}
    {rightsBase1 rightsBase2 rightsInheriting : Rights} {reallocOk : Bool} {draws : List Nat}
    (hi : w.Inv) (hmem1 : o1 ∈ w.held) (hmem2 : o2 ∈ w.held.erase o1)
    (h : fdTableInsertFdpairLocked w.sys.table o1 o2 rightsBase1 rightsBase2 rightsInheriting
      reallocOk draws = .ok (some (t, fd1, fd2))) :
    World.Inv ⟨{ w.sys with table := t }, (w.held.erase o1).erase o2⟩ := by
  rcases fdTableInsertFdpairLocked_cases hi.table o1 o2 rightsBase1 rightsBase2 rightsInheriting
    reallocOk draws with h' | ⟨-, h'⟩ | ⟨tg, fd1', fd2', hg, hfree1, hfree2, h'⟩ <;>
    rw [h'] at h <;> cases h
  obtain ⟨hwg, -, -, hroom, -⟩ := hi.table.grow hg
  have hw1 := hwg.put hfree1 (by omega) ⟨o1, rightsBase1, rightsInheriting⟩
  refine hi.of_moves (hw1.put hfree2 (by simp; omega) _) rfl rfl fun o' => ?_
  have h1 := count_erase_add hmem1 o'
  have h2 := count_erase_add hmem2 o'
  simp only [refs, slotRefs_put hfree2, slotRefs_put hfree1, slotRefs_grow hg]
  by_cases ho1 : o1 = o' <;> by_cases ho2 : o2 = o' <;>
    simp only [ho1, ho2, if_true, if_false] at h1 h2 ⊢ <;> omega

theorem Inv.insertExisting {t : FdTable} {slot o : Nat} {rightsBase rightsInheriting : Rights}
    {reallocOk : Bool} (hi : w.Inv) (hmem : o ∈ w.held)
    (h : fdTableInsertExistingLocked w.sys.table slot o rightsBase rightsInheriting reallocOk =
      .ok (some t)) : World.Inv ⟨{ w.sys with table := t }, w.held.erase o⟩ := by
  obtain ⟨tg, hg, hfree, rfl⟩ := fdTableInsertExistingLocked_some h
  obtain ⟨hwg, -, -, hroom, -⟩ := hi.table.grow hg
  refine hi.of_moves (hwg.put hfree hroom _) rfl rfl fun o' => ?_
  have := count_erase_add hmem o'
  simp only [refs, slotRefs_put hfree, slotRefs_grow hg]
  by_cases hoo : o = o' <;> simp only [hoo, if_true, if_false] at this ⊢ <;> omega

theorem Inv.close {t : FdTable} {fd o : Nat} (hi : w.Inv)
    (h : sysFdCloseLocked w.sys.table fd = .ok (.ok (t, o))) :
    World.Inv ⟨{ w.sys with table := t }, o :: w.held⟩ := by
  rcases sysFdCloseLocked_cases hi.table fd with ⟨-, e, h'⟩ | ⟨fe, hocc, h'⟩ <;> rw [h'] at h <;>
    cases h
  refine hi.of_moves (hi.table.clear hocc) rfl rfl fun o' => ?_
  have := slotRefs_clear hocc o'
  simp only [refs, count_cons_eq]
  omega

theorem Inv.replace {sys : Sys} {src dst o : Nat} (hi : w.Inv)
    (h : sysFdReplaceLocked w.sys src dst = .ok (sys, .ok o)) : World.Inv ⟨sys, o :: w.held⟩ := by
  rcases sysFdReplaceLocked_cases hi.table src dst with
    ⟨e, h', -⟩ | ⟨f, h', -⟩ | ⟨feS, feD, sys1, -, hD, -, hacq, h'⟩ <;> rw [h'] at h <;> cases h
  obtain ⟨obj, hp, rfl⟩ := refcountAcquire_spec hacq
  have hlt := lt_size_of_getElem? hD
  have hfree : (w.sys.table.clear dst).entries[dst]? = some none := by simp [getElem?_clear hlt]
  have hroom : ((w.sys.table.clear dst).used + 1) * 2 ≤ (w.sys.table.clear dst).size := by
    have := hi.table.half_free
    have := hi.table.used_pos hD
    simp only [used_clear, size_clear]
    omega
  refine hi.of_acquire ((hi.table.clear hD).put hfree hroom feS) hp rfl rfl fun o' => ?_
  have := slotRefs_clear hD o'
  simp only [refs, slotRefs_put hfree, count_cons_eq]
  split <;> omega

theorem Inv.dup {sys : Sys} {src fd : Nat} {reallocOk : Bool} {draws : List Nat} (hi : w.Inv)
    (h : sysFdDup w.sys src reallocOk draws = .ok (sys, .ok fd)) : World.Inv ⟨sys, w.held⟩ := by
  rcases sysFdDup_cases hi.table src reallocOk draws with
    ⟨e, h'⟩ | ⟨f, h', -⟩ | ⟨fe, fd', sys1, -, hfree, hroom, hacq, h'⟩ <;> rw [h'] at h <;> cases h
  obtain ⟨obj, hp, rfl⟩ := refcountAcquire_spec hacq
  refine hi.of_acquire (hi.table.put hfree hroom fe) hp rfl rfl fun o' => ?_
  simp only [refs, slotRefs_put hfree]
  split <;> omega

theorem Inv.statPutRights {sys : Sys} {fd : Nat} {base inheriting : Rights} (hi : w.Inv)
    (h : sysFdStatPutRights w.sys fd base inheriting = .ok (sys, .ok ())) :
    World.Inv ⟨sys, w.held⟩ := by
  rcases sysFdStatPutRights_cases w.sys fd base inheriting with ⟨e, h'⟩ | ⟨fe, hocc, -, -, h'⟩ <;>
    rw [h'] at h <;> cases h
  exact hi.of_moves (hi.table.update hocc _) rfl rfl fun o' => by
    simp [refs, slotRefs_update hocc (e := ⟨fe.object, base, inheriting⟩) rfl]

end Steps

end World

/-- The step lemma: every atomic step keeps the invariant. -/
theorem Step.inv {w w' : World} (h : Step w w') (hi : w.Inv) : w'.Inv := by
  cases h with
  | new type number hnew => exact hi.new number hnew
  | get fd rightsBase rightsInheriting hget => exact hi.get hget
  | release hmem hrel => exact hi.release hmem hrel
  | insert _ _ _ _ hmem hins => exact hi.insert hmem hins
  | insertPair _ _ _ _ _ hmem1 hmem2 hins => exact hi.insertPair hmem1 hmem2 hins
  | insertExisting _ _ _ hmem hins => exact hi.insertExisting hmem hins
  | close hclose => exact hi.close hclose
  | replace hrep => exact hi.replace hrep
  | dup _ _ hdup => exact hi.dup hdup
  | statPutRights _ _ hput => exact hi.statPutRights hput
  | hostClose nfd => exact hi.of_moves hi.table rfl rfl fun _ => rfl

/-- The run lemma: any interleaving of steps keeps the invariant. -/
theorem World.Inv.of_steps {w w' : World} (h : Relation.ReflTransGen Step w w') (hi : w.Inv) :
    w'.Inv := by
  induction h with
  | refl => exact hi
  | tail _ hstep ih => exact hstep.inv ih

/-- The invariant holds in every state any interleaving of steps reaches. -/
theorem reachable_inv {w : World} (h : Relation.ReflTransGen Step World.init w) : w.Inv :=
  init_inv.of_steps h

namespace World

variable {w : World} {o : Nat}

/-- The object of a slot is live. -/
theorem Inv.live_of_slot (hi : w.Inv) {i : Nat} {fe : FdEntry}
    (hocc : w.sys.table.entries[i]? = some (some fe)) :
    ∃ obj, w.sys.objects fe.object = some obj := by
  have hc := hi.consistent fe.object
  have := slotRefs_pos hocc
  unfold Consistent refs at hc
  split at hc
  · exact ⟨_, ‹_›⟩
  · omega

/-- A live object has a reference. -/
theorem Inv.refcount_pos (hi : w.Inv) {obj : FdObject} (hobj : w.sys.objects o = some obj) :
    0 < obj.refcount := by
  have hc := hi.consistent o
  simp only [Consistent, hobj] at hc
  exact hc.2

/-- A live object was allocated before the next one. -/
theorem Inv.lt_next_of_live (hi : w.Inv) {obj : FdObject} (hobj : w.sys.objects o = some obj) :
    o < w.sys.nextObject := by
  by_contra hge
  rw [hi.fresh o (by omega)] at hobj
  cases hobj

/-- A reference a thread holds is to a live object, whatever happened to the slot it came from:
`get` leases survive a concurrent `close` or `replace`. -/
theorem Inv.held_live (hi : w.Inv) (hmem : o ∈ w.held) : w.sys.objects o ≠ none := by
  intro hnone
  have hc := hi.consistent o
  simp only [Consistent, hnone, refs] at hc
  have := List.count_pos_iff.2 hmem
  omega

/-- What `fd_object_release` of a reference `o` held in `w` leaves: when no slot and no other
reference is left, the object destroyed and its own host descriptor given back, by `closedir` if
a directory stream was installed and by `close` otherwise; the object live and nothing given back
otherwise. -/
def ReleaseExact (w : World) (o : Nat) (sys' : Sys) : Prop :=
  if (World.mk sys' (w.held.erase o)).refs o = 0 then
    sys'.objects o = none ∧ ∃ obj, w.sys.objects o = some obj ∧
      sys'.closed = w.sys.closed ++ [if obj.type = .directory ∧ obj.directoryHandle
        then .closedir obj.number else .close obj.number]
  else sys'.objects o ≠ none ∧ sys'.closed = w.sys.closed

theorem Inv.release_exact {sys' : Sys} (hi : w.Inv) (hmem : o ∈ w.held)
    (h : fdObjectRelease w.sys o = .ok sys') : w.ReleaseExact o sys' := by
  have herase := count_erase_add hmem o
  have hc := hi.consistent o
  obtain ⟨obj, hobj, ⟨h1, c, hcl, rfl⟩ | ⟨h1, rfl⟩⟩ := fdObjectRelease_spec h <;>
    simp only [Consistent, hobj, refs, if_true] at hc herase
  · rw [ReleaseExact, if_pos (by simp only [refs, Sys.setObject_table]; omega)]
    exact ⟨by simp, obj, hobj, by rw [releaseClose_ok hcl]⟩
  · rw [ReleaseExact, if_neg (by simp only [refs, Sys.setObject_table]; omega)]
    exact ⟨by simp, rfl⟩

end World

end CloudabiEmulator
