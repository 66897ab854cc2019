import CloudabiEmulator.Syscalls
import CloudabiEmulator.HostDescriptors

/-! Rights never amplify. Every slot a system call leaves holds either an object the call made,
with rights within the largest its type can be granted (what `fd_determine_type_rights`
assigns, or the fixed masks of `sys_fd_create1` and `fd_create_socketpair`), or an object a
slot held before the call, with no more rights than that slot had. So in every state the calls
reach from the first one, each slot's rights lie within the largest rights of its object's
type: the type test that `sys_file_readdir` and the other calls leave to the rights check. -/

namespace CloudabiEmulator

open FdTable World

section Entries

variable (m : RightsMasks) (sys sys' : Sys)

/-- Where the entry `fe` of a slot after a call from `sys` to `sys'` may come from: an object
the call made, with rights within its type's largest, or the object of a slot of `sys`, with no
more rights than that slot. -/
def EntryFrom (fe : FdEntry) : Prop :=
  (sys.nextObject ≤ fe.object ∧ ∃ obj, sys'.objects fe.object = some obj ∧
    WithinMax m obj.type fe.rightsBase fe.rightsInheriting) ∨
  ∃ (j : Nat) (fe0 : FdEntry), sys.table.entries[j]? = some (some fe0) ∧ fe0.object = fe.object ∧
    fe.rightsBase.Subset fe0.rightsBase ∧ fe.rightsInheriting.Subset fe0.rightsInheriting

/-- Every slot of `t` comes from a new object or from a slot of `sys`. -/
def TableFrom (t : FdTable) : Prop :=
  ∀ (i : Nat) (fe : FdEntry), t.entries[i]? = some (some fe) → EntryFrom m sys sys' fe

/-- The call from `sys` to `sys'` granted no right a slot of `sys` or a new object's type did not
have. -/
def RightsFrom : Prop := TableFrom m sys sys' sys'.table

/-- Every slot's object is live and has rights within the largest of its type. -/
def RightsInv : Prop :=
  ∀ (i : Nat) (fe : FdEntry), sys.table.entries[i]? = some (some fe) →
    ∃ obj, sys.objects fe.object = some obj ∧ WithinMax m obj.type fe.rightsBase fe.rightsInheriting

end Entries

section TableFrom

variable {m : RightsMasks} {sys sys' : Sys} {t : FdTable}

theorem EntryFrom.old {j : Nat} {fe0 fe : FdEntry} (h : sys.table.entries[j]? = some (some fe0))
    (hobj : fe0.object = fe.object) (hb : fe.rightsBase.Subset fe0.rightsBase)
    (hi : fe.rightsInheriting.Subset fe0.rightsInheriting) : EntryFrom m sys sys' fe :=
  .inr ⟨j, fe0, h, hobj, hb, hi⟩

theorem EntryFrom.new {fo : Nat} {obj : FdObject} {rightsBase rightsInheriting : Rights}
    (hnew : sys.nextObject ≤ fo) (hobj : sys'.objects fo = some obj)
    (hmax : WithinMax m obj.type rightsBase rightsInheriting) :
    EntryFrom m sys sys' ⟨fo, rightsBase, rightsInheriting⟩ :=
  .inl ⟨hnew, obj, hobj, hmax⟩

theorem TableFrom.self : TableFrom m sys sys' sys.table :=
  fun _ _ h => .old h rfl (Rights.subset_refl _) (Rights.subset_refl _)

theorem TableFrom.of_eq (h : t = sys.table) : TableFrom m sys sys' t := by
  rw [h]
  exact TableFrom.self

theorem TableFrom.set {t' : FdTable} {fd : Nat} {x : Option FdEntry} (ht : TableFrom m sys sys' t)
    (hlt : fd < t.size) (hx : ∀ e, x = some e → EntryFrom m sys sys' e)
    (h : t'.entries = t.entries.set fd x) : TableFrom m sys sys' t' := by
  intro i fe hi
  rw [h, getElem?_set_of_lt hlt] at hi
  split at hi
  · exact hx fe (Option.some.inj hi)
  · exact ht i fe hi

theorem TableFrom.put {fd : Nat} {e : FdEntry} (ht : TableFrom m sys sys' t) (hlt : fd < t.size)
    (he : EntryFrom m sys sys' e) : TableFrom m sys sys' (t.put fd e) :=
  ht.set hlt (fun _ h => Option.some.inj h ▸ he) rfl

theorem TableFrom.clear {fd : Nat} (ht : TableFrom m sys sys' t) (hlt : fd < t.size) :
    TableFrom m sys sys' (t.clear fd) :=
  ht.set hlt (fun _ h => Option.noConfusion h) rfl

theorem TableFrom.update {fd : Nat} {e : FdEntry} (ht : TableFrom m sys sys' t) (hlt : fd < t.size)
    (he : EntryFrom m sys sys' e) : TableFrom m sys sys' (t.update fd e) :=
  ht.set hlt (fun _ h => Option.some.inj h ▸ he) rfl

/-- Growing the table only adds empty slots. -/
theorem TableFrom.grow {tg : FdTable} {min incr : Nat} {reallocOk : Bool}
    (ht : TableFrom m sys sys' t) (hg : fdTableGrow t min incr reallocOk = some tg) :
    TableFrom m sys sys' tg := by
  obtain ⟨⟨k, rfl⟩, -, -⟩ := fdTableGrow_spec hg
  intro i fe hi
  by_cases hlt : i < t.entries.length
  · rw [List.getElem?_append_left hlt] at hi
    exact ht i fe hi
  · rw [List.getElem?_append_right (by omega), List.getElem?_replicate] at hi
    split at hi <;> cases hi

theorem RightsFrom.of_table (h : sys'.table = t) (ht : TableFrom m sys sys' t) :
    RightsFrom m sys sys' := by
  unfold RightsFrom
  rw [h]
  exact ht

theorem RightsFrom.of_table_eq (h : sys'.table = sys.table) : RightsFrom m sys sys' :=
  .of_table h .self

end TableFrom

/-- What a call from `sys` may end in, as far as rights go: a fault, or a state whose slots
all come from new objects or from slots of `sys`. -/
def RightsEnd {α : Type} (m : RightsMasks) (sys : Sys) : Except Fault (Sys × α) → Prop
  | .error _ => True
  | .ok (sys', _) => RightsFrom m sys sys'

section RightsEnd

variable {α : Type} {m : RightsMasks} {sys : Sys}

theorem RightsEnd.bind_release {s0 : Sys} {o : Nat} {k : Sys → Except Fault (Sys × α)}
    (h : ∀ s, s.table = s0.table → RightsEnd m sys (k s)) :
    RightsEnd m sys (fdObjectRelease s0 o >>= k) := by
  cases hrel : fdObjectRelease s0 o with
  | error => trivial
  | ok s => exact h s (fdObjectRelease_table hrel)

theorem RightsEnd.bind {β : Type} {x : Except Fault (Sys × β)}
    {k : Sys × β → Except Fault (Sys × α)} (hx : RightsEnd m sys x)
    (hk : ∀ s r, RightsFrom m sys s → RightsEnd m sys (k (s, r))) : RightsEnd m sys (x >>= k) := by
  cases x with
  | error => trivial
  | ok r => exact hk r.1 r.2 hx

theorem RightsEnd.of_map {x : Except Fault (Sys × α)} {sys' : Sys} (hx : RightsEnd m sys x)
    (h : x.map Prod.fst = .ok sys') : RightsFrom m sys sys' := by
  cases x with
  | error => cases h
  | ok r => cases h; exact hx

end RightsEnd

section Calls

variable {m : RightsMasks} {sys : Sys}

/-- `fd_table_insert` of an object made since `sys0`, from a state with `sys0`'s table. -/
theorem fdTableInsert_rightsEnd {sys0 : Sys} {fo : Nat} {obj : FdObject}
    {rightsBase rightsInheriting : Rights} (hw : sys.table.Wf) (ht : sys.table = sys0.table)
    (hnew : sys0.nextObject ≤ fo) (hobj : sys.objects fo = some obj)
    (hmax : WithinMax m obj.type rightsBase rightsInheriting) (reallocOk : Bool)
    (draws : List Nat) :
    RightsEnd m sys0 (fdTableInsert sys fo rightsBase rightsInheriting reallocOk draws) := by
  unfold fdTableInsert
  rcases fdTableInsertLocked_cases hw fo rightsBase rightsInheriting reallocOk draws with
    h | ⟨-, h⟩ | ⟨tg, fd, hg, hfree, h⟩ <;> rw [h]
  · trivial
  · exact RightsEnd.bind_release fun s hs => .of_table_eq (hs.trans ht)
  · exact ((TableFrom.of_eq ht).grow hg).put (lt_size_of_getElem? hfree) (.new hnew hobj hmax)

theorem fdTableInsertFd_rightsEnd {type : FileType} {rightsBase rightsInheriting : Rights}
    (hw : sys.table.Wf) (hmax : WithinMax m type rightsBase rightsInheriting) (nfd : Int)
    (mallocOk reallocOk : Bool) (draws : List Nat) :
    RightsEnd m sys
      (fdTableInsertFd sys nfd type rightsBase rightsInheriting mallocOk reallocOk draws) := by
  unfold fdTableInsertFd
  cases h : fdObjectNew sys type mallocOk with
  | error => exact RightsFrom.of_table_eq rfl
  | ok r =>
    obtain ⟨sys1, fo⟩ := r
    obtain ⟨hobj, -, ht⟩ := fdObjectNew_spec h
    have ht' : (sys1.setNumber fo nfd).table = sys.table := by simp [ht]
    exact fdTableInsert_rightsEnd (ht' ▸ hw) ht' (fdObjectNew_fresh h).1.ge
      (setNumber_objects_self hobj nfd) hmax _ _

theorem fdTableInsertFdpair_rightsEnd {type : FileType}
    {rightsBase1 rightsBase2 rightsInheriting : Rights} (hw : sys.table.Wf)
    (hmax1 : WithinMax m type rightsBase1 rightsInheriting)
    (hmax2 : WithinMax m type rightsBase2 rightsInheriting) (nfd1 nfd2 : Int)
    (malloc1Ok malloc2Ok reallocOk : Bool) (draws : List Nat) :
    RightsEnd m sys (fdTableInsertFdpair sys nfd1 nfd2 type rightsBase1 rightsBase2
      rightsInheriting malloc1Ok malloc2Ok reallocOk draws) := by
  unfold fdTableInsertFdpair
  cases h1 : fdObjectNew sys type malloc1Ok with
  | error => exact RightsFrom.of_table_eq rfl
  | ok r1 =>
    obtain ⟨sys1, fo1⟩ := r1
    obtain ⟨hobj1, -, ht1⟩ := fdObjectNew_spec h1
    obtain ⟨hfo1, hnext1, -⟩ := fdObjectNew_fresh h1
    dsimp only
    cases h2 : fdObjectNew (sys1.setNumber fo1 nfd1) type malloc2Ok with
    | error => exact RightsEnd.bind_release fun s hs => .of_table_eq (by simp [hs, ht1])
    | ok r2 =>
      obtain ⟨sys2, fo2⟩ := r2
      obtain ⟨hobj2, -, ht2⟩ := fdObjectNew_spec h2
      obtain ⟨hfo2, -, hother2⟩ := fdObjectNew_fresh h2
      have hfo2' : fo2 = fo1 + 1 := by rw [hfo2, Sys.setNumber_nextObject, hnext1]
      have hne : fo1 ≠ fo2 := by omega
      have ht : (sys2.setNumber fo2 nfd2).table = sys.table := by simp [ht2, ht1]
      dsimp only
      rcases fdTableInsertFdpairLocked_cases (ht ▸ hw) fo1 fo2 rightsBase1 rightsBase2
        rightsInheriting reallocOk draws with
        h | ⟨-, h⟩ | ⟨tg, fd1, fd2, hg, hfree1, hfree2, h⟩ <;> rw [h]
      · trivial
      · exact RightsEnd.bind_release fun s hs => RightsEnd.bind_release fun s' hs' =>
          .of_table_eq (by rw [hs', hs, ht])
      · have hobj1' : (sys2.setNumber fo2 nfd2).objects fo1 =
            some { (⟨1, type, -1, false⟩ : FdObject) with number := nfd1 } := by
          rw [Sys.setNumber_objects, if_neg hne, hother2 fo1 hne, setNumber_objects_self hobj1]
        exact (((TableFrom.of_eq ht).grow hg).put (lt_size_of_getElem? hfree1)
          (.new hfo1.ge hobj1' hmax1)).put (lt_size_of_getElem? hfree2)
          (.new (by omega) (setNumber_objects_self hobj2 nfd2) hmax2)

theorem fdTableInsertExisting_rightsEnd (slot : Nat) (out : Int) (info : HostFdInfo)
    (mallocOk reallocOk : Bool) :
    RightsEnd m sys (fdTableInsertExisting m sys slot out info mallocOk reallocOk) := by
  unfold fdTableInsertExisting
  cases hdet : fdDetermineTypeRights m info with
  | error => exact RightsFrom.of_table_eq rfl
  | ok r =>
    obtain ⟨type, rightsBase, rightsInheriting⟩ := r
    dsimp only
    cases h : fdObjectNew sys type mallocOk with
    | error => exact RightsFrom.of_table_eq rfl
    | ok r =>
      obtain ⟨sys1, fo⟩ := r
      obtain ⟨hobj, -, ht⟩ := fdObjectNew_spec h
      have ht' : (sys1.setNumber fo out).table = sys.table := by simp [ht]
      dsimp only
      cases hl : fdTableInsertExistingLocked (sys1.setNumber fo out).table slot fo rightsBase
        rightsInheriting reallocOk with
      | error => trivial
      | ok r =>
        rcases r with _ | t
        · exact RightsEnd.bind_release fun s hs => .of_table_eq (hs.trans ht')
        · obtain ⟨tg, hg, hfree, rfl⟩ := fdTableInsertExistingLocked_some hl
          exact ((TableFrom.of_eq ht').grow hg).put (lt_size_of_getElem? hfree)
            (.new (fdObjectNew_fresh h).1.ge (setNumber_objects_self hobj out)
              (fdDetermineTypeRights_within hdet))

theorem sysFdClose_rightsEnd (hw : sys.table.Wf) (fd : Nat) :
    RightsEnd m sys (sysFdClose sys fd) := by
  unfold sysFdClose
  rcases sysFdCloseLocked_cases hw fd with ⟨-, e, h⟩ | ⟨fe, hocc, h⟩ <;> rw [h]
  · exact RightsFrom.of_table_eq rfl
  · exact RightsEnd.bind_release fun s hs =>
      .of_table hs (TableFrom.self.clear (lt_size_of_getElem? hocc))

theorem sysFdReplace_rightsEnd (hw : sys.table.Wf) (src dst : Nat) :
    RightsEnd m sys (sysFdReplace sys src dst) := by
  unfold sysFdReplace
  rcases sysFdReplaceLocked_cases hw src dst with
    ⟨e, h, -⟩ | ⟨f, h, -⟩ | ⟨feS, feD, sys1, hS, hD, -, -, h⟩ <;> rw [h]
  · exact RightsFrom.of_table_eq rfl
  · trivial
  · have hlt := lt_size_of_getElem? hD
    exact RightsEnd.bind_release fun s hs => .of_table hs ((TableFrom.self.clear hlt).put
      (by simpa using hlt) (.old hS rfl (Rights.subset_refl _) (Rights.subset_refl _)))

theorem sysFdDup_rightsEnd (hw : sys.table.Wf) (src : Nat) (reallocOk : Bool) (draws : List Nat) :
    RightsEnd m sys (sysFdDup sys src reallocOk draws) := by
  rcases sysFdDup_cases hw src reallocOk draws with
    ⟨e, h⟩ | ⟨f, h, -⟩ | ⟨fe, fd, sys1, hsrc, hfree, -, -, h⟩ <;> rw [h]
  · exact RightsFrom.of_table_eq rfl
  · trivial
  · exact TableFrom.self.put (lt_size_of_getElem? hfree)
      (.old hsrc rfl (Rights.subset_refl _) (Rights.subset_refl _))

theorem sysFdStatPutRights_rightsEnd (fd : Nat) (base inheriting : Rights) :
    RightsEnd m sys (sysFdStatPutRights sys fd base inheriting) := by
  rcases sysFdStatPutRights_cases sys fd base inheriting with
    ⟨e, h⟩ | ⟨fe, hocc, hb, hi, h⟩ <;> rw [h]
  · exact RightsFrom.of_table_eq rfl
  · exact TableFrom.self.update (lt_size_of_getElem? hocc) (.old hocc rfl hb hi)

theorem fdObjectCall_rightsEnd {α : Type} (fd : Nat) (rightsBase : Rights)
    (host : FileType → Except Errno α) :
    RightsEnd m sys (fdObjectCall sys fd rightsBase host) := by
  unfold fdObjectCall
  rcases fdObjectGetLocked_cases sys fd rightsBase 0 with
    ⟨e, h⟩ | ⟨f, h, -⟩ | ⟨fe, sys1, -, -, -, hacq, h⟩ <;> rw [h]
  · exact RightsFrom.of_table_eq rfl
  · trivial
  · simp only [bind, Except.bind]
    split
    · trivial
    · next obj _ =>
      cases fdNumber obj with
      | error => trivial
      | ok => exact RightsEnd.bind_release fun s hs =>
          .of_table_eq (hs.trans (refcountAcquire_table hacq))

theorem sysFdCreate1_rightsEnd (hw : sys.table.Wf) (type : FileType) (shmOpen : Except Errno Int)
    (mallocOk reallocOk : Bool) (draws : List Nat) :
    RightsEnd m sys (sysFdCreate1 m sys type shmOpen mallocOk reallocOk draws) := by
  unfold sysFdCreate1
  split
  · next htype =>
    subst htype
    split
    · exact RightsFrom.of_table_eq rfl
    · exact fdTableInsertFd_rightsEnd hw (.max m _) _ _ _ _
  · exact RightsFrom.of_table_eq rfl

theorem sysFdCreate2_rightsEnd (hw : sys.table.Wf) (type : FileType)
    (socketpair : Except Errno (Int × Int)) (malloc1Ok malloc2Ok reallocOk : Bool)
    (draws : List Nat) :
    RightsEnd m sys (sysFdCreate2 m sys type socketpair malloc1Ok malloc2Ok reallocOk draws) := by
  unfold sysFdCreate2
  split
  · next htype =>
    have hmax : WithinMax m type m.socketBase m.socketInheriting := by
      rcases htype with rfl | rfl <;> exact .max m _
    split
    · exact RightsFrom.of_table_eq rfl
    · exact fdTableInsertFdpair_rightsEnd hw hmax hmax _ _ _ _ _ _
  · exact RightsFrom.of_table_eq rfl

theorem sysFileOpenInstall_rightsEnd (hw : sys.table.Wf) (nfd : Int) (info : HostFdInfo)
    (rightsBase rightsInheriting : Rights) (mallocOk reallocOk : Bool) (draws : List Nat) :
    RightsEnd m sys (sysFileOpenInstall m sys nfd info rightsBase rightsInheriting mallocOk
      reallocOk draws) := by
  unfold sysFileOpenInstall
  cases hdet : fdDetermineTypeRights m info with
  | error => exact RightsFrom.of_table_eq rfl
  | ok r =>
    obtain ⟨type, maxBase, maxInheriting⟩ := r
    exact fdTableInsertFd_rightsEnd hw ((fdDetermineTypeRights_within hdet).narrow
      (Rights.and_subset_right _ _) (Rights.and_subset_right _ _)) _ _ _ _

theorem sockRecvInstall_rightsEnd (hw : sys.table.Wf) (nfd : Int) (info : HostFdInfo)
    (mallocOk reallocOk : Bool) (draws : List Nat) :
    RightsEnd m sys (sockRecvInstall m sys nfd info mallocOk reallocOk draws) := by
  unfold sockRecvInstall
  cases hdet : fdDetermineTypeRights m info with
  | error => exact RightsFrom.of_table_eq rfl
  | ok r =>
    obtain ⟨type, maxBase, maxInheriting⟩ := r
    exact RightsEnd.bind (fdTableInsertFd_rightsEnd hw (fdDetermineTypeRights_within hdet) _ _ _ _)
      fun _ r hs => by cases r <;> exact hs

end Calls

/-- A call that reaches an object through `fd_object_get` leaves the table as it was. -/
theorem ObjectCall.run_rightsFrom (m : RightsMasks) (c : ObjectCall) {sys sys' : Sys}
    (h : c.run m sys = .ok sys') : RightsFrom m sys sys' := by
  rcases c.shape m sys with h' | ⟨α, fd, rightsBase, host, h'⟩ <;> rw [h'] at h
  · cases h
    exact RightsFrom.of_table_eq rfl
  · exact (fdObjectCall_rightsEnd fd rightsBase host).of_map h

/-- The step lemma of the rights: every call that returns grants no new right. -/
theorem Syscall.run_rightsFrom (m : RightsMasks) (c : Syscall) {sys sys' : Sys}
    (hw : sys.table.Wf) (h : c.run m sys = .ok sys') : RightsFrom m sys sys' := by
  cases c with
  | fdClose => exact (sysFdClose_rightsEnd hw _).of_map h
  | fdDup => exact (sysFdDup_rightsEnd hw _ _ _).of_map h
  | fdReplace => exact (sysFdReplace_rightsEnd hw _ _).of_map h
  | fdStatPutRights => exact (sysFdStatPutRights_rightsEnd _ _ _).of_map h
  | objectCall c => exact c.run_rightsFrom m h
  | sockSend =>
    simp only [Syscall.run, Except.map] at h
    split at h
    · cases h
    · cases h
      exact RightsFrom.of_table_eq (sysSockSend_table ‹_›)
  | fdCreate1 => exact (sysFdCreate1_rightsEnd hw _ _ _ _ _).of_map h
  | fdCreate2 => exact (sysFdCreate2_rightsEnd hw _ _ _ _ _ _).of_map h
  | fileOpen => exact (sysFileOpenInstall_rightsEnd hw _ _ _ _ _ _ _).of_map h
  | sockRecvInstall => exact (sockRecvInstall_rightsEnd hw _ _ _ _ _).of_map h
  | insertExisting => exact (fdTableInsertExisting_rightsEnd _ _ _ _ _).of_map h

/-- Every object live in `w'` that already existed in `w` was live there, with the same type:
no step changes a type, and no allocation number is used twice. -/
def TypesKept (w w' : World) : Prop :=
  w.sys.nextObject ≤ w'.sys.nextObject ∧ ∀ o obj', w'.sys.objects o = some obj' →
    o < w.sys.nextObject → ∃ obj, w.sys.objects o = some obj ∧ obj.type = obj'.type

namespace TypesKept

variable {w w1 w2 w3 : World}

theorem refl (w : World) : TypesKept w w := ⟨le_rfl, fun _ obj' h _ => ⟨obj', h, rfl⟩⟩

theorem trans (h12 : TypesKept w1 w2) (h23 : TypesKept w2 w3) : TypesKept w1 w3 := by
  refine ⟨h12.1.trans h23.1, fun o obj3 h3 hlt => ?_⟩
  obtain ⟨obj2, h2, ht2⟩ := h23.2 o obj3 h3 (by have := h12.1; omega)
  obtain ⟨obj1, h1, ht1⟩ := h12.2 o obj2 h2 hlt
  exact ⟨obj1, h1, ht1.trans ht2⟩

theorem of_objects (hobj : w2.sys.objects = w1.sys.objects)
    (hnext : w2.sys.nextObject = w1.sys.nextObject) : TypesKept w1 w2 :=
  ⟨hnext.ge, fun _ obj' h _ => ⟨obj', hobj ▸ h, rfl⟩⟩

/-- A step that rewrites the record of one live object, keeping its type, or frees it. -/
theorem of_setObject {p : Nat} {obj : FdObject} {v : Option FdObject}
    (hp : w1.sys.objects p = some obj) (hobj : w2.sys.objects = (w1.sys.setObject p v).objects)
    (hnext : w2.sys.nextObject = w1.sys.nextObject)
    (hv : ∀ obj', v = some obj' → obj'.type = obj.type) :
    TypesKept w1 w2 := by
  refine ⟨hnext.ge, fun o obj' h _ => ?_⟩
  rw [hobj, Sys.setObject_objects] at h
  split at h
  · next hop => exact ⟨obj, hop ▸ hp, (hv obj' h).symm⟩
  · exact ⟨obj', h, rfl⟩

/-- A step whose only change to the objects is one `refcount_acquire`. -/
theorem of_acquire {s sys' : Sys} {p : Nat} (h : refcountAcquire s (some p) = .ok sys')
    (hs : s.objects = w1.sys.objects) (hsn : s.nextObject = w1.sys.nextObject)
    (hobj : w2.sys.objects = sys'.objects) (hnext : w2.sys.nextObject = sys'.nextObject) :
    TypesKept w1 w2 := by
  obtain ⟨obj, hp, rfl⟩ := refcountAcquire_spec h
  refine of_setObject (v := some { obj with refcount := obj.refcount + 1 }) (hs ▸ hp)
    (hobj.trans ?_) (hnext.trans hsn) fun _ h => by cases h; rfl
  funext o
  simp [hs]

end TypesKept

open TypesKept in
/-- The step lemma of the types. -/
theorem Step.typesKept {w w' : World} (h : Step w w') (hi : w.Inv) : TypesKept w w' := by
  cases h with
  | new type number hnew =>
    obtain ⟨rfl, hnext, hother⟩ := fdObjectNew_fresh hnew
    refine ⟨by simp [hnext], fun o obj' h hlt => ⟨obj', ?_, rfl⟩⟩
    have hne : o ≠ w.sys.nextObject := by omega
    rwa [Sys.setNumber_objects, if_neg hne, hother o hne] at h
  | get fd rightsBase rightsInheriting hget =>
    rcases fdObjectGetLocked_cases w.sys fd rightsBase rightsInheriting with
      ⟨e, h'⟩ | ⟨f, h', -⟩ | ⟨fe, sys1, -, -, -, hacq, h'⟩ <;> rw [h'] at hget <;> cases hget
    exact of_acquire hacq rfl rfl rfl rfl
  | release hmem hrel =>
    obtain ⟨obj, hobj, ⟨-, c, -, rfl⟩ | ⟨-, rfl⟩⟩ := fdObjectRelease_spec hrel
    · exact of_setObject hobj rfl rfl fun _ h => by cases h
    · exact of_setObject hobj rfl rfl fun _ h => by cases h; rfl
  | insert | insertPair | insertExisting | close | hostClose => exact of_objects rfl rfl
  | replace hrep =>
    rcases sysFdReplaceLocked_cases hi.table _ _ with
      ⟨e, h', -⟩ | ⟨f, h', -⟩ | ⟨feS, feD, sys1, -, -, -, hacq, h'⟩ <;> rw [h'] at hrep <;>
      cases hrep
    exact of_acquire hacq rfl rfl rfl rfl
  | dup reallocOk draws hdup =>
    rcases sysFdDup_cases hi.table _ reallocOk draws with
      ⟨e, h'⟩ | ⟨f, h', -⟩ | ⟨fe, fd, sys1, -, -, -, hacq, h'⟩ <;> rw [h'] at hdup <;> cases hdup
    exact of_acquire hacq rfl rfl rfl rfl
  | statPutRights base inheriting hput =>
    rcases sysFdStatPutRights_cases w.sys _ base inheriting with
      ⟨e, h'⟩ | ⟨fe, -, -, -, h'⟩ <;> rw [h'] at hput <;> cases hput
    exact of_objects rfl rfl

/-- The run lemma of the types. -/
theorem TypesKept.of_steps {w w' : World} (h : Relation.ReflTransGen Step w w') (hi : w.Inv) :
    TypesKept w w' := by
  induction h with
  | refl => exact .refl w
  | tail hsteps hstep ih => exact ih.trans (hstep.typesKept (hi.of_steps hsteps))

/-- A call that grants no new right keeps the rights invariant: an old object's type is the
one it had when an older slot's rights were checked against it. -/
theorem RightsInv.step {m : RightsMasks} {sys sys' : Sys} (hinv : RightsInv m sys)
    (hi : World.Inv ⟨sys, []⟩) (hi' : World.Inv ⟨sys', []⟩) (hk : TypesKept ⟨sys, []⟩ ⟨sys', []⟩)
    (hf : RightsFrom m sys sys') : RightsInv m sys' := by
  intro i fe hslot
  rcases hf i fe hslot with ⟨-, obj, hobj, hmax⟩ | ⟨j, fe0, hj, hsame, hb, hin⟩
  · exact ⟨obj, hobj, hmax⟩
  · obtain ⟨obj0, hobj0, hmax0⟩ := hinv j fe0 hj
    obtain ⟨obj', hobj'⟩ := hi'.live_of_slot hslot
    rw [hsame] at hobj0
    obtain ⟨obj, hobj, htype⟩ := hk.2 _ _ hobj' (hi.lt_next_of_live hobj0)
    rw [hobj0] at hobj
    cases hobj
    exact ⟨obj', hobj', htype ▸ hmax0.narrow hb hin⟩

/-- The states a run of system calls reaches from the first process state. -/
inductive Syscall.Reachable (m : RightsMasks) : Sys → Prop
  | init : Syscall.Reachable m Sys.init
  | step {sys sys' : Sys} (c : Syscall) :
      Syscall.Reachable m sys → c.run m sys = .ok sys' → Syscall.Reachable m sys'

/-- The run lemma: with no call in flight, the lifetime invariant and the rights invariant hold
in every reachable state. -/
theorem Syscall.Reachable.inv {m : RightsMasks} {sys : Sys} (h : Syscall.Reachable m sys) :
    World.Inv ⟨sys, []⟩ ∧ RightsInv m sys := by
  induction h with
  | init => exact ⟨init_inv, fun i fe h => by simp [Sys.init, fdTableInit] at h⟩
  | step c _ hrun ih =>
    obtain ⟨hi, hinv⟩ := ih
    have hruns := c.run_runs m hi.table hrun []
    have hi' := hi.of_steps hruns
    exact ⟨hi', hinv.step hi hi' (.of_steps hruns hi) (c.run_rightsFrom m hi.table hrun)⟩

/-- Rights never amplify: from every reachable state, a call leaves each slot with an object it
made, within the largest rights of its type, or one a slot held before, with no more rights; and
every slot's object is live, with rights within its type's. -/
theorem rights_never_amplify (m : RightsMasks) {sys : Sys} (h : Syscall.Reachable m sys) :
    (∀ (c : Syscall) sys', c.run m sys = .ok sys' →
      ∀ (i : Nat) (fe : FdEntry), sys'.table.entries[i]? = some (some fe) →
        EntryFrom m sys sys' fe) ∧
    ∀ (i : Nat) (fe : FdEntry), sys.table.entries[i]? = some (some fe) →
      ∃ obj, sys.objects fe.object = some obj ∧
        WithinMax m obj.type fe.rightsBase fe.rightsInheriting :=
  ⟨fun c _ hrun => c.run_rightsFrom m h.inv.1.table hrun, h.inv.2⟩

/-- After `sys_file_open` of host descriptor 3, a regular file, the object of slot 0 is live and
its rights are within those of a regular file. -/
theorem rights_never_amplify_oneFile :
    ∃ obj, oneFile.objects 0 = some obj ∧ WithinMax default obj.type 0 0 :=
  (rights_never_amplify default (.step (.fileOpen 3 regularFileInfo 0 0 true true [0]) .init (by
    have hg : growSize 0 2 1 = 2 := by
      rw [growSize_double (by decide) (by decide), growSize_self (by decide)]
    simp [Syscall.run, sysFileOpenInstall, fdDetermineTypeRights, typeMasks, regularFileInfo,
      stripAccessMode, fdTableInsertFd, fdObjectNew, fdTableInsert, fdTableInsertLocked,
      fdTableGrow, Sys.init, fdTableInit, hg, Sys.setNumber, fdTableUnused, unusedLoop,
      randomUniform, fdTableAttach, size, oneFile, bind, Except.bind, pure, Except.pure,
      Except.map, Sys.setObject]
    funext o
    by_cases h : o = 0 <;> simp [h]))).2 0 ⟨0, 0, 0⟩ rfl

end CloudabiEmulator
