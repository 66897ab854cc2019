import CloudabiEmulator.TableOps

/-! The representation invariant of the descriptor table, and what each function on the
table does to a table that has it: `used` counts the slots whose object is not `NULL`, and at
least half of the slots are free. Each critical section of the operations gets one lemma that
lists every way it can end; the invariants of the later modules are derived from those. -/

namespace CloudabiEmulator

namespace FdTable

/-- Slot `i` lies below `size` and its object is not `NULL`. -/
def Occupied (t : FdTable) (i : Nat) : Prop := ∃ fe, t.entries[i]? = some (some fe)

instance (t : FdTable) (i : Nat) : Decidable (t.Occupied i) :=
  match h : t.entries[i]? with
  | some (some fe) => isTrue ⟨fe, h⟩
  | some none => isFalse fun ⟨_, h'⟩ => by simp [h] at h'
  | none => isFalse fun ⟨_, h'⟩ => by simp [h] at h'

/-- The representation invariant of `struct fd_table`. -/
structure Wf (t : FdTable) : Prop where
  used_eq : t.used = t.occupied
  half_free : t.used * 2 ≤ t.size

theorem init_wf : fdTableInit.Wf := ⟨rfl, le_refl 0⟩

/-- The table `fd_table_attach` leaves: slot `fd` holds `e`, one more descriptor is used. -/
def put (t : FdTable) (fd : Nat) (e : FdEntry) : FdTable := ⟨t.entries.set fd (some e), t.used + 1⟩

/-- The table `fd_table_detach` leaves: slot `fd` is empty, one descriptor fewer is used. -/
def clear (t : FdTable) (fd : Nat) : FdTable := ⟨t.entries.set fd none, t.used - 1⟩

/-- The table after the entry of an occupied slot is rewritten in place. -/
def update (t : FdTable) (fd : Nat) (e : FdEntry) : FdTable :=
  { t with entries := t.entries.set fd (some e) }

section Slots

variable {t : FdTable} {fd i : Nat}

@[simp] theorem size_put (e : FdEntry) : (t.put fd e).size = t.size := List.length_set _ _ _
@[simp] theorem size_clear : (t.clear fd).size = t.size := List.length_set _ _ _
@[simp] theorem size_update (e : FdEntry) : (t.update fd e).size = t.size := List.length_set _ _ _
@[simp] theorem used_put (e : FdEntry) : (t.put fd e).used = t.used + 1 := rfl
@[simp] theorem used_clear : (t.clear fd).used = t.used - 1 := rfl
@[simp] theorem used_update (e : FdEntry) : (t.update fd e).used = t.used := rfl

theorem getElem?_set_of_lt {l : List (Option FdEntry)} (hlt : fd < l.length) (y : Option FdEntry) :
    (l.set fd y)[i]? = if i = fd then some y else l[i]? := by
  rw [List.getElem?_set]
  by_cases hi : i = fd
  · simp [hi, hlt]
  · simp [hi, Ne.symm hi]

theorem getElem?_put (hlt : fd < t.size) (e : FdEntry) :
    (t.put fd e).entries[i]? = if i = fd then some (some e) else t.entries[i]? :=
  getElem?_set_of_lt hlt _

theorem getElem?_clear (hlt : fd < t.size) :
    (t.clear fd).entries[i]? = if i = fd then some none else t.entries[i]? :=
  getElem?_set_of_lt hlt _

theorem getElem?_update (hlt : fd < t.size) (e : FdEntry) :
    (t.update fd e).entries[i]? = if i = fd then some (some e) else t.entries[i]? :=
  getElem?_set_of_lt hlt _

theorem lt_size_of_getElem? {x : Option FdEntry} (h : t.entries[fd]? = some x) : fd < t.size :=
  (List.getElem?_eq_some_iff.1 h).1

theorem not_occupied_of_free (h : t.entries[fd]? = some none) : ¬ t.Occupied fd := by
  rintro ⟨fe, hfe⟩
  simp [h] at hfe

/-- A slot below `size` that is not occupied is empty. -/
theorem free_of_not_occupied (hlt : fd < t.size) (h : ¬ t.Occupied fd) :
    t.entries[fd]? = some none := by
  rw [List.getElem?_eq_getElem hlt]
  cases hfd : t.entries[fd] with
  | none => rfl
  | some fe => exact absurd ⟨fe, by rw [List.getElem?_eq_getElem hlt, hfd]⟩ h

theorem occupied_put (hlt : fd < t.size) (e : FdEntry) (i : Nat) :
    (t.put fd e).Occupied i ↔ t.Occupied i ∨ i = fd := by
  simp only [Occupied, getElem?_put hlt]
  by_cases hi : i = fd <;> simp [hi]

theorem occupied_clear (hlt : fd < t.size) (i : Nat) :
    (t.clear fd).Occupied i ↔ t.Occupied i ∧ i ≠ fd := by
  simp only [Occupied, getElem?_clear hlt]
  by_cases hi : i = fd <;> simp [hi]

theorem occupied_update (hocc : t.Occupied fd) (e : FdEntry) (i : Nat) :
    (t.update fd e).Occupied i ↔ t.Occupied i := by
  obtain ⟨fe, hfe⟩ := hocc
  simp only [Occupied, getElem?_update (lt_size_of_getElem? hfe)]
  by_cases hi : i = fd <;> simp [hi, hfe]

end Slots

/-- Writing slot `fd` changes the count of slots satisfying `p` by what it removes and adds. -/
theorem countP_set {p : Option FdEntry → Bool} {l : List (Option FdEntry)} {fd : Nat}
    {x : Option FdEntry} (h : l[fd]? = some x) (y : Option FdEntry) :
    (l.set fd y).countP p + (p x).toNat = l.countP p + (p y).toNat := by
  obtain ⟨hlt, hx⟩ := List.getElem?_eq_some_iff.1 h
  have hpos : (p x).toNat ≤ l.countP p := by
    cases hxs : p x
    · exact Nat.zero_le _
    · exact List.countP_pos_iff.2 ⟨x, hx ▸ List.getElem_mem hlt, hxs⟩
  rw [List.countP_set _ _ _ _ hlt, hx]
  revert hpos
  cases p x <;> cases p y <;> simp only [Bool.toNat_false, Bool.toNat_true, Bool.false_eq_true,
    reduceIte] <;> omega

theorem Wf.put {t : FdTable} {fd : Nat} (hw : t.Wf) (hfree : t.entries[fd]? = some none)
    (hroom : (t.used + 1) * 2 ≤ t.size) (e : FdEntry) : (t.put fd e).Wf := by
  have hcount := countP_set (p := Option.isSome) hfree (some e)
  simp only [Option.isSome_none, Option.isSome_some, Bool.toNat_false, Bool.toNat_true] at hcount
  refine ⟨?_, by simpa using hroom⟩
  show t.used + 1 = (t.entries.set fd (some e)).countP Option.isSome
  simp only [hw.used_eq, occupied]
  omega

theorem Wf.used_pos {t : FdTable} {fd : Nat} {fe : FdEntry} (hw : t.Wf)
    (hocc : t.entries[fd]? = some (some fe)) : 0 < t.used := by
  have hcount := countP_set (p := Option.isSome) hocc none
  simp only [Option.isSome_none, Option.isSome_some, Bool.toNat_false, Bool.toNat_true] at hcount
  simp only [hw.used_eq, occupied]
  omega

theorem Wf.clear {t : FdTable} {fd : Nat} {fe : FdEntry} (hw : t.Wf)
    (hocc : t.entries[fd]? = some (some fe)) : (t.clear fd).Wf := by
  have hcount := countP_set (p := Option.isSome) hocc none
  simp only [Option.isSome_none, Option.isSome_some, Bool.toNat_false, Bool.toNat_true] at hcount
  have := hw.half_free
  refine ⟨?_, by simp only [size_clear, used_clear]; omega⟩
  show t.used - 1 = (t.entries.set fd none).countP Option.isSome
  simp only [hw.used_eq, occupied]
  omega

theorem Wf.update {t : FdTable} {fd : Nat} {fe : FdEntry} (hw : t.Wf)
    (hocc : t.entries[fd]? = some (some fe)) (e : FdEntry) : (t.update fd e).Wf := by
  have hcount := countP_set (p := Option.isSome) hocc (some e)
  simp only [Option.isSome_some, Bool.toNat_true, Nat.add_right_cancel_iff] at hcount
  refine ⟨?_, by simpa using hw.half_free⟩
  show t.used = (t.entries.set fd (some e)).countP Option.isSome
  rw [hcount, hw.used_eq]
  rfl

end FdTable

open FdTable

/-- The doubling loop ends on a size above `min`, at least `need`, and not below its start. -/
theorem growSize_spec (min need size : Nat) (h : size ≠ 0) :
    min < growSize min need size ∧ need ≤ growSize min need size ∧
      size ≤ growSize min need size := by
  rw [growSize]
  split
  · next hc =>
    have := growSize_spec min need (size * 2) (by omega)
    omega
  · next hc =>
    simp only [not_and, not_or, not_le, not_lt] at hc
    have := hc h
    omega
termination_by min + need + 1 - size
decreasing_by omega

theorem growSize_double {min need size : Nat} (h0 : size ≠ 0) (h : size ≤ min ∨ size < need) :
    growSize min need size = growSize min need (size * 2) := by
  rw [growSize, if_pos ⟨h0, h⟩]

theorem growSize_self {min need size : Nat} (h : ¬ (size ≤ min ∨ size < need)) :
    growSize min need size = size := by
  rw [growSize, if_neg fun h' => h h'.2]

/-- `fd_table_grow` only appends empty slots, keeps `used`, and leaves the table larger than
`min` with room for `incr` more descriptors at half occupancy. -/
theorem fdTableGrow_spec {t t' : FdTable} {min incr : Nat} {reallocOk : Bool}
    (h : fdTableGrow t min incr reallocOk = some t') :
    (∃ k, t' = ⟨t.entries ++ List.replicate k none, t.used⟩) ∧
      min < t'.size ∧ (t.used + incr) * 2 ≤ t'.size := by
  unfold fdTableGrow at h
  split at h
  · next hneed =>
    cases reallocOk <;> simp only [Bool.false_eq_true, if_false, if_true, reduceCtorEq,
      Option.some.injEq] at h
    · subst h
      obtain ⟨h1, h2, h3⟩ := growSize_spec min ((t.used + incr) * 2)
        (if t.size = 0 then 1 else t.size) (by split <;> omega)
      refine ⟨⟨_, rfl⟩, ?_⟩
      generalize growSize min _ _ = g at *
      have : t.size ≤ g := by split at h3 <;> omega
      simp only [size, List.length_append, List.length_replicate] at this ⊢
      omega
  · cases h
    exact ⟨⟨0, by simp⟩, by simp only [not_or, not_le, not_lt] at *; omega⟩

theorem FdTable.Wf.grow {t t' : FdTable} {min incr : Nat} {reallocOk : Bool} (hw : t.Wf)
    (h : fdTableGrow t min incr reallocOk = some t') :
    t'.Wf ∧ t'.used = t.used ∧ min < t'.size ∧ (t'.used + incr) * 2 ≤ t'.size ∧
      ∀ i, t'.Occupied i ↔ t.Occupied i := by
  obtain ⟨⟨k, rfl⟩, hmin, hroom⟩ := fdTableGrow_spec h
  refine ⟨⟨?_, by simp only [size] at hroom ⊢; omega⟩, rfl, hmin, hroom, fun i => ?_⟩
  · simp [occupied, hw.used_eq]
  · by_cases hi : i < t.entries.length
    · simp only [Occupied, List.getElem?_append_left hi]
    · simp [Occupied, List.getElem?_append_right (not_lt.1 hi), List.getElem?_replicate,
        List.getElem?_eq_none (not_lt.1 hi)]

/-- `fd_table_unused` only returns an empty slot, and when some slot is free it either
returns one or runs out of draws. -/
theorem unusedLoop_spec (t : FdTable) (draws : List Nat) :
    unusedLoop t draws = .error .unfinished ∨
      ∃ fd rest, unusedLoop t draws = .ok (fd, rest) ∧ t.entries[fd]? = some none := by
  induction draws with
  | nil => exact .inl rfl
  | cons r draws ih =>
    simp only [unusedLoop]
    split
    · exact .inr ⟨_, _, rfl, by assumption⟩
    · exact ih

theorem fdTableUnused_spec {t : FdTable} (h : t.used < t.size) (draws : List Nat) :
    fdTableUnused t draws = .error .unfinished ∨
      ∃ fd rest, fdTableUnused t draws = .ok (fd, rest) ∧ t.entries[fd]? = some none := by
  simp only [fdTableUnused, if_pos h]
  exact unusedLoop_spec t draws

theorem fdTableUnused_free {t : FdTable} {draws : List Nat} {fd : Nat} {rest : List Nat}
    (h : fdTableUnused t draws = .ok (fd, rest)) : fd < t.size ∧ t.entries[fd]? = some none := by
  simp only [fdTableUnused] at h
  split at h
  · rcases unusedLoop_spec t draws with h' | ⟨fd', rest', h', hfree⟩ <;> rw [h'] at h
    · cases h
    · cases h
      exact ⟨(List.getElem?_eq_some_iff.1 hfree).1, hfree⟩
  · cases h

/-- `fd_table_attach` on an empty slot with room for one more descriptor: its assertions
hold. -/
theorem fdTableAttach_ok {t : FdTable} {fd : Nat} (hfree : t.entries[fd]? = some none)
    (hroom : (t.used + 1) * 2 ≤ t.size) (fo : Nat) (rightsBase rightsInheriting : Rights) :
    fdTableAttach t fd fo rightsBase rightsInheriting =
      .ok (t.put fd ⟨fo, rightsBase, rightsInheriting⟩) := by
  have hlt := lt_size_of_getElem? hfree
  simp only [fdTableAttach, if_pos hlt, hfree, if_true]
  rw [if_pos (by simpa [size] using hroom)]
  rfl

/-- What a successful `fd_table_attach` was given and left. -/
theorem fdTableAttach_spec {t t' : FdTable} {fd fo : Nat} {rightsBase rightsInheriting : Rights}
    (h : fdTableAttach t fd fo rightsBase rightsInheriting = .ok t') :
    t.entries[fd]? = some none ∧ t' = t.put fd ⟨fo, rightsBase, rightsInheriting⟩ := by
  unfold fdTableAttach at h
  split at h
  · split at h
    · next hfree =>
      dsimp only at h
      split at h <;> cases h
      exact ⟨hfree, rfl⟩
    · cases h
  · cases h

/-- `fd_table_detach` on an occupied slot of a table with the invariant: its assertions
hold. -/
theorem fdTableDetach_ok {t : FdTable} {fd : Nat} {fe : FdEntry} (hw : t.Wf)
    (hocc : t.entries[fd]? = some (some fe)) :
    fdTableDetach t fd = .ok (t.clear fd, fe.object) := by
  simp only [fdTableDetach, if_pos (lt_size_of_getElem? hocc), hocc, if_pos (hw.used_pos hocc)]
  rfl

/-- The failed assertions of `fd_table_attach`, `fd_table_detach` and `fd_table_unused`. -/
def Fault.isTableAssertion : Fault → Bool
  | .assertion message => ["File descriptor table too small",
      "Attempted to overwrite an existing descriptor", "File descriptor too full",
      "Attempted to detach nonexistent descriptor", "Reference count mismatch",
      "File descriptor table has no free slots"].contains message
  | _ => false

theorem fdObjectRelease_table {sys sys' : Sys} {o : Nat} (h : fdObjectRelease sys o = .ok sys') :
    sys'.table = sys.table := by
  unfold fdObjectRelease at h
  split at h
  · cases h
  · split at h
    · cases hc : releaseClose _ <;> rw [hc] at h <;> cases h
      rfl
    · cases h
      rfl

theorem fdObjectRelease_fault {sys : Sys} {o : Nat} {f : Fault}
    (h : fdObjectRelease sys o = .error f) : f.isTableAssertion = false := by
  unfold fdObjectRelease releaseClose fdNumber at h
  split at h
  · cases h
    rfl
  · split at h
    · split at h
      · cases h
      · split at h <;> cases h
        decide
    · cases h

theorem refcountAcquire_table {sys sys' : Sys} {o : Option Nat}
    (h : refcountAcquire sys o = .ok sys') : sys'.table = sys.table := by
  unfold refcountAcquire at h
  split at h
  · cases h
  · split at h <;> cases h
    rfl

theorem refcountAcquire_fault {sys : Sys} {o : Option Nat} {f : Fault}
    (h : refcountAcquire sys o = .error f) : f.isTableAssertion = false := by
  unfold refcountAcquire at h
  split at h
  · cases h
    rfl
  · split at h <;> cases h
    rfl

theorem fdObjectNew_table {sys sys' : Sys} {type : FileType} {mallocOk : Bool} {o : Nat}
    (h : fdObjectNew sys type mallocOk = .ok (sys', o)) : sys'.table = sys.table := by
  unfold fdObjectNew at h
  split at h <;> cases h
  rfl

@[simp] theorem setNumber_objects_self {sys : Sys} {o : Nat} {obj : FdObject}
    (h : sys.objects o = some obj) (n : Int) :
    (sys.setNumber o n).objects o = some { obj with number := n } := by
  simp [Sys.setNumber, h]

theorem fdObjectNew_spec {sys sys' : Sys} {type : FileType} {mallocOk : Bool} {o : Nat}
    (h : fdObjectNew sys type mallocOk = .ok (sys', o)) :
    sys'.objects o = some ⟨1, type, -1, false⟩ ∧ sys'.closed = sys.closed ∧
      sys'.table = sys.table := by
  unfold fdObjectNew at h
  split at h <;> cases h
  simp [Sys.setObject]

/-- `fd_object_new` takes the next allocation number and touches no other object. -/
theorem fdObjectNew_fresh {sys sys' : Sys} {type : FileType} {mallocOk : Bool} {o : Nat}
    (h : fdObjectNew sys type mallocOk = .ok (sys', o)) :
    o = sys.nextObject ∧ sys'.nextObject = o + 1 ∧
      ∀ o', o' ≠ o → sys'.objects o' = sys.objects o' := by
  unfold fdObjectNew at h
  split at h <;> cases h
  exact ⟨rfl, rfl, fun _ h => if_neg h⟩

theorem fdTableGetEntry_ok {t : FdTable} {fd : Nat} {rightsBase rightsInheriting : Rights}
    {fe : FdEntry} (h : fdTableGetEntry t fd rightsBase rightsInheriting = .ok fe) :
    t.entries[fd]? = some (some fe) := by
  unfold fdTableGetEntry at h
  split at h
  · split at h <;> cases h
    assumption
  · cases h

theorem fdTableGetEntry_of_subset {t : FdTable} {fd : Nat} {fe : FdEntry}
    {rightsBase rightsInheriting : Rights} (hocc : t.entries[fd]? = some (some fe))
    (hb : rightsBase.Subset fe.rightsBase) (hi : rightsInheriting.Subset fe.rightsInheriting) :
    fdTableGetEntry t fd rightsBase rightsInheriting = .ok fe := by
  simp only [fdTableGetEntry, hocc, if_pos (And.intro hb hi)]

theorem fdTableGetEntry_not_subset {t : FdTable} {fd : Nat} {fe : FdEntry}
    {rightsBase rightsInheriting : Rights} (hocc : t.entries[fd]? = some (some fe))
    (hb : ¬ rightsBase.Subset fe.rightsBase) :
    fdTableGetEntry t fd rightsBase rightsInheriting = .error .enotcapable := by
  simp only [fdTableGetEntry, hocc, if_neg (fun h : _ ∧ _ => hb h.1)]

theorem fdTableGetEntry_of_occupied {t : FdTable} {fd : Nat} {fe : FdEntry}
    (hocc : t.entries[fd]? = some (some fe)) : fdTableGetEntry t fd 0 0 = .ok fe :=
  fdTableGetEntry_of_subset hocc (Rights.zero_subset _) (Rights.zero_subset _)

/-- A lookup asking for no rights fails only on a slot that is not occupied. -/
theorem fdTableGetEntry_zero {t : FdTable} {fd : Nat} {e : Errno}
    (h : fdTableGetEntry t fd 0 0 = .error e) : ¬ t.Occupied fd := by
  rintro ⟨fe, hfe⟩
  simp only [fdTableGetEntry, hfe, if_pos (And.intro (Rights.zero_subset _) (Rights.zero_subset _)),
    reduceCtorEq] at h

theorem fdTableGetEntry_rights {t : FdTable} {fd : Nat} {rightsBase rightsInheriting : Rights}
    {fe : FdEntry} (h : fdTableGetEntry t fd rightsBase rightsInheriting = .ok fe) :
    rightsBase.Subset fe.rightsBase ∧ rightsInheriting.Subset fe.rightsInheriting := by
  unfold fdTableGetEntry at h
  split at h
  · split at h <;> cases h
    assumption
  · cases h

/-- A growth that leaves the size as it was leaves the table as it was. -/
theorem fdTableGrow_same_size {t t' : FdTable} {min incr : Nat} {reallocOk : Bool}
    (h : fdTableGrow t min incr reallocOk = some t') (hsize : t'.size = t.size) : t' = t := by
  obtain ⟨⟨k, rfl⟩, -, -⟩ := fdTableGrow_spec h
  simp only [size, List.length_append, List.length_replicate] at hsize
  obtain rfl : k = 0 := by omega
  simp

section Sections

variable {t : FdTable}

/-- Every way the critical section of `fd_table_insert` ends on a table with the invariant:
out of random draws, with `realloc` failing, or with `fo` attached to a slot the growth left
free. -/
theorem fdTableInsertLocked_cases (hw : t.Wf) (fo : Nat) (rightsBase rightsInheriting : Rights)
    (reallocOk : Bool) (draws : List Nat) :
    fdTableInsertLocked t fo rightsBase rightsInheriting reallocOk draws = .error .unfinished ∨
    (fdTableGrow t 0 1 reallocOk = none ∧
      fdTableInsertLocked t fo rightsBase rightsInheriting reallocOk draws = .ok none) ∨
    ∃ tg fd, fdTableGrow t 0 1 reallocOk = some tg ∧ tg.entries[fd]? = some none ∧
      fdTableInsertLocked t fo rightsBase rightsInheriting reallocOk draws =
        .ok (some (tg.put fd ⟨fo, rightsBase, rightsInheriting⟩, fd)) := by
  unfold fdTableInsertLocked
  split
  · next hg => exact .inr (.inl ⟨hg, rfl⟩)
  · next tg hg =>
    obtain ⟨-, -, -, hroom, -⟩ := hw.grow hg
    rcases fdTableUnused_spec (by omega : tg.used < tg.size) draws with hun | ⟨fd, rest, hun, hfree⟩
    · exact .inl (by rw [hun]; rfl)
    · refine .inr (.inr ⟨tg, fd, hg, hfree, ?_⟩)
      simp only [hun, fdTableAttach_ok hfree hroom, bind, Except.bind, pure, Except.pure]

/-- Every way the critical section of `fd_table_insert_fdpair` ends on a table with the
invariant; the second slot is picked on the table that already holds the first. -/
theorem fdTableInsertFdpairLocked_cases (hw : t.Wf) (fo1 fo2 : Nat)
    (rightsBase1 rightsBase2 rightsInheriting : Rights) (reallocOk : Bool) (draws : List Nat) :
    fdTableInsertFdpairLocked t fo1 fo2 rightsBase1 rightsBase2 rightsInheriting reallocOk draws =
      .error .unfinished ∨
    (fdTableGrow t 0 2 reallocOk = none ∧ fdTableInsertFdpairLocked t fo1 fo2 rightsBase1
      rightsBase2 rightsInheriting reallocOk draws = .ok none) ∨
    ∃ tg fd1 fd2, fdTableGrow t 0 2 reallocOk = some tg ∧ tg.entries[fd1]? = some none ∧
      (tg.put fd1 ⟨fo1, rightsBase1, rightsInheriting⟩).entries[fd2]? = some none ∧
      fdTableInsertFdpairLocked t fo1 fo2 rightsBase1 rightsBase2 rightsInheriting reallocOk draws =
        .ok (some ((tg.put fd1 ⟨fo1, rightsBase1, rightsInheriting⟩).put fd2
          ⟨fo2, rightsBase2, rightsInheriting⟩, fd1, fd2)) := by
  unfold fdTableInsertFdpairLocked
  split
  · next hg => exact .inr (.inl ⟨hg, rfl⟩)
  · next tg hg =>
    obtain ⟨-, -, -, hroom, -⟩ := hw.grow hg
    rcases fdTableUnused_spec (by omega : tg.used < tg.size) draws with
      hun | ⟨fd1, draws1, hun, hfree1⟩
    · exact .inl (by rw [hun]; rfl)
    · have hroom1 : (tg.used + 1) * 2 ≤ tg.size := by omega
      rcases fdTableUnused_spec
          (by simp; omega : (tg.put fd1 ⟨fo1, rightsBase1, rightsInheriting⟩).used <
            (tg.put fd1 ⟨fo1, rightsBase1, rightsInheriting⟩).size) draws1 with
        hun2 | ⟨fd2, _, hun2, hfree2⟩
      · left
        simp only [hun, hun2, fdTableAttach_ok hfree1 hroom1, bind, Except.bind]
      · refine .inr (.inr ⟨tg, fd1, fd2, hg, hfree1, hfree2, ?_⟩)
        simp only [hun, hun2, fdTableAttach_ok hfree1 hroom1,
          fdTableAttach_ok hfree2 (by simp; omega), bind, Except.bind, pure, Except.pure]

/-- Every way the critical section of `fd_table_insert_existing` ends on a table with the
invariant, for a slot that is not occupied: with `realloc` failing, or with `fo` attached. -/
theorem fdTableInsertExistingLocked_cases (hw : t.Wf) {slot : Nat} (hslot : ¬ t.Occupied slot)
    (fo : Nat) (rightsBase rightsInheriting : Rights) (reallocOk : Bool) :
    (fdTableGrow t slot 1 reallocOk = none ∧
      fdTableInsertExistingLocked t slot fo rightsBase rightsInheriting reallocOk = .ok none) ∨
    ∃ tg, fdTableGrow t slot 1 reallocOk = some tg ∧ tg.entries[slot]? = some none ∧
      fdTableInsertExistingLocked t slot fo rightsBase rightsInheriting reallocOk =
        .ok (some (tg.put slot ⟨fo, rightsBase, rightsInheriting⟩)) := by
  unfold fdTableInsertExistingLocked
  split
  · next hg => exact .inl ⟨hg, rfl⟩
  · next tg hg =>
    obtain ⟨-, -, hmin, hroom, hocc⟩ := hw.grow hg
    have hfree := free_of_not_occupied hmin (by rwa [hocc])
    exact .inr ⟨tg, hg, hfree, by rw [fdTableAttach_ok hfree hroom]; rfl⟩

/-- A successful critical section of `fd_table_insert_existing` attached `fo` to `slot`, which
the growth left free. -/
theorem fdTableInsertExistingLocked_some {slot fo : Nat} {rightsBase rightsInheriting : Rights}
    {reallocOk : Bool} {t' : FdTable}
    (h : fdTableInsertExistingLocked t slot fo rightsBase rightsInheriting reallocOk =
      .ok (some t')) :
    ∃ tg, fdTableGrow t slot 1 reallocOk = some tg ∧ tg.entries[slot]? = some none ∧
      t' = tg.put slot ⟨fo, rightsBase, rightsInheriting⟩ := by
  unfold fdTableInsertExistingLocked at h
  split at h
  · cases h
  · next tg hg =>
    cases hatt : fdTableAttach tg slot fo rightsBase rightsInheriting with
    | error f => rw [hatt] at h; cases h
    | ok t'' =>
      rw [hatt] at h
      cases h
      exact ⟨tg, hg, fdTableAttach_spec hatt⟩

/-- Every way the critical section of `sys_fd_close` ends on a table with the invariant. -/
theorem sysFdCloseLocked_cases (hw : t.Wf) (fd : Nat) :
    (¬ t.Occupied fd ∧ ∃ e, sysFdCloseLocked t fd = .ok (.error e)) ∨
    ∃ fe, t.entries[fd]? = some (some fe) ∧
      sysFdCloseLocked t fd = .ok (.ok (t.clear fd, fe.object)) := by
  unfold sysFdCloseLocked
  split
  · next e he => exact .inl ⟨fdTableGetEntry_zero he, e, rfl⟩
  · next fe hfe =>
    have hocc := fdTableGetEntry_ok hfe
    exact .inr ⟨fe, hocc, by rw [fdTableDetach_ok hw hocc]; rfl⟩

end Sections

section Calls

variable {sys : Sys}

/-- Every way the critical section of `sys_fd_replace` ends on a table with the invariant:
`EBADF` with nothing changed, a fault, or `to` detached and then given `from`'s entry, with a
new reference to its object, when `from ≠ to`. -/
theorem sysFdReplaceLocked_cases (hw : sys.table.Wf) (src dst : Nat) :
    (∃ e, sysFdReplaceLocked sys src dst = .ok (sys, .error e) ∧
      (¬ sys.table.Occupied src ∨ ¬ sys.table.Occupied dst)) ∨
    (∃ f, sysFdReplaceLocked sys src dst = .error f ∧ f.isTableAssertion = false) ∨
    ∃ feS feD sys1, sys.table.entries[src]? = some (some feS) ∧
      sys.table.entries[dst]? = some (some feD) ∧ src ≠ dst ∧
      refcountAcquire { sys with table := sys.table.clear dst } (some feS.object) = .ok sys1 ∧
      sysFdReplaceLocked sys src dst =
        .ok ({ sys1 with table := (sys.table.clear dst).put dst feS }, .ok feD.object) := by
  unfold sysFdReplaceLocked
  split
  · next e he => exact .inl ⟨e, rfl, .inl (fdTableGetEntry_zero he)⟩
  · next feS hS =>
    split
    · next e he => exact .inl ⟨e, rfl, .inr (fdTableGetEntry_zero he)⟩
    · next feD hD =>
      have hoccS := fdTableGetEntry_ok hS
      have hoccD := fdTableGetEntry_ok hD
      have hlt := lt_size_of_getElem? hoccD
      simp only [fdTableDetach_ok hw hoccD, bind, Except.bind]
      by_cases hsd : src = dst
      · subst hsd
        refine .inr (.inl ⟨.nullDeref, ?_, rfl⟩)
        simp [getElem?_clear hlt, refcountAcquire]
      · have hfrom : ((sys.table.clear dst).entries[src]?).join = some feS := by
          simp [getElem?_clear hlt, hsd, hoccS]
        simp only [hfrom, Option.map_some']
        cases hacq :
            refcountAcquire { sys with table := sys.table.clear dst } (some feS.object) with
        | error f => exact .inr (.inl ⟨f, rfl, refcountAcquire_fault hacq⟩)
        | ok sys1 =>
          have ht := refcountAcquire_table hacq
          have hfree : (sys.table.clear dst).entries[dst]? = some none := by
            simp [getElem?_clear hlt]
          have hroom : ((sys.table.clear dst).used + 1) * 2 ≤ (sys.table.clear dst).size := by
            have := hw.half_free
            have := hw.used_pos hoccD
            simp only [used_clear, size_clear]
            omega
          refine .inr (.inr ⟨feS, feD, sys1, hoccS, hoccD, hsd, hacq, ?_⟩)
          simp only [ht, fdTableAttach_ok hfree hroom, pure, Except.pure]

/-- Every way `sys_fd_dup` ends on a table with the invariant: an error with nothing
changed, a fault, or a new reference to `from`'s object attached with its rights to a free
slot of the table, which did not have to grow. -/
theorem sysFdDup_cases (hw : sys.table.Wf) (src : Nat) (reallocOk : Bool) (draws : List Nat) :
    (∃ e, sysFdDup sys src reallocOk draws = .ok (sys, .error e)) ∨
    (∃ f, sysFdDup sys src reallocOk draws = .error f ∧ f.isTableAssertion = false) ∨
    ∃ fe fd sys1, sys.table.entries[src]? = some (some fe) ∧ sys.table.entries[fd]? = some none ∧
      (sys.table.used + 1) * 2 ≤ sys.table.size ∧
      refcountAcquire sys (some fe.object) = .ok sys1 ∧
      sysFdDup sys src reallocOk draws =
        .ok ({ sys1 with table := sys.table.put fd fe }, .ok fd) := by
  unfold sysFdDup
  split
  · next e _ => exact .inl ⟨e, rfl⟩
  · next fe hfe =>
    split
    · exact .inl ⟨_, rfl⟩
    · next tg hg =>
      obtain ⟨-, hu, -, hroom, -⟩ := hw.grow hg
      split
      · exact .inr (.inl ⟨.useAfterFree, rfl, rfl⟩)
      · next hsize =>
        obtain rfl := fdTableGrow_same_size hg (not_not.1 hsize)
        rcases fdTableUnused_spec (by omega : sys.table.used < sys.table.size) draws with
          hun | ⟨fd, rest, hun, hfree⟩
        · exact .inr (.inl ⟨.unfinished, by rw [hun]; rfl, rfl⟩)
        · simp only [hun, bind, Except.bind]
          rw [show ({ sys with table := sys.table } : Sys) = sys from rfl]
          cases hacq : refcountAcquire sys (some fe.object) with
          | error f => exact .inr (.inl ⟨f, rfl, refcountAcquire_fault hacq⟩)
          | ok sys1 =>
            refine .inr (.inr ⟨fe, fd, sys1, fdTableGetEntry_ok hfe, hfree, hroom, hacq, ?_⟩)
            simp only [refcountAcquire_table hacq, fdTableAttach_ok hfree hroom, pure, Except.pure]

/-- Every way the rights branch of `sys_fd_stat_put` ends: an error with nothing changed, or
the entry of an occupied slot whose rights include the new ones rewritten with them. -/
theorem sysFdStatPutRights_cases (sys : Sys) (fd : Nat) (base inheriting : Rights) :
    (∃ e, sysFdStatPutRights sys fd base inheriting = .ok (sys, .error e)) ∨
    ∃ fe, sys.table.entries[fd]? = some (some fe) ∧ base.Subset fe.rightsBase ∧
      inheriting.Subset fe.rightsInheriting ∧
      sysFdStatPutRights sys fd base inheriting =
        .ok ({ sys with table := sys.table.update fd ⟨fe.object, base, inheriting⟩ }, .ok ()) := by
  unfold sysFdStatPutRights
  split
  · next e _ => exact .inl ⟨e, rfl⟩
  · next fe hfe =>
    obtain ⟨hb, hi⟩ := fdTableGetEntry_rights hfe
    exact .inr ⟨fe, fdTableGetEntry_ok hfe, hb, hi, rfl⟩

theorem sysFdStatPutRights_ebadf (h : ¬ sys.table.Occupied fd) (base inheriting : Rights) :
    sysFdStatPutRights sys fd base inheriting = .ok (sys, .error .ebadf) := by
  have hget : fdTableGetEntry sys.table fd base inheriting = .error .ebadf := by
    unfold fdTableGetEntry
    split
    · next fe hfe => exact absurd ⟨fe, hfe⟩ h
    · rfl
  simp only [sysFdStatPutRights, hget]

theorem sysFdStatPutRights_enotcapable {fe : FdEntry} {base inheriting : Rights}
    (hocc : sys.table.entries[fd]? = some (some fe))
    (h : ¬ (base.Subset fe.rightsBase ∧ inheriting.Subset fe.rightsInheriting)) :
    sysFdStatPutRights sys fd base inheriting = .ok (sys, .error .enotcapable) := by
  simp only [sysFdStatPutRights, fdTableGetEntry, hocc, if_neg h]

theorem fdTableGetEntry_update_self {t : FdTable} (hlt : fd < t.size) (e : FdEntry)
    (rightsBase rightsInheriting : Rights) :
    (∃ fe, fdTableGetEntry (t.update fd e) fd rightsBase rightsInheriting = .ok fe) ↔
      rightsBase.Subset e.rightsBase ∧ rightsInheriting.Subset e.rightsInheriting := by
  have hslot := (FdTable.getElem?_update hlt e).trans (if_pos (rfl : fd = fd))
  constructor
  · rintro ⟨fe, h⟩
    obtain ⟨hb, hi⟩ := fdTableGetEntry_rights h
    cases (fdTableGetEntry_ok h).symm.trans hslot
    exact ⟨hb, hi⟩
  · rintro ⟨hb, hi⟩
    exact ⟨e, fdTableGetEntry_of_subset hslot hb hi⟩

/-- `sys_fd_stat_put(CLOUDABI_FDSTAT_RIGHTS)` succeeds exactly on an occupied slot whose rights
include the new ones; the slot then keeps its object with exactly the new rights and a later lookup
succeeds exactly within them; otherwise `EBADF` or `ENOTCAPABLE`, with the process unchanged. -/
theorem sysFdStatPutRights_restrict (sys : Sys) (fd : Nat) (base inheriting : Rights) :
    ((∃ sys', sysFdStatPutRights sys fd base inheriting = .ok (sys', .ok ())) ↔
      fd < sys.table.size ∧ ∃ fe, sys.table.entries[fd]? = some (some fe) ∧
        base.Subset fe.rightsBase ∧ inheriting.Subset fe.rightsInheriting) ∧
    (∀ sys', sysFdStatPutRights sys fd base inheriting = .ok (sys', .ok ()) →
      ∃ fe, sys.table.entries[fd]? = some (some fe) ∧
        sys' = { sys with table := sys'.table } ∧
        sys'.table.entries[fd]? = some (some ⟨fe.object, base, inheriting⟩) ∧
        (∀ i, i ≠ fd → sys'.table.entries[i]? = sys.table.entries[i]?) ∧
        sys'.table.used = sys.table.used ∧ sys'.table.size = sys.table.size ∧
        ∀ rightsBase rightsInheriting,
          (∃ fe', fdTableGetEntry sys'.table fd rightsBase rightsInheriting = .ok fe') ↔
            rightsBase.Subset base ∧ rightsInheriting.Subset inheriting) ∧
    (¬ sys.table.Occupied fd →
      sysFdStatPutRights sys fd base inheriting = .ok (sys, .error .ebadf)) ∧
    (∀ fe, sys.table.entries[fd]? = some (some fe) →
      ¬ (base.Subset fe.rightsBase ∧ inheriting.Subset fe.rightsInheriting) →
      sysFdStatPutRights sys fd base inheriting = .ok (sys, .error .enotcapable)) := by
  refine ⟨⟨fun ⟨sys', h⟩ => ?_, fun ⟨_, fe, hocc, hb, hi⟩ => ?_⟩, fun sys' h => ?_,
    fun h => sysFdStatPutRights_ebadf h base inheriting, fun _ => sysFdStatPutRights_enotcapable⟩
  · rcases sysFdStatPutRights_cases sys fd base inheriting with ⟨e, he⟩ | ⟨fe, hocc, hb, hi, -⟩
    · cases h.symm.trans he
    · exact ⟨FdTable.lt_size_of_getElem? hocc, fe, hocc, hb, hi⟩
  · simp only [sysFdStatPutRights, fdTableGetEntry_of_subset hocc hb hi]
    exact ⟨_, rfl⟩
  · rcases sysFdStatPutRights_cases sys fd base inheriting with ⟨e, he⟩ | ⟨fe, hocc, -, -, he⟩
    · cases h.symm.trans he
    cases h.symm.trans he
    have hlt := FdTable.lt_size_of_getElem? hocc
    refine ⟨fe, hocc, rfl, (FdTable.getElem?_update hlt _).trans (if_pos rfl),
      fun i hi => (FdTable.getElem?_update hlt _).trans (if_neg hi), rfl,
      FdTable.size_update _, fdTableGetEntry_update_self hlt _⟩

/-- Every way `fd_object_get_locked` ends: an error with nothing changed, a fault, or a new
reference to the object of an occupied slot that holds the rights asked for. -/
theorem fdObjectGetLocked_cases (sys : Sys) (fd : Nat) (rightsBase rightsInheriting : Rights) :
    (∃ e, fdObjectGetLocked sys fd rightsBase rightsInheriting = .ok (sys, .error e)) ∨
    (∃ f, fdObjectGetLocked sys fd rightsBase rightsInheriting = .error f ∧
      f.isTableAssertion = false) ∨
    ∃ fe sys1, sys.table.entries[fd]? = some (some fe) ∧ rightsBase.Subset fe.rightsBase ∧
      rightsInheriting.Subset fe.rightsInheriting ∧
      refcountAcquire sys (some fe.object) = .ok sys1 ∧
      fdObjectGetLocked sys fd rightsBase rightsInheriting = .ok (sys1, .ok fe.object) := by
  unfold fdObjectGetLocked
  split
  · next e _ => exact .inl ⟨e, rfl⟩
  · next fe hfe =>
    obtain ⟨hb, hi⟩ := fdTableGetEntry_rights hfe
    cases hacq : refcountAcquire sys (some fe.object) with
    | error f => exact .inr (.inl ⟨f, rfl, refcountAcquire_fault hacq⟩)
    | ok sys1 => exact .inr (.inr ⟨fe, sys1, fdTableGetEntry_ok hfe, hb, hi, hacq, rfl⟩)

/-- The reference `fd_object_get_locked` takes to the live object of an occupied slot. -/
theorem fdObjectGetLocked_of_live {sys : Sys} {fd : Nat} {fe : FdEntry} {obj : FdObject}
    {rightsBase rightsInheriting : Rights} (hocc : sys.table.entries[fd]? = some (some fe))
    (hb : rightsBase.Subset fe.rightsBase) (hi : rightsInheriting.Subset fe.rightsInheriting)
    (hobj : sys.objects fe.object = some obj) :
    fdObjectGetLocked sys fd rightsBase rightsInheriting =
      .ok (sys.setObject fe.object (some { obj with refcount := obj.refcount + 1 }),
        .ok fe.object) := by
  simp [fdObjectGetLocked, fdTableGetEntry_of_subset hocc hb hi, refcountAcquire, hobj, bind,
    Except.bind, pure, Except.pure]

/-- A call of the `fd_object_get` family leaves the table as it was. -/
theorem fdObjectCall_table {α : Type} {sys sys' : Sys} {fd : Nat} {rightsBase : Rights}
    {host : FileType → Except Errno α} {r : Except Errno α}
    (h : fdObjectCall sys fd rightsBase host = .ok (sys', r)) : sys'.table = sys.table := by
  unfold fdObjectCall at h
  rcases fdObjectGetLocked_cases sys fd rightsBase 0 with
    ⟨e, hg⟩ | ⟨f, hg, -⟩ | ⟨fe, sys1, -, -, -, hacq, hg⟩ <;>
    simp only [hg, bind, Except.bind, pure, Except.pure] at h
  · cases h; rfl
  · cases h
  · split at h
    · cases h
    · obtain ⟨_, -, h⟩ := Except.bind_eq_ok h
      obtain ⟨s, hrel, h⟩ := Except.bind_eq_ok h
      cases h
      exact (fdObjectRelease_table hrel).trans (refcountAcquire_table hacq)

end Calls

end CloudabiEmulator
