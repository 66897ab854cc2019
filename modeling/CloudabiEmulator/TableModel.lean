import CloudabiEmulator.TypeRights

/-! The descriptor table of `posix.c` (`struct fd_table`, `struct fd_entry`) and the objects
its slots point to (`struct fd_object`), with the functions that work on them under the
table lock: lookup, growth, attach, detach and the random choice of a free slot, and the
reference counting of objects. An object pointer is the object's allocation number; a slot
whose object is `NULL` is `none`. Each function is one critical section; what runs outside
the lock (`fd_object_release` after a detach) is a function of its own. -/

namespace CloudabiEmulator

/-- A `struct fd_entry` whose `object` is not `NULL`. -/
structure FdEntry where
  object : Nat
  rightsBase : Rights
  rightsInheriting : Rights
  deriving DecidableEq, Repr

/-- `struct fd_table`: the array `entries[0..size)` and the counter `used`. -/
structure FdTable where
  entries : List (Option FdEntry)
  used : Nat
  deriving DecidableEq, Repr

namespace FdTable

def size (t : FdTable) : Nat := t.entries.length

/-- The number of slots whose object is not `NULL`. -/
def occupied (t : FdTable) : Nat := t.entries.countP Option.isSome

end FdTable

/-- `fd_table_init`. -/
def fdTableInit : FdTable := ⟨[], 0⟩

/-- A `struct fd_object`: its reference count, type, host descriptor (`-1` when virtual) and
whether `sys_file_readdir` has installed a directory stream on it. -/
structure FdObject where
  refcount : Nat
  type : FileType
  number : Int
  directoryHandle : Bool
  deriving DecidableEq, Repr

/-- How `fd_object_release` gave a host descriptor back. -/
inductive HostClose where
  | close (fd : Int)
  | closedir (fd : Int)
  deriving DecidableEq, Repr

/-- The emulated process: its table, its live objects by allocation number, the number the
next `malloc` of an object gets, and the host descriptors closed so far, oldest first. -/
structure Sys where
  table : FdTable
  objects : Nat → Option FdObject
  nextObject : Nat
  closed : List HostClose

namespace Sys

def setObject (sys : Sys) (o : Nat) (v : Option FdObject) : Sys :=
  { sys with objects := fun o' => if o' = o then v else sys.objects o' }

/-- `fo->number = number`. -/
def setNumber (sys : Sys) (o : Nat) (number : Int) : Sys :=
  match sys.objects o with
  | some obj => sys.setObject o (some { obj with number })
  | none => sys

@[simp] theorem setObject_table (sys : Sys) (o : Nat) (v : Option FdObject) :
    (sys.setObject o v).table = sys.table := rfl

@[simp] theorem setObject_objects (sys : Sys) (o o' : Nat) (v : Option FdObject) :
    (sys.setObject o v).objects o' = if o' = o then v else sys.objects o' := rfl

@[simp] theorem setObject_setObject (sys : Sys) (o : Nat) (v w : Option FdObject) :
    (sys.setObject o v).setObject o w = sys.setObject o w := by
  simp only [setObject, mk.injEq, and_true, true_and]
  funext o'
  split <;> rfl

theorem setObject_self {sys : Sys} {o : Nat} {v : Option FdObject} (h : sys.objects o = v) :
    sys.setObject o v = sys := by
  cases sys
  simp only [setObject, mk.injEq, and_true, true_and]
  funext o'
  split <;> simp_all

@[simp] theorem setNumber_table (sys : Sys) (o : Nat) (n : Int) :
    (sys.setNumber o n).table = sys.table := by
  unfold setNumber; split <;> rfl

@[simp] theorem setNumber_nextObject (sys : Sys) (o : Nat) (n : Int) :
    (sys.setNumber o n).nextObject = sys.nextObject := by
  unfold setNumber; split <;> rfl

@[simp] theorem setNumber_closed (sys : Sys) (o : Nat) (n : Int) :
    (sys.setNumber o n).closed = sys.closed := by
  unfold setNumber; split <;> rfl

@[simp] theorem setNumber_objects (sys : Sys) (o o' : Nat) (n : Int) :
    (sys.setNumber o n).objects o' =
      if o' = o then (sys.objects o).map ({ · with number := n }) else sys.objects o' := by
  unfold setNumber
  split <;> by_cases h : o' = o <;> simp_all [setObject]

end Sys

/-- The process before its first descriptor. -/
def Sys.init : Sys := ⟨fdTableInit, fun _ => none, 0, []⟩

/-- `fd_table_get_entry`: the entry of `fd` if it exists and holds every requested right. -/
def fdTableGetEntry (t : FdTable) (fd : Nat) (rightsBase rightsInheriting : Rights) :
    Except Errno FdEntry :=
  match t.entries[fd]? with
  | some (some fe) =>
    if rightsBase.Subset fe.rightsBase ∧ rightsInheriting.Subset fe.rightsInheriting then .ok fe
    else .error .enotcapable
  | _ => .error .ebadf

/-- The doubling loop of `fd_table_grow`, from a size that is not `0`. -/
def growSize (min need size : Nat) : Nat :=
  if size ≠ 0 ∧ (size ≤ min ∨ size < need) then growSize min need (size * 2) else size
termination_by min + need + 1 - size
decreasing_by omega

/-- `fd_table_grow`: `none` when `realloc` fails (`reallocOk` false); new slots are empty. -/
def fdTableGrow (t : FdTable) (min incr : Nat) (reallocOk : Bool) : Option FdTable :=
  if t.size ≤ min ∨ t.size < (t.used + incr) * 2 then
    let size := growSize min ((t.used + incr) * 2) (if t.size = 0 then 1 else t.size)
    if reallocOk then some { t with entries := t.entries ++ List.replicate (size - t.size) none }
    else none
  else some t

/-- `fd_table_attach`, with its three assertions. -/
def fdTableAttach (t : FdTable) (fd : Nat) (fo : Nat) (rightsBase rightsInheriting : Rights) :
    Except Fault FdTable :=
  if fd < t.size then
    if t.entries[fd]? = some none then
      let t' : FdTable := ⟨t.entries.set fd (some ⟨fo, rightsBase, rightsInheriting⟩), t.used + 1⟩
      if t'.used * 2 ≤ t'.size then .ok t' else .error (.assertion "File descriptor too full")
    else .error (.assertion "Attempted to overwrite an existing descriptor")
  else .error (.assertion "File descriptor table too small")

/-- `fd_table_detach`, with its three assertions: the table and the detached object. -/
def fdTableDetach (t : FdTable) (fd : Nat) : Except Fault (FdTable × Nat) :=
  if fd < t.size then
    match t.entries[fd]? with
    | some (some fe) =>
      if 0 < t.used then .ok (⟨t.entries.set fd none, t.used - 1⟩, fe.object)
      else .error (.assertion "Reference count mismatch")
    | _ => .error (.assertion "Attempted to detach nonexistent descriptor")
  else .error (.assertion "File descriptor table too small")

/-- Modelled from the spec: `random_uniform(bound)` (`random.c` is not under `src/`)
returns a value in `[0, bound)`; the random draw `r` stands for `r % bound`. -/
def randomUniform (bound r : Nat) : Nat := r % bound

/-- The `for (;;)` loop of `fd_table_unused` over the random draws: the first draw that
lands on an empty slot, and the draws left. -/
def unusedLoop (t : FdTable) : List Nat → Except Fault (Nat × List Nat)
  | [] => .error .unfinished
  | r :: draws =>
    if t.entries[randomUniform t.size r]? = some none then .ok (randomUniform t.size r, draws)
    else unusedLoop t draws

/-- `fd_table_unused`, with its assertion. -/
def fdTableUnused (t : FdTable) (draws : List Nat) : Except Fault (Nat × List Nat) :=
  if t.used < t.size then unusedLoop t draws
  else .error (.assertion "File descriptor table has no free slots")

/-- `fd_object_new`: a fresh object with one reference, or `ENOMEM` when `malloc` fails. -/
def fdObjectNew (sys : Sys) (type : FileType) (mallocOk : Bool) : Except Errno (Sys × Nat) :=
  if mallocOk then
    .ok ({ sys.setObject sys.nextObject (some ⟨1, type, -1, false⟩) with
      nextObject := sys.nextObject + 1 }, sys.nextObject)
  else .error .enomem

/-- `refcount_acquire(&fo->refcount)` through the pointer `fo` (`none` for `NULL`). -/
def refcountAcquire (sys : Sys) : Option Nat → Except Fault Sys
  | none => .error .nullDeref
  | some o =>
    match sys.objects o with
    | some obj => .ok (sys.setObject o (some { obj with refcount := obj.refcount + 1 }))
    | none => .error .useAfterFree

/-- `fd_number`, with its assertion. -/
def fdNumber (obj : FdObject) : Except Fault Int :=
  if 0 ≤ obj.number then .ok obj.number
  else .error (.assertion "fd_number() called on virtual file descriptor")

/-- How `fd_object_release` gives back the descriptor of an object it destroys: `closedir`
when a directory stream was installed, `close(fd_number(fo))` otherwise. -/
def releaseClose (obj : FdObject) : Except Fault HostClose :=
  if obj.type = .directory ∧ obj.directoryHandle then .ok (.closedir obj.number)
  else (fdNumber obj).map .close

/-- `fd_object_release`. Modelled from the spec: `refcount_release` (`refcount.h` is not
under `src/`) lowers the count and reports whether it reached zero. -/
def fdObjectRelease (sys : Sys) (o : Nat) : Except Fault Sys :=
  match sys.objects o with
  | none => .error .useAfterFree
  | some obj =>
    if obj.refcount = 1 then
      (releaseClose obj).map fun c => { sys.setObject o none with closed := sys.closed ++ [c] }
    else .ok (sys.setObject o (some { obj with refcount := obj.refcount - 1 }))

end CloudabiEmulator
