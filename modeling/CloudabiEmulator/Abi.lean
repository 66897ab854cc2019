import Mathlib.Data.BitVec

/-! The ABI vocabulary the emulator in `libemulator/posix.c` works with: the error codes its
system calls return, the file types of its descriptor objects, the 64-bit right sets of a
descriptor table entry, and the ways a run can go wrong without returning (a failed
`assert`, a null dereference, a `free` of something that is not a live allocation). Host
errors are written with their CloudABI names, so `convert_errno` is the identity on every
error a modelled host call reports. -/

namespace CloudabiEmulator

/-- The CloudABI error codes the modelled code paths return (`CLOUDABI_E*`). -/
inductive Errno where
  | eacces | ebadf | ebusy | eexist | eilseq | einval | eio | eisdir | eloop | emfile
  | emlink | enametoolong | enfile | enoent | enomem | enosys | enotcapable | enotdir
  | enotsup | enxio | eperm
  deriving DecidableEq, Repr

/-- `cloudabi_filetype_t`: the type tag of a descriptor object. -/
inductive FileType where
  | unknown | blockDevice | characterDevice | directory | regularFile | sharedMemory
  | socketDgram | socketStream | symbolicLink
  deriving DecidableEq, Repr

/-- How a run stops without returning: a failed `assert` (with its message), a load through
a null pointer, a `free` of a pointer that is not the start of a live allocation, an access
to memory already freed, a store past the end of an array, or a loop still running when the
oracle's answers run out. -/
inductive Fault where
  | assertion (message : String)
  | nullDeref
  | invalidFree
  | useAfterFree
  | outOfBounds
  | unfinished
  deriving DecidableEq, Repr

/-- A computation of the model that returns ran each of its steps to a result. -/
theorem Except.bind_eq_ok {ε α β : Type} {x : Except ε α} {f : α → Except ε β} {b : β}
    (h : x >>= f = .ok b) : ∃ a, x = .ok a ∧ f a = .ok b := by
  cases x with
  | error => cases h
  | ok a => exact ⟨a, rfl, h⟩

theorem Except.map_eq_ok {ε α β : Type} {x : Except ε α} {f : α → β} {b : β}
    (h : x.map f = .ok b) : ∃ a, x = .ok a ∧ f a = b := by
  cases x with
  | error => cases h
  | ok a => exact ⟨a, rfl, Except.ok.inj h⟩

/-- `cloudabi_rights_t`: a 64-bit set of rights. -/
abbrev Rights := BitVec 64

namespace Rights

/-- `a ⊆ b` as the code tests it: `(~b & a) == 0`. -/
def Subset (a b : Rights) : Prop := ~~~b &&& a = 0

instance (a b : Rights) : Decidable (Subset a b) := inferInstanceAs (Decidable (_ = _))

theorem subset_iff {a b : Rights} :
    Subset a b ↔ ∀ i, a.getLsbD i = true → b.getLsbD i = true := by
  constructor
  · intro h i hi
    have hbit := congrArg (fun x => x.getLsbD i) h
    have hlt : i < 64 := by
      by_contra hge
      simp [BitVec.getLsbD_ge a i (by omega)] at hi
    simpa [hi, hlt] using hbit
  · intro h
    apply BitVec.eq_of_getLsbD_eq
    intro i
    have := h i
    simp only [BitVec.getLsbD_and, BitVec.getLsbD_not, BitVec.getLsbD_zero, i.isLt,
      decide_True, Bool.true_and]
    cases ha : a.getLsbD i <;> simp_all

theorem subset_refl (a : Rights) : Subset a a := subset_iff.2 fun _ h => h

theorem subset_trans {a b c : Rights} (hab : Subset a b) (hbc : Subset b c) : Subset a c :=
  subset_iff.2 fun i h => subset_iff.1 hbc i (subset_iff.1 hab i h)

theorem and_subset_right (a m : Rights) : Subset (a &&& m) m :=
  subset_iff.2 fun i h => by simp_all [BitVec.getLsbD_and]

theorem zero_subset (a : Rights) : Subset 0 a := subset_iff.2 fun i h => by simp at h

theorem and_not_subset (a m : Rights) : Subset (a &&& ~~~m) a :=
  subset_iff.2 fun i h => by simp_all [BitVec.getLsbD_and]

theorem subset_or_left (a b : Rights) : Subset a (a ||| b) :=
  subset_iff.2 fun i h => by simp [BitVec.getLsbD_or, h]

theorem subset_or_right (a b : Rights) : Subset b (a ||| b) :=
  subset_iff.2 fun i h => by simp [BitVec.getLsbD_or, h]

end Rights

end CloudabiEmulator
