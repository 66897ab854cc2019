import CloudabiEmulator.TableSpec

/-! `fd_table_grow` in 64-bit `size_t`. The table model of `TableModel` computes the doubling
loop over unbounded numbers; here the loop, its test `(ft->used + incr) * 2` and the byte count
`sizeof(*entries) * size` handed to `realloc` wrap modulo `2^64`, as the code's arithmetic does.
Every table `realloc` has made is smaller than `2^63` bytes (`PTRDIFF_MAX`, the largest block
`malloc` grants), and for such a table the two models agree: the loop stops at the least
power-of-two multiple of the start size above `min` with room for `incr` more descriptors, and
nothing wraps. -/

namespace CloudabiEmulator

/-- `sizeof(struct fd_entry)` on an LP64 host: a pointer and two 64-bit right sets. -/
def fdEntrySize : Nat := 24

/-- The test of the doubling loop, `size <= min || size < (ft->used + incr) * 2`, in `size_t`. -/
def growTest64 (min used incr size : Nat) : Bool :=
  decide (size ≤ min ∨ size < (used + incr) % 2 ^ 64 * 2 % 2 ^ 64)

/-- The doubling loop `while (...) size *= 2;` in `size_t`, run for at most `fuel` tests
(`none` when they run out). -/
def growLoop64 (min used incr : Nat) : (fuel size : Nat) → Option Nat
  | 0, _ => none
  | fuel + 1, size =>
    if growTest64 min used incr size then growLoop64 min used incr fuel (size * 2 % 2 ^ 64)
    else some size

/-- `fd_table_grow` in `size_t`: `.ok none` when `realloc` fails, `.error .unfinished` when the
loop has not stopped after `fuel` tests, and `.error .outOfBounds` when the byte count wrapped and
the loop that empties the new slots stores past the allocation. The table keeps `size` slots. -/
def fdTableGrow64 (t : FdTable) (min incr : Nat) (reallocOk : Bool) (fuel : Nat) :
    Except Fault (Option FdTable) :=
  if growTest64 min t.used incr t.size then
    match growLoop64 min t.used incr fuel (if t.size = 0 then 1 else t.size) with
    | none => .error .unfinished
    | some size =>
      if !reallocOk then .ok none
      else if t.size < size ∧ fdEntrySize * size % 2 ^ 64 < fdEntrySize * size then
        .error .outOfBounds
      else .ok (some ⟨(t.entries ++ List.replicate (size - t.size) none).take size, t.used⟩)
  else .ok (some t)

section Bounded

variable {min used incr : Nat}

theorem growTest64_eq {size : Nat} (h : (used + incr) * 2 < 2 ^ 64) :
    growTest64 min used incr size = decide (size ≤ min ∨ size < (used + incr) * 2) := by
  rw [growTest64, Nat.mod_eq_of_lt (by omega : used + incr < 2 ^ 64), Nat.mod_eq_of_lt h]

theorem growLoop64_eq (hneed : (used + incr) * 2 < 2 ^ 64) :
    ∀ (fuel size : Nat), size ≠ 0 → growSize min ((used + incr) * 2) size < 2 ^ 64 →
      growSize min ((used + incr) * 2) size < size * 2 ^ fuel →
      growLoop64 min used incr fuel size = some (growSize min ((used + incr) * 2) size)
  | 0, size, _, _, hfuel => by
    have := (growSize_spec min ((used + incr) * 2) size ‹_›).2.2
    omega
  | fuel + 1, size, h0, hfit, hfuel => by
    rw [growLoop64, growTest64_eq hneed]
    by_cases hc : size ≤ min ∨ size < (used + incr) * 2
    · rw [decide_eq_true hc, if_pos rfl, growSize_double h0 hc] at *
      have hs := (growSize_spec min ((used + incr) * 2) (size * 2) (by omega)).2.2
      rw [Nat.mod_eq_of_lt (by omega)]
      exact growLoop64_eq hneed fuel (size * 2) (by omega) hfit
        (by rwa [Nat.pow_succ', ← Nat.mul_assoc] at hfuel)
    · rw [decide_eq_false hc, growSize_self hc]
      rfl

/-- The unbounded loop stops at the least power-of-two multiple of its start that is above `min`
and at least `need`. -/
theorem growSize_least (min need : Nat) :
    ∀ size, size ≠ 0 → ∃ k, growSize min need size = size * 2 ^ k ∧
      min < size * 2 ^ k ∧ need ≤ size * 2 ^ k ∧ ∀ j < k, size * 2 ^ j ≤ min ∨ size * 2 ^ j < need
  | size, h0 => by
    have hpow : ∀ j, size * 2 ^ (j + 1) = size * 2 * 2 ^ j := fun j => by
      rw [Nat.pow_succ', Nat.mul_assoc]
    by_cases hc : size ≤ min ∨ size < need
    · obtain ⟨k, hk, hmin, hneed, hleast⟩ := growSize_least min need (size * 2) (by omega)
      refine ⟨k + 1, by rw [growSize_double h0 hc, hk, hpow], by rwa [hpow], by rwa [hpow],
        fun j hj => ?_⟩
      cases j with
      | zero => simpa using hc
      | succ j => rw [hpow]; exact hleast j (by omega)
    · exact ⟨0, by rw [growSize_self hc, Nat.pow_zero, Nat.mul_one], by omega, by omega,
        fun j hj => absurd hj (by omega)⟩
termination_by size => min + need + 1 - size
decreasing_by omega

/-- When `incr` more descriptors need at most four more slots than the table has, the loop stops
within twice `min`, twice the start size, or below `16`. -/
theorem growSize_le_of_need {min need size : Nat} (h0 : size ≠ 0) (hneed : need ≤ size + 4) :
    growSize min need size ≤ 2 * min ∨ growSize min need size ≤ 2 * size ∨
      growSize min need size < 16 := by
  obtain ⟨k, hk, -, -, hleast⟩ := growSize_least min need size h0
  rw [hk]
  cases k with
  | zero => simp only [Nat.pow_zero, Nat.mul_one]; omega
  | succ j =>
    have hj := hleast j (by omega)
    rw [Nat.pow_succ, ← Nat.mul_assoc]
    cases j with
    | zero => simp only [Nat.pow_zero, Nat.mul_one] at hj ⊢; omega
    | succ i =>
      have : size * 2 ≤ size * 2 ^ (i + 1) := Nat.mul_le_mul_left size (Nat.le_self_pow (by omega) 2)
      omega

theorem growStart_eq (size : Nat) : (if size = 0 then 1 else size) = max size 1 := by
  split <;> omega

/-- The unbounded model in closed form: the table is kept when the loop leaves the size as it
was, and otherwise empty slots are appended up to the new size when `realloc` succeeds. -/
theorem fdTableGrow_eq (t : FdTable) (min incr : Nat) (reallocOk : Bool) :
    fdTableGrow t min incr reallocOk =
      if growSize min ((t.used + incr) * 2) (max t.size 1) = t.size then some t
      else if reallocOk then
        some ⟨t.entries ++ List.replicate (growSize min ((t.used + incr) * 2) (max t.size 1) -
          t.size) none, t.used⟩
      else none := by
  rw [fdTableGrow, growStart_eq]
  by_cases hc : t.size ≤ min ∨ t.size < (t.used + incr) * 2
  · have hgt : t.size < growSize min ((t.used + incr) * 2) (max t.size 1) := by
      by_cases h0 : t.size = 0
      · have := (growSize_spec min ((t.used + incr) * 2) (max t.size 1) (by omega)).2.2
        omega
      · rw [show max t.size 1 = t.size by omega, growSize_double h0 hc]
        have := (growSize_spec min ((t.used + incr) * 2) (t.size * 2) (by omega)).2.2
        omega
    rw [if_pos hc, if_neg hgt.ne']
  · rw [if_neg hc, show max t.size 1 = t.size by omega, growSize_self hc, if_pos rfl]

/-- While twice the table's allocation fits in `size_t`, `fd_table_grow` in `size_t` is the
unbounded model, and its byte count does not wrap: for `min` a descriptor number and `incr ≤ 2`,
64 tests of the loop are enough. -/
theorem fdTableGrow64_eq {t : FdTable} {min incr : Nat} (reallocOk : Bool) {fuel : Nat}
    (hused : t.used * 2 ≤ t.size) (hmin : min < 2 ^ 32) (hincr : incr ≤ 2)
    (hsize : 48 * t.size < 2 ^ 64) (hfuel : 64 ≤ fuel) :
    fdTableGrow64 t min incr reallocOk fuel = .ok (fdTableGrow t min incr reallocOk) ∧
      fdEntrySize * growSize min ((t.used + incr) * 2) (max t.size 1) < 2 ^ 64 := by
  have hneed : (t.used + incr) * 2 < 2 ^ 64 := by omega
  have hs0 : max t.size 1 ≠ 0 := by omega
  have hle := @growSize_le_of_need min _ _ hs0 (by omega : (t.used + incr) * 2 ≤ max t.size 1 + 4)
  have hbytes : fdEntrySize * growSize min ((t.used + incr) * 2) (max t.size 1) < 2 ^ 64 := by
    unfold fdEntrySize; omega
  refine ⟨?_, hbytes⟩
  have hpow : 2 ^ 64 ≤ max t.size 1 * 2 ^ fuel :=
    (Nat.pow_le_pow_right (by decide) hfuel).trans (Nat.le_mul_of_pos_left _ (by omega))
  rw [fdTableGrow64, fdTableGrow, growTest64_eq hneed, growStart_eq]
  by_cases hc : t.size ≤ min ∨ t.size < (t.used + incr) * 2
  · have hge := (growSize_spec min ((t.used + incr) * 2) (max t.size 1) hs0).2.2
    rw [decide_eq_true hc, if_pos rfl, if_pos hc,
      growLoop64_eq hneed fuel _ hs0 (by unfold fdEntrySize at hbytes; omega) (by omega)]
    cases reallocOk
    · rfl
    · simp only [Bool.not_true, Bool.false_eq_true, if_false]
      rw [if_neg (by rw [Nat.mod_eq_of_lt hbytes]; omega),
        List.take_of_length_le (by simp only [List.length_append, List.length_replicate, FdTable.size] at hge ⊢; omega)]
      rfl
  · rw [decide_eq_false hc, if_neg Bool.false_ne_true, if_neg hc]

end Bounded

/-- `fd_table_grow` with a 64-bit `size_t`, on a table at most half full whose allocation `malloc`
could grant, for a descriptor `min` and `incr ≤ 2`: within 64 tests the loop stops at the least
`max(size, 1) * 2^k` above `min` with room for `incr` more, and no byte count wraps. -/
theorem fdTableGrow64_least (t : FdTable) (min incr : Nat) (reallocOk : Bool) (fuel : Nat)
    (hused : t.used * 2 ≤ t.size) (hmin : min < 2 ^ 32) (hincr : incr ≤ 2)
    (hsize : fdEntrySize * t.size < 2 ^ 63) (hfuel : 64 ≤ fuel) :
    ∃ k, min < max t.size 1 * 2 ^ k ∧ (t.used + incr) * 2 ≤ max t.size 1 * 2 ^ k ∧
      (∀ j < k, max t.size 1 * 2 ^ j ≤ min ∨ max t.size 1 * 2 ^ j < (t.used + incr) * 2) ∧
      fdEntrySize * (max t.size 1 * 2 ^ k) < 2 ^ 64 ∧
      fdTableGrow64 t min incr reallocOk fuel =
        if max t.size 1 * 2 ^ k = t.size then .ok (some t)
        else if reallocOk then
          .ok (some ⟨t.entries ++ List.replicate (max t.size 1 * 2 ^ k - t.size) none, t.used⟩)
        else .ok none := by
  obtain ⟨h64, hbytes⟩ :=
    fdTableGrow64_eq reallocOk hused hmin hincr (by unfold fdEntrySize at hsize; omega) hfuel
  obtain ⟨k, hk, hmin', hneed', hleast⟩ :=
    growSize_least min ((t.used + incr) * 2) (max t.size 1) (by omega)
  rw [hk] at hbytes
  refine ⟨k, hmin', hneed', hleast, hbytes, ?_⟩
  rw [h64, fdTableGrow_eq, hk]
  split_ifs <;> rfl

theorem fdTableGrow64_least_init :
    fdTableGrow64 fdTableInit 0 1 true 64 = .ok (some ⟨[none, none], 0⟩) := by
  obtain ⟨k, -, hneed, hleast, -, h⟩ :=
    fdTableGrow64_least fdTableInit 0 1 true 64 (by decide) (by decide) (by decide) (by decide) le_rfl
  have hk : k = 1 := by
    have h0 : k ≠ 0 := by rintro rfl; exact absurd hneed (by decide)
    by_contra hne
    exact absurd (hleast 1 (by omega)) (by decide)
  subst hk
  exact h.trans rfl

end CloudabiEmulator
