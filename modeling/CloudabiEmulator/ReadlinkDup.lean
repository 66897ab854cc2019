import CloudabiEmulator.Abi

/-! `readlinkat_dup`, which reads the target of a symbolic link into a heap buffer for
`path_get`: it asks for 32 bytes and doubles the request, a `size_t`, until the target and a
terminator fit with a byte to spare, so that `path_get` can append a slash. The host's answers
are an oracle: whether each `realloc` succeeds, and what each `readlinkat` reads. Whatever they
are, a buffer it returns holds the whole target of its last `readlinkat`, a `NUL` and at least
one byte more, and no buffer is left allocated when it returns `NULL`. For a target of `n`
bytes read alike by every call the loop stops at the first `32 * 2^k ≥ n + 2`. The request is a
`size_t`, and this holds for every target shorter than `2^63 - 1` bytes, so for every link a host
can hold: `symlink` refuses targets longer than `PATH_MAX`. -/

namespace CloudabiEmulator

/-- The host's answers to the calls of `readlinkat_dup`, by iteration: whether the `i`-th
`realloc` succeeds, and what the `i`-th `readlinkat` reads, the link's target or an `errno`. -/
structure LinkHost where
  reallocOk : Nat → Bool
  readlinkat : Nat → Except Errno (List Char)

/-- A heap block byte by byte: `none` where nothing has been stored. -/
abbrev Block := List (Option Char)

/-- `realloc(buf, len)`: the old bytes that fit, then bytes never stored. -/
def reallocBlock (buf : Block) (len : Nat) : Block :=
  buf.take len ++ List.replicate (len - buf.length) none

/-- `readlinkat(fd, path, buf, len)` stores the first `len` bytes of the target at the start of
the block and returns how many it stored. -/
def readlinkStore (buf : Block) (target : List Char) (len : Nat) : Block :=
  (target.take len).map some ++ buf.drop (min len target.length)

/-- The loop of `readlinkat_dup` from its `i`-th iteration, asking for `len` bytes while it holds
`buf` (`none` for `NULL`), for at most `fuel` iterations. It answers the pointer it returns and
the block it leaves allocated. -/
def readlinkatDupLoop (host : LinkHost) : (fuel i len : Nat) → Option Block →
    Except Fault (Option Block × Option Block)
  | 0, _, _, _ => .error .unfinished
  | fuel + 1, i, len, buf =>
    if !host.reallocOk i then .ok (none, none)
    else
      let newbuf := reallocBlock (buf.getD []) len
      match host.readlinkat i with
      | .error _ => .ok (none, none)
      | .ok target =>
        let ret := min len target.length
        let stored := readlinkStore newbuf target len
        if (ret + 1) % 2 ^ 64 < len then
          .ok (some (stored.set ret (some '\x00')), some (stored.set ret (some '\x00')))
        else readlinkatDupLoop host fuel (i + 1) (len * 2 % 2 ^ 64) (some stored)

/-- `readlinkat_dup(fd, path)`. -/
def readlinkatDup (host : LinkHost) (fuel : Nat) : Except Fault (Option Block × Option Block) :=
  readlinkatDupLoop host fuel 0 32 none

section Blocks

variable {buf : Block} {target : List Char} {len : Nat}

@[simp]
theorem reallocBlock_length : (reallocBlock buf len).length = len := by
  simp only [reallocBlock, List.length_append, List.length_take, List.length_replicate]
  omega

theorem readlinkStore_length (h : buf.length = len) :
    (readlinkStore buf target len).length = len := by
  simp only [readlinkStore, List.length_append, List.length_map, List.length_take,
    List.length_drop, h]
  omega

/-- When the target and two more bytes fit, the terminator goes right after the whole target. -/
theorem readlinkStore_set (h : buf.length = len) (hfit : target.length + 2 ≤ len) (c : Char) :
    (readlinkStore buf target len).set target.length (some c) =
      target.map some ++ some c :: buf.drop (target.length + 1) := by
  have hdrop : buf.drop target.length = buf.get ⟨target.length, by omega⟩ ::
      buf.drop (target.length + 1) := List.drop_eq_getElem_cons (by omega)
  rw [readlinkStore, List.take_of_length_le (by omega), Nat.min_eq_right (by omega), hdrop,
    List.set_append_right _ _ (by simp only [List.length_map, le_refl])]
  simp only [List.length_map, Nat.sub_self, List.set_cons_zero]

end Blocks

section Steps

variable {host : LinkHost} {fuel i len : Nat} {buf : Option Block}

theorem readlinkatDupLoop_realloc_fails (h : host.reallocOk i = false) :
    readlinkatDupLoop host (fuel + 1) i len buf = .ok (none, none) := by
  simp [readlinkatDupLoop, h]

theorem readlinkatDupLoop_readlinkat_fails (hr : host.reallocOk i = true) {e : Errno}
    (h : host.readlinkat i = .error e) :
    readlinkatDupLoop host (fuel + 1) i len buf = .ok (none, none) := by
  simp [readlinkatDupLoop, hr, h]

/-- An iteration whose target fits with two bytes to spare returns it, terminated. -/
theorem readlinkatDupLoop_fits (hr : host.reallocOk i = true) {target : List Char}
    (h : host.readlinkat i = .ok target) (hfit : target.length + 2 ≤ len) (hlen : len < 2 ^ 64) :
    readlinkatDupLoop host (fuel + 1) i len buf =
      .ok (some (target.map some ++ some '\x00' ::
          (reallocBlock (buf.getD []) len).drop (target.length + 1)),
        some (target.map some ++ some '\x00' ::
          (reallocBlock (buf.getD []) len).drop (target.length + 1))) := by
  have htest : (target.length + 1) % 2 ^ 64 < len := by
    rw [Nat.mod_eq_of_lt (by omega)]
    omega
  simp only [readlinkatDupLoop, hr, Bool.not_true, Bool.false_eq_true, if_false, h,
    Nat.min_eq_right (by omega : target.length ≤ len), if_pos htest,
    readlinkStore_set reallocBlock_length hfit]

theorem readlinkatDupLoop_short (hr : host.reallocOk i = true) {target : List Char}
    (h : host.readlinkat i = .ok target) (hshort : ¬ (min len target.length + 1) % 2 ^ 64 < len) :
    readlinkatDupLoop host (fuel + 1) i len buf =
      readlinkatDupLoop host fuel (i + 1) (len * 2 % 2 ^ 64)
        (some (readlinkStore (reallocBlock (buf.getD []) len) target len)) := by
  simp only [readlinkatDupLoop, hr, Bool.not_true, Bool.false_eq_true, if_false, h, if_neg hshort]

end Steps

/-- Whatever the host answers: the block left allocated is the one returned, and a returned
buffer holds the whole target its last `readlinkat` read, a `NUL` and at least one byte more.
Requests stay even below `2^64`, so `(size_t)ret + 1 < len` never wraps. -/
theorem readlinkatDupLoop_returns (host : LinkHost) :
    ∀ fuel i len buf, len % 2 = 0 → len < 2 ^ 64 → ∀ r live,
      readlinkatDupLoop host fuel i len buf = .ok (r, live) → live = r ∧
        ∀ b, r = some b → ∃ j target, host.readlinkat j = .ok target ∧
          ∃ rest, rest ≠ [] ∧ b = target.map some ++ some '\x00' :: rest
  | 0, _, _, _, _, _, _, _, h => by cases h
  | fuel + 1, i, len, buf, heven, hlen, r, live, h => by
    cases hr : host.reallocOk i
    · rw [readlinkatDupLoop_realloc_fails hr] at h
      cases h
      simp
    cases hl : host.readlinkat i with
    | error e =>
      rw [readlinkatDupLoop_readlinkat_fails hr hl] at h
      cases h
      simp
    | ok target =>
      by_cases hfit : target.length + 2 ≤ len
      · rw [readlinkatDupLoop_fits hr hl hfit hlen] at h
        cases h
        refine ⟨rfl, fun b hb => ⟨i, target, hl, _, fun hnil => ?_, (Option.some.inj hb).symm⟩⟩
        have := congrArg List.length hnil
        simp only [List.length_drop, reallocBlock_length, List.length_nil] at this
        omega
      · have hshort : ¬ (min len target.length + 1) % 2 ^ 64 < len := by omega
        rw [readlinkatDupLoop_short hr hl hshort] at h
        exact readlinkatDupLoop_returns host fuel (i + 1) _ _ (by omega) (Nat.mod_lt _ (by decide))
          r live h

theorem exists_first_doubling (need : Nat) :
    ∀ len, 0 < len → ∃ k, need ≤ len * 2 ^ k ∧ ∀ j < k, len * 2 ^ j < need
  | len, h0 => by
    by_cases h : need ≤ len
    · exact ⟨0, by rwa [Nat.pow_zero, Nat.mul_one], fun j hj => absurd hj (Nat.not_lt_zero j)⟩
    · obtain ⟨k, hk, hlt⟩ := exists_first_doubling need (len * 2) (by omega)
      refine ⟨k + 1, by rwa [Nat.pow_succ', ← Nat.mul_assoc], fun j hj => ?_⟩
      cases j with
      | zero => rw [Nat.pow_zero, Nat.mul_one]; omega
      | succ j => rw [Nat.pow_succ', ← Nat.mul_assoc]; exact hlt j (by omega)
termination_by len => need - len

section SameTarget

variable {host : LinkHost} {target : List Char}

/-- The loop reading the same target, from a request `len` that doubles `d` times before the
target fits, below `2^64`: it returns the target in a block of `len * 2^d` bytes when every call
succeeds, and `NULL` with nothing allocated when one fails. -/
theorem readlinkatDupLoop_run (hsame : ∀ i t, host.readlinkat i = .ok t → t = target) :
    ∀ d fuel i len buf, d < fuel → len * 2 ^ d < 2 ^ 64 → target.length + 2 ≤ len * 2 ^ d →
      (∀ j < d, len * 2 ^ j < target.length + 2) →
      ((∀ j ≤ d, host.reallocOk (i + j) = true ∧ host.readlinkat (i + j) = .ok target) →
        ∃ rest, rest.length = len * 2 ^ d - target.length - 1 ∧
          readlinkatDupLoop host fuel i len buf = .ok (some (target.map some ++ some '\x00' :: rest),
            some (target.map some ++ some '\x00' :: rest))) ∧
      ((∃ j ≤ d, host.reallocOk (i + j) = false ∨ ∃ e, host.readlinkat (i + j) = .error e) →
        readlinkatDupLoop host fuel i len buf = .ok (none, none))
  | _, 0, _, _, _, hfuel, _, _, _ => absurd hfuel (Nat.not_lt_zero _)
  | 0, fuel + 1, i, len, buf, _, hlen, hfit, _ => by
    rw [Nat.pow_zero, Nat.mul_one] at hlen hfit
    refine ⟨fun hall => ?_, fun ⟨j, hj, hfail⟩ => ?_⟩
    · obtain ⟨hr, hl⟩ := hall 0 (le_refl 0)
      rw [Nat.add_zero] at hr hl
      exact ⟨_, by simp only [List.length_drop, reallocBlock_length, Nat.pow_zero, Nat.mul_one]; omega,
        readlinkatDupLoop_fits hr hl hfit hlen⟩
    · obtain rfl : j = 0 := by omega
      rw [Nat.add_zero] at hfail
      cases hr : host.reallocOk i
      · exact readlinkatDupLoop_realloc_fails hr
      · obtain ⟨e, he⟩ : ∃ e, host.readlinkat i = .error e := by simpa [hr] using hfail
        exact readlinkatDupLoop_readlinkat_fails hr he
  | d + 1, fuel + 1, i, len, buf, hfuel, hlen, hfit, hlt => by
    have hpow : len * 2 ^ (d + 1) = len * 2 * 2 ^ d := by rw [Nat.pow_succ', Nat.mul_assoc]
    have hlen2 : len * 2 ≤ len * 2 ^ (d + 1) :=
      Nat.mul_le_mul_left len (Nat.le_self_pow (by omega) 2)
    have hshort : ¬ (min len target.length + 1) % 2 ^ 64 < len := by
      have := hlt 0 (by omega)
      rw [Nat.pow_zero, Nat.mul_one] at this
      omega
    have hnext : len * 2 % 2 ^ 64 = len * 2 := Nat.mod_eq_of_lt (by omega)
    have ih := readlinkatDupLoop_run hsame d fuel (i + 1) (len * 2)
      (some (readlinkStore (reallocBlock (buf.getD []) len) target len)) (by omega) (by omega)
      (by omega) (fun j hj => by rw [Nat.mul_assoc, ← Nat.pow_succ']; exact hlt (j + 1) (by omega))
    rw [hpow]
    refine ⟨fun hall => ?_, fun ⟨j, hj, hfail⟩ => ?_⟩
    · obtain ⟨hr, hl⟩ := hall 0 (by omega)
      rw [Nat.add_zero] at hr hl
      rw [readlinkatDupLoop_short hr hl hshort, hnext]
      exact ih.1 fun j hj => by rw [Nat.add_right_comm]; exact hall (j + 1) (by omega)
    · cases hr : host.reallocOk i
      · exact readlinkatDupLoop_realloc_fails hr
      cases hl : host.readlinkat i with
      | error e => exact readlinkatDupLoop_readlinkat_fails hr hl
      | ok t =>
        obtain rfl := hsame i t hl
        rw [readlinkatDupLoop_short hr hl hshort, hnext]
        obtain _ | j := j
        · simp [hr, hl] at hfail
        · exact ih.2 ⟨j, by omega, by rwa [Nat.add_right_comm]⟩

end SameTarget

/-- `readlinkat_dup` on a link whose target every call reads alike, of at most `2^63 - 2` bytes
(every target a host stores): it stops at the first request `32 * 2^k` with room for the target, a
`NUL` and a spare byte, and returns the target so terminated, or `NULL` when a call fails. -/
theorem readlinkatDup_first_fit (host : LinkHost) (target : List Char)
    (hsame : ∀ i t, host.readlinkat i = .ok t → t = target) (hn : target.length + 2 ≤ 2 ^ 63)
    (fuel : Nat) (hfuel : 59 ≤ fuel) :
    ∃ k, target.length + 2 ≤ 32 * 2 ^ k ∧ (∀ j < k, 32 * 2 ^ j < target.length + 2) ∧
      ((∀ i ≤ k, host.reallocOk i = true ∧ host.readlinkat i = .ok target) →
        ∃ rest, rest.length = 32 * 2 ^ k - target.length - 1 ∧
          readlinkatDup host fuel = .ok (some (target.map some ++ some '\x00' :: rest),
            some (target.map some ++ some '\x00' :: rest))) ∧
      ((∃ i ≤ k, host.reallocOk i = false ∨ ∃ e, host.readlinkat i = .error e) →
        readlinkatDup host fuel = .ok (none, none)) := by
  obtain ⟨k, hk, hlt⟩ := exists_first_doubling (target.length + 2) 32 (by decide)
  have hk58 : k ≤ 58 := by
    by_contra hgt
    have := hlt 58 (by omega)
    omega
  have hbound : 32 * 2 ^ k < 2 ^ 64 :=
    lt_of_le_of_lt (Nat.mul_le_mul_left 32 (Nat.pow_le_pow_right (by decide) hk58)) (by decide)
  have hrun := readlinkatDupLoop_run hsame k fuel 0 32 none (by omega) hbound hk hlt
  simp only [Nat.zero_add] at hrun
  exact ⟨k, hk, hlt, hrun.1, hrun.2⟩

theorem readlinkatDup_first_fit_short :
    ∃ rest : Block, rest.length = 29 ∧
      readlinkatDup ⟨fun _ => true, fun _ => .ok ['a', 'b']⟩ 59 =
        .ok (some (some 'a' :: some 'b' :: some '\x00' :: rest),
          some (some 'a' :: some 'b' :: some '\x00' :: rest)) := by
  obtain ⟨k, -, hlt, hok, -⟩ := readlinkatDup_first_fit ⟨fun _ => true, fun _ => .ok ['a', 'b']⟩
    ['a', 'b'] (fun _ _ h => (Except.ok.inj h).symm) (by decide) 59 (le_refl 59)
  obtain rfl : k = 0 := by
    by_contra hk
    exact absurd (hlt 0 (by omega)) (by decide)
  exact hok fun _ _ => ⟨rfl, rfl⟩

end CloudabiEmulator
