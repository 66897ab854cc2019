import CloudabiEmulator.Abi

/-! The two time conversions, on a host with a 64-bit `time_t`: `convert_timespec` from a host
`struct timespec` to a CloudABI timestamp, nanoseconds in a `uint64_t` that saturates at both
ends, and `convert_timestamp` back, into seconds and a sub-second remainder. Below the
saturation second `⌊(2^64 - 1) / 10^9⌋ = 18446744073` the product does not wrap and the two are
inverse; from it on every timespec is `UINT64_MAX`. -/

namespace CloudabiEmulator

/-- A host `struct timespec`: `tv_sec` (a `time_t`) and `tv_nsec` (a `long`). -/
structure Timespec where
  tvSec : Int
  tvNsec : Int
  deriving DecidableEq, Repr

/-- `UINT64_MAX`. -/
def uint64Max : Nat := 2 ^ 64 - 1

/-- `NUMERIC_MAX(time_t)` for a 64-bit `time_t`. -/
def timeMax : Nat := 2 ^ 63 - 1

/-- `convert_timespec`: the product and the sum are `uint64_t` arithmetic, modulo `2^64`. -/
def convertTimespec (ts : Timespec) : Nat :=
  if ts.tvSec < 0 then 0
  else if uint64Max / 1000000000 ≤ ts.tvSec.toNat then uint64Max
  else ((ts.tvSec * 1000000000 + ts.tvNsec) % 2 ^ 64).toNat

/-- `convert_timestamp`: the seconds clamp to the largest `time_t`. -/
def convertTimestamp (t : Nat) : Timespec :=
  let sec := t / 1000000000
  ⟨(if sec < timeMax then sec else timeMax : Nat), (t % 1000000000 : Nat)⟩

theorem uint64Max_div : uint64Max / 1000000000 = 18446744073 := by decide

/-- A timespec whose nanoseconds are a valid sub-second remainder. -/
def Timespec.Valid (ts : Timespec) : Prop := 0 ≤ ts.tvNsec ∧ ts.tvNsec < 1000000000

instance (ts : Timespec) : Decidable ts.Valid := inferInstanceAs (Decidable (_ ∧ _))

/-- The lexicographic order of `(tv_sec, tv_nsec)`. -/
def Timespec.Le (ts ts' : Timespec) : Prop :=
  ts.tvSec < ts'.tvSec ∨ (ts.tvSec = ts'.tvSec ∧ ts.tvNsec ≤ ts'.tvNsec)

section Timespec

variable {ts ts' : Timespec}

theorem convertTimespec_neg (h : ts.tvSec < 0) : convertTimespec ts = 0 := if_pos h

theorem convertTimespec_saturated (h : 18446744073 ≤ ts.tvSec) :
    convertTimespec ts = uint64Max := by
  rw [convertTimespec, if_neg (by omega), if_pos (by rw [uint64Max_div]; omega)]

/-- Below the saturation second the sum does not wrap. -/
theorem convertTimespec_exact (hv : ts.Valid) (h0 : 0 ≤ ts.tvSec) (h1 : ts.tvSec < 18446744073) :
    (convertTimespec ts : Int) = ts.tvSec * 1000000000 + ts.tvNsec ∧
      ts.tvSec * 1000000000 + ts.tvNsec < 2 ^ 64 := by
  obtain ⟨hn0, hn1⟩ := hv
  have hlt : ts.tvSec * 1000000000 + ts.tvNsec < 2 ^ 64 := by omega
  rw [convertTimespec, if_neg (by omega), if_neg (by rw [uint64Max_div]; omega),
    Int.emod_eq_of_lt (by omega) hlt, Int.toNat_of_nonneg (by omega)]
  exact ⟨rfl, hlt⟩

theorem convertTimespec_le_max (ts : Timespec) : convertTimespec ts ≤ uint64Max := by
  unfold convertTimespec
  split
  · exact Nat.zero_le _
  split
  · exact le_refl _
  have := Int.emod_lt_of_pos (ts.tvSec * 1000000000 + ts.tvNsec) (by decide : (0 : Int) < 2 ^ 64)
  simp only [uint64Max]
  omega

theorem convertTimespec_mono (hv : ts.Valid) (hv' : ts'.Valid) (hle : ts.Le ts') :
    convertTimespec ts ≤ convertTimespec ts' := by
  by_cases hneg : ts.tvSec < 0
  · rw [convertTimespec_neg hneg]
    exact Nat.zero_le _
  by_cases hsat' : 18446744073 ≤ ts'.tvSec
  · rw [convertTimespec_saturated hsat']
    exact convertTimespec_le_max ts
  have hs : ts.tvSec ≤ ts'.tvSec := by unfold Timespec.Le at hle; omega
  obtain ⟨h, -⟩ := convertTimespec_exact hv (by omega) (by omega)
  obtain ⟨h', -⟩ := convertTimespec_exact hv' (by omega) (by omega)
  unfold Timespec.Le at hle
  unfold Timespec.Valid at hv hv'
  omega

end Timespec

/-- A timestamp split by `convert_timestamp` and joined by `convert_timespec`: itself below the
saturation second, `UINT64_MAX` from it on. -/
theorem convertTimespec_convertTimestamp {t : Nat} (ht : t < 2 ^ 64) :
    convertTimespec (convertTimestamp t) =
      if t < 18446744073 * 1000000000 then t else uint64Max := by
  have hsec : t / 1000000000 < timeMax := by unfold timeMax; omega
  have hts : convertTimestamp t = ⟨(t / 1000000000 : Nat), (t % 1000000000 : Nat)⟩ := by
    simp only [convertTimestamp, if_pos hsec]
  rw [hts]
  split
  · obtain ⟨h, -⟩ := @convertTimespec_exact ⟨(t / 1000000000 : Nat), (t % 1000000000 : Nat)⟩
      ⟨by dsimp only; omega, by dsimp only; omega⟩ (by dsimp only; omega) (by dsimp only; omega)
    have := Nat.div_add_mod t 1000000000
    dsimp only at h
    omega
  · exact convertTimespec_saturated (by dsimp only; omega)

theorem convertTimestamp_convertTimespec {ts : Timespec} (hv : ts.Valid) (h0 : 0 ≤ ts.tvSec)
    (h1 : ts.tvSec < 18446744073) : convertTimestamp (convertTimespec ts) = ts := by
  obtain ⟨h, -⟩ := convertTimespec_exact hv h0 h1
  obtain ⟨sec, nsec⟩ := ts
  unfold Timespec.Valid at hv
  dsimp only at h hv h0 h1
  simp only [convertTimestamp, timeMax, Timespec.mk.injEq]
  constructor
  · rw [if_pos (by omega)]
    omega
  · omega

/-- The two conversions with a 64-bit `time_t`: the round trip from every timestamp; below the
saturation second the exact sum, with no wrap, and the clamps on either side of it; monotony in
the lexicographic order; and the round trip from every timespec below the saturation second. -/
theorem timestamp_conversions :
    (∀ t < 2 ^ 64, convertTimespec (convertTimestamp t) =
      if t < 18446744073 * 1000000000 then t else 2 ^ 64 - 1) ∧
    (∀ ts : Timespec, ts.Valid →
      (0 ≤ ts.tvSec → ts.tvSec < 18446744073 →
        (convertTimespec ts : Int) = ts.tvSec * 1000000000 + ts.tvNsec ∧
          ts.tvSec * 1000000000 + ts.tvNsec < 2 ^ 64) ∧
      (ts.tvSec < 0 → convertTimespec ts = 0) ∧
      (18446744073 ≤ ts.tvSec → convertTimespec ts = 2 ^ 64 - 1)) ∧
    (∀ ts ts' : Timespec, ts.Valid → ts'.Valid → ts.Le ts' →
      convertTimespec ts ≤ convertTimespec ts') ∧
    (∀ ts : Timespec, ts.Valid → 0 ≤ ts.tvSec → ts.tvSec < 18446744073 →
      convertTimestamp (convertTimespec ts) = ts) :=
  ⟨fun _ ht => convertTimespec_convertTimestamp ht,
    fun _ hv => ⟨convertTimespec_exact hv, convertTimespec_neg, convertTimespec_saturated⟩,
    fun _ _ => convertTimespec_mono, fun _ => convertTimestamp_convertTimespec⟩

end CloudabiEmulator
