import Rendezvous.FloatArith
import Mathlib.Algebra.Order.Floor
import Mathlib.Data.Rat.Floor
import Mathlib.Tactic.Linarith
import Mathlib.Tactic.FieldSimp
import Mathlib.Data.Prod.Lex

/-!
# The slot oracle

`_get_epoch_slot` (daemon) and `get_epoch_slot` (client) have one body:

    now = time.time()
    epoch = int(now // self.epoch_seconds)
    slot_duration = self.epoch_seconds / self.slots_per_epoch
    slot = int((now % self.epoch_seconds) / slot_duration)

`epochSlotAt` computes it as CPython does, in doubles (`FloatArith`): `now` is the value of the
double `time.time()` returned, each `int` converts to a double, and every float operation
rounds. The configuration gives `epoch_seconds` and `slots_per_epoch` as any integers.

`exactEpochSlot` reads the same body in exact rationals: `//` is the floor of the quotient, `%`
the remainder it leaves, `/` the rational quotient and `int()` truncation. It is the oracle as
the spec states it, `slot = floor((t mod epoch_seconds) / slot_duration)`.

## What is proved

* `epochSlotAt_of_lt` — with `0 < E < 2 ^ 53` and a reading in `[0, 2 ^ 53)`, the epoch is
  exactly `⌊t / E⌋`, and the slot truncates the double quotient of the exact remainder by the
  double `E / N`.
* `epochSlotAt_bounds` — with `1 ≤ E < 2 ^ 1024 - 2 ^ 970`, `1 ≤ N < 2 ^ 32` and a reading in
  `[0, 2 ^ 1023)`, the oracle raises nothing, the epoch lies in `[0, t + t / 2 ^ 51 + 1]` and the
  slot in `[0, N]`: rounding can carry the slot up to `N`, one past the exact reading's last slot.
* `epochSlotAt_epochSeconds_zero`, `epochSlotAt_slotsPerEpoch_zero`, `epochSlotAt_overflow` —
  it raises `ZeroDivisionError` on a zero divisor, and `OverflowError` where `float(E)`
  overflows.
* `epochSlotAt_near_exact` — the refinement: where the doubles are exact enough the epoch is
  the exact reading's, and the slot is within one of it.
* `exactEpochSlot_eq`, `slot_lt`, `slotStart_le`, `lt_slotEnd`, `globalSlot_mono` — the exact
  reading, with both positive: the epoch is `⌊t / E⌋`, `epoch * N + slot = ⌊t * N / E⌋`, the
  slot lies in `[0, N)` and `t` in the slot's interval, and the global index never decreases.
-/

namespace Rendezvous

/-- The body the daemon's `_get_epoch_slot` and the client's `get_epoch_slot` share, at the
clock reading `now`. -/
def epochSlotAt (epochSeconds slotsPerEpoch : ℤ) (now : ℚ) : Except PyError (ℤ × ℤ) := do
  let epoch := pyTrunc (← floatFloorDiv now (← toFloat epochSeconds))
  let slotDuration ← intTrueDiv epochSeconds slotsPerEpoch
  let slot := pyTrunc (← floatDiv (← floatRem now (← toFloat epochSeconds)) slotDuration)
  return (epoch, slot)

/-- The client's `get_epoch_slot(epoch_seconds, slots_per_epoch)`, reading the clock `now`. -/
def getEpochSlot (epochSeconds slotsPerEpoch : ℤ) (now : ℚ) : Except PyError (ℤ × ℤ) :=
  epochSlotAt epochSeconds slotsPerEpoch now

/-- The global index of a slot: `epoch * N + slot`. -/
def globalSlot (slotsPerEpoch : ℤ) (es : ℤ × ℤ) : ℤ := es.1 * slotsPerEpoch + es.2

/-! ### The oracle in doubles -/

section Double

variable {E N : ℤ} {t : ℚ}

theorem epochSlotAt_epochSeconds_zero : epochSlotAt 0 N t = .error .zeroDivision := by
  simp [epochSlotAt, toFloat, floatFloorDiv, bind, Except.bind]

theorem epochSlotAt_overflow (h : 2 ^ 1024 - 2 ^ 970 ≤ E) : epochSlotAt E N t = .error .overflow := by
  simp only [epochSlotAt, toFloat, fl_overflow (threshold_le_intCast h), bind, Except.bind]

/-- With a positive double `e` for `E` and a nonnegative reading, no sign fix-up happens. -/
theorem epochSlotAt_of_toFloat {e : ℚ} (he : toFloat E = .ok e) (he0 : 0 < e) (ht : 0 ≤ t) :
    epochSlotAt E N t = floatFloorDiv t e >>= fun k => intTrueDiv E N >>= fun d =>
      floatDiv (fmod t e) d >>= fun s => .ok (pyTrunc k, pyTrunc s) := by
  simp only [epochSlotAt, he, Except.ok_bind, floatRem_of_nonneg ht he0]
  cases floatFloorDiv t e <;> cases intTrueDiv E N <;> rfl

/-- Below `2 ^ 53` the epoch is exact; the slot truncates the double quotient of the exact
remainder by the double `E / N`. -/
theorem epochSlotAt_of_lt (hE : 0 < E) (hE' : E < 2 ^ 53) (ht : 0 ≤ t) (ht' : t < 2 ^ 53) :
    epochSlotAt E N t = intTrueDiv E N >>= fun d =>
      floatDiv (t - E * ⌊t / E⌋) d >>= fun s => .ok (⌊t / E⌋, pyTrunc s) := by
  have hE0 : (0 : ℚ) < E := by exact_mod_cast hE
  rw [epochSlotAt_of_toFloat (fl_intCast hE.le hE') hE0 ht, floatFloorDiv_intCast hE ht ht',
    Except.ok_bind, fmod_of_nonneg ht hE0, pyTrunc_intCast]

/-- The double `E / N`, with `1 ≤ E` below the overflow threshold and `1 ≤ N < 2 ^ 32`: positive,
and `N` times it within a rounding error of `E`. -/
theorem intTrueDiv_bounds (hE : 1 ≤ E) (hE' : E < 2 ^ 1024 - 2 ^ 970) (hN : 1 ≤ N) (hN' : N < 2 ^ 32) :
    ∃ d, intTrueDiv E N = .ok d ∧ 0 < d ∧ E - E / 2 ^ 53 - N / 2 ^ 1075 ≤ d * N ∧
      d * N ≤ E + E / 2 ^ 53 + N / 2 ^ 1075 := by
  have hE1 : (1 : ℚ) ≤ E := by exact_mod_cast hE
  have hN1 : (1 : ℚ) ≤ N := by exact_mod_cast hN
  have hN2 : (N : ℚ) ≤ 2 ^ 32 := by exact_mod_cast hN'.le
  have hE0 : (0 : ℚ) ≤ E := zero_le_one.trans hE1
  have hN0 : (0 : ℚ) < N := zero_lt_one.trans_le hN1
  have hq0 : (0 : ℚ) ≤ E / N := div_nonneg hE0 hN0.le
  obtain ⟨d, hd⟩ := fl_ok hq0 ((div_le_self hE0 hN1).trans_lt (intCast_lt_threshold hE'))
  obtain ⟨-, hlo, hhi⟩ := fl_bounds hq0 hd
  -- times `N`, the rounding's bounds on `d` are bounds on `d * N`
  have hdiv : (E : ℚ) / N / 2 ^ 53 * N = E / 2 ^ 53 := by rw [div_right_comm, div_mul_cancel₀ _ hN0.ne']
  have hunit : (1 : ℚ) / 2 ^ 1075 * N = N / 2 ^ 1075 := one_div_mul_eq_div _ _
  refine ⟨d, by rw [intTrueDiv_of_ne (by omega)]; exact hd, ?_, ?_, ?_⟩
  · -- `E / N` is at least `2 ^ -32`, far above the rounding's absolute error
    have : (1 : ℚ) / 2 ^ 32 ≤ E / N := div_le_div₀ hE0 hE1 hN0 hN2
    linarith only [hlo, this]
  · have := mul_le_mul_of_nonneg_right hlo hN0.le
    rwa [sub_mul, sub_mul, div_mul_cancel₀ _ hN0.ne', hdiv, hunit] at this
  · have := mul_le_mul_of_nonneg_right hhi hN0.le
    rwa [add_mul, add_mul, div_mul_cancel₀ _ hN0.ne', hdiv, hunit] at this

/-- The slot of a remainder `r < e`, for a double `e` of `E` and a double `d` of `E / N`:
`int(r / d)` is at most `N`. -/
theorem floatDiv_slot_bounds {e d r : ℚ} (hE : 1 ≤ E) (hN : 1 ≤ N) (hN' : N < 2 ^ 32)
    (he : e ≤ E + E / 2 ^ 53 + 1 / 2 ^ 1075) (hd : 0 < d) (hdN : E - E / 2 ^ 53 - N / 2 ^ 1075 ≤ d * N)
    (hr0 : 0 ≤ r) (hr : r < e) : ∃ s, floatDiv r d = .ok s ∧ 0 ≤ pyTrunc s ∧ pyTrunc s ≤ N := by
  have hE1 : (1 : ℚ) ≤ E := by exact_mod_cast hE
  have hN1 : (1 : ℚ) ≤ N := by exact_mod_cast hN
  have hN2 : (N : ℚ) < 2 ^ 32 := by exact_mod_cast hN'
  -- `r / d` stays below `N * (1 + 2 ^ -50)`: `e` rounds `E` up and `d` rounds `E / N` down by
  -- at most a relative `2 ^ -53` each
  have hx : r / d < N * (1 + 1 / 2 ^ 50) := by
    rw [div_lt_iff₀ hd]; linarith only [hE1, hN1, hN2, he, hdN, hr]
  have hx0 : 0 ≤ r / d := div_nonneg hr0 hd.le
  obtain ⟨s, hs⟩ := fl_ok hx0 (by linarith only [hx, hN2])
  obtain ⟨hs0, -, hs1⟩ := fl_bounds hx0 hs
  refine ⟨s, by rw [floatDiv_of_ne hd.ne']; exact hs, ?_, ?_⟩ <;> rw [pyTrunc_of_nonneg hs0]
  · exact Int.floor_nonneg.mpr hs0
  · exact Int.lt_add_one_iff.mp (Int.floor_lt.mpr (by push_cast; linarith only [hs1, hx, hN2]))

/-- A configuration with `1 ≤ E` below the overflow threshold and `1 ≤ N < 2 ^ 32`, at a reading
in `[0, 2 ^ 1023)`: the oracle raises nothing, the epoch lies in `[0, t + t / 2 ^ 51 + 1]` and the
slot in `[0, N]`. -/
theorem epochSlotAt_bounds (hE : 1 ≤ E) (hE' : E < 2 ^ 1024 - 2 ^ 970) (hN : 1 ≤ N) (hN' : N < 2 ^ 32)
    (ht : 0 ≤ t) (ht' : t < 2 ^ 1023) :
    ∃ epoch slot, epochSlotAt E N t = .ok (epoch, slot) ∧ 0 ≤ epoch ∧ (epoch : ℚ) ≤ t + t / 2 ^ 51 + 1 ∧
      0 ≤ slot ∧ slot ≤ N := by
  obtain ⟨e, he, he1, he2⟩ := toFloat_bounds hE hE'
  have he0 : 0 < e := zero_lt_one.trans_le he1
  obtain ⟨j, hj, hj0, hj1⟩ := floatFloorDiv_bounds he1 ht ht'
  obtain ⟨d, hd, hd0, hdN, -⟩ := intTrueDiv_bounds hE hE' hN hN'
  obtain ⟨hr0, hr⟩ := fmod_bounds ht he0
  obtain ⟨s, hs, hs0, hsN⟩ := floatDiv_slot_bounds hE hN hN' he2 hd0 hdN hr0 hr
  refine ⟨j, pyTrunc s, ?_, hj0, hj1, hs0, hsN⟩
  rw [epochSlotAt_of_toFloat he he0 ht, hj, Except.ok_bind, hd, Except.ok_bind, hs,
    Except.ok_bind, pyTrunc_intCast]

theorem epochSlotAt_slotsPerEpoch_zero (hE : 1 ≤ E) (hE' : E < 2 ^ 1024 - 2 ^ 970) (ht : 0 ≤ t)
    (ht' : t < 2 ^ 1023) : epochSlotAt E 0 t = .error .zeroDivision := by
  obtain ⟨e, he, he1, -⟩ := toFloat_bounds hE hE'
  obtain ⟨j, hj, -⟩ := floatFloorDiv_bounds he1 ht ht'
  rw [epochSlotAt_of_toFloat he (zero_lt_one.trans_le he1) ht, hj, Except.ok_bind]
  rfl

/-- The oracle at a reading below `2 ^ 53`, given the double `d` of the slot length and the double
`q` of the remainder's quotient by it: how a given reading is computed. -/
theorem epochSlotAt_of_quotient (hE : 0 < E) (hE' : E < 2 ^ 53) (ht : 0 ≤ t) (ht' : t < 2 ^ 53)
    {d q : ℚ} (hd : intTrueDiv E N = .ok d) (hd0 : d ≠ 0) (hq : fl ((t - E * ⌊t / E⌋) / d) = .ok q) :
    epochSlotAt E N t = .ok (⌊t / E⌋, pyTrunc q) := by
  rw [epochSlotAt_of_lt hE hE' ht ht', hd, Except.ok_bind, floatDiv_of_ne hd0, hq]; rfl

/-- A reading in the first epoch, given the double `d` of the slot length and the double `q` of
the reading's quotient by it. -/
theorem epochSlotAt_first_epoch (hE : 0 < E) (hE' : E < 2 ^ 53) (ht : 0 ≤ t) (htE : t < E) {d q : ℚ}
    (hd : intTrueDiv E N = .ok d) (hd0 : d ≠ 0) (hq : fl (t / d) = .ok q) :
    epochSlotAt E N t = .ok (0, pyTrunc q) := by
  have hE0 : (0 : ℚ) < E := by exact_mod_cast hE
  have h0 : ⌊t / E⌋ = 0 := Int.floor_eq_zero_iff.mpr ⟨div_nonneg ht hE0.le, (div_lt_one hE0).mpr htE⟩
  have h := epochSlotAt_of_quotient hE hE' ht (htE.trans (by exact_mod_cast hE')) hd hd0 (q := q)
  rw [h0] at h
  simpa using h (by simpa using hq)

/-- At a whole number of epochs `k * E`, the first instant of epoch `k`, the oracle reads
`(k, 0)` exactly. -/
theorem epochSlotAt_mul (hE : 1 ≤ E) (hE' : E < 2 ^ 53) (hN : 1 ≤ N) (hN' : N < 2 ^ 32) {k : ℤ}
    (hk : 0 ≤ k) (hkE : k * E < 2 ^ 53) : epochSlotAt E N (k * E) = .ok (k, 0) := by
  have hE0 : (E : ℚ) ≠ 0 := Int.cast_ne_zero.mpr (by omega)
  obtain ⟨d, hd, hd0, -⟩ := intTrueDiv_bounds hE (lt_threshold_of_lt hE') hN hN'
  have hkE' : (k : ℚ) * E < 2 ^ 53 := by exact_mod_cast hkE
  have hk' : (0 : ℚ) ≤ k * E := mul_nonneg (Int.cast_nonneg.mpr hk) (Int.cast_nonneg.mpr (by omega))
  rw [epochSlotAt_of_quotient (by omega) hE' hk' hkE' hd hd0.ne' (q := 0)]
  · rw [mul_div_cancel_right₀ _ hE0, Int.floor_intCast]; simp [pyTrunc]
  · rw [mul_div_cancel_right₀ _ hE0, Int.floor_intCast, mul_comm, sub_self, zero_div, fl_zero]

/-- At the clock's origin the oracle reads epoch 0, slot 0. -/
theorem epochSlotAt_origin (hE : 1 ≤ E) (hE' : E < 2 ^ 53) (hN : 1 ≤ N) (hN' : N < 2 ^ 32) :
    epochSlotAt E N 0 = .ok (0, 0) := by
  simpa using epochSlotAt_mul hE hE' hN hN' le_rfl (by norm_num)

/-- The oracle in doubles never goes back in lexicographic order: the epoch is exact, and within
an epoch the slot is a rounded quotient of the growing remainder. (Its global index
`epoch * N + slot` can go back: `slot` may reach `N`.) -/
theorem epochSlotAt_mono (hE : 1 ≤ E) (hE' : E < 2 ^ 53) (hN : 1 ≤ N) (hN' : N < 2 ^ 32) {t t' : ℚ}
    (ht : 0 ≤ t) (htt : t ≤ t') (ht' : t' < 2 ^ 53) {es es' : ℤ × ℤ} (h : epochSlotAt E N t = .ok es)
    (h' : epochSlotAt E N t' = .ok es') : toLex es ≤ toLex es' := by
  have hE0 : (0 : ℚ) < E := by exact_mod_cast (show 0 < E by omega)
  obtain ⟨d, hd, hd0, -⟩ := intTrueDiv_bounds hE (lt_threshold_of_lt hE') hN hN'
  rw [epochSlotAt_of_lt (by omega) hE' ht (by linarith), hd, Except.ok_bind, floatDiv_of_ne hd0.ne'] at h
  rw [epochSlotAt_of_lt (by omega) hE' (by linarith) ht', hd, Except.ok_bind, floatDiv_of_ne hd0.ne'] at h'
  obtain ⟨s, hs, h⟩ := Except.bind_eq_ok h
  obtain ⟨s', hs', h'⟩ := Except.bind_eq_ok h'
  cases h; cases h'
  rw [Prod.Lex.le_iff]
  rcases (Int.floor_mono (div_le_div_of_nonneg_right htt hE0.le)).lt_or_eq with hlt | heq
  · exact .inl hlt
  refine .inr ⟨heq, ?_⟩
  -- the same epoch: the remainder grows, and so do its rounded quotient and the truncation
  have hr0 : 0 ≤ t - E * ⌊t / E⌋ := by
    have := mul_le_mul_of_nonneg_left (Int.floor_le (t / E)) hE0.le
    rw [mul_div_cancel₀ _ hE0.ne'] at this; linarith
  have hq0 : 0 ≤ (t - E * ⌊t / E⌋) / d := div_nonneg hr0 hd0.le
  have hss := fl_mono hq0 (div_le_div_of_nonneg_right (by rw [heq]; linarith) hd0.le) hs (heq ▸ hs')
  have hs0 := (fl_bounds hq0 hs).1
  dsimp only
  rw [pyTrunc_of_nonneg hs0, pyTrunc_of_nonneg (hs0.trans hss)]
  exact Int.floor_mono hss

end Double

/-! ### The exact reading -/

/-- The oracle's body read in exact rationals, at the clock reading `now`: the spec's
`slot = floor((t mod epoch_seconds) / slot_duration)`. -/
def exactEpochSlot (epochSeconds slotsPerEpoch : ℤ) (now : ℚ) : Except PyError (ℤ × ℤ) :=
  if epochSeconds = 0 then .error .zeroDivision
  else if slotsPerEpoch = 0 then .error .zeroDivision
  else .ok (⌊now / epochSeconds⌋, pyTrunc ((now - epochSeconds * ⌊now / epochSeconds⌋) /
    ((epochSeconds : ℚ) / slotsPerEpoch)))


section Positive

variable {E N : ℤ} (hE : 0 < E) (hN : 0 < N) (t : ℚ)
include hE hN

theorem exactEpochSlot_eq :
    exactEpochSlot E N t = .ok (⌊t / E⌋, ⌊t * N / E⌋ - ⌊t / E⌋ * N) := by
  have hE' : (0 : ℚ) < E := by exact_mod_cast hE
  have hN' : (0 : ℚ) < N := by exact_mod_cast hN
  have hq : (t - E * ⌊t / E⌋) / ((E : ℚ) / N) = t * N / E - (⌊t / E⌋ * N : ℤ) := by
    rw [div_div_eq_mul_div, sub_mul, sub_div, mul_assoc, mul_div_cancel_left₀ _ hE'.ne']
    push_cast; rfl
  have hnn : 0 ≤ (t - E * ⌊t / E⌋) / ((E : ℚ) / N) := by
    rw [mul_comm]
    exact div_nonneg (Int.sub_floor_div_mul_nonneg t hE') (div_pos hE' hN').le
  simp only [exactEpochSlot, hE.ne', hN.ne', if_false, pyTrunc, if_pos hnn]
  rw [hq, Int.floor_sub_int]

theorem globalSlot_exactEpochSlot :
    (exactEpochSlot E N t).map (globalSlot N) = .ok ⌊t * N / E⌋ := by
  rw [exactEpochSlot_eq hE hN]
  simp [Except.map, globalSlot]

theorem slot_nonneg : 0 ≤ ⌊t * N / E⌋ - ⌊t / E⌋ * N := by
  have hE' : (0 : ℚ) < E := by exact_mod_cast hE
  have hN' : (0 : ℚ) < N := by exact_mod_cast hN
  have : ((⌊t / E⌋ * N : ℤ) : ℚ) ≤ t * N / E := by
    push_cast
    rw [show t * N / E = t / E * N by ring]
    exact mul_le_mul_of_nonneg_right (Int.floor_le _) hN'.le
  have := Int.le_floor.mpr this
  omega

omit hE in
theorem slot_lt : ⌊t * N / E⌋ - ⌊t / E⌋ * N < N := by
  have hN' : (0 : ℚ) < N := by exact_mod_cast hN
  have : t * N / E < ((⌊t / E⌋ * N + N : ℤ) : ℚ) := by
    push_cast
    rw [show t * N / E = t / E * N by ring, show (⌊t / E⌋ : ℚ) * N + N = (⌊t / E⌋ + 1) * N by ring]
    exact mul_lt_mul_of_pos_right (Int.lt_floor_add_one _) hN'
  have := Int.floor_lt.mpr this
  omega

/-- The oracle reads the epoch and the slot off the global slot index `⌊t * N / E⌋`. -/
theorem exactEpochSlot_eq_div : exactEpochSlot E N t = .ok (⌊t * N / E⌋ / N, ⌊t * N / E⌋ % N) := by
  have h0 := slot_nonneg hE hN t
  have h1 := @slot_lt E N hN t
  have hg : ⌊t * N / E⌋ = (⌊t * N / E⌋ - ⌊t / E⌋ * N) + ⌊t / E⌋ * N := by ring
  rw [exactEpochSlot_eq hE hN]
  generalize ⌊t * N / E⌋ - ⌊t / E⌋ * N = s at h0 h1 hg
  rw [hg, Int.add_mul_ediv_right _ _ hN.ne', Int.ediv_eq_zero_of_lt h0 h1, Int.add_mul_emod_self,
    Int.emod_eq_of_lt h0 h1, zero_add]

omit hE in
/-- A slot starts at its global index times the slot's length. -/
theorem slotStart_eq :
    (⌊t / E⌋ : ℚ) * E + ((⌊t * N / E⌋ - ⌊t / E⌋ * N : ℤ) : ℚ) * ((E : ℚ) / N) =
      ⌊t * N / E⌋ * ((E : ℚ) / N) := by
  have hN' : (N : ℚ) ≠ 0 := by exact_mod_cast hN.ne'
  push_cast
  rw [sub_mul, mul_assoc, mul_div_cancel₀ _ hN']
  ring

theorem div_slotLength_mul : t * N / E * ((E : ℚ) / N) = t := by
  have hE' : (E : ℚ) ≠ 0 := by exact_mod_cast hE.ne'
  have hN' : (N : ℚ) ≠ 0 := by exact_mod_cast hN.ne'
  rw [div_mul_div_comm, mul_comm (E : ℚ), mul_assoc, mul_div_cancel_right₀ _ (mul_ne_zero hN' hE')]

theorem slotStart_le :
    (⌊t / E⌋ : ℚ) * E + ((⌊t * N / E⌋ - ⌊t / E⌋ * N : ℤ) : ℚ) * ((E : ℚ) / N) ≤ t := by
  have hlen : (0 : ℚ) ≤ E / N := div_nonneg (by exact_mod_cast hE.le) (by exact_mod_cast hN.le)
  calc _ = ⌊t * N / E⌋ * ((E : ℚ) / N) := slotStart_eq hN t
    _ ≤ t * N / E * ((E : ℚ) / N) := mul_le_mul_of_nonneg_right (Int.floor_le _) hlen
    _ = t := div_slotLength_mul hE hN t

theorem lt_slotEnd :
    t < (⌊t / E⌋ : ℚ) * E + ((⌊t * N / E⌋ - ⌊t / E⌋ * N : ℤ) : ℚ) * ((E : ℚ) / N) + (E : ℚ) / N := by
  have hlen : (0 : ℚ) < E / N := div_pos (by exact_mod_cast hE) (by exact_mod_cast hN)
  calc t = t * N / E * ((E : ℚ) / N) := (div_slotLength_mul hE hN t).symm
    _ < (⌊t * N / E⌋ + 1) * ((E : ℚ) / N) := mul_lt_mul_of_pos_right (Int.lt_floor_add_one _) hlen
    _ = _ := by rw [slotStart_eq hN t, add_mul, one_mul]

end Positive

theorem globalSlot_mono {E N : ℤ} (hE : 0 < E) (hN : 0 < N) {t t' : ℚ} (h : t ≤ t') :
    ⌊t * N / E⌋ ≤ ⌊t' * N / E⌋ := by
  have hE' : (0 : ℚ) < E := by exact_mod_cast hE
  have hN' : (0 : ℚ) < N := by exact_mod_cast hN
  exact Int.floor_mono (div_le_div_of_nonneg_right (mul_le_mul_of_nonneg_right h hN'.le) hE'.le)

/-! ### The doubles against the exact reading -/

/-- A remainder `r < E` divided by the double `d` of `E / N`, against its exact quotient by
`E / N`: the two differ by at most `2 ^ -18`, the quotient staying below `2 ^ 33`. -/
theorem div_slotDuration_near {E N : ℤ} {d r : ℚ} (hE : 1 ≤ E) (hN' : N < 2 ^ 32) (hd0 : 0 < d)
    (hlo : E - E / 2 ^ 53 - N / 2 ^ 1075 ≤ d * N) (hhi : d * N ≤ E + E / 2 ^ 53 + N / 2 ^ 1075)
    (hr0 : 0 ≤ r) (hr : r < E) :
    r / d < 2 ^ 33 ∧ r / d - r / ((E : ℚ) / N) ≤ 1 / 2 ^ 18 ∧ r / ((E : ℚ) / N) - r / d ≤ 1 / 2 ^ 18 := by
  have hE1 : (1 : ℚ) ≤ E := by exact_mod_cast hE
  have hE0 : (0 : ℚ) < E := zero_lt_one.trans_le hE1
  have hN2 : (N : ℚ) < 2 ^ 32 := by exact_mod_cast hN'
  have hx0 : 0 ≤ r / d := div_nonneg hr0 hd0.le
  have hxN : r / d < 2 ^ 33 := by
    have : r / d < N * (1 + 1 / 2 ^ 50) := by
      rw [div_lt_iff₀ hd0]; linarith only [hE1, hN2, hlo, hr]
    linarith only [this, hN2]
  -- times `E`, both differences are at most `r / d * (E / 2 ^ 53 + N / 2 ^ 1075)`
  have e : r / d * (d * N) = r / ((E : ℚ) / N) * E := by
    rw [← mul_assoc, div_mul_cancel₀ r hd0.ne', div_div_eq_mul_div, div_mul_cancel₀ _ hE0.ne']
  have h1 := mul_le_mul_of_nonneg_left hlo hx0
  have h2 := mul_le_mul_of_nonneg_left hhi hx0
  have h3 := mul_le_mul_of_nonneg_right hxN.le hE0.le
  have h4 := mul_le_mul_of_nonneg_left hN2.le hx0
  exact ⟨hxN, le_of_mul_le_mul_right (by linarith only [e, h1, h3, h4, hE1, hxN]) hE0,
    le_of_mul_le_mul_right (by linarith only [e, h2, h3, h4, hE1, hxN]) hE0⟩

/-- Two numbers less than one apart have floors at most one apart. -/
theorem floor_near {x y : ℚ} (h1 : x < y + 1) : ⌊x⌋ ≤ ⌊y⌋ + 1 :=
  Int.lt_add_one_iff.mp (Int.floor_lt.mpr (by push_cast; linarith [Int.lt_floor_add_one y]))

/-- The oracle in doubles refines the exact reading: with `1 ≤ E < 2 ^ 53`, `1 ≤ N < 2 ^ 32` and
a reading in `[0, 2 ^ 53)`, it reads the exact epoch, and a slot within one of the exact one. -/
theorem epochSlotAt_near_exact {E N : ℤ} {t : ℚ} (hE : 1 ≤ E) (hE' : E < 2 ^ 53) (hN : 1 ≤ N)
    (hN' : N < 2 ^ 32) (ht : 0 ≤ t) (ht' : t < 2 ^ 53) :
    ∃ epoch slot slot', epochSlotAt E N t = .ok (epoch, slot) ∧
      exactEpochSlot E N t = .ok (epoch, slot') ∧ slot ≤ slot' + 1 ∧ slot' ≤ slot + 1 := by
  have hE0 : (0 : ℚ) < E := by exact_mod_cast (show 0 < E by omega)
  obtain ⟨d, hd, hd0, hlo, hhi⟩ := intTrueDiv_bounds hE (lt_threshold_of_lt hE') hN hN'
  obtain ⟨hr0, hr⟩ := fmod_bounds ht hE0
  rw [fmod_of_nonneg ht hE0] at hr0 hr
  have hexact : exactEpochSlot E N t =
      .ok (⌊t / E⌋, pyTrunc ((t - E * ⌊t / E⌋) / ((E : ℚ) / N))) := by
    simp only [exactEpochSlot, if_neg (show E ≠ 0 by omega), if_neg (show N ≠ 0 by omega)]
  have hdouble := fun q => epochSlotAt_of_quotient (N := N) (by omega) hE' ht ht' hd hd0.ne' (q := q)
  generalize t - E * ⌊t / E⌋ = r at hr0 hr hexact hdouble
  obtain ⟨hxN, hxy, hyx⟩ := div_slotDuration_near hE hN' hd0 hlo hhi hr0 hr
  have hx0 : 0 ≤ r / d := div_nonneg hr0 hd0.le
  obtain ⟨q, hq⟩ := fl_ok hx0 (hxN.trans (by norm_num))
  obtain ⟨hq0, hqlo, hqhi⟩ := fl_bounds hx0 hq
  refine ⟨_, _, _, hdouble q hq, hexact, ?_, ?_⟩ <;>
    rw [pyTrunc_of_nonneg hq0, pyTrunc_of_nonneg (div_nonneg hr0 (by positivity))] <;>
    exact floor_near (by linarith only [hqlo, hqhi, hxN, hxy, hyx])

end Rendezvous
