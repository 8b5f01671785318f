import Rendezvous.Double

/-!
# CPython's float arithmetic

`_get_epoch_slot` (and the client's `get_epoch_slot`) divides a clock reading by `int`s:

    now = time.time()
    epoch = int(now // self.epoch_seconds)
    slot_duration = self.epoch_seconds / self.slots_per_epoch
    slot = int((now % self.epoch_seconds) / slot_duration)

`now` is a double, and each operation is CPython's on doubles (`Objects/floatobject.c`,
`Objects/longobject.c`). This module gives those operations on the exact values of the doubles:

* `fl` — an operation whose exact result is `a` gives the double nearest `a`, halves to even
  (`PyFloat.round`). Past the largest double it gives an infinity; every float computed here
  ends in `int()`, which raises `OverflowError` on an infinity, so `fl` raises there.
* `toFloat` — an `int` operand of a float operation, converted by `PyLong_AsDouble`: rounded
  the same way, `OverflowError` past the largest double.
* `floatFloorDiv` — `float_floor_div`, through `_float_div_mod`: `mod = fmod(vx, wx)` is exact,
  `div = (vx - mod) / wx` is rounded twice, lowered by one when the signs of `mod` and `wx`
  differ, then snapped to the nearest integer (`snap`).
* `floatRem` — `float_rem`: `fmod(vx, wx)`, moved by `wx` when the signs differ.
* `floatDiv` — `float_div`; `intTrueDiv` — `long_true_divide`, the correctly rounded quotient
  of two `int`s.
* `pyTrunc` — `int()` of a finite float.

A double is represented by its value. The sign of a zero, which `_float_div_mod` and
`float_rem` set with `copysign`, is dropped: it never reaches the integers `int()` returns.

## What is proved

* `fl_bounds` — rounding moves a nonnegative `a` by at most `a / 2 ^ 53 + 1 / 2 ^ 1075`.
* `fl_ok`, `fl_overflow` — the result is finite exactly below `2 ^ 1024 - 2 ^ 970`.
* `fl_intCast` — an integer below `2 ^ 53` is a double; `fl_eq_of_ulpExp` — the rounding of a
  given number, for computing one.
* `fl_mono` — rounding never reverses an order.
* `floatFloorDiv_of_nonneg`, `floatRem_of_nonneg` — with `vx ≥ 0` and `wx > 0` no sign fix-up
  happens; `floatFloorDiv_intCast` — and below `2 ^ 53` the floor division by an `int` is exact.
-/

namespace Rendezvous

open PyFloat

/-! ### The operations -/

/-- `int(x)` of a finite float: truncation toward zero. -/
def pyTrunc (x : ℚ) : ℤ := if 0 ≤ x then ⌊x⌋ else ⌈x⌉

/-- A float operation whose exact result is `a`: the double nearest `a`, halves to even, by its
value; `OverflowError` where that is an infinity. -/
def fl (a : ℚ) : Except PyError ℚ :=
  match PyFloat.round (decide (a < 0)) |a| with
  | .finite _ m => .ok (if a < 0 then -m else m)
  | _ => .error .overflow

/-- `PyLong_AsDouble(n)`: the `int` operand of a float operation, as a double. -/
def toFloat (n : ℤ) : Except PyError ℚ := fl n

/-- C's `fmod(x, y)`: `x - y * trunc(x / y)`, exact, with the sign of `x`. -/
def fmod (x y : ℚ) : ℚ := x - y * pyTrunc (x / y)

/-- The snap that ends `_float_div_mod`: `floor(div)`, plus one when `div` lies more than a half
above it. The sum is exact: a double of `2 ^ 52` or more is a whole number. At `div == 0` the C
code returns a zero signed as the quotient, of value `⌊0⌋`. -/
def snap (div : ℚ) : ℤ := if 1 / 2 < div - ⌊div⌋ then ⌊div⌋ + 1 else ⌊div⌋

/-- `vx // wx` on floats (`float_floor_div`). -/
def floatFloorDiv (vx wx : ℚ) : Except PyError ℚ :=
  if wx = 0 then .error .zeroDivision else do
    let div ← fl ((← fl (vx - fmod vx wx)) / wx)
    let div ← if fmod vx wx ≠ 0 ∧ decide (wx < 0) ≠ decide (fmod vx wx < 0) then fl (div - 1)
      else pure div
    pure (snap div)

/-- `vx % wx` on floats (`float_rem`). -/
def floatRem (vx wx : ℚ) : Except PyError ℚ :=
  if wx = 0 then .error .zeroDivision
  else if fmod vx wx ≠ 0 ∧ decide (wx < 0) ≠ decide (fmod vx wx < 0) then fl (fmod vx wx + wx)
  else .ok (fmod vx wx)

/-- `vx / wx` on floats (`float_div`). -/
def floatDiv (vx wx : ℚ) : Except PyError ℚ :=
  if wx = 0 then .error .zeroDivision else fl (vx / wx)

/-- `a / b` on `int`s (`long_true_divide`): the quotient rounded once. -/
def intTrueDiv (a b : ℤ) : Except PyError ℚ :=
  if b = 0 then .error .zeroDivision else fl (a / b)

/-! ### Rounding to an integer -/

theorem pyTrunc_of_nonneg {x : ℚ} (hx : 0 ≤ x) : pyTrunc x = ⌊x⌋ := if_pos hx

@[simp] theorem pyTrunc_intCast (k : ℤ) : pyTrunc k = k := by
  unfold pyTrunc; split_ifs <;> simp

@[simp] theorem snap_intCast (k : ℤ) : snap k = k := by simp [snap]

theorem snap_le (x : ℚ) : (snap x : ℚ) ≤ x + 1 / 2 := by
  unfold snap
  have := Int.floor_le x
  split_ifs with h <;> push_cast <;> linarith

theorem floor_le_snap (x : ℚ) : ⌊x⌋ ≤ snap x := by
  unfold snap; split_ifs <;> omega

theorem floor_le_roundEven (x : ℚ) : ⌊x⌋ ≤ roundEven x := by
  unfold roundEven; split_ifs <;> omega

theorem roundEven_le_floor_add_one (x : ℚ) : roundEven x ≤ ⌊x⌋ + 1 := by
  unfold roundEven; split_ifs <;> omega

theorem le_roundEven_of_le {k : ℤ} {x : ℚ} (h : (k : ℚ) ≤ x) : k ≤ roundEven x :=
  (Int.le_floor.mpr h).trans (floor_le_roundEven x)

theorem roundEven_le_of_lt {k : ℤ} {x : ℚ} (h : x < k) : roundEven x ≤ k :=
  (roundEven_le_floor_add_one x).trans (Int.add_one_le_of_lt (Int.floor_lt.mpr h))

theorem roundEven_mono {x y : ℚ} (h : x ≤ y) : roundEven x ≤ roundEven y := by
  rcases (Int.floor_mono h).lt_or_eq with hlt | heq
  · exact (roundEven_le_floor_add_one x).trans ((Int.add_one_le_of_lt hlt).trans (floor_le_roundEven y))
  · have hxy : x - ⌊y⌋ ≤ y - ⌊y⌋ := by linarith
    unfold roundEven
    rw [heq]
    split_ifs <;> first | omega | (exfalso; linarith)

/-! ### Rounding to a double -/

section Round

variable {a b v w : ℚ}

@[simp] theorem fl_zero : fl 0 = .ok 0 := by simp [fl, PyFloat.round]

theorem fl_of_pos (ha : 0 < a) :
    fl a = if (2 : ℚ) ^ 1024 ≤ roundEven (a / 2 ^ ulpExp a) * 2 ^ ulpExp a then .error .overflow
      else .ok (roundEven (a / 2 ^ ulpExp a) * 2 ^ ulpExp a) := by
  unfold fl PyFloat.round
  rw [abs_of_pos ha, if_neg ha.ne']
  have hneg : ¬a < 0 := not_lt.mpr ha.le
  split_ifs <;> simp [hneg]

/-- `fl` at a number whose last bit and nearest multiple of it are known. -/
theorem fl_eq_of_ulpExp {u k : ℤ} (ha : 0 < a) (hu : ulpExp a = u) (h1 : k - 1 / 2 ≤ a / 2 ^ u)
    (h2 : a / 2 ^ u ≤ k + 1 / 2) (htie : k % 2 ≠ 0 → k - 1 / 2 < a / 2 ^ u ∧ a / 2 ^ u < k + 1 / 2)
    (hfin : k * (2 : ℚ) ^ u < 2 ^ 1024) : fl a = .ok (k * 2 ^ u) := by
  unfold fl
  rw [abs_of_pos ha, round_eq_of_ulpExp _ ha hu h1 h2 htie hfin]
  simp [not_lt.mpr ha.le]

/-- `fl` at a number of the binade `[2 ^ (u + 52), 2 ^ (u + 53))` strictly nearest `k * 2 ^ u`: a
form `norm_num` checks for a given number. -/
theorem fl_eq_of_binade {u k : ℤ} (hu : -1074 ≤ u) (hlo : 2 ^ (u + 52) ≤ a) (hhi : a < 2 ^ (u + 53))
    (h1 : k - 1 / 2 < a / 2 ^ u) (h2 : a / 2 ^ u < k + 1 / 2) (hfin : k * (2 : ℚ) ^ u < 2 ^ 1024) :
    fl a = .ok (k * 2 ^ u) :=
  have ha : 0 < a := lt_of_lt_of_le (zpow_pos two_pos _) hlo
  fl_eq_of_ulpExp ha (ulpExp_eq hu hhi (.inr hlo) ha) h1.le h2.le (fun _ => ⟨h1, h2⟩) hfin

/-- Half a last bit is at most `a / 2 ^ 53`, or half the least subnormal. -/
theorem half_ulp_le (ha : 0 < a) : (2 : ℚ) ^ ulpExp a / 2 ≤ a / 2 ^ 53 + 1 / 2 ^ 1075 := by
  have hP : (0 : ℚ) ≤ 2 ^ ulpExp a := (zpow_pos two_pos _).le
  rcases (ulpExp_spec ha).2.2 with h | h
  · rw [h]; norm_num; positivity
  · rw [zpow_add₀ two_ne_zero] at h
    have : (0 : ℚ) ≤ 1 / 2 ^ 1075 := by positivity
    norm_num at h ⊢
    linarith

theorem fl_bounds (ha : 0 ≤ a) (h : fl a = .ok v) :
    0 ≤ v ∧ a - a / 2 ^ 53 - 1 / 2 ^ 1075 ≤ v ∧ v ≤ a + a / 2 ^ 53 + 1 / 2 ^ 1075 := by
  rcases ha.eq_or_lt with rfl | ha
  · rw [fl_zero] at h; cases h; norm_num
  rw [fl_of_pos ha] at h
  split_ifs at h
  cases h
  have hP : (0 : ℚ) < 2 ^ ulpExp a := zpow_pos two_pos _
  have hhalf := half_ulp_le ha
  have hlo := mul_le_mul_of_nonneg_right (le_roundEven (a / 2 ^ ulpExp a)) hP.le
  have hhi := mul_le_mul_of_nonneg_right (roundEven_le (a / 2 ^ ulpExp a)) hP.le
  rw [sub_mul, div_mul_cancel₀ _ hP.ne'] at hlo
  rw [add_mul, div_mul_cancel₀ _ hP.ne'] at hhi
  have hR : (0 : ℚ) ≤ roundEven (a / 2 ^ ulpExp a) :=
    Int.cast_nonneg.mpr (le_roundEven_of_le (by exact_mod_cast (div_pos ha hP).le))
  refine ⟨mul_nonneg hR hP.le, ?_, ?_⟩ <;> linarith only [hlo, hhi, hhalf]

theorem fl_ok (ha : 0 ≤ a) (h : a < 2 ^ 1024 - 2 ^ 970) : ∃ v, fl a = .ok v := by
  rcases ha.eq_or_lt with rfl | ha
  · exact ⟨0, fl_zero⟩
  rw [fl_of_pos ha, if_neg]
  · exact ⟨_, rfl⟩
  have hP : (0 : ℚ) < 2 ^ ulpExp a := zpow_pos two_pos _
  have hhi := mul_le_mul_of_nonneg_right (roundEven_le (a / 2 ^ ulpExp a)) hP.le
  rw [add_mul, div_mul_cancel₀ _ hP.ne'] at hhi
  -- the last bit of a number below `2 ^ 1024` is at most `2 ^ 971`
  have hu : (2 : ℚ) ^ ulpExp a ≤ 2 ^ (971 : ℤ) := by
    rcases (ulpExp_spec ha).2.2 with hu | hu
    · rw [hu]; exact zpow_le_zpow_right₀ one_le_two (by norm_num)
    · have : (2 : ℚ) ^ (ulpExp a + 52) < 2 ^ (1024 : ℤ) := by
        rw [zpow_ofNat]; linarith [show (0 : ℚ) ≤ 2 ^ 970 by positivity]
      have := (zpow_lt_zpow_iff_right₀ one_lt_two).mp this
      exact zpow_le_zpow_right₀ one_le_two (by omega)
  have h971 : (2 : ℚ) ^ (971 : ℤ) = 2 * 2 ^ 970 := by norm_num
  linarith

/-- The two least bits of the top binade: `2 ^ 53 - 1 / 2` and above round to `2 ^ 53`. -/
theorem two_pow_le_roundEven {x : ℚ} (hx : 2 ^ 53 - 1 / 2 ≤ x) : 2 ^ 53 ≤ roundEven x := by
  have hf : (2 : ℤ) ^ 53 - 1 ≤ ⌊x⌋ := Int.le_floor.mpr (by push_cast; linarith)
  rcases hf.lt_or_eq with hf | hf
  · exact (show (2 : ℤ) ^ 53 ≤ ⌊x⌋ by omega).trans (floor_le_roundEven x)
  · unfold roundEven
    rw [← hf]
    have hx' : (1 / 2 : ℚ) ≤ x - ((2 ^ 53 - 1 : ℤ) : ℚ) := by push_cast; linarith
    split_ifs <;> first | omega | (exfalso; linarith)

theorem fl_overflow (h : 2 ^ 1024 - 2 ^ 970 ≤ a) : fl a = .error .overflow := by
  have ha : 0 < a := lt_of_lt_of_le (by norm_num) h
  rw [fl_of_pos ha, if_pos]
  have hP : (0 : ℚ) < 2 ^ ulpExp a := zpow_pos two_pos _
  obtain ⟨hu, ha53, hsub⟩ := ulpExp_spec ha
  have h52 : (2 : ℚ) ^ 1023 ≤ a := le_trans (by norm_num) h
  -- `a ≥ 2 ^ 1023` has its last bit at `2 ^ 971` or above
  have hge : 971 ≤ ulpExp a := by
    have : (2 : ℚ) ^ (1023 : ℤ) < 2 ^ (ulpExp a + 53) := by rw [zpow_ofNat]; linarith
    have := (zpow_lt_zpow_iff_right₀ one_lt_two).mp this
    omega
  rcases hge.lt_or_eq with hgt | heq
  · have hsub' : (2 : ℚ) ^ (ulpExp a + 52) ≤ a := hsub.resolve_left (by omega)
    have hx : (2 : ℚ) ^ 52 ≤ a / 2 ^ ulpExp a := by
      rwa [le_div_iff₀ hP, ← zpow_natCast, ← zpow_add₀ two_ne_zero, add_comm]
    have hR : (2 : ℤ) ^ 52 ≤ roundEven (a / 2 ^ ulpExp a) := le_roundEven_of_le (by exact_mod_cast hx)
    calc (2 : ℚ) ^ 1024 = (2 : ℚ) ^ 52 * (2 : ℚ) ^ (972 : ℤ) := by norm_num
      _ ≤ (roundEven (a / 2 ^ ulpExp a) : ℚ) * 2 ^ ulpExp a :=
        mul_le_mul (by exact_mod_cast hR) (zpow_le_zpow_right₀ one_le_two (by omega)) (by positivity)
          (by exact_mod_cast (show (0 : ℤ) ≤ 2 ^ 52 by norm_num).trans hR)
  · rw [← heq]
    have hx : 2 ^ 53 - 1 / 2 ≤ a / 2 ^ (971 : ℤ) := by
      rw [le_div_iff₀ (zpow_pos two_pos _)]; norm_num at h ⊢; linarith
    have := two_pow_le_roundEven hx
    calc (2 : ℚ) ^ 1024 = (2 : ℚ) ^ 53 * (2 : ℚ) ^ (971 : ℤ) := by norm_num
      _ ≤ (roundEven (a / 2 ^ (971 : ℤ)) : ℚ) * 2 ^ (971 : ℤ) :=
        mul_le_mul_of_nonneg_right (by exact_mod_cast this) (by positivity)

/-- An integer below `2 ^ 53` is a double. -/
theorem fl_intCast {n : ℤ} (h0 : 0 ≤ n) (h : n < 2 ^ 53) : fl n = .ok n := by
  rcases h0.eq_or_lt with rfl | hn
  · simp
  have ha : (0 : ℚ) < n := by exact_mod_cast hn
  obtain ⟨hu, -, hsub⟩ := ulpExp_spec ha
  -- the last bit of an integer below `2 ^ 53` is `2 ^ 0` or finer
  have hu0 : ulpExp (n : ℚ) ≤ 0 := by
    rcases hsub with hs | hs
    · omega
    · have : (2 : ℚ) ^ (ulpExp (n : ℚ) + 52) < 2 ^ (53 : ℤ) := by
        rw [zpow_ofNat]; exact lt_of_le_of_lt hs (by exact_mod_cast h)
      have := (zpow_lt_zpow_iff_right₀ one_lt_two).mp this
      omega
  obtain ⟨m, hm⟩ : ∃ m : ℕ, ulpExp (n : ℚ) = -m := ⟨(-ulpExp (n : ℚ)).toNat, by omega⟩
  have hk : (n : ℚ) / 2 ^ ulpExp (n : ℚ) = ((n * 2 ^ m : ℤ) : ℚ) := by
    rw [hm, zpow_neg, zpow_natCast, div_inv_eq_mul]; push_cast; rfl
  have := fl_eq_of_ulpExp ha rfl (k := n * 2 ^ m) (by rw [hk]; linarith) (by rw [hk]; linarith)
    (fun _ => by rw [hk]; constructor <;> linarith)
    (by rw [← hk, div_mul_cancel₀ _ (zpow_pos two_pos _).ne']
        exact lt_trans (by exact_mod_cast h : (n : ℚ) < 2 ^ 53) (by norm_num))
  rwa [← hk, div_mul_cancel₀ _ (zpow_pos two_pos _).ne'] at this

theorem log2Floor_mono (ha : 0 < a) (hab : a ≤ b) : log2Floor a ≤ log2Floor b := by
  have h := lt_of_le_of_lt ((log2Floor_spec ha).1.trans hab) (log2Floor_spec (ha.trans_le hab)).2
  have := (zpow_lt_zpow_iff_right₀ one_lt_two).mp h
  omega

/-- Rounding never reverses an order. -/
theorem fl_mono (ha : 0 ≤ a) (hab : a ≤ b) (hv : fl a = .ok v) (hw : fl b = .ok w) : v ≤ w := by
  rcases ha.eq_or_lt with rfl | ha
  · rw [fl_zero] at hv; cases hv; exact (fl_bounds hab hw).1
  have hb := ha.trans_le hab
  rw [fl_of_pos ha] at hv
  rw [fl_of_pos hb] at hw
  split_ifs at hv hw
  cases hv; cases hw
  have hPa : (0 : ℚ) < 2 ^ ulpExp a := zpow_pos two_pos _
  have hPb : (0 : ℚ) < 2 ^ ulpExp b := zpow_pos two_pos _
  have hu : ulpExp a ≤ ulpExp b := by
    unfold ulpExp; have := log2Floor_mono ha hab; omega
  rcases hu.lt_or_eq with hu | hu
  · -- `a` rounds to at most `2 ^ (ulpExp a + 53)`, the least double of `b`'s binade or below it
    have hRa : roundEven (a / 2 ^ ulpExp a) ≤ 2 ^ 53 := by
      have hx : a / 2 ^ ulpExp a < 2 ^ 53 := by
        rw [div_lt_iff₀ hPa, ← zpow_natCast, ← zpow_add₀ two_ne_zero, add_comm]; exact (ulpExp_spec ha).2.1
      exact roundEven_le_of_lt (by exact_mod_cast hx)
    have hRb : (2 : ℤ) ^ 52 ≤ roundEven (b / 2 ^ ulpExp b) := by
      have hs : (2 : ℚ) ^ (ulpExp b + 52) ≤ b := (ulpExp_spec hb).2.2.resolve_left (by have := (ulpExp_spec ha).1; omega)
      have hx : (2 : ℚ) ^ 52 ≤ b / 2 ^ ulpExp b := by
        rwa [le_div_iff₀ hPb, ← zpow_natCast, ← zpow_add₀ two_ne_zero, add_comm]
      exact le_roundEven_of_le (by exact_mod_cast hx)
    calc (roundEven (a / 2 ^ ulpExp a) : ℚ) * 2 ^ ulpExp a ≤ 2 ^ 53 * 2 ^ ulpExp a :=
          mul_le_mul_of_nonneg_right (by exact_mod_cast hRa) hPa.le
      _ = 2 ^ 52 * 2 ^ (ulpExp a + 1) := by rw [zpow_add_one₀ two_ne_zero]; ring
      _ ≤ roundEven (b / 2 ^ ulpExp b) * 2 ^ ulpExp b :=
          mul_le_mul (by exact_mod_cast hRb) (zpow_le_zpow_right₀ one_le_two (by omega)) (by positivity)
            (by exact_mod_cast (show (0 : ℤ) ≤ 2 ^ 52 by norm_num).trans hRb)
  · have hR := roundEven_mono (div_le_div_of_nonneg_right hab hPb.le)
    rw [hu]
    exact mul_le_mul_of_nonneg_right (by exact_mod_cast hR) hPb.le

end Round

/-! ### The operations on nonnegative readings -/

section Nonneg

variable {x y : ℚ}

theorem fmod_of_nonneg (hx : 0 ≤ x) (hy : 0 < y) : fmod x y = x - y * ⌊x / y⌋ := by
  rw [fmod, pyTrunc_of_nonneg (div_nonneg hx hy.le)]

theorem fmod_bounds (hx : 0 ≤ x) (hy : 0 < y) : 0 ≤ fmod x y ∧ fmod x y < y := by
  rw [fmod_of_nonneg hx hy]
  have h1 := mul_le_mul_of_nonneg_left (Int.floor_le (x / y)) hy.le
  have h2 := mul_lt_mul_of_pos_left (Int.lt_floor_add_one (x / y)) hy
  rw [mul_div_cancel₀ _ hy.ne'] at h1 h2
  constructor <;> linarith

/-- No sign fix-up: the remainder of a nonnegative `x` has the sign of a positive `y`. -/
theorem fixup_false (hx : 0 ≤ x) (hy : 0 < y) :
    ¬(fmod x y ≠ 0 ∧ decide (y < 0) ≠ decide (fmod x y < 0)) := by
  simp [not_lt.mpr hy.le, not_lt.mpr (fmod_bounds hx hy).1]

theorem floatFloorDiv_of_nonneg (hx : 0 ≤ x) (hy : 0 < y) :
    floatFloorDiv x y = (fl (y * ⌊x / y⌋) >>= fun p => fl (p / y)) >>= fun q => .ok (snap q : ℚ) := by
  rw [floatFloorDiv, if_neg hy.ne', fmod_of_nonneg hx hy, sub_sub_cancel]
  have := fixup_false hx hy
  rw [fmod_of_nonneg hx hy] at this
  simp only [if_neg this, bind_assoc, pure_bind]
  rfl

/-- Below `2 ^ 53`, the floor division of a nonnegative reading by a positive `int` is exact. -/
theorem floatFloorDiv_intCast {E : ℤ} (hE : 0 < E) (hx : 0 ≤ x) (hx' : x < 2 ^ 53) :
    floatFloorDiv x E = .ok ⌊x / E⌋ := by
  have hE' : (0 : ℚ) < E := by exact_mod_cast hE
  have hk : 0 ≤ ⌊x / E⌋ := Int.floor_nonneg.mpr (div_nonneg hx hE'.le)
  have hEk : (E : ℚ) * ⌊x / E⌋ ≤ x := by
    have := mul_le_mul_of_nonneg_left (Int.floor_le (x / E)) hE'.le
    rwa [mul_div_cancel₀ _ hE'.ne'] at this
  have hlt : E * ⌊x / E⌋ < 2 ^ 53 := by
    have : ((E * ⌊x / E⌋ : ℤ) : ℚ) < ((2 ^ 53 : ℤ) : ℚ) := by push_cast; linarith
    exact_mod_cast this
  have hk' : ⌊x / E⌋ < 2 ^ 53 := lt_of_le_of_lt (le_mul_of_one_le_left hk hE) hlt
  rw [floatFloorDiv_of_nonneg hx hE', show (E : ℚ) * ⌊x / E⌋ = ((E * ⌊x / E⌋ : ℤ) : ℚ) by push_cast; rfl,
    fl_intCast (mul_nonneg hE.le hk) hlt]
  simp only [bind, Except.bind, Int.cast_mul, mul_div_cancel_left₀ _ hE'.ne', fl_intCast hk hk', snap_intCast]

/-- A nonnegative reading below `2 ^ 1023`, floor-divided by a double `e ≥ 1`: the quotient
lies in `[0, x + x / 2 ^ 51 + 1]`. -/
theorem floatFloorDiv_bounds {e : ℚ} (he : 1 ≤ e) (hx : 0 ≤ x) (hx' : x < 2 ^ 1023) :
    ∃ j : ℤ, floatFloorDiv x e = .ok j ∧ 0 ≤ j ∧ (j : ℚ) ≤ x + x / 2 ^ 51 + 1 := by
  have he0 : 0 < e := zero_lt_one.trans_le he
  have hmod := fmod_of_nonneg hx he0
  obtain ⟨hm0, -⟩ := fmod_bounds hx he0
  have hB : (2 : ℚ) ^ 1023 + 2 ^ 1023 / 2 ^ 53 + 1 / 2 ^ 1075 < 2 ^ 1024 - 2 ^ 970 := by norm_num
  have hp0 : 0 ≤ e * ⌊x / e⌋ :=
    mul_nonneg he0.le (Int.cast_nonneg.mpr (Int.floor_nonneg.mpr (div_nonneg hx he0.le)))
  obtain ⟨p, hp⟩ := fl_ok hp0 (by linarith only [hmod, hm0, hx', hB])
  obtain ⟨hp0', -, hp1⟩ := fl_bounds hp0 hp
  have hpe : p / e ≤ p := div_le_self hp0' he
  obtain ⟨q, hq⟩ := fl_ok (div_nonneg hp0' he0.le) (by linarith only [hpe, hp1, hmod, hm0, hx', hB])
  obtain ⟨hq0, -, hq1⟩ := fl_bounds (div_nonneg hp0' he0.le) hq
  refine ⟨snap q, by rw [floatFloorDiv_of_nonneg hx he0, hp, Except.ok_bind, hq]; rfl,
    (Int.floor_nonneg.mpr hq0).trans (floor_le_snap q), ?_⟩
  linarith only [snap_le q, hq1, hpe, hp1, hmod, hm0, hx]

theorem floatRem_of_nonneg (hx : 0 ≤ x) (hy : 0 < y) : floatRem x y = .ok (fmod x y) := by
  rw [floatRem, if_neg hy.ne', if_neg (fixup_false hx hy)]

/- The casts are taken with the exponents as variables, so that no step evaluates `2 ^ 1024`. -/
theorem intCast_lt_threshold {E : ℤ} (h : E < 2 ^ 1024 - 2 ^ 970) : (E : ℚ) < 2 ^ 1024 - 2 ^ 970 :=
  (fun a b (h : E < 2 ^ a - 2 ^ b) => (by exact_mod_cast h : (E : ℚ) < 2 ^ a - 2 ^ b)) 1024 970 h

theorem threshold_le_intCast {E : ℤ} (h : 2 ^ 1024 - 2 ^ 970 ≤ E) : (2 : ℚ) ^ 1024 - 2 ^ 970 ≤ E :=
  (fun a b (h : 2 ^ a - 2 ^ b ≤ E) => (by exact_mod_cast h : (2 : ℚ) ^ a - 2 ^ b ≤ E)) 1024 970 h

theorem lt_threshold_of_lt {E : ℤ} (h : E < 2 ^ 53) : E < 2 ^ 1024 - 2 ^ 970 :=
  lt_trans h (by norm_num)

/-- A positive `int` below the overflow threshold converts to a double of at least `1`. -/
theorem toFloat_bounds {E : ℤ} (hE : 1 ≤ E) (hE' : E < 2 ^ 1024 - 2 ^ 970) :
    ∃ e, toFloat E = .ok e ∧ 1 ≤ e ∧ e ≤ E + E / 2 ^ 53 + 1 / 2 ^ 1075 := by
  have hE1 : (1 : ℚ) ≤ E := by exact_mod_cast hE
  obtain ⟨e, he⟩ := fl_ok (by linarith) (intCast_lt_threshold hE')
  have h1 : fl 1 = .ok 1 := by simpa using fl_intCast (n := 1) (by norm_num) (by norm_num)
  exact ⟨e, he, fl_mono zero_le_one hE1 h1 he, (fl_bounds (by linarith) he).2.2⟩

theorem floatDiv_of_ne (hy : y ≠ 0) (x : ℚ) : floatDiv x y = fl (x / y) := if_neg hy

theorem intTrueDiv_of_ne {b : ℤ} (hb : b ≠ 0) (a : ℤ) : intTrueDiv a b = fl ((a : ℚ) / b) := if_neg hb

end Nonneg

end Rendezvous
