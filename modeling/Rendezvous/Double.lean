import Rendezvous.Float
import Mathlib.Algebra.Order.Field.Power

/-!
# What `float()` and `repr` of a double are for

`Float` computes `float(s)` of a decimal as `round` (to nearest, halves to even) and `repr` as
the shortest decimal `shortest` finds, laid out by `formatShort`. This module proves the two
facts CPython's `float_repr_style = 'short'` rests on, over the exact rationals of the model.

## The model

A magnitude is a double (`IsDouble`) when it is below `2 ^ 1024` and a whole multiple of its
own last bit `2 ^ ulpExp m`. The rounding interval of a positive double `v` reaches
`lowerGap v` below it (half way to the next double down) and `2 ^ (ulpExp v - 1)` above it,
its ends included when the mantissa is even: the interval `shortest` searches.

## What is proved

* `round_of_mem` — every number of a double's rounding interval rounds to that double.
* `shortest_spec` — `repr`'s digits `c * 10 ^ x` have `c > 0` and lie in that interval, so
  `float(repr(x)) == x`; seventeen digits always suffice (`step_lt_width`), so the fallback of
  `shortest` is never taken.
* `valid_round` — `float()` of any decimal is a double or an infinity.
-/

namespace Rendezvous

namespace PyFloat

/-! ### Floor logarithms -/

theorem floorLog_bounds {b a : ℚ} {g : ℤ} (hlo : b ^ (g - 1) < a) (hhi : a < b ^ (g + 1)) :
    b ^ (if b ^ g ≤ a then g else g - 1) ≤ a ∧ a < b ^ ((if b ^ g ≤ a then g else g - 1) + 1) := by
  split_ifs with h
  · exact ⟨h, hhi⟩
  · exact ⟨hlo.le, by rw [sub_add_cancel]; exact lt_of_not_le h⟩

theorem div_bounds {b p q : ℚ} (hb : 1 < b) {i j : ℤ} (hp : b ^ i ≤ p) (hp' : p < b ^ (i + 1))
    (hq : b ^ j ≤ q) (hq' : q < b ^ (j + 1)) :
    b ^ (i - j - 1) < p / q ∧ p / q < b ^ (i - j + 1) := by
  have hb0 : (0 : ℚ) < b := zero_lt_one.trans hb
  have hp0 : 0 < p := lt_of_lt_of_le (zpow_pos hb0 i) hp
  have hq0 : 0 < q := lt_of_lt_of_le (zpow_pos hb0 j) hq
  constructor
  · rw [lt_div_iff₀ hq0, show i - j - 1 = i - (j + 1) by ring, zpow_sub₀ hb0.ne', div_mul_eq_mul_div,
      div_lt_iff₀ (zpow_pos hb0 _)]
    calc b ^ i * q ≤ p * q := mul_le_mul_of_nonneg_right hp hq0.le
      _ < p * b ^ (j + 1) := mul_lt_mul_of_pos_left hq' hp0
  · rw [div_lt_iff₀ hq0, show i - j + 1 = (i + 1) - j by ring, zpow_sub₀ hb0.ne', div_mul_eq_mul_div,
      lt_div_iff₀ (zpow_pos hb0 _)]
    calc p * b ^ j ≤ p * q := mul_le_mul_of_nonneg_left hq hp0.le
      _ < b ^ (i + 1) * q := mul_lt_mul_of_pos_right hp' hq0

theorem natCast_zpow_bounds {b n k : ℕ} (h1 : b ^ k ≤ n) (h2 : n < b ^ (k + 1)) :
    (b : ℚ) ^ (k : ℤ) ≤ n ∧ (n : ℚ) < (b : ℚ) ^ ((k : ℤ) + 1) := by
  rw [zpow_natCast, ← Nat.cast_one (R := ℤ), ← Nat.cast_add, zpow_natCast]
  exact ⟨by exact_mod_cast h1, by exact_mod_cast h2⟩

theorem num_div_den_of_pos {a : ℚ} (ha : 0 < a) : (a.num.natAbs : ℚ) / a.den = a := by
  rw [Nat.cast_natAbs, abs_of_pos (Rat.num_pos.mpr ha), Rat.num_div_den]

theorem zpow_unique {b a : ℚ} (hb : 1 < b) {k l : ℤ} (h1 : b ^ k ≤ a) (h2 : a < b ^ (k + 1))
    (h3 : b ^ l ≤ a) (h4 : a < b ^ (l + 1)) : k = l := by
  have := (zpow_lt_zpow_iff_right₀ hb).mp (lt_of_le_of_lt h1 h4)
  have := (zpow_lt_zpow_iff_right₀ hb).mp (lt_of_le_of_lt h3 h2)
  omega

theorem log2Floor_spec {a : ℚ} (ha : 0 < a) : 2 ^ log2Floor a ≤ a ∧ a < 2 ^ (log2Floor a + 1) := by
  have hp := natCast_zpow_bounds (b := 2) (Nat.log2_self_le
    (Int.natAbs_pos.mpr (Rat.num_pos.mpr ha).ne').ne') Nat.lt_log2_self
  have hq := natCast_zpow_bounds (b := 2) (Nat.log2_self_le a.den_nz) Nat.lt_log2_self
  have hd := div_bounds (by norm_num) hp.1 hp.2 hq.1 hq.2
  rw [num_div_den_of_pos ha] at hd
  exact floorLog_bounds (by exact_mod_cast hd.1) (by exact_mod_cast hd.2)

theorem log10Floor_spec {a : ℚ} (ha : 0 < a) : 10 ^ log10Floor a ≤ a ∧ a < 10 ^ (log10Floor a + 1) := by
  have hp := natCast_zpow_bounds (b := 10) (Nat.pow_log_le_self 10
    (Int.natAbs_pos.mpr (Rat.num_pos.mpr ha).ne').ne') (Nat.lt_pow_succ_log_self (by norm_num) _)
  have hq := natCast_zpow_bounds (b := 10) (Nat.pow_log_le_self 10 a.den_nz)
    (Nat.lt_pow_succ_log_self (by norm_num) _)
  have hd := div_bounds (by norm_num) hp.1 hp.2 hq.1 hq.2
  rw [num_div_den_of_pos ha] at hd
  exact floorLog_bounds (by exact_mod_cast hd.1) (by exact_mod_cast hd.2)

theorem log2Floor_eq {a : ℚ} {k : ℤ} (h1 : 2 ^ k ≤ a) (h2 : a < 2 ^ (k + 1)) : log2Floor a = k :=
  have ha : 0 < a := lt_of_lt_of_le (zpow_pos two_pos k) h1
  zpow_unique one_lt_two (log2Floor_spec ha).1 (log2Floor_spec ha).2 h1 h2

/-! ### The last bit -/

theorem ulpExp_spec {a : ℚ} (ha : 0 < a) :
    -1074 ≤ ulpExp a ∧ a < 2 ^ (ulpExp a + 53) ∧ (ulpExp a = -1074 ∨ 2 ^ (ulpExp a + 52) ≤ a) := by
  obtain ⟨h1, h2⟩ := log2Floor_spec ha
  unfold ulpExp
  by_cases hL : -1022 ≤ log2Floor a
  · rw [max_eq_left hL, sub_add_cancel, show log2Floor a - 52 + 53 = log2Floor a + 1 by ring]
    exact ⟨by omega, h2, .inr h1⟩
  · rw [max_eq_right (by omega)]
    refine ⟨by norm_num, lt_of_lt_of_le h2 (zpow_le_zpow_right₀ one_le_two (by omega)), .inl rfl⟩

theorem ulpExp_eq {a : ℚ} {u : ℤ} (hu : -1074 ≤ u) (h1 : a < 2 ^ (u + 53))
    (h2 : u = -1074 ∨ 2 ^ (u + 52) ≤ a) (ha : 0 < a) : ulpExp a = u := by
  obtain ⟨hL1, hL2⟩ := log2Floor_spec ha
  have hlt : log2Floor a < u + 53 := (zpow_lt_zpow_iff_right₀ one_lt_two).mp (lt_of_le_of_lt hL1 h1)
  unfold ulpExp
  rcases h2 with rfl | h2
  · rw [max_eq_right (by omega)]; rfl
  · have := (zpow_lt_zpow_iff_right₀ one_lt_two).mp (lt_of_le_of_lt h2 hL2)
    rw [max_eq_left (by omega)]; omega

/-! ### Doubles -/

/-- A magnitude a finite double can have: below `2 ^ 1024`, and a whole multiple of its own last
bit `2 ^ ulpExp m` (so at most 53 bits of mantissa, and no bit below `2 ^ -1074`). -/
def IsDouble (m : ℚ) : Prop := 0 ≤ m ∧ m < 2 ^ 1024 ∧ (m / 2 ^ ulpExp m).den = 1

instance : DecidablePred IsDouble := fun _ => inferInstanceAs (Decidable (_ ∧ _ ∧ _))

/-- The mantissa of a positive double: `m = mant * 2 ^ ulpExp m`, below `2 ^ 53`, and at least
`2 ^ 52` unless `m` is subnormal. -/
theorem IsDouble.mantissa {m : ℚ} (hm : IsDouble m) (hpos : 0 < m) :
    m = (m / 2 ^ ulpExp m).num * 2 ^ ulpExp m ∧ (m / 2 ^ ulpExp m).num < (2 : ℚ) ^ 53 ∧
      (ulpExp m = -1074 ∨ (2 : ℚ) ^ 52 ≤ (m / 2 ^ ulpExp m).num) := by
  have hnum : ((m / 2 ^ ulpExp m).num : ℚ) = m / 2 ^ ulpExp m := Rat.coe_int_num_of_den_eq_one hm.2.2
  have hz : (0 : ℚ) < 2 ^ ulpExp m := zpow_pos two_pos _
  obtain ⟨-, h1, h2⟩ := ulpExp_spec hpos
  rw [hnum, div_mul_cancel₀ _ hz.ne']
  refine ⟨rfl, ?_, ?_⟩
  · rwa [div_lt_iff₀ hz, ← zpow_natCast, ← zpow_add₀ two_ne_zero, add_comm]
  · refine h2.imp_right fun h => ?_
    rwa [le_div_iff₀ hz, ← zpow_natCast, ← zpow_add₀ two_ne_zero, add_comm]

/-! ### Rounding to an integer -/

/-- `roundEven x` is `k` when `x` is within a half of `k`, a half away only when `k` is even. -/
theorem roundEven_eq {x : ℚ} {k : ℤ} (h1 : k - 1 / 2 ≤ x) (h2 : x ≤ k + 1 / 2)
    (htie : k % 2 ≠ 0 → k - 1 / 2 < x ∧ x < k + 1 / 2) : roundEven x = k := by
  unfold roundEven
  rcases le_or_lt (k : ℚ) x with hx | hx
  · have hf : ⌊x⌋ = k := Int.floor_eq_iff.mpr ⟨hx, by linarith only [h2]⟩
    rw [hf]
    split_ifs with h3 h4 h5 <;> try rfl
    · linarith only [h2, h4]
    · exact absurd (htie h5).2 (by linarith only [h3])
  · have hf : ⌊x⌋ = k - 1 :=
      Int.floor_eq_iff.mpr ⟨by push_cast; linarith only [h1], by push_cast; linarith only [hx]⟩
    rw [hf]
    split_ifs with h3 h4 h5 <;> push_cast at * <;> try omega
    · linarith only [h1, h3]
    · exact absurd (htie (by omega)).1 (by linarith only [h4])

theorem roundEven_le (x : ℚ) : (roundEven x : ℚ) ≤ x + 1 / 2 := by
  unfold roundEven
  have := Int.floor_le x
  split_ifs <;> push_cast <;> linarith

theorem le_roundEven (x : ℚ) : x - 1 / 2 ≤ roundEven x := by
  unfold roundEven
  have := Int.lt_floor_add_one x
  split_ifs <;> push_cast <;> linarith

/-! ### Rounding to a double -/

theorem round_eq_of_ulpExp {y : ℚ} {u k : ℤ} (neg : Bool) (hy : 0 < y) (hu : ulpExp y = u)
    (h1 : k - 1 / 2 ≤ y / 2 ^ u) (h2 : y / 2 ^ u ≤ k + 1 / 2)
    (htie : k % 2 ≠ 0 → k - 1 / 2 < y / 2 ^ u ∧ y / 2 ^ u < k + 1 / 2) (hfin : k * (2 : ℚ) ^ u < 2 ^ 1024) :
    round neg y = .finite neg (k * 2 ^ u) := by
  unfold round
  rw [if_neg hy.ne', hu, roundEven_eq h1 h2 htie, if_neg (not_le.mpr hfin)]

/-- How far below the positive double `v` its rounding interval reaches: half way to the
next double down, which below a power of two is half as far as the next one up. -/
def lowerGap (v : ℚ) : ℚ :=
  if (v / 2 ^ ulpExp v).num = 2 ^ 52 ∧ -1074 < ulpExp v then 2 ^ (ulpExp v - 2)
  else 2 ^ (ulpExp v - 1)

/-- `float()` reads every number of a double's rounding interval as that double: the interval
reaches half way to each neighbour, its ends included when the mantissa is even. -/
theorem round_of_mem {v y : ℚ} (hv : IsDouble v) (hpos : 0 < v) (neg : Bool)
    (hlo : v - lowerGap v ≤ y) (hhi : y ≤ v + 2 ^ (ulpExp v - 1))
    (hodd : (v / 2 ^ ulpExp v).num % 2 ≠ 0 → v - lowerGap v < y ∧ y < v + 2 ^ (ulpExp v - 1)) :
    round neg y = .finite neg v := by
  obtain ⟨hvM, hM53, hsub⟩ := hv.mantissa hpos
  obtain ⟨hu, -, -⟩ := ulpExp_spec hpos
  set u := ulpExp v
  set M := (v / 2 ^ u).num
  have hP : (0 : ℚ) < 2 ^ u := zpow_pos two_pos u
  have hM : (M : ℚ) ≤ 2 ^ 53 - 1 := by
    have : M < 2 ^ 53 := by exact_mod_cast hM53
    exact_mod_cast Int.le_sub_one_of_lt this
  have hy : y = y / 2 ^ u * 2 ^ u := (div_mul_cancel₀ _ hP.ne').symm
  set t := y / 2 ^ u
  have hhalf : (2 : ℚ) ^ (u - 1) = 2 ^ u / 2 := by rw [zpow_sub_one₀ two_ne_zero]; ring
  rw [hhalf] at hhi hodd
  have hM0 : (0 : ℚ) < M := by
    rw [hvM] at hpos; exact (pos_iff_pos_of_mul_pos hpos).mpr hP
  have hMP := mul_le_mul_of_nonneg_right hM hP.le
  have scale : ∀ a b : ℚ, a * 2 ^ u ≤ b * 2 ^ u → a ≤ b := fun a b h => le_of_mul_le_mul_right h hP
  have scale' : ∀ a b : ℚ, a * 2 ^ u < b * 2 ^ u → a < b := fun a b h => lt_of_mul_lt_mul_right h hP.le
  by_cases hge : v ≤ y
  · -- above `v`: the same binade, `v + 2 ^ (u - 1)` staying below `2 ^ (u + 53)`
    have hyu : ulpExp y = u := by
      refine ulpExp_eq hu ?_ (hsub.imp_right fun h => ?_) (lt_of_lt_of_le hpos hge)
      · rw [zpow_add₀ two_ne_zero, zpow_ofNat]; linarith only [hhi, hvM, hMP, hP]
      · rw [zpow_add₀ two_ne_zero, zpow_ofNat]
        linarith only [mul_le_mul_of_nonneg_right h hP.le, hvM, hge]
    have hMt : (M : ℚ) ≤ t := scale _ _ (by linarith only [hvM, hge, hy])
    have htM : t ≤ M + 1 / 2 := scale _ _ (by linarith only [hy, hhi, hvM])
    rw [hvM, round_eq_of_ulpExp neg (lt_of_lt_of_le hpos hge) hyu (by linarith only [hMt]) htM
      (fun h => ⟨by linarith only [hMt], scale' _ _ (by linarith only [(hodd h).2, hy, hvM])⟩) (hvM ▸ hv.2.1)]
  · have hlt : y < v := lt_of_not_le hge
    have htM : t < M := scale' _ _ (by linarith only [hy, hlt, hvM])
    have hM1 : (1 : ℚ) ≤ M := by
      have : (0 : ℤ) < M := by exact_mod_cast hM0
      exact_mod_cast this
    have hP1 := mul_le_mul_of_nonneg_right hM1 hP.le
    have hgap : lowerGap v = if M = 2 ^ 52 ∧ -1074 < u then 2 ^ (u - 2) else 2 ^ (u - 1) := rfl
    rw [hgap] at hlo hodd
    split_ifs at hlo hodd with hg
    · -- just below a power of two: the binade below, whose last bit is half as large
      have hquarter : (2 : ℚ) ^ (u - 2) = 2 ^ u / 4 := by rw [zpow_sub₀ two_ne_zero]; norm_num
      rw [hquarter] at hlo
      have hv52 : v = 2 ^ 52 * 2 ^ u := by rw [hvM, show (M : ℚ) = 2 ^ 52 by exact_mod_cast hg.1]
      have hy0 : 0 < y := by linarith only [hlo, hv52, hP]
      have hyu : ulpExp y = u - 1 := by
        refine ulpExp_eq (by omega) ?_ (.inr ?_) hy0
        · rw [show u - 1 + 53 = u + 52 by ring, zpow_add₀ two_ne_zero, zpow_ofNat]
          linarith only [hlt, hv52]
        · rw [show u - 1 + 52 = u + 51 by ring, zpow_add₀ two_ne_zero, zpow_ofNat]
          linarith only [hlo, hv52, hP]
      have ht2 : y / 2 ^ (u - 1) = 2 * t := by
        rw [hhalf, div_div_eq_mul_div, mul_comm, mul_div_assoc]
      have hk : ((2 ^ 53 : ℤ) : ℚ) * 2 ^ (u - 1) = v := by rw [hv52, hhalf]; push_cast; ring
      have hlo' : (2 ^ 52 - 1 / 4 : ℚ) ≤ t := scale _ _ (by linarith only [hy, hlo, hv52])
      have hhi' : t < 2 ^ 52 := scale' _ _ (by linarith only [hy, hlt, hv52])
      rw [← hk, round_eq_of_ulpExp neg hy0 hyu (by rw [ht2]; push_cast; linarith only [hlo'])
        (by rw [ht2]; push_cast; linarith only [hhi']) (fun h => absurd (by norm_num) h) (hk ▸ hv.2.1)]
    · -- elsewhere: the same binade
      rw [hhalf] at hlo hodd
      have hy0 : 0 < y := by linarith only [hlo, hvM, hP1, hP]
      have hyu : ulpExp y = u := by
        refine ulpExp_eq hu (by rw [zpow_add₀ two_ne_zero, zpow_ofNat]; linarith only [hlt, hvM, hMP, hP]) ?_ hy0
        rcases hsub with h | h
        · exact .inl h
        · refine if hu' : u = -1074 then .inl hu' else .inr ?_
          have hne : M ≠ 2 ^ 52 := fun h' => hg ⟨h', by omega⟩
          have h53 : (2 : ℚ) ^ 52 + 1 ≤ M := by
            have : (2 : ℤ) ^ 52 < M := lt_of_le_of_ne (by exact_mod_cast h) (Ne.symm hne)
            exact_mod_cast Int.add_one_le_of_lt this
          rw [zpow_add₀ two_ne_zero, zpow_ofNat]
          linarith only [mul_le_mul_of_nonneg_right h53 hP.le, hvM, hlo, hP]
      rw [hvM, round_eq_of_ulpExp neg hy0 hyu (scale _ _ (by linarith only [hlo, hvM, hy])) (by linarith only [htM])
        (fun h => ⟨scale' _ _ (by linarith only [(hodd h).1, hvM, hy]), by linarith only [htM]⟩) (hvM ▸ hv.2.1)]

/-! ### `repr` reads back -/

theorem multiplesIn_mem {lo hi s : ℚ} (hs : 0 < s) {closed : Bool} {z : ℤ}
    (h1 : (multiplesIn lo hi s closed).1 ≤ z) (h2 : z ≤ (multiplesIn lo hi s closed).2) :
    lo ≤ z * s ∧ z * s ≤ hi ∧ (closed = false → lo < z * s ∧ z * s < hi) := by
  cases closed
  · have h1' : lo / s < z := Int.floor_lt.mp (by simp only [multiplesIn, Bool.false_eq_true, ↓reduceIte] at h1; omega)
    have h2' : (z : ℚ) < hi / s := Int.lt_ceil.mp (by simp only [multiplesIn, Bool.false_eq_true, ↓reduceIte] at h2; omega)
    rw [div_lt_iff₀ hs] at h1'
    rw [lt_div_iff₀ hs] at h2'
    exact ⟨h1'.le, h2'.le, fun _ => ⟨h1', h2'⟩⟩
  · have h1' := (div_le_iff₀ hs).mp (Int.ceil_le.mp h1)
    have h2' := (le_div_iff₀ hs).mp (Int.le_floor.mp h2)
    exact ⟨h1', h2', fun h => absurd h (by decide)⟩

/-- What `candidate` proposes lies in the interval it searches. -/
theorem candidate_mem {v lo hi : ℚ} {closed : Bool} {p : ℤ} {k : ℕ} {c x : ℤ}
    (h : candidate v lo hi closed p k = some (c, x)) :
    lo ≤ c * 10 ^ x ∧ c * 10 ^ x ≤ hi ∧ (closed = false → lo < c * 10 ^ x ∧ c * 10 ^ x < hi) := by
  unfold candidate at h
  split_ifs at h with hle
  simp only [Option.some.injEq, Prod.mk.injEq] at h
  obtain ⟨rfl, rfl⟩ := h
  exact multiplesIn_mem (zpow_pos (by norm_num) _) (le_max_left _ _)
    (max_le hle (min_le_left _ _))

/-- An interval wider than `10 ^ (p - k)` holds a multiple of it. -/
theorem candidate_isSome {v lo hi : ℚ} {closed : Bool} {p : ℤ} {k : ℕ}
    (hw : (10 : ℚ) ^ (p - k) < hi - lo) : (candidate v lo hi closed p k).isSome := by
  have hs : (0 : ℚ) < 10 ^ (p - k) := zpow_pos (by norm_num) _
  have hw' : lo / 10 ^ (p - k) + 1 < hi / 10 ^ (p - k) := by
    rw [div_add_one hs.ne', div_lt_div_iff_of_pos_right hs]; linarith only [hw]
  unfold candidate multiplesIn
  cases closed
  · have := Int.floor_le (lo / 10 ^ (p - k))
    have : ⌊lo / 10 ^ (p - k)⌋ + 1 < ⌈hi / 10 ^ (p - k)⌉ := Int.lt_ceil.mpr (by push_cast; linarith only [this, hw'])
    simp only [Bool.false_eq_true, ↓reduceIte]
    rw [if_pos (by omega)]; rfl
  · have := Int.ceil_lt_add_one (lo / 10 ^ (p - k))
    have : ⌈lo / 10 ^ (p - k)⌉ ≤ ⌊hi / 10 ^ (p - k)⌋ := Int.le_floor.mpr (by linarith only [this, hw'])
    simp only [↓reduceIte]
    rw [if_pos this]; rfl

theorem shortest_eq (v : ℚ) : shortest v =
    ((List.range' 1 17).findSome? (candidate v (v - lowerGap v) (v + 2 ^ (ulpExp v - 1))
      ((v / 2 ^ ulpExp v).num % 2 = 0) (log10Floor v + 1))).getD
      (roundEven (v / 10 ^ (log10Floor v - 16)), log10Floor v - 16) := rfl

theorem lowerGap_eq (v : ℚ) : lowerGap v =
    if (v / 2 ^ ulpExp v).num = 2 ^ 52 ∧ -1074 < ulpExp v then 2 ^ ulpExp v / 4 else 2 ^ ulpExp v / 2 := by
  rw [lowerGap, zpow_sub₀ two_ne_zero, zpow_sub₀ two_ne_zero]; norm_num

/-- Seventeen significant digits always suffice: the rounding interval of a positive double
is wider than `10 ^ (⌊log₁₀ v⌋ - 16)`, as `2 ^ 53 < 10 ^ 16`. -/
theorem step_lt_width {v : ℚ} (hv : IsDouble v) (hpos : 0 < v) :
    (10 : ℚ) ^ (log10Floor v + 1 - (17 : ℕ)) < v + 2 ^ (ulpExp v - 1) - (v - lowerGap v) := by
  obtain ⟨hvM, hM53, -⟩ := hv.mantissa hpos
  have hP : (0 : ℚ) < 2 ^ ulpExp v := zpow_pos two_pos _
  have hM : ((v / 2 ^ ulpExp v).num : ℚ) ≤ 2 ^ 53 - 1 := by
    have : (v / 2 ^ ulpExp v).num < 2 ^ 53 := by exact_mod_cast hM53
    exact_mod_cast Int.le_sub_one_of_lt this
  have hMP := mul_le_mul_of_nonneg_right hM hP.le
  have hs : (10 : ℚ) ^ (log10Floor v + 1 - (17 : ℕ)) * 10 ^ 16 ≤ v := by
    rw [← zpow_ofNat, ← zpow_add₀ (by norm_num)]
    convert (log10Floor_spec hpos).1 using 2; push_cast; ring
  rw [lowerGap_eq, zpow_sub_one₀ two_ne_zero]
  generalize (10 : ℚ) ^ (log10Floor v + 1 - (17 : ℕ)) = s at hs ⊢
  split_ifs with hg
  · rw [hg.1] at hvM; push_cast at hvM; linarith only [hs, hvM, hP]
  · linarith only [hs, hvM, hMP, hP]

/-- `repr`'s digits: a positive integer `c` and an exponent `x` such that `c * 10 ^ x` reads
back as `v`. -/
theorem shortest_spec {v : ℚ} (hv : IsDouble v) (hpos : 0 < v) :
    0 < (shortest v).1 ∧ ∀ neg, round neg ((shortest v).1 * 10 ^ (shortest v).2) = .finite neg v := by
  obtain ⟨⟨c, x⟩, hcx⟩ := Option.isSome_iff_exists.mp (List.findSome?_isSome_iff.mpr
    ⟨17, (by decide : 17 ∈ List.range' 1 17), candidate_isSome (step_lt_width hv hpos)⟩)
  obtain ⟨k, -, hk⟩ := List.exists_of_findSome?_eq_some hcx
  obtain ⟨hlo, hhi, hodd⟩ := candidate_mem hk
  have hgap : 0 < v - lowerGap v := by
    obtain ⟨hvM, -, -⟩ := hv.mantissa hpos
    have hP : (0 : ℚ) < 2 ^ ulpExp v := zpow_pos two_pos _
    have h1 : (1 : ℚ) ≤ (v / 2 ^ ulpExp v).num := by
      have : (0 : ℤ) < (v / 2 ^ ulpExp v).num := Rat.num_pos.mpr (div_pos hpos hP)
      exact_mod_cast this
    have := mul_le_mul_of_nonneg_right h1 hP.le
    rw [lowerGap_eq]; split_ifs <;> linarith only [this, hvM, hP]
  rw [shortest_eq, hcx, Option.getD_some]
  refine ⟨?_, fun neg => round_of_mem hv hpos neg hlo hhi fun h => hodd (by simpa using h)⟩
  have : (0 : ℚ) < c * 10 ^ x := lt_of_lt_of_le hgap hlo
  exact_mod_cast (pos_iff_pos_of_mul_pos this).mpr (zpow_pos (by norm_num) _)

/-! ### `float()` gives doubles -/

/-- A float `json.loads` can return: a finite one is a double. -/
def Valid : PyFloat → Prop
  | .finite _ m => IsDouble m
  | _ => True

theorem isDouble_zero : IsDouble 0 := ⟨le_rfl, by norm_num, by simp⟩

/-- Rounding a magnitude gives a double or an infinity. -/
theorem valid_round (neg : Bool) {a : ℚ} (ha : 0 ≤ a) : (round neg a).Valid := by
  unfold round
  split_ifs with h0 hinf
  · exact isDouble_zero
  · trivial
  · have ha0 : 0 < a := lt_of_le_of_ne ha (Ne.symm h0)
    obtain ⟨hu, ha53, hsub⟩ := ulpExp_spec ha0
    have hP : (0 : ℚ) < 2 ^ ulpExp a := zpow_pos two_pos _
    have hx53 : a / 2 ^ ulpExp a < 2 ^ 53 := by
      rwa [div_lt_iff₀ hP, ← zpow_ofNat, ← zpow_add₀ two_ne_zero, add_comm]
    generalize hR : roundEven (a / 2 ^ ulpExp a) = R at hinf
    have hRlo := le_roundEven (a / 2 ^ ulpExp a)
    have hRhi := roundEven_le (a / 2 ^ ulpExp a)
    rw [hR] at hRlo hRhi
    have hR0 : 0 ≤ R := by
      have : ((-1 : ℤ) : ℚ) < R := by push_cast; linarith [div_pos ha0 hP]
      have : (-1 : ℤ) < R := by exact_mod_cast this
      omega
    have hR53 : R ≤ 2 ^ 53 := Int.lt_add_one_iff.mp (by exact_mod_cast (by linarith : (R : ℚ) < 2 ^ 53 + 1))
    refine ⟨by positivity, lt_of_not_le hinf, ?_⟩
    rcases hR0.eq_or_lt with rfl | hRpos
    · simp
    have hr : 0 < (R : ℚ) * 2 ^ ulpExp a := mul_pos (by exact_mod_cast hRpos) hP
    rcases hR53.eq_or_lt with rfl | hR53
    · -- a carry into the next binade: `2 ^ 53` times the last bit is `2 ^ 52` times twice it
      have hu1 : ulpExp ((2 ^ 53 : ℤ) * 2 ^ ulpExp a : ℚ) = ulpExp a + 1 := by
        refine ulpExp_eq (by omega) ?_ (.inr ?_) hr <;>
          rw [add_assoc, zpow_add₀ two_ne_zero] <;> norm_num <;> linarith
      rw [hu1, zpow_add_one₀ two_ne_zero]
      have : ((2 ^ 53 : ℤ) : ℚ) * 2 ^ ulpExp a / (2 ^ ulpExp a * 2) = (2 ^ 52 : ℤ) := by
        field_simp; ring
      rw [this]; rfl
    · have hu1 : ulpExp (R * 2 ^ ulpExp a : ℚ) = ulpExp a := by
        have hR' : (R : ℚ) ≤ 2 ^ 53 - 1 := by
          have := Int.le_sub_one_of_lt hR53; exact_mod_cast this
        refine ulpExp_eq hu ?_ (hsub.imp_right fun h => ?_) hr
        · rw [zpow_add₀ two_ne_zero, zpow_ofNat]
          linarith only [mul_le_mul_of_nonneg_right hR' hP.le, hP]
        · have hxa : 2 ^ 52 ≤ a / 2 ^ ulpExp a := by
            rwa [le_div_iff₀ hP, ← zpow_ofNat, ← zpow_add₀ two_ne_zero, add_comm]
          have h52 : (2 : ℚ) ^ 52 ≤ R := by
            have : (2 : ℤ) ^ 52 - 1 < R := by exact_mod_cast (by push_cast; linarith : ((2 ^ 52 - 1 : ℤ) : ℚ) < R)
            exact_mod_cast Int.sub_one_lt_iff.mp this
          rw [zpow_add₀ two_ne_zero, zpow_ofNat, mul_comm]
          exact mul_le_mul_of_nonneg_right h52 hP.le
      rw [hu1, mul_div_cancel_right₀ _ hP.ne']; rfl

end PyFloat

end Rendezvous
