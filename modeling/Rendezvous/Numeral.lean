import Rendezvous.Json
import Rendezvous.Double
import Mathlib.Data.Nat.Digits

/-!
# Numbers read back

`json.dumps` writes an `int` with `int.__repr__` (`toString`) and a `float` with
`float.__repr__` (`PyFloat.repr`); `json.loads` reads them with `scanNumber`. This module shows
the reader gets back what the writer wrote, whatever follows that cannot continue a number
(`EndsNumber`: the `,`, `]`, `}`, newline or end that the encoder puts after a value).

## What is proved

* `scanNumber_toString` — every integer of at most 4300 digits reads back as itself.
* `scanNumber_repr` — every finite double reads back as itself, its sign included: each of the
  four layouts of `format_float_short` (`formatShort_readsAs`) spells the decimal
  `0.ds × 10 ^ decpt`, which is `repr`'s `c * 10 ^ x`, and `float()` of that is the double
  (`PyFloat.shortest_spec`).
-/

namespace Rendezvous

/-! ### Decimal digits -/

theorem toDigitsCore_fuel {f f' n : ℕ} (ds : List Char) (h : n < f) (h' : n < f') :
    Nat.toDigitsCore 10 f n ds = Nat.toDigitsCore 10 f' n ds := by
  induction f generalizing f' n ds with
  | zero => omega
  | succ f ih =>
    obtain ⟨f', rfl⟩ : ∃ g, f' = g + 1 := ⟨f' - 1, by omega⟩
    simp only [Nat.toDigitsCore]
    split_ifs
    · rfl
    · exact ih _ (by omega) (by omega)

theorem toDigitsCore_acc {f n : ℕ} (ds : List Char) (h : n < f) :
    Nat.toDigitsCore 10 f n ds = Nat.toDigitsCore 10 f n [] ++ ds := by
  induction f generalizing n ds with
  | zero => omega
  | succ f ih =>
    simp only [Nat.toDigitsCore]
    split_ifs with h0
    · rfl
    · rw [ih _ (by omega), ih [Nat.digitChar (n % 10)] (by omega), List.append_assoc]
      rfl

/-- The decimal digits of `n` are those of `n / 10` (none when it is `0`) and then the last. -/
theorem toDigits_ten (n : ℕ) : Nat.toDigits 10 n =
    (if n / 10 = 0 then [] else Nat.toDigits 10 (n / 10)) ++ [Nat.digitChar (n % 10)] := by
  unfold Nat.toDigits
  rw [Nat.toDigitsCore]
  split_ifs with h
  · rfl
  · rw [toDigitsCore_acc _ (by omega), toDigitsCore_fuel [] (by omega) (Nat.lt_succ_self _)]

theorem digitChar_isDigit : ∀ d < 10, (Nat.digitChar d).isDigit = true ∧
    (Nat.digitChar d).toNat - '0'.toNat = d ∧ (Nat.digitChar d = '0' → d = 0) := by
  decide

theorem digitsValue_singleton (c : Char) : digitsValue [c] = c.toNat - '0'.toNat := by
  rw [digitsValue, List.foldl_cons, List.foldl_nil, Nat.zero_mul, Nat.zero_add]

theorem digitsValue_append (a b : List Char) :
    digitsValue (a ++ b) = digitsValue a * 10 ^ b.length + digitsValue b := by
  suffices h : ∀ acc, b.foldl (fun acc c => acc * 10 + (c.toNat - '0'.toNat)) acc =
      acc * 10 ^ b.length + digitsValue b by
    rw [digitsValue, List.foldl_append, h]; rfl
  induction b with
  | nil => intro acc; show acc = acc * 10 ^ 0 + 0; ring
  | cons c b ih =>
    intro acc
    rw [List.foldl_cons, ih, show digitsValue (c :: b) =
      (0 * 10 + (c.toNat - '0'.toNat)) * 10 ^ b.length + digitsValue b from ih _, List.length_cons]
    ring

theorem digitsValue_replicate_zero (k : ℕ) : digitsValue (List.replicate k '0') = 0 := by
  induction k with
  | zero => rfl
  | succ k ih =>
    rw [List.replicate_succ', digitsValue_append, ih]; rfl

theorem toDigits_spec (n : ℕ) : digitsValue (Nat.toDigits 10 n) = n ∧
    (∀ c ∈ Nat.toDigits 10 n, c.isDigit = true) ∧
    ∃ c cs, Nat.toDigits 10 n = c :: cs ∧ (c = '0' → n = 0) := by
  induction n using Nat.strong_induction_on with
  | _ n ih =>
    obtain ⟨hd, hv, h0⟩ := digitChar_isDigit (n % 10) (Nat.mod_lt n (by norm_num))
    rw [toDigits_ten]
    split_ifs with hn
    · refine ⟨?_, by simpa using hd, _, _, rfl, fun h => ?_⟩
      · rw [List.nil_append, digitsValue_singleton, hv]; omega
      · have := h0 h; omega
    · obtain ⟨ihv, ihd, c, cs, hcs, hc⟩ := ih (n / 10) (by omega)
      refine ⟨?_, ?_, c, cs ++ [Nat.digitChar (n % 10)], by rw [hcs]; rfl, fun h => absurd (hc h) hn⟩
      · rw [digitsValue_append, ihv, digitsValue_singleton, hv, List.length_singleton]; omega
      · simp only [List.mem_append, List.mem_singleton]
        rintro c (hc | rfl)
        · exact ihd c hc
        · exact hd

/-! ### Reading numbers -/

/-- What may follow a number: nothing, or a character that cannot continue it. -/
def EndsNumber (cs : List Char) : Prop :=
  ∀ c ∈ cs.head?, c.isDigit = false ∧ c ≠ '.' ∧ c ≠ 'e' ∧ c ≠ 'E'

theorem EndsNumber.noDigit {cs : List Char} (h : EndsNumber cs) : NoDigit cs :=
  fun c hc => (h c hc).1

theorem intDigits_toDigits (n : ℕ) : IntDigits (Nat.toDigits 10 n) := by
  obtain ⟨-, hd, c, cs, hcs, hc⟩ := toDigits_spec n
  refine ⟨hd, ?_⟩
  by_cases h : c = '0'
  · left; rw [hc h] at hcs ⊢; rfl
  · exact .inr ⟨c, cs, hcs, h⟩

theorem scanFrac_of_endsNumber {cs : List Char} (h : EndsNumber cs) : scanFrac cs = ([], cs) := by
  unfold scanFrac
  split
  · exact absurd rfl (h '.' rfl).2.1
  · rfl

theorem scanExp_of_endsNumber {cs : List Char} (h : EndsNumber cs) : scanExp cs = none := by
  cases cs with
  | nil => rfl
  | cons c cs =>
    obtain ⟨-, -, he, hE⟩ := h c rfl
    simp [scanExp, he, hE]

theorem scanFrac_point {F rest : List Char} (hF : F ≠ []) (hd : ∀ c ∈ F, c.isDigit = true)
    (hr : NoDigit rest) : scanFrac ('.' :: (F ++ rest)) = (F, rest) := by
  simp [scanFrac, takeWhile_isDigit hd hr, dropWhile_isDigit hd hr, hF]

theorem toString_int_data (n : ℤ) :
    (toString n).data = (if n < 0 then '-' :: Nat.toDigits 10 n.natAbs else Nat.toDigits 10 n.natAbs) := by
  cases n with
  | ofNat m => rfl
  | negSucc m => rw [if_pos (Int.negSucc_lt_zero m)]; rfl

theorem scanExp_expText (x : ℤ) {rest : List Char} (hr : NoDigit rest) :
    scanExp ('e' :: (PyFloat.expText x).data ++ rest) = some (x, rest) := by
  obtain ⟨hv, hd, -⟩ := toDigits_spec x.natAbs
  have hdata : (PyFloat.expText x).data = (if x < 0 then '-' else '+') ::
      ((if x.natAbs < 10 then ['0'] else []) ++ Nat.toDigits 10 x.natAbs) := by
    unfold PyFloat.expText; split_ifs <;> rfl
  have hall : ∀ c ∈ (if x.natAbs < 10 then ['0'] else []) ++ Nat.toDigits 10 x.natAbs,
      c.isDigit = true := by
    intro c hc
    rcases List.mem_append.mp hc with hc | hc
    · split_ifs at hc <;> simp_all
    · exact hd c hc
  have hval : digitsValue ((if x.natAbs < 10 then ['0'] else []) ++ Nat.toDigits 10 x.natAbs) =
      x.natAbs := by
    rw [digitsValue_append, hv]
    split_ifs <;> simp only [show digitsValue ['0'] = 0 from rfl, show digitsValue [] = 0 from rfl,
      zero_mul, zero_add]
  have hne : (if x.natAbs < 10 then ['0'] else []) ++ Nat.toDigits 10 x.natAbs ≠ [] := by
    obtain ⟨-, -, c, cs, hcs, -⟩ := toDigits_spec x.natAbs; simp [hcs]
  rw [hdata, List.cons_append, List.cons_append]
  generalize (if x.natAbs < 10 then ['0'] else []) ++ Nat.toDigits 10 x.natAbs = E at hall hval hne
  by_cases hx : x < 0
  · simp [scanExp, hx, takeWhile_isDigit hall hr, dropWhile_isDigit hall hr, hval, hne]
    rw [abs_of_neg hx, neg_neg]
  · simp [scanExp, hx, takeWhile_isDigit hall hr, dropWhile_isDigit hall hr, hval, hne]; omega

/-- `json.loads` reads `str(n)` of every integer of at most 4300 digits back as `n`. -/
theorem scanNumber_toString (n : ℤ) (hn : n.natAbs < 10 ^ 4300) {rest : List Char}
    (hr : EndsNumber rest) : scanNumber ((toString n).data ++ rest) = .ok (.int n, rest) := by
  obtain ⟨hv, -, -⟩ := toDigits_spec n.natAbs
  have hlen : ¬ 4300 < (Nat.toDigits 10 n.natAbs).length :=
    not_lt.mpr (Nat.repr_length n.natAbs 4300 (by norm_num) hn)
  rw [toString_int_data]
  by_cases hn0 : n < 0
  · have h := scanNumber_parts true (intDigits_toDigits n.natAbs) hr.noDigit
    rw [scanFrac_of_endsNumber hr, scanExp_of_endsNumber hr] at h
    rw [if_pos hn0]
    simpa [hlen, hv, abs_of_neg hn0] using h
  · have h := scanNumber_parts false (intDigits_toDigits n.natAbs) hr.noDigit
    rw [scanFrac_of_endsNumber hr, scanExp_of_endsNumber hr] at h
    rw [if_neg hn0]
    simpa [hlen, hv, abs_of_nonneg (not_lt.mp hn0)] using h

/-! ### Reading `repr` back -/

/-- The digits of a positive integer are its significant digits, which start with a nonzero
digit, and then zeros. -/
theorem significantDigits_spec {c : ℤ} (hc : 0 < c) :
    (∃ z, (toString c).data = PyFloat.significantDigits c ++ List.replicate z '0') ∧
    (∀ d ∈ PyFloat.significantDigits c, d.isDigit = true) ∧
    ∃ d ds, PyFloat.significantDigits c = d :: ds ∧ d ≠ '0' := by
  have hD : (toString c).data = Nat.toDigits 10 c.natAbs := by
    rw [toString_int_data, if_neg (not_lt.mpr hc.le)]
  obtain ⟨-, hdig, c0, D', hcs, hc0⟩ := toDigits_spec c.natAbs
  unfold PyFloat.significantDigits
  rw [hD]
  generalize Nat.toDigits 10 c.natAbs = D at hdig hcs
  have hsplit : D = (D.reverse.dropWhile (· = '0')).reverse ++ (D.reverse.takeWhile (· = '0')).reverse := by
    rw [← List.reverse_append, List.takeWhile_append_dropWhile, List.reverse_reverse]
  have hzeros : (D.reverse.takeWhile (· = '0')).reverse =
      List.replicate (D.reverse.takeWhile (· = '0')).reverse.length '0' :=
    List.eq_replicate_iff.mpr ⟨rfl, fun b hb => by
      simpa using List.mem_takeWhile_imp (List.mem_reverse.mp hb)⟩
  refine ⟨⟨_, hsplit.trans (by rw [← hzeros])⟩, fun d hd => hdig d ?_, ?_⟩
  · rw [hsplit]; exact List.mem_append_left _ hd
  · generalize hds : (D.reverse.dropWhile (· = '0')).reverse = ds at hsplit
    cases ds with
    | nil =>
      rw [hzeros, List.nil_append, hcs] at hsplit
      have := List.eq_of_mem_replicate (hsplit ▸ List.mem_cons_self c0 D')
      have := hc0 this; omega
    | cons d ds =>
      rw [hcs, List.cons_append, List.cons.injEq] at hsplit
      exact ⟨d, ds, rfl, hsplit.1 ▸ fun h => by have := hc0 h; omega⟩

/-- A text `json.loads` reads as the float `float(mant * 10 ^ e)`, with or without a minus sign
in front, whatever that cannot continue a number follows it. -/
def ReadsAs (t : List Char) (mant : ℕ) (e : ℤ) : Prop :=
  ∃ I tail, t = I ++ tail ∧ IntDigits I ∧ ∀ neg rest, EndsNumber rest →
    scanNumber ((if neg then '-' :: I else I) ++ (tail ++ rest)) =
      .ok (.float (.ofDecimal neg mant e), rest)

theorem readsAs_point {I F : List Char} (hI : IntDigits I) (hF : F ≠ [])
    (hFd : ∀ c ∈ F, c.isDigit = true) : ReadsAs (I ++ '.' :: F) (digitsValue (I ++ F)) (-F.length) := by
  refine ⟨I, '.' :: F, rfl, hI, fun neg rest hr => ?_⟩
  rw [List.cons_append, scanNumber_parts neg hI (fun c hc => by cases hc; rfl),
    scanFrac_point hF hFd hr.noDigit, scanExp_of_endsNumber hr]
  obtain ⟨f, F', rfl⟩ := List.exists_cons_of_ne_nil hF
  simp

theorem readsAs_exp {I F : List Char} (hI : IntDigits I) (hFd : ∀ c ∈ F, c.isDigit = true) (x : ℤ) :
    ReadsAs (I ++ ((if F = [] then [] else '.' :: F) ++ 'e' :: (PyFloat.expText x).data))
      (digitsValue (I ++ F)) (x - F.length) := by
  refine ⟨I, _, rfl, hI, fun neg rest hr => ?_⟩
  have hne : NoDigit ('e' :: ((PyFloat.expText x).data ++ rest)) := fun c hc => by cases hc; rfl
  cases F with
  | nil =>
    rw [if_pos rfl, List.nil_append, List.cons_append, scanNumber_parts neg hI hne]
    have hf : scanFrac ('e' :: ((PyFloat.expText x).data ++ rest)) =
        ([], 'e' :: ((PyFloat.expText x).data ++ rest)) := rfl
    rw [hf, ← List.cons_append, scanExp_expText x hr.noDigit]
    simp
  | cons f F =>
    have hf := scanFrac_point (List.cons_ne_nil f F) hFd hne
    rw [List.cons_append] at hf
    rw [if_neg (List.cons_ne_nil f F)]
    simp only [List.cons_append, List.append_assoc]
    rw [scanNumber_parts neg hI (fun c hc => by cases hc; rfl), hf, ← List.cons_append,
      scanExp_expText x hr.noDigit]
    simp

theorem isDigit_of_mem_zeros {k : ℕ} {c : Char} (h : c ∈ List.replicate k '0') : c.isDigit = true := by
  rw [List.eq_of_mem_replicate h]; rfl

theorem digitsValue_zeros_append (k : ℕ) (ds : List Char) :
    digitsValue (List.replicate k '0' ++ ds) = digitsValue ds := by
  rw [digitsValue_append, digitsValue_replicate_zero, zero_mul, zero_add]

/-- Every layout `format_float_short` gives the digits `ds` and the decimal point position
`decpt` reads back as `0.ds × 10 ^ decpt`. -/
theorem formatShort_readsAs {ds ds' : List Char} {d0 : Char} (hds : ds = d0 :: ds') (h0 : d0 ≠ '0')
    (hd : ∀ c ∈ ds, c.isDigit = true) (decpt : ℤ) :
    ∃ mant e, ReadsAs (PyFloat.formatShort ds decpt).data mant e ∧
      (mant : ℚ) * 10 ^ e = digitsValue ds * 10 ^ (decpt - ds.length) := by
  have hI : ∀ k, 0 < k → IntDigits (ds.take k) := fun k hk => by
    obtain ⟨k, rfl⟩ : ∃ j, k = j + 1 := ⟨k - 1, by omega⟩
    exact ⟨fun c hc => hd c (List.mem_of_mem_take hc), .inr ⟨d0, ds'.take k, by rw [hds]; rfl, h0⟩⟩
  have hne : ds ≠ [] := hds ▸ List.cons_ne_nil d0 ds'
  have h10 : (10 : ℚ) ≠ 0 := by norm_num
  unfold PyFloat.formatShort
  split_ifs with h1 h2 h3 h4
  · -- `0.000ddd`
    refine ⟨_, _, readsAs_point (I := ['0']) (F := List.replicate (-decpt).toNat '0' ++ ds)
      ⟨by decide, .inl rfl⟩ (by simp [hne])
      (fun c hc => (List.mem_append.mp hc).elim isDigit_of_mem_zeros (hd c)), ?_⟩
    rw [List.singleton_append, show '0' :: (List.replicate (-decpt).toNat '0' ++ ds) =
      List.replicate ((-decpt).toNat + 1) '0' ++ ds by rfl, digitsValue_zeros_append]
    congr 2; simp; omega
  · -- `dd.ddd`
    refine ⟨_, _, readsAs_point (hI _ (by omega)) (by simpa using h3)
      (fun c hc => hd c (List.mem_of_mem_drop hc)), ?_⟩
    rw [List.take_append_drop]
    congr 2; simp; omega
  · -- `ddd00.0`
    refine ⟨_, _, readsAs_point (I := ds ++ List.replicate (decpt.toNat - ds.length) '0') (F := ['0'])
      ⟨?_, .inr ⟨d0, ds' ++ _, by rw [hds]; rfl, h0⟩⟩ (List.cons_ne_nil _ _) (by simp), ?_⟩
    · exact fun c hc => (List.mem_append.mp hc).elim (hd c) isDigit_of_mem_zeros
    · rw [List.append_assoc, digitsValue_append, show digitsValue (List.replicate (decpt.toNat - ds.length) '0' ++ ['0']) = 0 by
          rw [← List.replicate_succ', digitsValue_replicate_zero], List.length_append,
        List.length_replicate, List.length_singleton,
        show decpt - (ds.length : ℤ) = ((decpt.toNat - ds.length : ℕ) : ℤ) by omega, zpow_natCast]
      push_cast
      rw [zpow_neg_one, pow_succ, ← mul_assoc, add_zero, mul_inv_cancel_right₀ h10]
  · -- `d.ddde±XX`
    have h := readsAs_exp (I := ds.take 1) (F := ds.drop 1) (hI 1 one_pos)
      (fun c hc => hd c (List.mem_of_mem_drop hc)) (decpt - 1)
    rw [if_neg (fun h => by rw [List.drop_eq_nil_iff] at h; omega), ← List.append_assoc] at h
    refine ⟨_, _, h, ?_⟩
    rw [List.take_append_drop, List.length_drop]
    have := List.length_pos.mpr hne
    congr 2; omega
  · -- `de±XX`
    have h := readsAs_exp (I := ds.take 1) (F := ds.drop 1) (hI 1 one_pos)
      (fun c hc => hd c (List.mem_of_mem_drop hc)) (decpt - 1)
    rw [if_pos (List.drop_eq_nil_iff.mpr (by omega)), ← List.append_assoc] at h
    refine ⟨_, _, h, ?_⟩
    rw [List.take_append_drop, List.length_drop]
    have := List.length_pos.mpr hne
    congr 2; omega

theorem sign_append_data (neg : Bool) {t : String} {I tail : List Char} (ht : t.data = I ++ tail)
    (rest : List Char) :
    ((if neg then "-" else "") ++ t).data ++ rest = (if neg then '-' :: I else I) ++ (tail ++ rest) := by
  cases neg <;> simp [ht]

/-- `float(repr(x)) == x`: `json.loads` reads the text `repr` gives a double back as that
double, its sign included. -/
theorem scanNumber_repr {m : ℚ} (hm : PyFloat.IsDouble m) (neg : Bool) {rest : List Char}
    (hr : EndsNumber rest) :
    scanNumber ((PyFloat.repr (.finite neg m)).data ++ rest) = .ok (.float (.finite neg m), rest) := by
  rw [PyFloat.repr]
  by_cases h0 : m = 0
  · subst h0
    obtain ⟨I, tail, ht, -, hread⟩ := readsAs_point (I := ['0']) (F := ['0']) ⟨by decide, .inl rfl⟩
      (by simp) (by decide)
    rw [if_pos rfl, sign_append_data (t := "0.0") neg ht, hread neg rest hr]
    simp [PyFloat.ofDecimal, PyFloat.round, show digitsValue ['0', '0'] = 0 from rfl]
  · have hpos : 0 < m := lt_of_le_of_ne hm.1 (Ne.symm h0)
    obtain ⟨hc, hround⟩ := PyFloat.shortest_spec hm hpos
    obtain ⟨⟨z, hz⟩, hdig, d, ds, hds, hd0⟩ := significantDigits_spec hc
    obtain ⟨mant, e, ⟨I, tail, ht, -, hread⟩, hval⟩ := formatShort_readsAs hds hd0 hdig
      ((toString (PyFloat.shortest m).1).length + (PyFloat.shortest m).2)
    have hD : (toString (PyFloat.shortest m).1).data = Nat.toDigits 10 (PyFloat.shortest m).1.natAbs := by
      rw [toString_int_data, if_neg (not_lt.mpr hc.le)]
    have hcv : ((PyFloat.shortest m).1 : ℚ) =
        digitsValue (PyFloat.significantDigits (PyFloat.shortest m).1) * 10 ^ z := by
      have h := (toDigits_spec (PyFloat.shortest m).1.natAbs).1
      rw [← hD, hz, digitsValue_append, digitsValue_replicate_zero, add_zero, List.length_replicate] at h
      rw [show ((PyFloat.shortest m).1 : ℚ) = (((PyFloat.shortest m).1.natAbs : ℤ) : ℚ) by
        rw [Int.natAbs_of_nonneg hc.le], ← h]
      push_cast; rfl
    have hlen : ((toString (PyFloat.shortest m).1).length : ℤ) =
        (PyFloat.significantDigits (PyFloat.shortest m).1).length + z := by
      rw [show (toString (PyFloat.shortest m).1).length =
        (toString (PyFloat.shortest m).1).data.length from rfl, hz]
      simp
    have key : (digitsValue (PyFloat.significantDigits (PyFloat.shortest m).1) : ℚ) *
        10 ^ ((toString (PyFloat.shortest m).1).length + (PyFloat.shortest m).2 -
          (PyFloat.significantDigits (PyFloat.shortest m).1).length) =
        (PyFloat.shortest m).1 * 10 ^ (PyFloat.shortest m).2 := by
      rw [hcv, hlen, mul_assoc, ← zpow_natCast, ← zpow_add₀ (by norm_num)]
      congr 2; ring
    rw [if_neg h0, sign_append_data neg ht, hread neg rest hr, PyFloat.ofDecimal, hval, key, hround neg]

end Rendezvous
