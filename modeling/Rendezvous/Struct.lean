import Mathlib.Data.List.Basic
import Mathlib.Tactic.Ring

/-!
# Bytes and `struct`

The Python values that the daemon `rendezvousd.py` and the client `rendezvous-client.py` put
on the wire: `bytes` as lists of octets, and the two `struct` formats they use, `">I"` (the
signature length at the head of a frame) and `">QI"` (the epoch and the slot fed to the
HMAC). `struct.pack` raises `struct.error` when an integer is outside its format's range;
`struct.unpack(">I", b)` reads four octets, most significant first.

The exceptions the modelled code can raise are named by their Python class (`PyError`), so
that what a `try` catches can be told from what escapes it.

## What is proved

* `beNat_beBytes`, `beBytes_beNat` — `w` big-endian octets and the numbers below `256 ^ w`
  are in bijection.
* `packI_ok`, `packQI_ok` — `struct.pack` succeeds exactly on its ranges.
-/

namespace Rendezvous

/-- The exceptions of the modelled code, by Python class. -/
inductive PyError where
  /-- `struct.error`: an integer outside a format's range. -/
  | structError
  /-- `ZeroDivisionError`. -/
  | zeroDivision
  /-- `OverflowError`: an `int` too large for a float, or `int()` of an infinity. -/
  | overflow
  /-- `ValueError`, from `int()` on a text that is not an integer. -/
  | valueError
  /-- `UnicodeDecodeError`, from `bytes.decode()`. -/
  | unicodeDecode
  /-- `json.JSONDecodeError`. -/
  | jsonDecode
  /-- `AttributeError`, from `.get` on a JSON value that is not an object. -/
  | attributeError
  /-- `TypeError`, from hashing a list or a dict. -/
  | typeError
  /-- `OSError`, from the operating system (a file, a socket, a subprocess). -/
  | osError
  /-- `ValueError` from `select` on a closed socket. -/
  | closedSocket
  deriving DecidableEq, Repr

instance instDecidableEqExcept {ε α : Type} [DecidableEq ε] [DecidableEq α] : DecidableEq (Except ε α)
  | .error a, .error b => decidable_of_iff (a = b) ⟨congrArg _, Except.error.inj⟩
  | .ok a, .ok b => decidable_of_iff (a = b) ⟨congrArg _, Except.ok.inj⟩
  | .error _, .ok _ => isFalse Except.noConfusion
  | .ok _, .error _ => isFalse Except.noConfusion

theorem Except.ok_bind {ε α β : Type} (a : α) (f : α → Except ε β) : (Except.ok a >>= f) = f a := rfl

/-- A bind that returned: the first computation returned too, and the rest from its value. -/
theorem Except.bind_eq_ok {ε α β : Type} {x : Except ε α} {f : α → Except ε β} {b : β}
    (h : x >>= f = .ok b) : ∃ a, x = .ok a ∧ f a = .ok b := by
  cases x with
  | error e => exact nomatch h
  | ok a => exact ⟨a, rfl, h⟩

theorem Except.map_eq_ok {ε α β : Type} {f : α → β} {x : Except ε α} {y : β} :
    f <$> x = .ok y ↔ ∃ a, x = .ok a ∧ f a = y := by
  cases x <;> simp [Functor.map, Except.map]

theorem Except.map_eq_error {ε α β : Type} {f : α → β} {x : Except ε α} {e : ε} :
    f <$> x = .error e ↔ x = .error e := by
  cases x <;> simp [Functor.map, Except.map]

theorem Except.toOption_eq_some {ε α : Type} {x : Except ε α} {a : α} :
    x.toOption = some a ↔ x = .ok a := by
  cases x <;> simp [Except.toOption]

theorem guard_eq_some_unit {p : Prop} [Decidable p] {u : Unit} :
    (guard p : Option Unit) = some u ↔ p := by
  by_cases hp : p <;> simp [guard, hp]

/-- Python `bytes`. -/
abbrev Bytes := List UInt8

theorem UInt8.toNat_ofNat_eq (n : ℕ) : (UInt8.ofNat n).toNat = n % 256 := by
  simp [UInt8.ofNat, UInt8.toNat, BitVec.toNat_ofNat]

theorem UInt8.toNat_lt_256 (b : UInt8) : b.toNat < 256 := b.toBitVec.isLt

theorem UInt8.ofNat_toNat_eq (b : UInt8) : UInt8.ofNat b.toNat = b := by
  apply UInt8.eq_of_toBitVec_eq
  simp [UInt8.ofNat, UInt8.toNat]

/-! ### Big-endian words -/

/-- The `w` big-endian octets of `n` (modulo `256 ^ w`). -/
def beBytes : ℕ → ℕ → Bytes
  | 0, _ => []
  | w + 1, n => beBytes w (n / 256) ++ [UInt8.ofNat (n % 256)]

/-- The number that big-endian octets spell. -/
def beNat (bs : Bytes) : ℕ := bs.foldl (fun acc b => acc * 256 + b.toNat) 0

@[simp] theorem length_beBytes (w n : ℕ) : (beBytes w n).length = w := by
  induction w generalizing n <;> simp [beBytes, *]

@[simp] theorem beNat_nil : beNat [] = 0 := rfl

@[simp] theorem beNat_append_singleton (bs : Bytes) (b : UInt8) :
    beNat (bs ++ [b]) = beNat bs * 256 + b.toNat := by
  simp [beNat, List.foldl_append]

theorem beNat_lt (bs : Bytes) : beNat bs < 256 ^ bs.length := by
  induction bs using List.reverseRecOn with
  | nil => simp
  | append_singleton bs b ih =>
    have := UInt8.toNat_lt_256 b
    rw [beNat_append_singleton, List.length_append, List.length_singleton, pow_succ]
    omega

theorem beNat_beBytes {w n : ℕ} (h : n < 256 ^ w) : beNat (beBytes w n) = n := by
  induction w generalizing n with
  | zero => simp_all [beBytes]
  | succ w ih =>
    rw [pow_succ] at h
    rw [beBytes, beNat_append_singleton, ih (by omega), UInt8.toNat_ofNat_eq]
    omega

theorem beBytes_beNat (bs : Bytes) : beBytes bs.length (beNat bs) = bs := by
  induction bs using List.reverseRecOn with
  | nil => rfl
  | append_singleton bs b ih =>
    have := UInt8.toNat_lt_256 b
    rw [List.length_append, List.length_singleton, beBytes, beNat_append_singleton,
      show (beNat bs * 256 + b.toNat) / 256 = beNat bs by omega,
      show (beNat bs * 256 + b.toNat) % 256 = b.toNat by omega, ih, UInt8.ofNat_toNat_eq]

/-! ### `struct` -/

/-- `struct.pack(">I", n)`. -/
def packI (n : ℤ) : Except PyError Bytes :=
  if 0 ≤ n ∧ n < 2 ^ 32 then .ok (beBytes 4 n.toNat) else .error .structError

/-- `struct.pack(">QI", q, i)`. -/
def packQI (q i : ℤ) : Except PyError Bytes :=
  if 0 ≤ q ∧ q < 2 ^ 64 ∧ 0 ≤ i ∧ i < 2 ^ 32 then .ok (beBytes 8 q.toNat ++ beBytes 4 i.toNat)
  else .error .structError

/-- `struct.unpack(">I", b)[0]`, for the four octets `b`. -/
def unpackI (b : Bytes) : ℕ := beNat b

theorem packI_ok (n : ℤ) : (∃ b, packI n = .ok b) ↔ 0 ≤ n ∧ n < 2 ^ 32 := by
  unfold packI
  split <;> simp_all

theorem packQI_ok (q i : ℤ) :
    (∃ b, packQI q i = .ok b) ↔ 0 ≤ q ∧ q < 2 ^ 64 ∧ 0 ≤ i ∧ i < 2 ^ 32 := by
  unfold packQI
  split <;> simp_all

theorem unpackI_lt {b : Bytes} (h : b.length = 4) : unpackI b < 2 ^ 32 := by
  simpa [unpackI, h] using beNat_lt b

end Rendezvous
