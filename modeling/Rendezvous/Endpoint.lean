import Rendezvous.Daemon

/-!
# The rendezvous endpoint

Each slot the daemon's `run()` derives an endpoint: the port `_derive_port(slot)`,
`RENDEZVOUS_PORT + slot`, and the address `_derive_rendezvous_address(epoch, slot)`, whose
first step, `struct.pack(">QI", epoch, slot)`, is the only one that can raise
(`RendezvousDaemon.slotMessage`). The client computes the port by the same sum.

`load_config` and `main()` accept any integers for `epoch_seconds` and `slots_per_epoch`.

## What is proved

* `slotMessage_cases` — a zero `epoch_seconds` makes every iteration raise
  `ZeroDivisionError`, and so does a zero `slots_per_epoch`; an `epoch_seconds` of
  `2 ^ 1024 - 2 ^ 970` or more raises `OverflowError` in `float()`. With
  `1 ≤ epoch_seconds < 2 ^ 1024 - 2 ^ 970` and `1 ≤ slots_per_epoch < 2 ^ 32`, every clock
  reading in `[0, 2 ^ 63)` gives an epoch that fits `Q` and a slot that fits `I`.
* `derivePort_valid` — with `slots_per_epoch ≤ 13714` every slot's port is a UDP port.
  `derivePort_exceeds_at_slot_boundary`: at `N = 13715` rounding can carry the slot to `N`
  itself (`E = 55`, a reading one bit below `55`), whose port is `65536`.

## Honest scope

The HMAC-SHA256 of the address and the text `str(IPv6Address(...))` are not modelled; the
digest always has the 32 bytes the rest of the derivation reads.
-/

namespace Rendezvous

/-- `RENDEZVOUS_PORT`, the base port. -/
def RENDEZVOUS_PORT : ℤ := 51821

namespace RendezvousDaemon

/-- `_derive_port(slot)`. -/
def derivePort (slot : ℤ) : ℤ := RENDEZVOUS_PORT + slot

/-- `_get_epoch_slot()` followed by the `struct.pack(">QI", epoch, slot)` that
`_derive_rendezvous_address` hashes. -/
def slotMessage (self : RendezvousDaemon) (now : ℚ) : Except PyError Bytes := do
  let (epoch, slot) ← self.getEpochSlot now
  packQI epoch slot

end RendezvousDaemon

open RendezvousDaemon

theorem slotMessage_cases (self : RendezvousDaemon) :
    (self.epochSeconds = 0 → ∀ t, self.slotMessage t = .error .zeroDivision) ∧
      (2 ^ 1024 - 2 ^ 970 ≤ self.epochSeconds → ∀ t, self.slotMessage t = .error .overflow) ∧
      (1 ≤ self.epochSeconds → self.epochSeconds < 2 ^ 1024 - 2 ^ 970 →
        (self.slotsPerEpoch = 0 → ∀ t : ℚ, 0 ≤ t → t < 2 ^ 63 → self.slotMessage t = .error .zeroDivision) ∧
        (1 ≤ self.slotsPerEpoch → self.slotsPerEpoch < 2 ^ 32 →
          ∀ t : ℚ, 0 ≤ t → t < 2 ^ 63 → ∃ epoch slot, self.getEpochSlot t = .ok (epoch, slot) ∧
            0 ≤ epoch ∧ epoch < 2 ^ 64 ∧ 0 ≤ slot ∧ slot < 2 ^ 32 ∧ ∃ m, self.slotMessage t = .ok m)) := by
  have h63 : (2 : ℚ) ^ 63 < 2 ^ 1023 := by norm_num
  refine ⟨fun h t => ?_, fun h t => ?_, fun hE hE' => ⟨fun hN t ht ht' => ?_, fun hN hN' t ht ht' => ?_⟩⟩
  · rw [slotMessage, RendezvousDaemon.getEpochSlot, h, epochSlotAt_epochSeconds_zero]; rfl
  · rw [slotMessage, RendezvousDaemon.getEpochSlot, epochSlotAt_overflow h]; rfl
  · rw [slotMessage, RendezvousDaemon.getEpochSlot, hN, epochSlotAt_slotsPerEpoch_zero hE hE' ht (by linarith)]; rfl
  obtain ⟨epoch, slot, hes, he, he', hs, hs'⟩ := epochSlotAt_bounds hE hE' hN hN' ht (by linarith)
  have he64 : epoch < 2 ^ 64 := by
    have ht51 : t / 2 ^ 51 < 2 ^ 12 := by rw [div_lt_iff₀ (by norm_num)]; linarith
    have : (epoch : ℚ) < 2 ^ 64 := by linarith
    exact_mod_cast this
  obtain ⟨m, hm⟩ := (packQI_ok _ _).mpr ⟨he, he64, hs, by omega⟩
  exact ⟨epoch, slot, hes, he, he64, hs, by omega, m, by rw [slotMessage, RendezvousDaemon.getEpochSlot, hes]; exact hm⟩

/-- The spec's default configuration: 60-second epochs of 4 slots, at the clock's origin. -/
theorem slotMessage_cases_default :
    ∃ epoch slot, (ofConfig DEFAULT_CONFIG (.obj [])).getEpochSlot 0 = .ok (epoch, slot) ∧
      0 ≤ epoch ∧ epoch < 2 ^ 64 ∧ 0 ≤ slot ∧ slot < 2 ^ 32 ∧
      ∃ m, (ofConfig DEFAULT_CONFIG (.obj [])).slotMessage 0 = .ok m :=
  ((slotMessage_cases (ofConfig DEFAULT_CONFIG (.obj []))).2.2 (by decide) (lt_threshold_of_lt (by decide))).2
    (by decide) (by decide) 0 le_rfl (by norm_num)

/-- `epoch_seconds = 0` passes `load_config` and `main()`, and the first iteration raises. -/
theorem slotMessage_raises_epoch_seconds_zero :
    ∃ d, loadConfig (some "mesh_secret = s\nepoch_seconds = 0\n") = .ok d ∧
      d.meshSecretMissing = false ∧ (ofConfig d (.obj [])).slotMessage 0 = .error .zeroDivision :=
  ⟨_, rfl, rfl, by rw [slotMessage, RendezvousDaemon.getEpochSlot]; exact congrArg (· >>= _) epochSlotAt_epochSeconds_zero⟩

set_option maxRecDepth 4000 in
/-- `epoch_seconds = 10**309` passes `load_config` and `main()`, and every iteration raises
`OverflowError` converting it to a float. -/
theorem slotMessage_raises_overflow :
    ∃ d, loadConfig (some ("mesh_secret = s\nepoch_seconds = 1" ++ ⟨List.replicate 309 '0'⟩)) = .ok d ∧
      d.meshSecretMissing = false ∧ ∀ t, (ofConfig d (.obj [])).slotMessage t = .error .overflow :=
  ⟨_, rfl, rfl, fun t => by
    rw [slotMessage, RendezvousDaemon.getEpochSlot, epochSlotAt_overflow]
    · rfl
    · show (2 : ℤ) ^ 1024 - 2 ^ 970 ≤ 1000000000000000000000000000000000000000000000000000000000000000000000000000000000000000000000000000000000000000000000000000000000000000000000000000000000000000000000000000000000000000000000000000000000000000000000000000000000000000000000000000000000000000000000000000000000000000000000000000000000000000000000
      norm_num⟩

/-! ### Ports -/

theorem port_le_of_slots_le {E N : ℤ} (hE : 1 ≤ E) (hE' : E < 2 ^ 1024 - 2 ^ 970) (hN : 1 ≤ N)
    (hN' : N ≤ 13714) {t : ℚ} (ht : 0 ≤ t) (ht' : t < 2 ^ 1023) :
    ∃ es, epochSlotAt E N t = .ok es ∧ RENDEZVOUS_PORT + es.2 ≤ 65535 := by
  obtain ⟨epoch, slot, hes, -, -, -, hs⟩ := epochSlotAt_bounds hE hE' hN (by omega) ht ht'
  exact ⟨_, hes, by simp only [RENDEZVOUS_PORT]; omega⟩

/-- With `1 ≤ slots_per_epoch ≤ 13714`, the port of every slot the client or the daemon derives
is a UDP port. -/
theorem derivePort_valid {E N : ℤ} (hE : 1 ≤ E) (hE' : E < 2 ^ 1024 - 2 ^ 970) (hN : 1 ≤ N)
    (hN' : N ≤ 13714) :
    (∀ t : ℚ, 0 ≤ t → t < 2 ^ 1023 → ∃ es, getEpochSlot E N t = .ok es ∧ RENDEZVOUS_PORT + es.2 ≤ 65535) ∧
      ∀ self : RendezvousDaemon, self.epochSeconds = E → self.slotsPerEpoch = N →
        ∀ t : ℚ, 0 ≤ t → t < 2 ^ 1023 → ∃ es, self.getEpochSlot t = .ok es ∧ derivePort es.2 ≤ 65535 := by
  refine ⟨fun t ht ht' => port_le_of_slots_le hE hE' hN hN' ht ht', fun self h1 h2 t ht ht' => ?_⟩
  subst h1 h2
  exact port_le_of_slots_le hE hE' hN hN' ht ht'

theorem derivePort_valid_default :
    (1 : ℤ) ≤ 60 ∧ (60 : ℤ) < 2 ^ 1024 - 2 ^ 970 ∧ (1 : ℤ) ≤ 4 ∧ (4 : ℤ) ≤ 13714 ∧
      ∀ t : ℚ, 0 ≤ t → t < 2 ^ 1023 → ∃ es, getEpochSlot 60 4 t = .ok es ∧ RENDEZVOUS_PORT + es.2 ≤ 65535 :=
  ⟨by decide, by norm_num, by decide, by decide, (derivePort_valid (by decide) (by norm_num) (by decide) (by decide)).1⟩

/-- `slots_per_epoch = 65536` passes `load_config` and `main()`; thirty seconds into an epoch
the slot is 32768, whose port is past 65535. -/
theorem derivePort_exceeds_65535 :
    ∃ d, loadConfig (some "mesh_secret = s\nslots_per_epoch = 65536\n") = .ok d ∧
      d.meshSecretMissing = false ∧ (ofConfig d (.obj [])).getEpochSlot 30 = .ok (0, 32768) ∧
      65535 < derivePort 32768 := by
  refine ⟨_, rfl, rfl, ?_, by decide⟩
  -- `60 / 65536` is a double, and so is the quotient `32768`
  have hd : intTrueDiv 60 65536 = .ok (8444249301319680 * 2 ^ (-63 : ℤ)) := by
    rw [intTrueDiv_of_ne (by decide)]
    exact fl_eq_of_binade (by norm_num) (by norm_num) (by norm_num) (by norm_num) (by norm_num) (by norm_num)
  have hq : fl (30 / (8444249301319680 * 2 ^ (-63 : ℤ))) = .ok ((32768 : ℤ) : ℚ) := by
    rw [← fl_intCast (by norm_num) (by norm_num)]; norm_num
  exact (epochSlotAt_first_epoch (by norm_num) (by norm_num) (by norm_num) (by norm_num) hd (by norm_num) hq).trans
    (by norm_num [pyTrunc])

/-- `epoch_seconds = 55` and `slots_per_epoch = 13715` pass `load_config` and `main()`. At the
reading one bit below `55`, the last instant of epoch 0, the double slot length `55 / 13715`
rounds down, and the slot rounds up to `13715`: its port is `65536`. -/
theorem derivePort_exceeds_at_slot_boundary :
    ∃ d, loadConfig (some "mesh_secret = s\nepoch_seconds = 55\nslots_per_epoch = 13715\n") = .ok d ∧
      d.meshSecretMissing = false ∧ (ofConfig d (.obj [])).getEpochSlot (55 - 1 / 2 ^ 47) = .ok (0, 13715) ∧
      65535 < derivePort 13715 := by
  refine ⟨_, rfl, rfl, ?_, by decide⟩
  have hd : intTrueDiv 55 13715 = .ok (4623454812495558 * 2 ^ (-60 : ℤ)) := by
    rw [intTrueDiv_of_ne (by decide)]
    exact fl_eq_of_binade (by norm_num) (by norm_num) (by norm_num) (by norm_num) (by norm_num) (by norm_num)
  exact (epochSlotAt_first_epoch (by norm_num) (by norm_num) (by norm_num) (by norm_num) hd (by norm_num)
    (fl_eq_of_binade (k := 7539900987473920) (u := -39) (by norm_num) (by norm_num) (by norm_num)
      (by norm_num) (by norm_num) (by norm_num))).trans (by norm_num [Int.floor_eq_iff, pyTrunc])

end Rendezvous
