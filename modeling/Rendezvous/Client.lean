import Rendezvous.Endpoint

/-!
# The client's status

`rendezvous-client.py status` runs `show_status(config)`:

    now = time.time()
    epoch, slot = get_epoch_slot(epoch_seconds, slots_per_epoch)
    addr = derive_rendezvous_address(mesh_secret, epoch, slot)
    port = RENDEZVOUS_PORT + slot
    slot_duration = epoch_seconds / slots_per_epoch
    slot_start = (epoch * epoch_seconds) + (slot * slot_duration)
    slot_end = slot_start + slot_duration
    time_remaining = slot_end - now
    …
    for i in range(1, 4):
        future_slot = (slot + i) % slots_per_epoch
        future_epoch = epoch if (slot + i) < slots_per_epoch else epoch + 1
        …

`get_epoch_slot` reads `time.time()` itself: the slot is that of a second reading `later`,
and the time remaining is measured from the first, `now`.

## What is proved

* `showStatus_prints` — with `1 ≤ epoch_seconds` below the overflow threshold,
  `1 ≤ slots_per_epoch < 2 ^ 32` and `later` in `[0, 2 ^ 63)`, `show_status` prints.
* `showStatus_remaining_exceeds_slot` — readings `14.9` and `15` with the default
  configuration print `15.1s` remaining in a slot of fifteen seconds.
* `upcomingSlot_eq_oracle_iff` — the line `+i` shows the exact oracle's `(epoch, slot)` `i`
  slot-lengths on exactly when `slot + i < 2 * N`: `future_epoch` adds at most one epoch, so
  with fewer than three slots per epoch a line can fall short.
* `showStatus_upcoming_one_slot` — one slot per epoch: the `+1`, `+2`, `+3` lines all show
  epoch 1, where the oracle reads epochs 1, 2 and 3.

## Honest scope

The printed texts are not modelled, only the numbers on them; the addresses are derived only as
far as `struct.pack(">QI", epoch, slot)`, the step that can raise. What the lines printed before
an exception were is not kept. The slot comes from `get_epoch_slot` in doubles (`epochSlotAt`),
but `slot_start`, `slot_end` and `time_remaining`, which only the printed text shows, are
computed exactly.
-/

namespace Rendezvous

/-- The numbers `show_status` prints. -/
structure Status where
  /-- `Epoch:`. -/
  epoch : ℤ
  /-- `Slot:`. -/
  slot : ℤ
  /-- `Time in slot:`, in seconds. -/
  timeRemaining : ℚ
  /-- `Rendezvous Port:`. -/
  port : ℤ
  /-- The `+1`, `+2`, `+3` lines: epoch, slot and port. -/
  upcoming : List (ℤ × ℤ × ℤ)
  deriving DecidableEq, Repr

/-- `future_epoch, future_slot` of the line `+i`; Python's `%` takes the sign of the divisor. -/
def upcomingSlot (slotsPerEpoch epoch slot i : ℤ) : ℤ × ℤ :=
  (if slot + i < slotsPerEpoch then epoch else epoch + 1, Int.fmod (slot + i) slotsPerEpoch)

/-- `show_status(config)`, where `time.time()` reads `now` and then, inside
`get_epoch_slot`, `later`; `none` where it prints `mesh_secret not configured`. -/
def showStatus (config : ConfigDict) (now later : ℚ) : Except PyError (Option Status) :=
  if config.str "mesh_secret" = "" then .ok none else do
    let (epoch, slot) ← getEpochSlot (config.int "epoch_seconds") (config.int "slots_per_epoch") later
    let _ ← packQI epoch slot
    let upcoming := [1, 2, 3].map (upcomingSlot (config.int "slots_per_epoch") epoch slot)
    let _ ← upcoming.mapM fun es => packQI es.1 es.2
    let slotDuration : ℚ := (config.int "epoch_seconds" : ℚ) / config.int "slots_per_epoch"
    let slotStart : ℚ := epoch * config.int "epoch_seconds" + slot * slotDuration
    return some ⟨epoch, slot, slotStart + slotDuration - now, RENDEZVOUS_PORT + slot,
      upcoming.map fun es => (es.1, es.2, RENDEZVOUS_PORT + es.2)⟩

theorem upcomingSlot_bounds {N : ℤ} (epoch slot i : ℤ) (hN : 0 < N) : epoch ≤ (upcomingSlot N epoch slot i).1 ∧ (upcomingSlot N epoch slot i).1 ≤ epoch + 1 ∧
      0 ≤ (upcomingSlot N epoch slot i).2 ∧ (upcomingSlot N epoch slot i).2 < N := by
  unfold upcomingSlot
  rw [Int.fmod_eq_emod _ hN.le]
  refine ⟨?_, ?_, Int.emod_nonneg _ hN.ne', Int.emod_lt_of_pos _ hN⟩ <;> split_ifs <;> omega

/-- The slot `i` slot-lengths after `(epoch, slot)`, as the oracle counts: the global index
`epoch * N + slot + i` split by `N`. -/
def slotAfter (N epoch slot i : ℤ) : ℤ × ℤ :=
  ((epoch * N + slot + i) / N, (epoch * N + slot + i) % N)

/-- The `+i` line names the slot `i` slot-lengths later exactly when that slot is less than two
epochs on: `future_epoch` adds one epoch at most. -/
theorem upcomingSlot_eq_slotAfter_iff {N epoch slot i : ℤ} (hN : 0 < N) (hs : 0 ≤ slot)
    (hi : 0 ≤ i) : upcomingSlot N epoch slot i = slotAfter N epoch slot i ↔ slot + i < 2 * N := by
  have hsplit : slotAfter N epoch slot i = ((slot + i) / N + epoch, (slot + i) % N) := by
    rw [slotAfter, show epoch * N + slot + i = slot + i + epoch * N by ring,
      Int.add_mul_ediv_right _ _ hN.ne', Int.add_mul_emod_self]
  rw [hsplit, upcomingSlot, Int.fmod_eq_emod _ hN.le, Prod.mk.injEq, and_iff_left rfl]
  split_ifs with h
  · rw [Int.ediv_eq_zero_of_lt (by omega) h]
    omega
  · have h1 := Int.le_ediv_of_mul_le hN (show 1 * N ≤ slot + i by omega)
    by_cases h2 : slot + i < 2 * N
    · have := Int.ediv_lt_of_lt_mul hN h2
      omega
    · have := Int.le_ediv_of_mul_le hN (show 2 * N ≤ slot + i by omega)
      omega

/-- `slotAfter` is the exact oracle `i` slot-lengths on. -/
theorem exactEpochSlot_add_slots {E N : ℤ} (hE : 0 < E) (hN : 0 < N) (t : ℚ) (i : ℤ) :
    exactEpochSlot E N (t + i * (E / N)) = .ok (slotAfter N ⌊t / E⌋ (⌊t * N / E⌋ - ⌊t / E⌋ * N) i) := by
  have hE' : (E : ℚ) ≠ 0 := by exact_mod_cast hE.ne'
  have hN' : (N : ℚ) ≠ 0 := by exact_mod_cast hN.ne'
  have h : (t + i * (E / N)) * N / E = t * N / E + i := by
    rw [add_mul, add_div, mul_assoc (i : ℚ), div_mul_cancel₀ _ hN', mul_div_cancel_right₀ _ hE']
  rw [exactEpochSlot_eq_div hE hN, h, Int.floor_add_int, slotAfter,
    show ⌊t / E⌋ * N + (⌊t * N / E⌋ - ⌊t / E⌋ * N) + i = ⌊t * N / E⌋ + i by ring]

/-- The line `+i` of `show_status` shows the exact oracle `i` slot-lengths after the reading it
is computed from exactly when `slot + i < 2 * N`. -/
theorem upcomingSlot_eq_oracle_iff {E N : ℤ} (hE : 0 < E) (hN : 0 < N) {t : ℚ} {es : ℤ × ℤ}
    (hes : exactEpochSlot E N t = .ok es) {i : ℤ} (hi : 0 ≤ i) :
    exactEpochSlot E N (t + i * (E / N)) = .ok (upcomingSlot N es.1 es.2 i) ↔ es.2 + i < 2 * N := by
  rw [exactEpochSlot_eq hE hN, Except.ok.injEq] at hes
  subst hes
  rw [exactEpochSlot_add_slots hE hN, Except.ok.injEq, eq_comm]
  exact upcomingSlot_eq_slotAfter_iff hN (slot_nonneg hE hN t) hi

theorem mapM_packQI_ok {l : List (ℤ × ℤ)}
    (h : ∀ es ∈ l, 0 ≤ es.1 ∧ es.1 < 2 ^ 64 ∧ 0 ≤ es.2 ∧ es.2 < 2 ^ 32) :
    ∃ ms, l.mapM (fun es => packQI es.1 es.2) = .ok ms := by
  induction l with
  | nil => exact ⟨[], rfl⟩
  | cons es l ih =>
    obtain ⟨m, hm⟩ := (packQI_ok _ _).mpr (h es (List.mem_cons_self _ _))
    obtain ⟨ms, hms⟩ := ih fun es' hes' => h es' (List.mem_cons_of_mem _ hes')
    exact ⟨m :: ms, by simp only [List.mapM_cons, hm, hms]; rfl⟩

/-- The three upcoming slots of a slot in range pack. -/
theorem mapM_upcoming_ok {N epoch : ℤ} (slot : ℤ) (hN : 0 < N) (hN' : N ≤ 2 ^ 32) (he : 0 ≤ epoch)
    (he' : epoch + 1 < 2 ^ 64) :
    ∃ ms, ([1, 2, 3].map (upcomingSlot N epoch slot)).mapM (fun es => packQI es.1 es.2) = .ok ms :=
  mapM_packQI_ok fun es hes => by
    obtain ⟨i, -, rfl⟩ := List.mem_map.mp hes
    have := upcomingSlot_bounds epoch slot i hN
    omega

/-- `show_status` prints for every configuration with `1 ≤ E` below the overflow threshold and
`1 ≤ N < 2 ^ 32`, at every second reading in `[0, 2 ^ 63)`. -/
theorem showStatus_prints {config : ConfigDict} (now : ℚ) {later : ℚ}
    (hms : config.str "mesh_secret" ≠ "") (hE : 1 ≤ config.int "epoch_seconds")
    (hE' : config.int "epoch_seconds" < 2 ^ 1024 - 2 ^ 970) (hN : 1 ≤ config.int "slots_per_epoch")
    (hN' : config.int "slots_per_epoch" < 2 ^ 32) (h0 : 0 ≤ later) (h1 : later < 2 ^ 63) :
    ∃ st, showStatus config now later = .ok (some st) := by
  obtain ⟨epoch, slot, hes, he, he', hs, hs'⟩ := epochSlotAt_bounds hE hE' hN hN' h0 (by linarith [show (2 : ℚ) ^ 63 < 2 ^ 1023 by norm_num])
  have he64 : epoch + 1 < 2 ^ 64 := by
    have h51 : later / 2 ^ 51 < 2 ^ 12 := by rw [div_lt_iff₀ (by norm_num)]; linarith
    have : (epoch : ℚ) + 1 < 2 ^ 64 := by linarith
    exact_mod_cast this
  obtain ⟨m, hm⟩ := (packQI_ok _ _).mpr ⟨he, by omega, hs, by omega⟩
  obtain ⟨ms, hmap⟩ := mapM_upcoming_ok (N := config.int "slots_per_epoch") slot (by omega) (by omega) he he64
  exact ⟨_, by rw [showStatus, if_neg hms, getEpochSlot, hes, Except.ok_bind]; simp only [hm, hmap, bind, Except.bind]; rfl⟩

/-- The client's defaults with a mesh secret: `show_status` reads the clock at `14.9` and,
inside `get_epoch_slot`, at `15`, the first instant of slot 1, and prints `15.1s` remaining of a
fifteen-second slot. -/
theorem showStatus_remaining_exceeds_slot :
    ∃ d st, clientLoadConfig (some "mesh_secret = s\n") = .ok d ∧
      showStatus d (149 / 10) 15 = .ok (some st) ∧ st.slot = 1 ∧ st.timeRemaining = 151 / 10 ∧
      (d.int "epoch_seconds" : ℚ) / d.int "slots_per_epoch" < st.timeRemaining := by
  obtain ⟨d, hd, hms, hE, hN⟩ : ∃ d, clientLoadConfig (some "mesh_secret = s\n") = .ok d ∧
      d.str "mesh_secret" ≠ "" ∧ d.int "epoch_seconds" = 60 ∧ d.int "slots_per_epoch" = 4 :=
    ⟨_, rfl, by decide, rfl, rfl⟩
  have hes : getEpochSlot 60 4 15 = .ok (0, 1) := by
    have hd : intTrueDiv 60 4 = .ok ((15 : ℤ) : ℚ) := by
      rw [intTrueDiv_of_ne (by decide), ← fl_intCast (by norm_num) (by norm_num)]; norm_num
    have hq : fl ((15 - ((60 : ℤ) : ℚ) * ⌊(15 : ℚ) / ((60 : ℤ) : ℚ)⌋) / ((15 : ℤ) : ℚ)) = .ok ((1 : ℤ) : ℚ) := by
      rw [← fl_intCast (by norm_num) (by norm_num)]; norm_num [Int.floor_eq_iff]
    exact (epochSlotAt_of_quotient (by norm_num) (by norm_num) (by norm_num) (by norm_num) hd (by norm_num) hq).trans
      (by norm_num [Int.floor_eq_iff, pyTrunc])
  obtain ⟨m, hm⟩ : ∃ m, packQI 0 1 = .ok m := ⟨_, rfl⟩
  obtain ⟨ms, hmap⟩ : ∃ ms, ([1, 2, 3].map (upcomingSlot 4 0 1)).mapM
      (fun es => packQI es.1 es.2) = .ok ms := ⟨_, rfl⟩
  refine ⟨d, _, hd, by simp only [showStatus, if_neg hms, hE, hN, hes, bind, Except.bind, hm, hmap]; rfl,
    rfl, ?_, ?_⟩ <;> norm_num [hE, hN]

/-- The client with one slot per epoch, at the clock's origin: `show_status` prints epoch 1 on
each of its `+1`, `+2`, `+3` lines, where the oracle two and three slot-lengths on reads epochs
2 and 3. -/
theorem showStatus_upcoming_one_slot :
    ∃ d st, clientLoadConfig (some "mesh_secret = s\nslots_per_epoch = 1\n") = .ok d ∧
      showStatus d 0 0 = .ok (some st) ∧
      st.upcoming.map (fun u => (u.1, u.2.1)) = [(1, 0), (1, 0), (1, 0)] ∧
      getEpochSlot 60 1 120 = .ok (2, 0) ∧ getEpochSlot 60 1 180 = .ok (3, 0) := by
  obtain ⟨d, hd, hms, hE, hN⟩ : ∃ d, clientLoadConfig (some "mesh_secret = s\nslots_per_epoch = 1\n") =
      .ok d ∧ d.str "mesh_secret" ≠ "" ∧ d.int "epoch_seconds" = 60 ∧ d.int "slots_per_epoch" = 1 :=
    ⟨_, rfl, by decide, rfl, rfl⟩
  -- the oracle at a whole number `k` of sixty-second epochs reads `(k, 0)`
  have hes : ∀ k : ℤ, 0 ≤ k → k ≤ 3 → getEpochSlot 60 1 (k * 60) = .ok (k, 0) := fun k hk hk' =>
    epochSlotAt_mul (by norm_num) (by norm_num) (by norm_num) (by norm_num) hk (by omega)
  obtain ⟨m, hm⟩ : ∃ m, packQI 0 0 = .ok m := ⟨_, rfl⟩
  obtain ⟨ms, hmap⟩ : ∃ ms, ([1, 2, 3].map (upcomingSlot 1 0 0)).mapM
      (fun es => packQI es.1 es.2) = .ok ms := ⟨_, rfl⟩
  have hes0 : getEpochSlot 60 1 0 = .ok (0, 0) := by simpa using hes 0 le_rfl (by norm_num)
  refine ⟨d, _, hd, by simp only [showStatus, if_neg hms, hE, hN, hes0, bind, Except.bind, hm, hmap]; rfl,
    by rfl, ?_, ?_⟩
  · have := hes 2 (by norm_num) (by norm_num); norm_num at this; exact this
  · have := hes 3 (by norm_num) (by norm_num); norm_num at this; exact this

end Rendezvous
