import Rendezvous.MainLoop
import Rendezvous.Discover
import Rendezvous.Broadcast

/-!
# Where the daemon and the client meet

`rendezvousd` and `rendezvous-client` read one configuration file, each with its own
`load_config`, and derive from it, for a slot `(epoch, slot)`, the same rendezvous point:

    message = struct.pack(">QI", epoch, slot)
    mac = hmac.new(mesh_secret, message, hashlib.sha256).digest()
    ...
    port = RENDEZVOUS_PORT + slot

on the interface `config["interface"]`. The daemon's `run()` derives it in every iteration
that serves a new slot, then broadcasts its descriptor there and listens there; the client's
`broadcast_descriptor` and `discover_peers` derive it once, for the slot `get_epoch_slot`
reads off the clock, then send there or listen there.

## The model

A rendezvous point (`RendezvousPoint`) is kept as what its address is computed from: the HMAC
key `mesh_secret` (before `.encode()`), the HMAC message, the port and the interface. The
daemon's is `RendezvousDaemon.rendezvousPoint`, the client's `clientRendezvousPoint`; the
client's `broadcast_descriptor` is `broadcastDescriptor`, with what the files and the operating
system answer given as a `BroadcastEnv`.

## What is proved

* `clientLoadConfig_of_loadConfig` — whenever the daemon's `load_config` returns, the client's
  returns on the same file the daemon's dict restricted to the client's five keys; and the
  converse fails: a line `max_peers = x` makes the daemon raise and the client skip it.
* `clientRendezvousPoint_restrict` — on the daemon's dict, the client's derivation is the
  daemon's clock oracle followed by the daemon's `rendezvousPoint`; `discoverPeers_eq` — the
  client's `discover_peers` listens on that point.
* `client_meets_daemon` — for every slot a daemon's run served, a client configured from the
  daemon's file derives the daemon's rendezvous point for that slot exactly when it reads the
  clock in that slot; in any other slot the HMAC message differs (`rendezvousPoint_inj`).
* `client_broadcast_heard` — so what the client's `broadcast_descriptor` sends in a slot the
  daemon served goes to the point the daemon listened on, and the daemon reads it as the
  client's signature and descriptor.

## What is not formalized

HMAC-SHA256 and `str(IPv6Address(...))`: equal keys and messages give equal addresses, and
nothing here depends on distinct messages giving distinct addresses. Whether the two readings
of the clock fall in one slot is up to the clocks and the network; `_listen_for_peers` hears
a datagram only while its window is open.
-/

namespace Rendezvous

/-! ### One file, two dicts -/

/-- The items of `d` whose key is one of `keys`. -/
def ConfigDict.restrict (d : ConfigDict) (keys : List String) : ConfigDict :=
  d.filter fun kv => kv.1 ∈ keys

section Restrict

variable {keys : List String}

@[simp] theorem restrict_nil : ConfigDict.restrict [] keys = [] := rfl

theorem restrict_cons (k : String) (v : PyVal) (d : ConfigDict) :
    ConfigDict.restrict ((k, v) :: d) keys =
      if k ∈ keys then (k, v) :: d.restrict keys else d.restrict keys := by
  by_cases hk : k ∈ keys <;> simp [ConfigDict.restrict, List.filter_cons, hk]

/-- `config[key] = value` commutes with the restriction for a kept key, and is invisible
through it for a dropped one. -/
theorem set_restrict (d : ConfigDict) (k : String) (v : PyVal) :
    (d.set k v).restrict keys = if k ∈ keys then (d.restrict keys).set k v else d.restrict keys := by
  induction d with
  | nil => split <;> rfl
  | cons kv d ih =>
    obtain ⟨k', v'⟩ := kv
    by_cases hk' : k' = k
    · subst hk'
      by_cases hk : k' ∈ keys <;> simp [ConfigDict.set, restrict_cons, hk]
    · by_cases hk : k' ∈ keys <;>
        by_cases hkk : k ∈ keys <;> simp [ConfigDict.set, restrict_cons, hk, hk', hkk, ih]

theorem lookup_restrict (d : ConfigDict) {k : String} (hk : k ∈ keys) :
    (d.restrict keys).lookup k = d.lookup k := by
  induction d with
  | nil => rfl
  | cons kv d ih =>
    obtain ⟨k', v'⟩ := kv
    rw [restrict_cons]
    by_cases hkk : k = k'
    · subst hkk
      simp [hk, List.lookup_cons]
    · by_cases hk' : k' ∈ keys <;>
        simp [hk', List.lookup_cons, beq_false_of_ne hkk, ih]

theorem lookup_restrict_of_not_mem (d : ConfigDict) {k : String} (hk : k ∉ keys) :
    (d.restrict keys).lookup k = none := by
  induction d with
  | nil => rfl
  | cons kv d ih =>
    obtain ⟨k', v'⟩ := kv
    rw [restrict_cons]
    by_cases hk' : k' ∈ keys
    · have hkk : k ≠ k' := fun h => hk (h ▸ hk')
      simp [hk', List.lookup_cons, beq_false_of_ne hkk, ih]
    · simp [hk', ih]

theorem int_restrict (d : ConfigDict) {k : String} (hk : k ∈ keys) : (d.restrict keys).int k = d.int k := by
  simp only [ConfigDict.int, lookup_restrict d hk]

theorem str_restrict (d : ConfigDict) {k : String} (hk : k ∈ keys) : (d.restrict keys).str k = d.str k := by
  simp only [ConfigDict.str, lookup_restrict d hk]

/-- One line stored by the daemon is stored alike, or skipped, by a reader of fewer keys. -/
theorem storeLine_restrict {d d' : ConfigDict} {line : String} (h : storeLine d line = .ok d') :
    storeLine (d.restrict keys) line = .ok (d'.restrict keys) := by
  unfold storeLine at h ⊢
  by_cases hk : lineKey line ∈ keys
  · rw [lookup_restrict d hk]
    split at h
    · obtain ⟨n, hn, rfl⟩ := Except.map_eq_ok.mp h
      rw [hn, set_restrict, if_pos hk]
      rfl
    · cases h
      rw [set_restrict, if_pos hk]
    · cases h
      rfl
  · rw [lookup_restrict_of_not_mem d hk]
    split at h
    · obtain ⟨n, -, rfl⟩ := Except.map_eq_ok.mp h
      rw [set_restrict, if_neg hk]
    · cases h
      rw [set_restrict, if_neg hk]
    · cases h
      rfl

theorem loadLine_restrict {d d' : ConfigDict} {raw : String} (h : loadLine d raw = .ok d') :
    loadLine (d.restrict keys) raw = .ok (d'.restrict keys) := by
  unfold loadLine at h ⊢
  split_ifs at h ⊢
  · cases h; rfl
  · exact storeLine_restrict h
  · cases h; rfl

/-- The loop of `load_config`, run by a reader of fewer keys. -/
theorem foldlM_loadLine_restrict {lines : List String} {d d' : ConfigDict}
    (h : lines.foldlM loadLine d = .ok d') :
    lines.foldlM loadLine (d.restrict keys) = .ok (d'.restrict keys) := by
  induction lines generalizing d with
  | nil => cases h; rfl
  | cons l lines ih =>
    rw [List.foldlM_cons] at h ⊢
    cases hl : loadLine d l with
    | error e => rw [hl] at h; cases h
    | ok d₁ =>
      rw [hl] at h
      rw [loadLine_restrict hl]
      exact ih h

end Restrict

/-- The client's defaults are the daemon's, on the client's keys. -/
theorem restrict_DEFAULT_CONFIG : DEFAULT_CONFIG.restrict (clientDefaults.map Prod.fst) = clientDefaults := by
  decide

theorem loadConfig_restrict {file : Option String} {d : ConfigDict}
    (h : loadConfig file = .ok d) : clientLoadConfig file = .ok (d.restrict (clientDefaults.map Prod.fst)) := by
  cases file with
  | none =>
    cases h
    exact congrArg Except.ok restrict_DEFAULT_CONFIG.symm
  | some text =>
    have := @foldlM_loadLine_restrict (clientDefaults.map Prod.fst) _ _ _ h
    rwa [restrict_DEFAULT_CONFIG] at this

/-- On a file the daemon's `load_config` reads, the client's reads the daemon's values for its
own five keys; not conversely, since the client skips a line that makes the daemon's `int()`
raise. -/
theorem clientLoadConfig_of_loadConfig :
    (∀ {file : Option String} {d : ConfigDict}, loadConfig file = .ok d →
      clientLoadConfig file = .ok (d.restrict (clientDefaults.map Prod.fst))) ∧
    (loadConfig (some "max_peers = x") = .error .valueError ∧
      clientLoadConfig (some "max_peers = x") = .ok clientDefaults) :=
  ⟨loadConfig_restrict, rfl, rfl⟩

/-- A file setting `mesh_secret` and the daemon-only `max_peers`. -/
theorem clientLoadConfig_of_loadConfig_max_peers :
    loadConfig (some "mesh_secret = s\nmax_peers = 8") =
        .ok ((DEFAULT_CONFIG.set "mesh_secret" (.str "s")).set "max_peers" (.int 8)) ∧
      clientLoadConfig (some "mesh_secret = s\nmax_peers = 8") =
        .ok (((DEFAULT_CONFIG.set "mesh_secret" (.str "s")).set "max_peers" (.int 8)).restrict
          (clientDefaults.map Prod.fst)) :=
  have h : loadConfig (some "mesh_secret = s\nmax_peers = 8") =
      .ok ((DEFAULT_CONFIG.set "mesh_secret" (.str "s")).set "max_peers" (.int 8)) := by rfl
  ⟨h, clientLoadConfig_of_loadConfig.1 h⟩

/-! ### The rendezvous point -/

/-- What a party derives for a slot, up to the hash: the address is computed from the HMAC key
and message alone. -/
structure RendezvousPoint where
  /-- `mesh_secret`, which `.encode()` makes the HMAC key. -/
  meshSecret : String
  /-- `struct.pack(">QI", epoch, slot)`, the HMAC message. -/
  message : Bytes
  /-- `RENDEZVOUS_PORT + slot`. -/
  port : ℤ
  /-- The interface the address is added to and the socket scoped to. -/
  interface : String
  deriving DecidableEq, Repr

theorem packQI_inj {q i q' i' : ℤ} {b : Bytes} (h : packQI q i = .ok b) (h' : packQI q' i' = .ok b) :
    q = q' ∧ i = i' := by
  unfold packQI at h h'
  split at h <;> split at h' <;> cases h
  · rename_i hr hr'
    have heq := (Except.ok.inj h').symm
    obtain ⟨hq, -⟩ := List.append_inj heq (by simp only [length_beBytes])
    obtain ⟨-, hi⟩ := List.append_inj' heq (by simp only [length_beBytes])
    have hq' := congrArg beNat hq
    have hi' := congrArg beNat hi
    rw [beNat_beBytes (by omega), beNat_beBytes (by omega)] at hq' hi'
    omega
  · cases h'

namespace RendezvousDaemon

/-- The rendezvous point an iteration of `run()` derives for the slot `(epoch, slot)`:
`_derive_rendezvous_address(epoch, slot)` and `_derive_port(slot)`, on `self.interface`,
where `_add_address` adds the address and `_get_interface_index` scopes the socket. -/
def rendezvousPoint (self : RendezvousDaemon) (epoch slot : ℤ) : Except PyError RendezvousPoint := do
  let message ← packQI epoch slot
  return ⟨self.meshSecret, message, derivePort slot, self.interface⟩

/-- An iteration that serves a slot read it off the clock and could pack it. -/
theorem runIteration_served {self : RendezvousDaemon} {last es : ℤ × ℤ} {now : ℚ}
    (h : self.runIteration last now = .ok (some es)) :
    self.getEpochSlot now = .ok es ∧ ∃ b, packQI es.1 es.2 = .ok b := by
  unfold runIteration at h
  cases hg : self.getEpochSlot now with
  | error e => rw [hg] at h; cases h
  | ok es' =>
    obtain ⟨e, s⟩ := es'
    simp only [hg, bind, Except.bind] at h
    split_ifs at h
    · cases hp : packQI e s with
      | error e => rw [hp] at h; cases h
      | ok b =>
        rw [hp] at h
        cases h
        exact ⟨rfl, b, hp⟩
    · cases h

theorem served_of_mem_runLoop {self : RendezvousDaemon} {last : ℤ × ℤ} {nows : List ℚ}
    {it : Iteration} (hit : it ∈ (self.runLoop last nows).1) {es : ℤ × ℤ} (hs : it.served = some es) :
    self.getEpochSlot it.now = .ok es ∧ ∃ b, packQI es.1 es.2 = .ok b := by
  induction nows generalizing last with
  | nil => cases hit
  | cons now nows ih =>
    rw [runLoop_cons] at hit
    split at hit
    · cases hit
    · next served hr =>
      rcases List.mem_cons.mp hit with rfl | hit
      · cases hs
        exact runIteration_served hr
      · exact ih hit

end RendezvousDaemon

/-- The lines of the client's `broadcast_descriptor` and `discover_peers` before
`add_address`, at the clock reading `now`: the rendezvous point they send to or listen on. -/
def clientRendezvousPoint (config : ConfigDict) (now : ℚ) : Except PyError RendezvousPoint := do
  let (epoch, slot) ← getEpochSlot (config.int "epoch_seconds") (config.int "slots_per_epoch") now
  let message ← packQI epoch slot
  return ⟨config.str "mesh_secret", message, RENDEZVOUS_PORT + slot, config.str "interface"⟩

/-- `discover_peers` listens on `clientRendezvousPoint`, and raises before `add_address` where
it does. -/
theorem discoverPeers_eq (config : ConfigDict) (now : ℚ) (env : DiscoverEnv) :
    discoverPeers config now env = clientRendezvousPoint config now >>= fun _ =>
      if !env.added then pure [] else env.setup >>= fun _ => discoverLoop env.received [] := by
  unfold discoverPeers clientRendezvousPoint
  cases getEpochSlot (config.int "epoch_seconds") (config.int "slots_per_epoch") now with
  | error e => rfl
  | ok es =>
    obtain ⟨e, s⟩ := es
    simp only [bind, Except.bind]
    cases packQI e s <;> rfl

/-- The client's derivation, on the daemon's dict, is the daemon's: the daemon's clock oracle,
then its rendezvous point for the slot read. -/
theorem clientRendezvousPoint_restrict (d : ConfigDict) (desc : Json) (t : ℚ) :
    clientRendezvousPoint (d.restrict (clientDefaults.map Prod.fst)) t =
      (RendezvousDaemon.ofConfig d desc).getEpochSlot t >>= fun es =>
        (RendezvousDaemon.ofConfig d desc).rendezvousPoint es.1 es.2 := by
  unfold clientRendezvousPoint
  rw [int_restrict d (by decide), int_restrict d (by decide), str_restrict d (by decide),
    str_restrict d (by decide)]
  change epochSlotAt (d.int "epoch_seconds") (d.int "slots_per_epoch") t >>= _ =
    epochSlotAt (d.int "epoch_seconds") (d.int "slots_per_epoch") t >>= _
  cases epochSlotAt (d.int "epoch_seconds") (d.int "slots_per_epoch") t with
  | error e => rfl
  | ok es => obtain ⟨e, s⟩ := es; rfl

/-- Distinct slots have distinct rendezvous points: their HMAC messages differ. -/
theorem RendezvousDaemon.rendezvousPoint_inj {self : RendezvousDaemon} {e s e' s' : ℤ} {p : RendezvousPoint}
    (h : self.rendezvousPoint e s = .ok p) (h' : self.rendezvousPoint e' s' = .ok p) : e = e' ∧ s = s' := by
  unfold RendezvousDaemon.rendezvousPoint at h h'
  rcases hb : packQI e s with _ | b <;> rw [hb] at h
  · exact nomatch h
  rcases hb' : packQI e' s' with _ | b' <;> rw [hb'] at h'
  · exact nomatch h'
  have hm : b = b' := congrArg RendezvousPoint.message ((Except.ok.inj h).trans (Except.ok.inj h').symm)
  exact packQI_inj hb (hm ▸ hb')

section Meet

variable {d : ConfigDict} {desc : Json} {es : ℤ × ℤ} {p : RendezvousPoint}

/-- The client reading the daemon's dict derives the daemon's point of a slot the daemon could
pack exactly when its reading falls in that slot. -/
theorem clientRendezvousPoint_eq_iff (hp : (RendezvousDaemon.ofConfig d desc).rendezvousPoint es.1 es.2 = .ok p)
    (t : ℚ) :
    clientRendezvousPoint (d.restrict (clientDefaults.map Prod.fst)) t = .ok p ↔
      (RendezvousDaemon.ofConfig d desc).getEpochSlot t = .ok es := by
  rw [clientRendezvousPoint_restrict d desc]
  constructor
  · intro h
    rcases hg : (RendezvousDaemon.ofConfig d desc).getEpochSlot t with e | es' <;> rw [hg] at h
    · exact nomatch h
    rw [Except.ok_bind] at h
    obtain ⟨h1, h2⟩ := RendezvousDaemon.rendezvousPoint_inj h hp
    exact congrArg Except.ok (Prod.ext h1 h2)
  · intro h
    rw [h, Except.ok_bind]
    exact hp

/-- The point of a slot a run served. -/
theorem rendezvousPoint_of_served {nows : List ℚ} {it : Iteration}
    (hit : it ∈ ((RendezvousDaemon.ofConfig d desc).run nows).1) (hs : it.served = some es) :
    ∃ p, (RendezvousDaemon.ofConfig d desc).rendezvousPoint es.1 es.2 = .ok p := by
  obtain ⟨-, b, hb⟩ := RendezvousDaemon.served_of_mem_runLoop hit hs
  exact ⟨_, by simp only [RendezvousDaemon.rendezvousPoint, hb]; rfl⟩

end Meet

/-- A client configured from the file a daemon was started with derives, at any clock reading,
the rendezvous point the daemon derived for a slot its run served exactly when the reading falls
in that slot. -/
theorem client_meets_daemon {file : Option String} {d : ConfigDict} (hd : loadConfig file = .ok d)
    (desc : Json) {nows : List ℚ} {it : Iteration}
    (hit : it ∈ ((RendezvousDaemon.ofConfig d desc).run nows).1) {es : ℤ × ℤ} (hs : it.served = some es)
    (t : ℚ) :
    ∃ c p, clientLoadConfig file = .ok c ∧ (RendezvousDaemon.ofConfig d desc).rendezvousPoint es.1 es.2 = .ok p ∧
      (clientRendezvousPoint c t = .ok p ↔ (RendezvousDaemon.ofConfig d desc).getEpochSlot t = .ok es) :=
  have ⟨p, hp⟩ := rendezvousPoint_of_served hit hs
  ⟨_, p, loadConfig_restrict hd, hp, clientRendezvousPoint_eq_iff hp t⟩

/-- The default daemon's first iteration, at the clock's origin, serves slot `(0, 0)`. -/
theorem mem_run_origin :
    (⟨0, some (0, 0)⟩ : Iteration) ∈ ((RendezvousDaemon.ofConfig DEFAULT_CONFIG (.obj [])).run [0]).1 := by
  have h0 : (RendezvousDaemon.ofConfig DEFAULT_CONFIG (.obj [])).getEpochSlot 0 = .ok (0, 0) :=
    epochSlotAt_origin (by decide) (by decide) (by decide) (by decide)
  simp only [RendezvousDaemon.run, RendezvousDaemon.runLoop_cons, RendezvousDaemon.runLoop_nil,
    RendezvousDaemon.runIteration, h0]
  exact List.mem_singleton.mpr rfl

/-- The default daemon's slot `(0, 0)` and a default client reading the clock at one second. -/
theorem client_meets_daemon_default :
    loadConfig none = .ok DEFAULT_CONFIG ∧
      (⟨0, some (0, 0)⟩ : Iteration) ∈ ((RendezvousDaemon.ofConfig DEFAULT_CONFIG (.obj [])).run [0]).1 ∧
      ∃ c p, clientLoadConfig none = .ok c ∧
        (RendezvousDaemon.ofConfig DEFAULT_CONFIG (.obj [])).rendezvousPoint 0 0 = .ok p ∧
        (clientRendezvousPoint c 1 = .ok p ↔
          (RendezvousDaemon.ofConfig DEFAULT_CONFIG (.obj [])).getEpochSlot 1 = .ok (0, 0)) :=
  have hd : loadConfig none = .ok DEFAULT_CONFIG := rfl
  ⟨hd, mem_run_origin, client_meets_daemon hd (.obj []) mem_run_origin rfl 1⟩

/-! ### The client's broadcast -/



/-- What the files and the operating system answer to one `broadcast_descriptor`. -/
structure BroadcastEnv where
  /-- `add_address` returned true. -/
  added : Bool
  /-- The descriptor file's text; `none` when `descriptor_path` does not exist. -/
  descriptorFile : Option String
  /-- What the signature file holds; `b""` when it does not exist. -/
  signature : Bytes
  /-- The socket's creation and options, `if_nametoindex` and `sendto`: they returned, or
  raised this. -/
  send : Except PyError Unit

/-- The statements of `broadcast_descriptor` from `json.load(f)` to `sock.sendto`: the
descriptor and the datagram, or the exception one of them raises. -/
def broadcastSend (text : String) (env : BroadcastEnv) : Except PyError (Json × Bytes) := do
  let descriptor ← loads text
  let message ← frameMessage env.signature (descriptorJson descriptor)
  let _ ← env.send
  return (descriptor, message)

/-- `broadcast_descriptor(config)`, reading the clock `now`: the rendezvous point and the
datagram it hands to `sendto`, if it gets that far, and how it ends after its `finally`. The
`Node ID` line after the send raises `AttributeError` when the descriptor is not an object. -/
def broadcastDescriptor (config : ConfigDict) (now : ℚ) (env : BroadcastEnv) :
    Option (RendezvousPoint × Bytes) × Except PyError Unit :=
  match clientRendezvousPoint config now with
  | .error e => (none, .error e)
  | .ok point =>
    if !env.added then (none, .ok ())
    else match env.descriptorFile with
      | none => (none, .ok ())
      | some text =>
        match broadcastSend text env with
        | .error e => (none, .error e)
        | .ok (descriptor, message) => (some (point, message), (fun _ => ()) <$> descriptor.get "node_id")

theorem broadcastSend_eq_ok {text : String} {env : BroadcastEnv} {d : Json} {m : Bytes} :
    broadcastSend text env = .ok (d, m) ↔
      loads text = .ok d ∧ frameMessage env.signature (descriptorJson d) = .ok m ∧ env.send = .ok () := by
  constructor
  · intro h
    rw [broadcastSend] at h
    rcases hl : loads text with e | d' <;> rw [hl] at h
    · exact nomatch h
    rw [Except.ok_bind] at h
    rcases hf : frameMessage env.signature (descriptorJson d') with e | m' <;> rw [hf] at h
    · exact nomatch h
    rw [Except.ok_bind] at h
    rcases hs : env.send with e | u <;> rw [hs] at h
    · exact nomatch h
    obtain ⟨rfl, rfl⟩ := Prod.mk.inj (Except.ok.inj h)
    exact ⟨rfl, hf, rfl⟩
  · rintro ⟨hl, hf, hs⟩
    rw [broadcastSend, hl, Except.ok_bind, hf, Except.ok_bind, hs]
    rfl

/-- What `broadcast_descriptor` sends goes to its rendezvous point, and is the frame of the
descriptor file's JSON. -/
theorem broadcastDescriptor_sent {config : ConfigDict} {now : ℚ} {env : BroadcastEnv}
    {p : RendezvousPoint} {m : Bytes} (h : (broadcastDescriptor config now env).1 = some (p, m)) :
    clientRendezvousPoint config now = .ok p ∧ ∃ text d, env.descriptorFile = some text ∧
      loads text = .ok d ∧ frameMessage env.signature (descriptorJson d) = .ok m := by
  unfold broadcastDescriptor at h
  split at h
  · cases h
  next point hp =>
    split_ifs at h
    split at h
    · cases h
    next text htext =>
      split at h
      · cases h
      next d message hs =>
        cases h
        obtain ⟨hl, hf, -⟩ := broadcastSend_eq_ok.mp hs
        exact ⟨hp, text, d, htext, hl, hf⟩

/-- A client configured from the file a daemon was started with, broadcasting its descriptor
in a slot the daemon's run served, sends to the rendezvous point the daemon derived for that
slot exactly when its clock reading falls in the slot; the daemon reads the datagram as the
client's signature and the descriptor of the client's file, and accepts it exactly when that
descriptor passes its `node_id` checks. -/
theorem client_broadcast_heard {file : Option String} {d : ConfigDict} (hd : loadConfig file = .ok d)
    (desc : Json) {nows : List ℚ} {it : Iteration}
    (hit : it ∈ ((RendezvousDaemon.ofConfig d desc).run nows).1) {es : ℤ × ℤ} (hs : it.served = some es)
    {c : ConfigDict} (hc : clientLoadConfig file = .ok c) {t : ℚ} {env : BroadcastEnv}
    {p : RendezvousPoint} {m : Bytes} (hsent : (broadcastDescriptor c t env).1 = some (p, m)) :
    ((RendezvousDaemon.ofConfig d desc).rendezvousPoint es.1 es.2 = .ok p ↔
        (RendezvousDaemon.ofConfig d desc).getEpochSlot t = .ok es) ∧
      ∃ text descriptor, env.descriptorFile = some text ∧ loads text = .ok descriptor ∧
        ∀ known sig' d' k, (RendezvousDaemon.ofConfig d desc).acceptFrame known m = some (sig', d', k) ↔
          sig' = env.signature ∧ d' = descriptor ∧ (RendezvousDaemon.ofConfig d desc).Admits known descriptor k := by
  rw [loadConfig_restrict hd] at hc
  cases hc
  obtain ⟨hpt, text, descriptor, htext, hl, hf⟩ := broadcastDescriptor_sent hsent
  obtain ⟨q, hq⟩ := rendezvousPoint_of_served hit hs
  refine ⟨⟨fun h => (clientRendezvousPoint_eq_iff h t).mp hpt, fun h => ?_⟩, text, descriptor, htext, hl,
    fun known _ _ _ => acceptFrame_broadcast (wf_of_loads hl) hf _ known⟩
  rw [hq, ← Except.ok.inj (((clientRendezvousPoint_eq_iff hq t).mpr h).symm.trans hpt)]

/-- The default daemon serving slot `(0, 0)` and the default client broadcasting
`{"node_id": "n1"}` at the clock's origin, with no signature file. -/
theorem client_broadcast_heard_default :
    loadConfig none = .ok DEFAULT_CONFIG ∧
      (⟨0, some (0, 0)⟩ : Iteration) ∈ ((RendezvousDaemon.ofConfig DEFAULT_CONFIG (.obj [])).run [0]).1 ∧
      clientLoadConfig none = .ok clientDefaults ∧
      (broadcastDescriptor clientDefaults 0 ⟨true, some "\x7b\"node_id\": \"n1\"\x7d", [], .ok ()⟩).1 =
        some (⟨"", [0, 0, 0, 0, 0, 0, 0, 0, 0, 0, 0, 0], 51821, "eth0"⟩,
          [0, 0, 0, 0] ++ asciiBytes "\x7b\"node_id\": \"n1\"\x7d") ∧
      (((RendezvousDaemon.ofConfig DEFAULT_CONFIG (.obj [])).rendezvousPoint 0 0 =
          .ok ⟨"", [0, 0, 0, 0, 0, 0, 0, 0, 0, 0, 0, 0], 51821, "eth0"⟩ ↔
          (RendezvousDaemon.ofConfig DEFAULT_CONFIG (.obj [])).getEpochSlot 0 = .ok (0, 0)) ∧
        ∃ text descriptor, some "\x7b\"node_id\": \"n1\"\x7d" = some text ∧ loads text = .ok descriptor ∧
          ∀ known sig' d' k, (RendezvousDaemon.ofConfig DEFAULT_CONFIG (.obj [])).acceptFrame known
              ([0, 0, 0, 0] ++ asciiBytes "\x7b\"node_id\": \"n1\"\x7d") = some (sig', d', k) ↔
            sig' = [] ∧ d' = descriptor ∧ (RendezvousDaemon.ofConfig DEFAULT_CONFIG (.obj [])).Admits known descriptor k) :=
  have hd : loadConfig none = .ok DEFAULT_CONFIG := rfl
  have hc : clientLoadConfig none = .ok clientDefaults := rfl
  have hp : clientRendezvousPoint clientDefaults 0 = .ok ⟨"", [0, 0, 0, 0, 0, 0, 0, 0, 0, 0, 0, 0], 51821, "eth0"⟩ := by
    have h0 : getEpochSlot (clientDefaults.int "epoch_seconds") (clientDefaults.int "slots_per_epoch") 0 = .ok (0, 0) :=
      epochSlotAt_origin (by decide) (by decide) (by decide) (by decide)
    unfold clientRendezvousPoint
    rw [h0]
    rfl
  have hsent : (broadcastDescriptor clientDefaults 0 ⟨true, some "\x7b\"node_id\": \"n1\"\x7d", [], .ok ()⟩).1 =
      some (⟨"", [0, 0, 0, 0, 0, 0, 0, 0, 0, 0, 0, 0], 51821, "eth0"⟩,
        [0, 0, 0, 0] ++ asciiBytes "\x7b\"node_id\": \"n1\"\x7d") := by
    unfold broadcastDescriptor
    rw [hp]
    rfl
  ⟨hd, mem_run_origin, hc, hsent, client_broadcast_heard hd (.obj []) mem_run_origin rfl hc hsent⟩

end Rendezvous
