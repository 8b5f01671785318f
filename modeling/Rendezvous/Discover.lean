import Rendezvous.Client
import Rendezvous.Wire

/-!
# The client's discovery

`rendezvous-client.py discover` runs `discover_peers(config, timeout)`:

    epoch, slot = get_epoch_slot(config["epoch_seconds"], config["slots_per_epoch"])
    addr = derive_rendezvous_address(mesh_secret, epoch, slot)
    if not add_address(config["interface"], addr): return []
    peers = []
    try:
        sock = socket.socket(…); …; sock.bind((addr, port, 0, if_index))
        end_time = time.time() + timeout
        while time.time() < end_time:
            try:
                data, sender = sock.recvfrom(65535)
                if len(data) < 4: continue
                sig_len = struct.unpack(">I", data[:4])[0]
                if len(data) < 4 + sig_len: continue
                descriptor = json.loads(data[4 + sig_len:].decode())
                node_id = descriptor.get("node_id", "unknown")
                peers.append(descriptor)
            except socket.timeout: continue
            except json.JSONDecodeError: continue
        sock.close()
    finally:
        remove_address(config["interface"], addr)
    return peers

The loop catches `socket.timeout` and `json.JSONDecodeError` only. A body that is not UTF-8
raises `UnicodeDecodeError`, and a JSON value other than an object raises `AttributeError` at
`.get`: either leaves `discover_peers` through its `finally`. The daemon's
`_handle_peer_message` catches every exception. Nothing in the loop looks at what `peers`
already holds.

## What is proved

* `discoverOne_eq_some`, `discoverOne_eq_error` — a datagram is appended exactly when its frame
  fits and its body is a UTF-8 JSON object; it makes the loop raise exactly when its body is
  not UTF-8, is JSON other than an object, or fails with another error than `JSONDecodeError`.
* `discoverLoop_ok`, `discoverLoop_returns_iff` — a loop that ends normally holds the
  descriptors of the appended datagrams, in arrival order, one per datagram; it ends normally
  exactly when no datagram raises.
* `discoverPeers_returns`, `discoverPeers_returns_iff` — the same for `discover_peers`.
* `discoverPeers_raises_on_bad_body` — a body that is not UTF-8, or a JSON array, makes
  `discover_peers` raise, and what it had gathered is lost.
* `discoverPeers_keeps_duplicates` — a node's frame received twice is returned twice.

## Honest scope

The printed lines are not modelled. Time is not modelled: the window is the list of what
`recvfrom` gave before `end_time`; a `recvfrom` that raises another `OSError` than the timeout
is not among them.
-/

namespace Rendezvous

/-- What one `sock.recvfrom(65535)` gives: a datagram, or `socket.timeout`. -/
inductive Received where
  /-- A datagram. -/
  | datagram (data : Bytes)
  /-- `socket.timeout`, after a second without a datagram. -/
  | timeout
  deriving DecidableEq, Repr

/-- The datagram, if the item is one. -/
def Received.datagram? : Received → Option Bytes
  | .datagram data => some data
  | .timeout => none

/-- What the operating system answers to one `discover_peers`. -/
structure DiscoverEnv where
  /-- `add_address` returned true. -/
  added : Bool
  /-- The socket's creation, options and `bind`: they returned, or raised this. -/
  setup : Except PyError Unit
  /-- What `recvfrom` gave before `end_time`. -/
  received : List Received

/-- The body of the loop on a datagram: `none` where it `continue`s, the descriptor it appends,
or the exception that leaves the loop. -/
def discoverOne (data : Bytes) : Except PyError (Option Json) :=
  match discoverFrameBody data with
  | none => .ok none
  | some body =>
    match loadsBytes body with
    | .error .jsonDecode => .ok none
    | .error e => .error e
    | .ok desc => (fun _ => some desc) <$> desc.get "node_id"

/-- The `while` loop over what `recvfrom` gave, appending to `peers`. -/
def discoverLoop : List Received → List Json → Except PyError (List Json)
  | [], peers => .ok peers
  | .timeout :: rs, peers => discoverLoop rs peers
  | .datagram data :: rs, peers =>
    match discoverOne data with
    | .error e => .error e
    | .ok none => discoverLoop rs peers
    | .ok (some desc) => discoverLoop rs (peers ++ [desc])

/-- `discover_peers(config, timeout)`, reading the clock `now`: the list it returns, or the
exception that leaves it after the `finally`. -/
def discoverPeers (config : ConfigDict) (now : ℚ) (env : DiscoverEnv) : Except PyError (List Json) := do
  let (epoch, slot) ← getEpochSlot (config.int "epoch_seconds") (config.int "slots_per_epoch") now
  let _ ← packQI epoch slot
  if !env.added then return []
  let _ ← env.setup
  discoverLoop env.received []

/-- The descriptor a received item carries, in the spec's words: a datagram whose frame fits and
whose body is the UTF-8 text of a JSON object. -/
def Received.peerDescriptor? : Received → Option Json
  | .datagram data =>
    match (discoverFrameBody data).map loadsBytes with
    | some (.ok (.obj kvs)) => some (.obj kvs)
    | _ => none
  | .timeout => none

/-! ### One datagram -/

/-- The body of the loop once the frame fits, its `except json.JSONDecodeError` read as a test. -/
theorem discoverOne_of_body {data body : Bytes} (hf : discoverFrameBody data = some body) :
    discoverOne data = match loadsBytes body with
      | .error e => if e = .jsonDecode then .ok none else .error e
      | .ok desc => (fun _ => some desc) <$> desc.get "node_id" := by
  simp only [discoverOne, hf]
  split <;> simp_all

theorem discoverOne_eq_some {data : Bytes} {desc : Json} :
    discoverOne data = .ok (some desc) ↔
      ∃ body kvs, discoverFrameBody data = some body ∧ loadsBytes body = .ok desc ∧ desc = .obj kvs := by
  rcases hf : discoverFrameBody data with _ | body
  · simp only [discoverOne, hf, Except.ok.injEq, reduceCtorEq, false_and, exists_false]
  rw [discoverOne_of_body hf]
  simp only [Option.some.injEq, exists_and_left, exists_eq_left']
  generalize loadsBytes body = r
  rcases r with e | v <;> dsimp only
  · split_ifs <;> simp only [Except.ok.injEq, reduceCtorEq, false_and]
  · simp only [Except.map_eq_ok, Json.get_ok_iff, Option.some.injEq, Except.ok.injEq]
    constructor
    · rintro ⟨-, ⟨kvs, rfl, -⟩, rfl⟩
      exact ⟨rfl, kvs, rfl⟩
    · rintro ⟨rfl, kvs, rfl⟩
      exact ⟨_, ⟨kvs, rfl, rfl⟩, rfl⟩

theorem discoverOne_eq_error {data : Bytes} {e : PyError} :
    discoverOne data = .error e ↔ ∃ body, discoverFrameBody data = some body ∧
      ((loadsBytes body = .error e ∧ e ≠ .jsonDecode) ∨
        (e = .attributeError ∧ ∃ v, loadsBytes body = .ok v ∧ ∀ kvs, v ≠ .obj kvs)) := by
  rcases hf : discoverFrameBody data with _ | body
  · simp only [discoverOne, hf, reduceCtorEq, false_and, exists_false]
  rw [discoverOne_of_body hf]
  simp only [Option.some.injEq, exists_eq_left']
  generalize loadsBytes body = r
  rcases r with e' | v <;> dsimp only
  · split_ifs with hj
    · simp only [reduceCtorEq, Except.error.injEq, false_and, exists_false, and_false, or_false, false_iff]
      exact fun h => h.2 (h.1 ▸ hj)
    · simp only [Except.error.injEq, reduceCtorEq, false_and, exists_false, and_false, or_false]
      exact ⟨fun h => ⟨h, h ▸ hj⟩, And.left⟩
  · simp only [Except.map_eq_error, Json.get_error_iff, reduceCtorEq, false_and, Except.ok.injEq,
      exists_eq_left', false_or]

theorem peerDescriptor?_of_discoverOne {data : Bytes} {d : Option Json} (h : discoverOne data = .ok d) :
    (Received.datagram data).peerDescriptor? = d := by
  rcases hd : d with _ | desc
  · rcases hf : discoverFrameBody data with _ | body
    · simp [Received.peerDescriptor?, hf]
    rcases hl : loadsBytes body with _ | v
    · simp [Received.peerDescriptor?, hf, hl]
    · cases v <;> simp_all [Received.peerDescriptor?, discoverOne, Json.get, Functor.map, Except.map]
  · obtain ⟨body, kvs, hf, hl, rfl⟩ := discoverOne_eq_some.mp (hd ▸ h)
    simp [Received.peerDescriptor?, hf, hl]

/-! ### The loop -/

theorem discoverLoop_ok {rs : List Received} {peers out : List Json}
    (h : discoverLoop rs peers = .ok out) : out = peers ++ rs.filterMap Received.peerDescriptor? := by
  induction rs generalizing peers with
  | nil => cases h; simp
  | cons r rs ih =>
    cases r with
    | timeout => simpa [Received.peerDescriptor?] using ih h
    | datagram data =>
      unfold discoverLoop at h
      rcases hd : discoverOne data with e | _ | desc <;> rw [hd] at h
      · cases h
      · simpa [peerDescriptor?_of_discoverOne hd] using ih h
      · simpa [peerDescriptor?_of_discoverOne hd] using ih h

/-- The loop returns exactly when no datagram it receives raises. -/
theorem discoverLoop_returns_iff {rs : List Received} {peers : List Json} :
    (∃ out, discoverLoop rs peers = .ok out) ↔ ∀ data ∈ rs.filterMap Received.datagram?,
      ∀ e, discoverOne data ≠ .error e := by
  induction rs generalizing peers with
  | nil => exact iff_of_true ⟨_, rfl⟩ fun _ h => absurd h (List.not_mem_nil _)
  | cons r rs ih =>
    cases r with
    | timeout => exact ih
    | datagram data =>
      simp only [discoverLoop, Received.datagram?, List.filterMap_cons, List.mem_cons, forall_eq_or_imp]
      rcases discoverOne data with e | _ | desc <;> dsimp only
      · exact iff_of_false (fun ⟨_, h⟩ => Except.noConfusion h) fun h => h.1 e rfl
      all_goals rw [ih]; exact (and_iff_right fun _ h => Except.noConfusion h).symm

/-! ### `discover_peers` -/

/-- What `discover_peers` returns: `[]` when `add_address` fails, and otherwise, in arrival
order, one descriptor per received datagram whose frame fits and whose body is a JSON object. -/
theorem discoverPeers_returns {config : ConfigDict} {now : ℚ} {env : DiscoverEnv} {out : List Json}
    (h : discoverPeers config now env = .ok out) :
    (env.added = false ∧ out = []) ∨ out = env.received.filterMap Received.peerDescriptor? := by
  simp only [discoverPeers, bind, Except.bind] at h
  split at h; · cases h
  split at h; · cases h
  cases ha : env.added <;> simp [ha, pure, Except.pure] at h
  · exact .inl ⟨rfl, h⟩
  · split at h; · cases h
    exact .inr (by simpa using discoverLoop_ok h)

/-- Once the address is added and the socket bound, `discover_peers` returns exactly when no
received datagram raises in the loop. -/
theorem discoverPeers_returns_iff {config : ConfigDict} {now : ℚ} {env : DiscoverEnv}
    (hes : ∃ es, getEpochSlot (config.int "epoch_seconds") (config.int "slots_per_epoch") now = .ok es ∧
      ∃ m, packQI es.1 es.2 = .ok m)
    (ha : env.added = true) (hs : env.setup = .ok ()) :
    (∃ out, discoverPeers config now env = .ok out) ↔
      ∀ data ∈ env.received.filterMap Received.datagram?, ∀ e, discoverOne data ≠ .error e := by
  obtain ⟨⟨epoch, slot⟩, hes, m, hm⟩ := hes
  rw [← @discoverLoop_returns_iff env.received []]
  simp [discoverPeers, hes, hm, ha, hs, bind, Except.bind, pure, Except.pure]

/-- The client's defaults with a mesh secret, at the clock's origin: a body that is not UTF-8, after
a frame of node `n1`, makes `discover_peers` raise `UnicodeDecodeError`, losing `n1`; a body
holding the JSON array `[]` makes it raise `AttributeError`. -/
theorem discoverPeers_raises_on_bad_body :
    ∃ d, clientLoadConfig (some "mesh_secret = s\n") = .ok d ∧
      discoverPeers d 0 ⟨true, .ok (), [.datagram ([0, 0, 0, 0] ++ asciiBytes "\x7b\"node_id\": \"n1\"\x7d"),
        .datagram [0, 0, 0, 0, 0xff]]⟩ = .error .unicodeDecode ∧
      discoverPeers d 0 ⟨true, .ok (), [.datagram ([0, 0, 0, 0] ++ asciiBytes "[]")]⟩ = .error .attributeError := by
  obtain ⟨d, hd, hE, hN⟩ : ∃ d, clientLoadConfig (some "mesh_secret = s\n") = .ok d ∧
      d.int "epoch_seconds" = 60 ∧ d.int "slots_per_epoch" = 4 := ⟨_, rfl, rfl, rfl⟩
  have hes : getEpochSlot 60 4 0 = .ok (0, 0) := epochSlotAt_origin (by norm_num) (by norm_num) (by norm_num) (by norm_num)
  exact ⟨d, hd, by simp only [discoverPeers, hE, hN, hes]; rfl, by simp only [discoverPeers, hE, hN, hes]; rfl⟩

/-- The same frame of node `n1` received twice: `discover_peers` returns its descriptor twice. -/
theorem discoverPeers_keeps_duplicates :
    ∃ d, clientLoadConfig (some "mesh_secret = s\n") = .ok d ∧
      discoverPeers d 0 ⟨true, .ok (), [.datagram ([0, 0, 0, 0] ++ asciiBytes "\x7b\"node_id\": \"n1\"\x7d"),
        .datagram ([0, 0, 0, 0] ++ asciiBytes "\x7b\"node_id\": \"n1\"\x7d")]⟩ =
        .ok [.obj [("node_id", .str "n1")], .obj [("node_id", .str "n1")]] := by
  obtain ⟨d, hd, hE, hN⟩ : ∃ d, clientLoadConfig (some "mesh_secret = s\n") = .ok d ∧
      d.int "epoch_seconds" = 60 ∧ d.int "slots_per_epoch" = 4 := ⟨_, rfl, rfl, rfl⟩
  have hes : getEpochSlot 60 4 0 = .ok (0, 0) := epochSlotAt_origin (by norm_num) (by norm_num) (by norm_num) (by norm_num)
  exact ⟨d, hd, by simp only [discoverPeers, hE, hN, hes]; rfl⟩

end Rendezvous
