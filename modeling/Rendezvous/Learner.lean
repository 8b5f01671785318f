import Rendezvous.Daemon
import Rendezvous.Wire

/-!
# The peer learner

`_handle_peer_message(data, sender)` inside its `try`:

    (frame)         signature, descriptor_json from data, or return
    descriptor = json.loads(descriptor_json.decode())
    node_id = descriptor.get("node_id");            if not node_id: return
    if node_id == self.node_descriptor.get("node_id"): return
    if node_id in self.known_peers: return
    descriptor_path = self.peers_dir / f"{node_id}.json"
    sig_path = self.peers_dir / f"{node_id}.json.sig"
    with open(descriptor_path, "w") as f: json.dump(descriptor, f, indent=2)
    if signature: with open(sig_path, "wb") as f: f.write(signature)
    if self.peer_callback: subprocess.run(self.peer_callback.split() + [str(descriptor_path)], …)
    self.known_peers.add(node_id)
    if len(self.known_peers) > self.max_peers: self.known_peers.pop()

and every exception, the callback's included, is caught. The steps before the first write
either drop the frame or yield its signature, descriptor and hashable node id
(`acceptFrame`); the rest is `handlePeerMessage`, which returns the new `known_peers` and
the list of what the step did to the world (`Effect`): the files it opened for writing and
what reached them, the callback's command line, the element `pop()` removed. What the
operating system does with a write, and which element `pop()` takes, are the environment's
answers (`Env`); a model theorem about every `Env` holds whatever they are. `open` itself
raises, whatever the system would answer, on a path it cannot turn into octets (`openEnv`):
a node id holding a lone surrogate outside `U+DC80`–`U+DCFF`, or a NUL.

`known_peers` is a list of the set's elements, compared as a Python set compares them
(`NodeId.sameInSet`).

## What is proved

* `acceptFrame_eq_some` — the spec of the steps before the first write.
* `handlePeerMessage_cases` — the four things a step can do.
* `handlePeerMessage_dropped` — a frame that fails framing, whose body is not UTF-8 JSON, not
  an object, has no or a false `node_id`, the node's own, or a known one, changes nothing.
* `handlePeerMessage_opens` — every file a step opens is `peers_dir / f"{n}.json"` or
  `peers_dir / f"{n}.json.sig"` for the frame's node id `n`, and the callback gets the first;
  they are direct children of `peers_dir` when `n` is a string of `[A-Za-z0-9_.-]+`.
* `handlePeerMessage_escapes_peers_dir` — `node_id` is not checked: `"../x"` writes
  `peers_dir/../x.json`.
* `handlePeerMessage_unopenable` — a node id whose file name `open` cannot convert writes
  nothing and is not learned, so the same frame is handled again each time it comes.
-/

namespace Rendezvous

/-- What a write left behind: all of it (`ok`); nothing, the open having failed before the
file was truncated (`openFailed`); or the first `n` octets, the write having raised after
truncating (`failedAfter n`). -/
inductive WriteOutcome where
  /-- The write completed. -/
  | ok
  /-- `open` raised; the file is as it was. -/
  | openFailed
  /-- The file was truncated and `n` octets reached it before the write raised. -/
  | failedAfter (n : ℕ)
  deriving DecidableEq, Repr

/-- The environment's answers to one call of `_handle_peer_message`. -/
structure Env where
  /-- The outcome of `open(descriptor_path, "w")` and `json.dump`. -/
  descWrite : WriteOutcome
  /-- The outcome of `open(sig_path, "wb")` and `f.write(signature)`. -/
  sigWrite : WriteOutcome
  /-- Which element `known_peers.pop()` removes: the one at this index, modulo the size. -/
  pick : ℕ
  deriving DecidableEq, Repr

/-- What a step did to the world. -/
inductive Effect where
  /-- A file opened for writing, the bytes meant for it, and what reached it. -/
  | write (path : PurePath) (data : Bytes) (outcome : WriteOutcome)
  /-- The peer callback run with this command line. -/
  | callback (argv : List PyStr)
  /-- `known_peers.pop()` removed this node id. -/
  | evict (k : NodeId)
  deriving DecidableEq, Repr

/-- The bytes `json.dump(descriptor, f, indent=2)` writes. -/
def jsonBytes (descriptor : Json) : Bytes := asciiBytes (dumpIndent2 descriptor)

namespace NodeId

/-- `node_id == own` for the node's own `node_id` (`None` when it has none). -/
def isOwn (k : NodeId) (own : Option Json) : Bool :=
  match own.bind Json.nodeId? with
  | some k' => decide (pyEq k k')
  | none => false

end NodeId

namespace RendezvousDaemon

variable (self : RendezvousDaemon)

/-- `self.peers_dir / f"{node_id}.json"`. -/
def peerDescriptorPath (k : NodeId) : PurePath := self.peersDir.div (k.pyStr ++ ".json")

/-- `self.peers_dir / f"{node_id}.json.sig"`. -/
def peerSigPath (k : NodeId) : PurePath := self.peersDir.div (k.pyStr ++ ".json.sig")

/-- The steps of `_handle_peer_message` before the first write: the frame's signature,
descriptor and node id, or `none` when it returns or raises. A `list` or `dict` node id
equal to the node's own returns; any other raises `TypeError` at `in`. -/
def acceptFrame (known : List NodeId) (data : Bytes) : Option (Bytes × Json × NodeId) := do
  let (signature, descriptorJson) ← splitFrame data
  let descriptor ← (loadsBytes descriptorJson).toOption
  let nodeId ← (descriptor.get "node_id").toOption
  let nodeId ← nodeId
  guard nodeId.truthy
  let own ← (self.nodeDescriptor.get "node_id").toOption
  let k ← nodeId.nodeId?
  guard (!k.isOwn own && !decide (k.PyMem known))
  return (signature, descriptor, k)

/-- `self.peer_callback.split() + [str(descriptor_path)]`. -/
def callbackArgv (k : NodeId) : List PyStr :=
  (splitWs self.peerCallback).map PyStr.ofString ++ [(self.peerDescriptorPath k).toStr]

/-- `if self.peer_callback: subprocess.run(…)`. -/
def callbackEffects (k : NodeId) : List Effect :=
  if self.peerCallback.isEmpty then [] else [.callback (self.callbackArgv k)]

/-- What `open(path, …)` left, given the system's answer `o`: `open` raises before the system
call on a path it cannot turn into octets. -/
def openOutcome (path : PurePath) (o : WriteOutcome) : WriteOutcome :=
  if path.toStr.canOpen then o else .openFailed

/-- The answers a step for the node id `k` gets: the system's, unless `open` refuses the path. -/
def openEnv (k : NodeId) (env : Env) : Env :=
  { env with descWrite := openOutcome (self.peerDescriptorPath k) env.descWrite,
             sigWrite := openOutcome (self.peerSigPath k) env.sigWrite }

/-- The two writes of a step that reaches the callback, both complete. -/
def completeWrites (k : NodeId) (signature : Bytes) (descriptor : Json) : List Effect :=
  .write (self.peerDescriptorPath k) (jsonBytes descriptor) .ok ::
    if signature = [] then [] else [.write (self.peerSigPath k) signature .ok]

/-- `self.known_peers.add(node_id)`, then `pop()` past `max_peers`. -/
def addPeer (known : List NodeId) (k : NodeId) (pick : ℕ) : List NodeId × List Effect :=
  if self.maxPeers < (known.length + 1 : ℕ) then
    ((k :: known).eraseIdx (pick % (known.length + 1)),
      [.evict ((k :: known).getD (pick % (known.length + 1)) k)])
  else (k :: known, [])

/-- `_handle_peer_message(data, sender)` from `known_peers = known`, with the environment's
answers `env`: the new `known_peers` and what the step did. -/
def handlePeerMessage (known : List NodeId) (data : Bytes) (env : Env) :
    List NodeId × List Effect :=
  match self.acceptFrame known data with
  | none => (known, [])
  | some (signature, descriptor, k) =>
    let env := self.openEnv k env
    let wDesc := Effect.write (self.peerDescriptorPath k) (jsonBytes descriptor) env.descWrite
    if env.descWrite ≠ .ok then (known, [wDesc])
    else if signature ≠ [] ∧ env.sigWrite ≠ .ok then
      (known, [wDesc, .write (self.peerSigPath k) signature env.sigWrite])
    else
      ((self.addPeer known k env.pick).1,
        self.completeWrites k signature descriptor ++ self.callbackEffects k ++
          (self.addPeer known k env.pick).2)

/-! ### The steps before the first write -/

theorem acceptFrame_eq_some {known : List NodeId} {data sig : Bytes} {desc : Json} {k : NodeId} :
    self.acceptFrame known data = some (sig, desc, k) ↔
      ∃ body v own, splitFrame data = some (sig, body) ∧ loadsBytes body = .ok desc ∧
        desc.get "node_id" = .ok (some v) ∧ v.truthy = true ∧
        self.nodeDescriptor.get "node_id" = .ok own ∧ v.nodeId? = some k ∧
        k.isOwn own = false ∧ ¬ k.PyMem known := by
  simp only [acceptFrame, Option.bind_eq_bind, Option.bind_eq_some, Except.toOption_eq_some,
    guard_eq_some_unit, Prod.exists, exists_const, pure, Option.some.injEq, Prod.mk.injEq,
    Bool.and_eq_true, Bool.not_eq_true', decide_eq_false_iff_not]
  constructor
  · rintro ⟨sig, body, hs, desc, hl, _, hg, v, rfl, hv, own, ho, k, hk, ⟨hown, hmem⟩, rfl, rfl, rfl⟩
    exact ⟨body, v, own, hs, hl, hg, hv, ho, hk, hown, hmem⟩
  · rintro ⟨body, v, own, hs, hl, hg, hv, ho, hk, hown, hmem⟩
    exact ⟨sig, body, hs, desc, hl, _, hg, v, rfl, hv, own, ho, k, hk, ⟨hown, hmem⟩, rfl, rfl, rfl⟩

/-- The frame's node id is new: not Python-equal to any element of `known_peers`. -/
theorem not_pyMem_of_acceptFrame {known : List NodeId} {data sig : Bytes} {desc : Json}
    {k : NodeId} (h : self.acceptFrame known data = some (sig, desc, k)) : ¬ k.PyMem known := by
  obtain ⟨-, -, -, -, -, -, -, -, -, -, hmem⟩ := (self.acceptFrame_eq_some).mp h
  exact hmem

/-! ### One step -/

/-- The four things a step does, with the answers `openEnv` gives it: drop the frame, stop at a
failed descriptor write, stop at a failed signature write, or write both and go on. -/
theorem handlePeerMessage_cases (known : List NodeId) (data : Bytes) (env : Env) :
    (self.acceptFrame known data = none ∧ self.handlePeerMessage known data env = (known, [])) ∨
    ∃ sig desc k, self.acceptFrame known data = some (sig, desc, k) ∧
      (((self.openEnv k env).descWrite ≠ .ok ∧ self.handlePeerMessage known data env =
          (known, [.write (self.peerDescriptorPath k) (jsonBytes desc) (self.openEnv k env).descWrite])) ∨
       ((self.openEnv k env).descWrite = .ok ∧ sig ≠ [] ∧ (self.openEnv k env).sigWrite ≠ .ok ∧
          self.handlePeerMessage known data env = (known,
            [.write (self.peerDescriptorPath k) (jsonBytes desc) .ok,
              .write (self.peerSigPath k) sig (self.openEnv k env).sigWrite])) ∨
       ((self.openEnv k env).descWrite = .ok ∧ (sig = [] ∨ (self.openEnv k env).sigWrite = .ok) ∧
          self.handlePeerMessage known data env = ((self.addPeer known k env.pick).1,
            self.completeWrites k sig desc ++ self.callbackEffects k ++
              (self.addPeer known k env.pick).2))) := by
  unfold handlePeerMessage
  rcases h : self.acceptFrame known data with _ | ⟨sig, desc, k⟩
  · exact .inl ⟨rfl, rfl⟩
  · refine .inr ⟨sig, desc, k, rfl, ?_⟩
    simp only
    generalize (self.openEnv k env).descWrite = dw
    generalize (self.openEnv k env).sigWrite = sw
    by_cases hd : dw = .ok
    · by_cases hs : sig ≠ [] ∧ sw ≠ .ok
      · exact .inr (.inl ⟨hd, hs.1, hs.2, by simp [hd, hs]⟩)
      · refine .inr (.inr ⟨hd, ?_, by simp [hd, hs, openEnv]⟩)
        by_cases hsig : sig = [] <;> simp_all
    · exact .inl ⟨hd, by simp [hd]⟩

theorem mem_addPeer {known : List NodeId} {k x : NodeId} {pick : ℕ}
    (h : x ∈ (self.addPeer known k pick).1) : x = k ∨ x ∈ known := by
  unfold addPeer at h
  split at h
  · exact List.mem_cons.mp (List.mem_of_mem_eraseIdx h)
  · exact List.mem_cons.mp h

theorem addPeer_of_not_evict {known : List NodeId} {k : NodeId} {pick : ℕ}
    (h : (self.addPeer known k pick).2 = []) : (self.addPeer known k pick).1 = k :: known := by
  unfold addPeer at *
  split_ifs at h ⊢
  rfl

/-- `add` and `pop()` only ever evict. -/
theorem mem_addPeer_snd {known : List NodeId} {k : NodeId} {pick : ℕ} {e : Effect}
    (h : e ∈ (self.addPeer known k pick).2) : ∃ k', e = .evict k' := by
  unfold addPeer at h
  split_ifs at h
  · exact ⟨_, List.mem_singleton.mp h⟩
  · cases h

theorem addPeer_snd_eq_nil {known : List NodeId} {k : NodeId} {pick : ℕ}
    (h : ∀ k', Effect.evict k' ∉ (self.addPeer known k pick).2) : (self.addPeer known k pick).2 = [] := by
  unfold addPeer at *
  split_ifs at h ⊢
  · exact absurd (List.mem_singleton_self _) (h _)
  · rfl

theorem length_addPeer_le {known : List NodeId} {k : NodeId} {pick : ℕ}
    (h : (known.length : ℤ) ≤ self.maxPeers) : ((self.addPeer known k pick).1.length : ℤ) ≤ self.maxPeers := by
  unfold addPeer
  split
  · rw [List.length_eraseIdx, List.length_cons, if_pos (Nat.mod_lt _ (Nat.succ_pos _)),
      Nat.add_sub_cancel]
    exact h
  · simp only [List.length_cons]
    omega

/-- Every effect of a step belongs to the frame's node id: its two files, its callback, or an
eviction. -/
theorem mem_handlePeerMessage {known : List NodeId} {data : Bytes} {env : Env} {e : Effect}
    (he : e ∈ (self.handlePeerMessage known data env).2) :
    ∃ sig desc k, self.acceptFrame known data = some (sig, desc, k) ∧
      ((∃ o, e = .write (self.peerDescriptorPath k) (jsonBytes desc) o) ∨
        (sig ≠ [] ∧ ∃ o, e = .write (self.peerSigPath k) sig o) ∨
        e = .callback (self.callbackArgv k) ∨
        ∃ k', e = .evict k') := by
  rcases self.handlePeerMessage_cases known data env with ⟨-, h⟩ | ⟨sig, desc, k, hk, h⟩
  · simp [h] at he
  refine ⟨sig, desc, k, hk, ?_⟩
  rcases h with ⟨-, h⟩ | ⟨-, hsig, -, h⟩ | ⟨-, -, h⟩ <;> rw [h] at he
  · exact .inl ⟨_, List.mem_singleton.mp he⟩
  · rcases List.mem_pair.mp he with rfl | rfl
    · exact .inl ⟨_, rfl⟩
    · exact .inr (.inl ⟨hsig, _, rfl⟩)
  · simp only [List.mem_append, completeWrites, callbackEffects] at he
    rcases he with (he | he) | he
    · split_ifs at he with hsig
      · exact .inl ⟨_, List.mem_singleton.mp he⟩
      · rcases List.mem_pair.mp he with rfl | rfl
        · exact .inl ⟨_, rfl⟩
        · exact .inr (.inl ⟨hsig, _, rfl⟩)
    · split_ifs at he
      · cases he
      · exact .inr (.inr (.inl (List.mem_singleton.mp he)))
    · exact .inr (.inr (.inr (self.mem_addPeer_snd he)))

/-! ### Dropped frames -/

/-- The frames `_handle_peer_message` drops before it writes: framing fails; the body is not
UTF-8 JSON; it is not an object; `node_id` is missing, false, a list or a dict, the node's own,
or already in `known_peers`. -/
def Dropped (known : List NodeId) (data : Bytes) : Prop :=
  splitFrame data = none ∨
  ∃ sig body, splitFrame data = some (sig, body) ∧
    ((∃ e, loadsBytes body = .error e) ∨
     ∃ desc, loadsBytes body = .ok desc ∧
       ((∃ e, desc.get "node_id" = .error e) ∨ desc.get "node_id" = .ok none ∨
        ∃ v, desc.get "node_id" = .ok (some v) ∧
          (v.truthy = false ∨ v.nodeId? = none ∨
            ∃ k, v.nodeId? = some k ∧
              ((∃ own, self.nodeDescriptor.get "node_id" = .ok own ∧ k.isOwn own = true) ∨
                k.PyMem known))))

theorem acceptFrame_of_dropped {known : List NodeId} {data : Bytes} (h : self.Dropped known data) :
    self.acceptFrame known data = none := by
  by_contra hne
  obtain ⟨⟨sig, desc, k⟩, hsome⟩ := Option.ne_none_iff_exists'.mp hne
  obtain ⟨body, v, own, hs, hl, hg, hv, ho, hk, hown, hmem⟩ := (self.acceptFrame_eq_some).mp hsome
  rcases h with h | ⟨sig', body', hs', h⟩
  · simp [hs] at h
  rw [hs] at hs'
  cases hs'
  rcases h with ⟨e, he⟩ | ⟨desc', hl', h⟩
  · simp [hl] at he
  rw [hl] at hl'
  cases hl'
  rcases h with ⟨e, he⟩ | h | ⟨v', hg', h⟩
  · simp [hg] at he
  · simp [hg] at h
  rw [hg] at hg'
  cases hg'
  rcases h with h | h | ⟨k', hk', ⟨own', ho', hown'⟩ | hmem'⟩
  · simp [hv] at h
  · simp [hk] at h
  · rw [hk] at hk'
    cases hk'
    rw [ho] at ho'
    cases ho'
    simp [hown] at hown'
  · rw [hk] at hk'
    cases hk'
    exact hmem hmem'

/-- A dropped frame returns normally with `known_peers` unchanged, no file opened and no
callback run. -/
theorem handlePeerMessage_dropped {known : List NodeId} {data : Bytes} (h : self.Dropped known data)
    (env : Env) : self.handlePeerMessage known data env = (known, []) := by
  simp [handlePeerMessage, self.acceptFrame_of_dropped h]

/-- The spec's scenario S6: a three-octet datagram. -/
theorem handlePeerMessage_dropped_short :
    (ofConfig DEFAULT_CONFIG (.obj [])).Dropped [] [0, 0, 0] ∧
      (ofConfig DEFAULT_CONFIG (.obj [])).handlePeerMessage [] [0, 0, 0] ⟨.ok, .ok, 0⟩ = ([], []) :=
  have h : (ofConfig DEFAULT_CONFIG (.obj [])).Dropped [] [0, 0, 0] := .inl rfl
  ⟨h, handlePeerMessage_dropped _ h _⟩

/-! ### The files a step opens -/

theorem peerPaths_isChild {s : PyStr} (h : PurePath.SafeName s) :
    PurePath.IsChild self.peersDir (self.peerDescriptorPath (.str s)) ∧
      PurePath.IsChild self.peersDir (self.peerSigPath (.str s)) :=
  ⟨PurePath.isChild_div _ (PurePath.isPart_of_safe h (by decide) (by decide)),
    PurePath.isChild_div _ (PurePath.isPart_of_safe h (by decide) (by decide))⟩

theorem handlePeerMessage_opens (known : List NodeId) (data : Bytes) (env : Env) :
    (∀ p bytes o, Effect.write p bytes o ∈ (self.handlePeerMessage known data env).2 →
        ∃ sig desc k, self.acceptFrame known data = some (sig, desc, k) ∧
          (p = self.peerDescriptorPath k ∨ p = self.peerSigPath k)) ∧
      (∀ argv, Effect.callback argv ∈ (self.handlePeerMessage known data env).2 →
        ∃ sig desc k, self.acceptFrame known data = some (sig, desc, k) ∧
          argv = self.callbackArgv k) ∧
      ∀ s, PurePath.SafeName s → PurePath.IsChild self.peersDir (self.peerDescriptorPath (.str s)) ∧
        PurePath.IsChild self.peersDir (self.peerSigPath (.str s)) := by
  refine ⟨fun p bytes o he => ?_, fun argv he => ?_, fun _ => self.peerPaths_isChild⟩
  · obtain ⟨sig, desc, k, hk, h⟩ := self.mem_handlePeerMessage he
    refine ⟨sig, desc, k, hk, ?_⟩
    rcases h with ⟨_, h⟩ | ⟨-, _, h⟩ | h | ⟨_, h⟩ <;> cases h
    · exact .inl rfl
    · exact .inr rfl
  · obtain ⟨sig, desc, k, hk, h⟩ := self.mem_handlePeerMessage he
    refine ⟨sig, desc, k, hk, ?_⟩
    rcases h with ⟨_, h⟩ | ⟨-, _, h⟩ | h | ⟨_, h⟩ <;> cases h
    rfl

theorem handlePeerMessage_opens_default :
    PurePath.SafeName "n1" ∧
      PurePath.IsChild (ofConfig DEFAULT_CONFIG (.obj [])).peersDir
        ((ofConfig DEFAULT_CONFIG (.obj [])).peerDescriptorPath (.str "n1")) ∧
      PurePath.IsChild (ofConfig DEFAULT_CONFIG (.obj [])).peersDir
        ((ofConfig DEFAULT_CONFIG (.obj [])).peerSigPath (.str "n1")) :=
  ⟨by decide, (handlePeerMessage_opens _ [] [] ⟨.ok, .ok, 0⟩).2.2 "n1" (by decide)⟩

/-- A node id whose file name `open` cannot turn into octets makes `open` raise, whatever the
system would answer: the step writes nothing, runs no callback and learns nothing. -/
theorem handlePeerMessage_unopenable {known : List NodeId} {data sig : Bytes} {desc : Json}
    {k : NodeId} (hk : self.acceptFrame known data = some (sig, desc, k))
    (hopen : (self.peerDescriptorPath k).toStr.canOpen = false) (env : Env) :
    self.handlePeerMessage known data env =
      (known, [.write (self.peerDescriptorPath k) (jsonBytes desc) .openFailed]) := by
  simp [handlePeerMessage, hk, openEnv, openOutcome, hopen]

/-- The node id `"\ud800"`, a lone high surrogate. -/
example : (ofConfig DEFAULT_CONFIG (.obj [])).handlePeerMessage []
      ([0, 0, 0, 0] ++ asciiBytes "\x7b\"node_id\": \"\\ud800\"\x7d") ⟨.ok, .ok, 0⟩ =
    ([], [.write
      ⟨"/", ["var", "lib", "infrasim", "peer-descriptors", PyChar.surrogate 0 :: PyStr.ofString ".json"]⟩
      (jsonBytes (.obj [("node_id", .str [.surrogate 0])])) .openFailed]) := by
  decide

/-- A peer announcing `node_id = "../x"` makes the default daemon write
`/var/lib/infrasim/peer-descriptors/../x.json`, which is not a direct child of `peers_dir`. -/
theorem handlePeerMessage_escapes_peers_dir :
    ∃ p bytes, Effect.write p bytes .ok ∈ ((ofConfig DEFAULT_CONFIG (.obj [])).handlePeerMessage []
        ([0, 0, 0, 0] ++ asciiBytes "\x7b\"node_id\": \"../x\"\x7d") ⟨.ok, .ok, 0⟩).2 ∧
      ¬ PurePath.IsChild (ofConfig DEFAULT_CONFIG (.obj [])).peersDir p :=
  ⟨⟨"/", ["var", "lib", "infrasim", "peer-descriptors", "..", "x.json"]⟩,
    jsonBytes (.obj [("node_id", .str "../x")]), by decide,
    fun h => absurd h.length (by decide)⟩

end RendezvousDaemon

end Rendezvous
