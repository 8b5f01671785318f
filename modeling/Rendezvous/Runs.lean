import Rendezvous.Learner

/-!
# Runs of the learner

A run hands `_handle_peer_message` datagrams one after another, from the empty
`known_peers` of `__init__`, each with whatever the operating system answers and whichever
element `pop()` takes (`Run`). The trace records, for each step, `known_peers` before it,
the datagram and the answers, so that what the step did is `stepEffects`. The files in the
peers directory are what the writes of the trace left there (`filesAfter`), starting from an
empty directory.

## What is proved

* `known_peers_bounded` — with `max_peers ≥ 0`, every reachable `known_peers` has at most
  `max_peers` elements, and each of them was inserted by a step that wrote its descriptor,
  and its signature when it had one, completely.
* `callback_once` — in a run without eviction the callback runs at most once per node id
  (as a set tells them apart: `==`, or the one `nan` object), once in its step, and only after
  that step's writes completed.
* `filesAfter_from_frames` — every file holds a prefix of what one frame naming it carried:
  the JSON text of its descriptor, or its non-empty signature.
* `peer_files_mix_frames` — writes are neither atomic nor paired: a signature write that
  fails halfway, then the same peer without a signature, leave a complete descriptor beside
  a truncated signature of another frame.
-/

namespace Rendezvous

namespace RendezvousDaemon

variable (self : RendezvousDaemon)

/-- One handled datagram: `known_peers` before it, the datagram, the environment's answers. -/
abbrev Entry := List NodeId × Bytes × Env

/-- What the step of an entry did. -/
def stepEffects (x : Entry) : List Effect := (self.handlePeerMessage x.1 x.2.1 x.2.2).2

/-- The learner, from an empty `known_peers`, handled the entries of the trace in order and
holds `known`. -/
inductive Run : List NodeId → List Entry → Prop
  /-- `__init__`: `self.known_peers = set()`. -/
  | nil : Run [] []
  /-- One more datagram. -/
  | step {known : List NodeId} {tr : List Entry} (data : Bytes) (env : Env) :
      Run known tr → Run (self.handlePeerMessage known data env).1 (tr ++ [(known, data, env)])

/-! ### The bound on `known_peers` -/

/-- The step of `x` inserted `k` after writing its files completely. -/
def InsertedBy (k : NodeId) (x : Entry) : Prop :=
  ∃ sig desc, self.acceptFrame x.1 x.2.1 = some (sig, desc, k) ∧
    Effect.write (self.peerDescriptorPath k) (jsonBytes desc) .ok ∈ self.stepEffects x ∧
    (sig ≠ [] → Effect.write (self.peerSigPath k) sig .ok ∈ self.stepEffects x)

theorem known_peers_bounded (hmax : 0 ≤ self.maxPeers) {known : List NodeId} {tr : List Entry}
    (h : self.Run known tr) :
    (known.length : ℤ) ≤ self.maxPeers ∧ ∀ k ∈ known, ∃ x ∈ tr, self.InsertedBy k x := by
  induction h with
  | nil => exact ⟨by simpa using hmax, fun _ h => absurd h (List.not_mem_nil _)⟩
  | @step known tr data env _ ih =>
    obtain ⟨hlen, hins⟩ := ih
    have lift : ∀ k ∈ known, ∃ x ∈ tr ++ [(known, data, env)], self.InsertedBy k x :=
      fun k hk => (hins k hk).imp fun x ⟨hx, hi⟩ => ⟨List.mem_append_left _ hx, hi⟩
    rcases self.handlePeerMessage_cases known data env with
      ⟨-, h⟩ | ⟨sig, desc, k, hk, ⟨-, h⟩ | ⟨-, -, -, h⟩ | ⟨-, -, h⟩⟩ <;> rw [h]
    iterate 3 exact ⟨hlen, lift⟩
    refine ⟨self.length_addPeer_le hlen, fun k' hk' => ?_⟩
    rcases self.mem_addPeer hk' with rfl | hk'
    · refine ⟨(known, data, env), by simp, sig, desc, hk, ?_, fun hsig => ?_⟩
      · simp [stepEffects, h, completeWrites]
      · simp [stepEffects, h, completeWrites, hsig]
    · exact lift k' hk'

/-- The spec's scenario S5: with `max_peers = 2`, `n1`, `n2`, `n3` heard in order leave two
known peers, each written by the step that inserted it. -/
theorem known_peers_bounded_capacity :
    ∃ known tr, ({ ofConfig DEFAULT_CONFIG (.obj []) with maxPeers := 2 } : RendezvousDaemon).Run known tr ∧
      known.length = 2 ∧ (known.length : ℤ) ≤ 2 ∧
      ∀ k ∈ known, ∃ x ∈ tr, ({ ofConfig DEFAULT_CONFIG (.obj []) with maxPeers := 2 } : RendezvousDaemon).InsertedBy k x := by
  have h : ({ ofConfig DEFAULT_CONFIG (.obj []) with maxPeers := 2 } : RendezvousDaemon).Run _ _ :=
    .step ([0, 0, 0, 0] ++ asciiBytes "\x7b\"node_id\": \"n3\"\x7d") ⟨.ok, .ok, 0⟩
      (.step ([0, 0, 0, 0] ++ asciiBytes "\x7b\"node_id\": \"n2\"\x7d") ⟨.ok, .ok, 0⟩
        (.step ([0, 0, 0, 0] ++ asciiBytes "\x7b\"node_id\": \"n1\"\x7d") ⟨.ok, .ok, 0⟩ .nil))
  exact ⟨_, _, h, by decide, known_peers_bounded _ (by decide) h⟩

/-! ### The callback -/

/-- The step of `x` ran the callback for the node id `k`. -/
def CalledBack (k : NodeId) (x : Entry) : Prop :=
  (∃ argv, Effect.callback argv ∈ self.stepEffects x) ∧ ∃ sig desc, self.acceptFrame x.1 x.2.1 = some (sig, desc, k)

/-- A step that runs the callback reached the end of the writes: both were complete, and the
callback comes right after them. -/
theorem stepEffects_of_callback {x : Entry} {argv : List PyStr}
    (h : Effect.callback argv ∈ self.stepEffects x) :
    ∃ sig desc k, self.acceptFrame x.1 x.2.1 = some (sig, desc, k) ∧
      argv = self.callbackArgv k ∧
      self.stepEffects x = self.completeWrites k sig desc ++ .callback argv ::
        (self.addPeer x.1 k x.2.2.pick).2 := by
  rcases self.handlePeerMessage_cases x.1 x.2.1 x.2.2 with
    ⟨-, he⟩ | ⟨sig, desc, k, hk, ⟨-, he⟩ | ⟨-, -, -, he⟩ | ⟨-, -, he⟩⟩ <;>
    simp only [stepEffects, he, List.mem_append] at h ⊢
  iterate 3 simp at h
  refine ⟨sig, desc, k, hk, ?_⟩
  have hc : Effect.callback argv ∈ self.callbackEffects k := by
    rcases h with (h | h) | h
    · simp [completeWrites] at h
    · exact h
    · obtain ⟨_, h⟩ := self.mem_addPeer_snd h
      cases h
  unfold callbackEffects at hc ⊢
  split_ifs at hc ⊢
  · cases hc
  · obtain rfl := Effect.callback.inj (List.mem_singleton.mp hc)
    exact ⟨rfl, by simp⟩

/-- A step from fewer than `max_peers` peers evicts none. -/
theorem not_evict_of_lt {known : List NodeId} {data : Bytes} {env : Env}
    (h : (known.length + 1 : ℤ) ≤ self.maxPeers) (k : NodeId) :
    Effect.evict k ∉ self.stepEffects (known, data, env) := by
  intro hk
  have hnil : ∀ k', (self.addPeer known k' env.pick).2 = [] := fun k' => by
    unfold addPeer
    rw [if_neg (by push_cast; omega)]
  rcases self.handlePeerMessage_cases known data env with
    ⟨-, he⟩ | ⟨sig, desc, k', -, ⟨-, he⟩ | ⟨-, -, -, he⟩ | ⟨-, -, he⟩⟩ <;>
    simp only [stepEffects, he, hnil, List.append_nil] at hk
  iterate 3 simp at hk
  simp [completeWrites, callbackEffects] at hk

/-- Without an eviction a step only adds to `known_peers`, and a step that ran the callback
added its node id. -/
theorem known_grows {known : List NodeId} {data : Bytes} {env : Env}
    (hno : ∀ k', Effect.evict k' ∉ self.stepEffects (known, data, env)) :
    (∀ k ∈ known, k ∈ (self.handlePeerMessage known data env).1) ∧
      ∀ k, self.CalledBack k (known, data, env) → k ∈ (self.handlePeerMessage known data env).1 := by
  rcases self.handlePeerMessage_cases known data env with
    ⟨-, h⟩ | ⟨sig, desc, k, hk, ⟨-, h⟩ | ⟨-, -, -, h⟩ | ⟨-, -, h⟩⟩
  -- a dropped frame or a failed write: `known_peers` stays and no callback ran
  iterate 3 exact ⟨fun _ hk => by rwa [h], fun _ ⟨⟨_, hcb⟩, _⟩ => by simp [stepEffects, h] at hcb⟩
  have hnil := self.addPeer_snd_eq_nil fun k' hk' => hno k' (by
    rw [stepEffects, h]
    exact List.mem_append_right _ hk')
  rw [h, self.addPeer_of_not_evict hnil]
  refine ⟨fun _ => List.mem_cons_of_mem _, fun k' ⟨_, _, _, hk'⟩ => ?_⟩
  have := hk'.symm.trans hk
  simp only [Option.some.injEq, Prod.mk.injEq] at this
  rw [this.2.2]
  exact List.mem_cons_self _ _

theorem callback_once {known : List NodeId} {tr : List Entry} (h : self.Run known tr)
    (hno : ∀ x ∈ tr, ∀ k, Effect.evict k ∉ self.stepEffects x) :
    tr.Pairwise (fun x y => ∀ k k', self.CalledBack k x → self.CalledBack k' y → ¬ NodeId.sameInSet k k') ∧
      ∀ x ∈ tr, ∀ argv, Effect.callback argv ∈ self.stepEffects x →
        ∃ sig desc k, self.acceptFrame x.1 x.2.1 = some (sig, desc, k) ∧
          argv = self.callbackArgv k ∧
          ∃ rest, self.stepEffects x = self.completeWrites k sig desc ++ .callback argv :: rest ∧
            ∀ e ∈ rest, ∃ k', e = .evict k' := by
  refine ⟨?_, fun x _ argv hcb => ?_⟩
  · suffices tr.Pairwise (fun x y => ∀ k k', self.CalledBack k x → self.CalledBack k' y →
        ¬ NodeId.sameInSet k k') ∧ ∀ x ∈ tr, ∀ k, self.CalledBack k x → k ∈ known from this.1
    induction h with
    | nil => simp
    | @step known tr data env _ ih =>
      obtain ⟨hpw, hmem⟩ := ih fun x hx => hno x (List.mem_append_left _ hx)
      obtain ⟨hgrow, hnew⟩ :=
        self.known_grows (hno _ (List.mem_append_right _ (List.mem_singleton_self _)))
      refine ⟨List.pairwise_append.mpr ⟨hpw, List.pairwise_singleton _ _, ?_⟩, fun x hx k hxk => ?_⟩
      · rintro x hx y hy k k' hxk ⟨-, _, _, hk'⟩ hpy
        rw [List.mem_singleton] at hy
        subst hy
        exact self.not_pyMem_of_acceptFrame hk' ⟨k, hmem x hx k hxk, hpy⟩
      · rcases List.mem_append.mp hx with hx | hx
        · exact hgrow k (hmem x hx k hxk)
        · rw [List.mem_singleton.mp hx] at hxk
          exact hnew k hxk
  · obtain ⟨sig, desc, k, hk, hargv, he⟩ := self.stepEffects_of_callback hcb
    exact ⟨sig, desc, k, hk, hargv, _, he, fun _ => self.mem_addPeer_snd⟩

/-- The default daemon hears `n1` twice, below `max_peers`: no step evicts, and no two steps
ran the callback for one node id. -/
theorem callback_once_repeated :
    ∃ known tr, (ofConfig DEFAULT_CONFIG (.obj [])).Run known tr ∧
      (∀ x ∈ tr, ∀ k, Effect.evict k ∉ (ofConfig DEFAULT_CONFIG (.obj [])).stepEffects x) ∧
      tr.Pairwise (fun x y => ∀ k k', (ofConfig DEFAULT_CONFIG (.obj [])).CalledBack k x →
        (ofConfig DEFAULT_CONFIG (.obj [])).CalledBack k' y → ¬ NodeId.sameInSet k k') := by
  obtain ⟨known, tr, h, hno⟩ : ∃ known tr, (ofConfig DEFAULT_CONFIG (.obj [])).Run known tr ∧
      ∀ x ∈ tr, ∀ k, Effect.evict k ∉ (ofConfig DEFAULT_CONFIG (.obj [])).stepEffects x := by
    refine ⟨_, _, .step ([0, 0, 0, 0] ++ asciiBytes "\x7b\"node_id\": \"n1\"\x7d") ⟨.ok, .ok, 0⟩
      (.step ([0, 0, 0, 0] ++ asciiBytes "\x7b\"node_id\": \"n1\"\x7d") ⟨.ok, .ok, 0⟩ .nil), ?_⟩
    intro x hx k
    simp only [List.nil_append, List.mem_append, List.mem_singleton] at hx
    rcases hx with rfl | rfl <;> exact not_evict_of_lt _ (by decide) k
  exact ⟨known, tr, h, hno, (callback_once _ h hno).1⟩

/-! ### The files in `peers_dir` -/

/-- What the writes left at each path; `none` where there is no file. -/
abbrev Files := PurePath → Option Bytes

/-- The files after one effect: `open(…, "w")` truncates, then what reached the file stays. -/
def applyEffect (fs : Files) : Effect → Files
  | .write p data .ok => Function.update fs p (some data)
  | .write _ _ .openFailed => fs
  | .write p data (.failedAfter n) => Function.update fs p (some (data.take n))
  | .callback _ => fs
  | .evict _ => fs

/-- The files after the steps of a trace, from an empty directory. -/
def filesAfter (tr : List Entry) : Files :=
  (tr.flatMap self.stepEffects).foldl applyEffect fun _ => none

theorem applyEffect_eq_some {fs : Files} {e : Effect} {p : PurePath} {c : Bytes}
    (h : applyEffect fs e p = some c) :
    fs p = some c ∨ ∃ data o, e = .write p data o ∧ c <+: data := by
  rcases e with ⟨q, data, _ | _ | n⟩ | _ | _ <;> simp only [applyEffect] at h
  · rw [Function.update_apply] at h
    split_ifs at h with hq
    · cases h
      exact .inr ⟨c, .ok, by rw [hq], List.prefix_refl _⟩
    · exact .inl h
  · exact .inl h
  · rw [Function.update_apply] at h
    split_ifs at h with hq
    · cases h
      exact .inr ⟨data, _, by rw [hq], List.take_prefix _ _⟩
    · exact .inl h
  · exact .inl h
  · exact .inl h

/-- A file after a sequence of effects was there before, or holds a prefix of what one write
to it meant to put there. -/
theorem foldl_applyEffect_eq_some {es : List Effect} {fs : Files} {p : PurePath} {c : Bytes}
    (h : es.foldl applyEffect fs p = some c) :
    fs p = some c ∨ ∃ data o, Effect.write p data o ∈ es ∧ c <+: data := by
  induction es generalizing fs with
  | nil => exact .inl h
  | cons e es ih =>
    rcases ih h with h | ⟨data, o, hmem, hc⟩
    · rcases applyEffect_eq_some h with h | ⟨data, o, rfl, hc⟩
      · exact .inl h
      · exact .inr ⟨data, o, List.mem_cons_self _ _, hc⟩
    · exact .inr ⟨data, o, List.mem_cons_of_mem _ hmem, hc⟩

theorem filesAfter_from_frames {tr : List Entry} {p : PurePath} {c : Bytes}
    (hc : self.filesAfter tr p = some c) :
    ∃ x ∈ tr, ∃ sig desc k, self.acceptFrame x.1 x.2.1 = some (sig, desc, k) ∧
      ((p = self.peerDescriptorPath k ∧ c <+: jsonBytes desc) ∨
        (p = self.peerSigPath k ∧ sig ≠ [] ∧ c <+: sig)) := by
  rcases foldl_applyEffect_eq_some hc with h | ⟨data, o, hmem, hpre⟩
  · cases h
  obtain ⟨x, hx, he⟩ := List.mem_flatMap.mp hmem
  obtain ⟨sig, desc, k, hk, h⟩ := self.mem_handlePeerMessage he
  refine ⟨x, hx, sig, desc, k, hk, ?_⟩
  rcases h with ⟨_, h⟩ | ⟨hsig, _, h⟩ | h | ⟨_, h⟩ <;> cases h
  · exact .inl ⟨rfl, hpre⟩
  · exact .inr ⟨rfl, hsig, hpre⟩

/-- One frame from `a`, written completely: its descriptor file holds what it carried. -/
theorem filesAfter_from_frames_single :
    (ofConfig DEFAULT_CONFIG (.obj [])).filesAfter
        [([], [0, 0, 0, 0] ++ asciiBytes "\x7b\"node_id\": \"a\"\x7d", ⟨.ok, .ok, 0⟩)]
        ((ofConfig DEFAULT_CONFIG (.obj [])).peerDescriptorPath (.str "a")) =
      some (jsonBytes (.obj [("node_id", .str "a")])) ∧
    ∃ x ∈ [(([] : List NodeId), [0, 0, 0, 0] ++ asciiBytes "\x7b\"node_id\": \"a\"\x7d",
        (⟨.ok, .ok, 0⟩ : Env))], ∃ sig desc k,
      (ofConfig DEFAULT_CONFIG (.obj [])).acceptFrame x.1 x.2.1 = some (sig, desc, k) ∧
      (((ofConfig DEFAULT_CONFIG (.obj [])).peerDescriptorPath (.str "a") =
          (ofConfig DEFAULT_CONFIG (.obj [])).peerDescriptorPath k ∧
          jsonBytes (.obj [("node_id", .str "a")]) <+: jsonBytes desc) ∨
        ((ofConfig DEFAULT_CONFIG (.obj [])).peerDescriptorPath (.str "a") =
          (ofConfig DEFAULT_CONFIG (.obj [])).peerSigPath k ∧ sig ≠ [] ∧
          jsonBytes (.obj [("node_id", .str "a")]) <+: sig)) :=
  have h : (ofConfig DEFAULT_CONFIG (.obj [])).filesAfter
      [([], [0, 0, 0, 0] ++ asciiBytes "\x7b\"node_id\": \"a\"\x7d", ⟨.ok, .ok, 0⟩)]
      ((ofConfig DEFAULT_CONFIG (.obj [])).peerDescriptorPath (.str "a")) =
    some (jsonBytes (.obj [("node_id", .str "a")])) := by decide
  ⟨h, filesAfter_from_frames _ h⟩

/-- The default daemon hears `a` with the signature `01 02`, whose write fails after one
octet, then `a` again without a signature. `a.json` is then complete, and beside it stays an
`a.json.sig` holding `01`: neither frame's signature. -/
theorem peer_files_mix_frames :
    ∃ known tr, (ofConfig DEFAULT_CONFIG (.obj [])).Run known tr ∧
      (ofConfig DEFAULT_CONFIG (.obj [])).filesAfter tr
          ((ofConfig DEFAULT_CONFIG (.obj [])).peerDescriptorPath (.str "a")) =
        some (jsonBytes (.obj [("node_id", .str "a")])) ∧
      ¬ ∃ x ∈ tr, ∃ sig desc,
        (ofConfig DEFAULT_CONFIG (.obj [])).acceptFrame x.1 x.2.1 = some (sig, desc, .str "a") ∧
        jsonBytes (.obj [("node_id", .str "a")]) = jsonBytes desc ∧
        (((ofConfig DEFAULT_CONFIG (.obj [])).filesAfter tr
          ((ofConfig DEFAULT_CONFIG (.obj [])).peerSigPath (.str "a"))).isSome ↔ sig ≠ []) ∧
        (sig ≠ [] → (ofConfig DEFAULT_CONFIG (.obj [])).filesAfter tr
          ((ofConfig DEFAULT_CONFIG (.obj [])).peerSigPath (.str "a")) = some sig) := by
  refine ⟨_, _, .step ([0, 0, 0, 0] ++ asciiBytes "\x7b\"node_id\": \"a\"\x7d") ⟨.ok, .ok, 0⟩
    (.step ([0, 0, 0, 2, 1, 2] ++ asciiBytes "\x7b\"node_id\": \"a\"\x7d") ⟨.ok, .failedAfter 1, 0⟩
      .nil), by decide, ?_⟩
  rintro ⟨x, hx, sig, desc, hk, -, hiff, hsig⟩
  simp only [List.nil_append, List.mem_append, List.mem_singleton] at hx
  have hsig' := congrArg (Option.map Prod.fst) hk
  rw [Option.map_some'] at hsig'
  rcases hx with rfl | rfl
  · -- the first frame carried `01 02`, and the file holds `01`
    obtain rfl : sig = [1, 2] := Option.some.inj (hsig'.symm.trans (by decide))
    revert hiff hsig
    decide
  · -- the second frame carried none, and the file is there
    obtain rfl : sig = [] := Option.some.inj (hsig'.symm.trans (by decide))
    revert hiff hsig
    decide

end RendezvousDaemon

end Rendezvous
