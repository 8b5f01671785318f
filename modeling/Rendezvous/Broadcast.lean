import Rendezvous.JsonCodec
import Rendezvous.Runs
import Rendezvous.Discover

/-!
# From a broadcast to the peer files

The daemon's `_broadcast_descriptor` and the client's `broadcast_descriptor` send

    message = struct.pack(">I", len(signature)) + signature + json.dumps(descriptor).encode()

for the descriptor `json.load` read from the descriptor file. A daemon's
`_handle_peer_message` splits the frame, decodes the body, reads it with `json.loads`, checks
its `node_id`, and writes `json.dump(descriptor, f, indent=2)` and the signature into
`peers_dir`; the client's `discover_peers` appends the descriptor it reads.

## The model

`descriptorJson` is `json.dumps(descriptor).encode()`: the text is ASCII (`encode_ascii`,
which is what `ensure_ascii=True` is for), so its UTF-8 octets are its characters'.
`RendezvousDaemon.broadcastDescriptor` is the datagram `_broadcast_descriptor` hands to
`sendto`; `broadcastMessage` the steps of `broadcast_descriptor` from `json.load(f)` to
`message`. The network is assumed to deliver a datagram unchanged or not at all.

## What is proved

* `broadcast_delivered` — a daemon reads what the client sends as exactly the client's
  signature and descriptor, and accepts it exactly when the descriptor passes its `node_id`
  checks (`Admits`); the client's `discover_peers` appends that descriptor.
* `broadcastDescriptor_delivered` — the daemon sends the datagram the client sends for the same
  descriptor file, with the same guarantee.
* `filesAfter_broadcasts` — over any run that hears only broadcasts, every file in `peers_dir`
  holds a prefix of a broadcast descriptor's JSON text, which reads back as that descriptor,
  or of its signature.

## What is not formalized

The sockets, `add_address`, the interface index and the prints; what the network does to a
datagram beyond delivering or dropping it.
-/

namespace Rendezvous

/-! ### `ensure_ascii`: the text is ASCII -/

/-- Every character is ASCII. -/
def IsAscii (cs : List Char) : Prop := ∀ c ∈ cs, c.toNat < 128

instance (cs : List Char) : Decidable (IsAscii cs) := inferInstanceAs (Decidable (∀ c ∈ cs, _))

@[simp] theorem isAscii_nil : IsAscii [] := fun _ h => absurd h (List.not_mem_nil _)

@[simp] theorem isAscii_cons {c : Char} {cs : List Char} : IsAscii (c :: cs) ↔ c.toNat < 128 ∧ IsAscii cs :=
  List.forall_mem_cons

@[simp] theorem isAscii_append {a b : List Char} : IsAscii (a ++ b) ↔ IsAscii a ∧ IsAscii b :=
  List.forall_mem_append

theorem isAscii_of_isDigit {cs : List Char} (h : ∀ c ∈ cs, c.isDigit = true) : IsAscii cs := fun c hc => by
  have := h c hc
  simp only [Char.isDigit, Bool.and_eq_true, decide_eq_true_eq] at this
  exact lt_of_le_of_lt this.2 (by norm_num)

theorem isAscii_sublist {a b : List Char} (h : List.Sublist a b) (hb : IsAscii b) : IsAscii a :=
  fun c hc => hb c (h.subset hc)

theorem isAscii_replicate (n : ℕ) {c : Char} (hc : c.toNat < 128) : IsAscii (List.replicate n c) :=
  fun _ h => (List.eq_of_mem_replicate h) ▸ hc

theorem hexDigit_ascii : ∀ d < 16,
    (if d < 10 then Char.ofNat (d + '0'.toNat) else Char.ofNat (d - 10 + 'a'.toNat)).toNat < 128 := by
  decide

theorem hexDigits4_ascii (n : ℕ) : IsAscii (hexDigits4 n) := by
  simp only [hexDigits4, List.map_cons, List.map_nil, isAscii_cons, isAscii_nil, and_true]
  exact ⟨hexDigit_ascii _ (Nat.mod_lt _ (by norm_num)), hexDigit_ascii _ (Nat.mod_lt _ (by norm_num)),
    hexDigit_ascii _ (Nat.mod_lt _ (by norm_num)), hexDigit_ascii _ (Nat.mod_lt _ (by norm_num))⟩

theorem escapeChar_ascii (c : Char) : IsAscii (escapeChar c) := by
  unfold escapeChar
  split
  all_goals try decide
  split_ifs with hp
  · simp only [isAscii_cons, isAscii_nil, and_true]
    exact lt_of_le_of_lt hp.2 (by decide)
  · simp only [isAscii_cons, hexDigits4_ascii]
    decide
  · simp only [isAscii_cons, isAscii_append, hexDigits4_ascii]
    decide

theorem escapeCodePoint_ascii (c : PyChar) : IsAscii (escapeCodePoint c) := by
  cases c with
  | char c => exact escapeChar_ascii c
  | surrogate n =>
    simp only [escapeCodePoint, isAscii_cons, hexDigits4_ascii]
    decide

theorem encodeString_ascii (s : PyStr) : IsAscii (encodeString s) := by
  have hq : ('"' : Char).toNat < 128 := by decide
  have hb : IsAscii (s.flatMap escapeCodePoint) := fun x hx => by
    obtain ⟨c, -, hc⟩ := List.mem_flatMap.mp hx
    exact escapeCodePoint_ascii c x hc
  simp only [encodeString, isAscii_cons, isAscii_append, isAscii_nil, and_true, hq, hb]

theorem toString_int_ascii (n : ℤ) : IsAscii (toString n).data := by
  rw [toString_int_data]
  have := isAscii_of_isDigit (toDigits_spec n.natAbs).2.1
  split_ifs
  · exact isAscii_cons.mpr ⟨by decide, this⟩
  · exact this

theorem expText_ascii (x : ℤ) : IsAscii (PyFloat.expText x).data := by
  have hd := isAscii_of_isDigit (toDigits_spec x.natAbs).2.1
  have hs : IsAscii (if x < 0 then "-" else "+").data := by split_ifs <;> decide
  have hz : IsAscii (if x.natAbs < 10 then "0" else "").data := by split_ifs <;> decide
  simp only [PyFloat.expText, String.data_append, isAscii_append]
  exact ⟨⟨hs, hz⟩, hd⟩

theorem formatShort_ascii {ds : List Char} (hd : IsAscii ds) (decpt : ℤ) :
    IsAscii (PyFloat.formatShort ds decpt).data := by
  have hz : ('0' : Char).toNat < 128 := by decide
  have hdot : ('.' : Char).toNat < 128 := by decide
  have he : ('e' : Char).toNat < 128 := by decide
  have hrep : ∀ n, IsAscii (List.replicate n '0') := fun n => isAscii_replicate n hz
  have htake : ∀ n, IsAscii (ds.take n) := fun n => isAscii_sublist (List.take_sublist n ds) hd
  have hdrop : ∀ n, IsAscii (ds.drop n) := fun n => isAscii_sublist (List.drop_sublist n ds) hd
  unfold PyFloat.formatShort
  split_ifs <;> simp only [isAscii_cons, isAscii_append, isAscii_nil, hz, hdot, he, hrep, htake, hdrop,
    hd, expText_ascii, and_self]

theorem jsonText_ascii (x : PyFloat) : IsAscii x.jsonText.data := by
  cases x with
  | nan => decide
  | inf neg => cases neg <;> decide
  | finite neg m =>
    show IsAscii (PyFloat.repr _).data
    rw [PyFloat.repr, String.data_append, isAscii_append]
    refine ⟨by cases neg <;> decide, ?_⟩
    split_ifs
    · decide
    · refine formatShort_ascii (isAscii_sublist ?_ (toString_int_ascii (PyFloat.shortest m).1)) _
      exact (List.reverse_sublist.mpr (List.dropWhile_sublist _)).trans (by rw [List.reverse_reverse])

theorem newlineIndent_ascii (indent : Bool) (lvl : ℕ) : IsAscii (newlineIndent indent lvl) :=
  fun c hc => by
    have := newlineIndent_ws indent lvl c hc
    simp only [isJsonWs, Bool.or_eq_true, beq_iff_eq] at this
    rcases this with ((rfl | rfl) | rfl) | rfl <;> decide

theorem itemSep_ascii (indent : Bool) (lvl : ℕ) : IsAscii (itemSep indent lvl) := by
  cases indent
  · exact (by decide : IsAscii [',', ' '])
  · exact isAscii_cons.mpr ⟨by decide, newlineIndent_ascii true lvl⟩

theorem encodeElems_ascii {indent : Bool} {lvl : ℕ} {xs : List Json}
    (h : ∀ x ∈ xs, IsAscii (encode indent lvl x)) : IsAscii (encodeElems indent lvl xs) := by
  induction xs with
  | nil => exact isAscii_nil
  | cons x xs ih =>
    rw [encodeElems, isAscii_append, isAscii_append]
    exact ⟨⟨itemSep_ascii indent lvl, h x (List.mem_cons_self _ _)⟩,
      ih fun y hy => h y (List.mem_cons_of_mem _ hy)⟩

theorem encodeMembers_ascii {indent : Bool} {lvl : ℕ} {kvs : List (PyStr × Json)}
    (h : ∀ kv ∈ kvs, IsAscii (encode indent lvl kv.2)) : IsAscii (encodeMembers indent lvl kvs) := by
  induction kvs with
  | nil => exact isAscii_nil
  | cons kv kvs ih =>
    obtain ⟨k, v⟩ := kv
    simp only [encodeMembers, isAscii_append, itemSep_ascii, encodeString_ascii,
      h (k, v) (List.mem_cons_self _ _), ih fun y hy => h y (List.mem_cons_of_mem _ hy), and_true]
    decide

/-- `json.dumps` with `ensure_ascii=True` writes ASCII only. -/
theorem encode_ascii {v : Json} (hv : v.WF) : ∀ indent lvl, IsAscii (encode indent lvl v) := by
  induction hv with
  | null => exact fun _ _ => (by decide : IsAscii "null".data)
  | bool b =>
    intro _ _
    cases b
    exacts [(by decide : IsAscii "false".data), (by decide : IsAscii "true".data)]
  | int => exact fun _ _ => toString_int_ascii _
  | float => exact fun _ _ => jsonText_ascii _
  | str => exact fun _ _ => encodeString_ascii _
  | arr h ih =>
    rename_i xs
    intro indent lvl
    cases xs with
    | nil => exact (by decide : IsAscii ['[', ']'])
    | cons x xs =>
      simp only [encode, isAscii_cons, isAscii_append, newlineIndent_ascii,
        ih x (List.mem_cons_self _ _), encodeElems_ascii fun y hy => ih y (List.mem_cons_of_mem _ hy) _ _,
        and_true]
      decide
  | obj hk hks h ih =>
    rename_i kvs
    intro indent lvl
    cases kvs with
    | nil => exact (by decide : IsAscii ['{', '}'])
    | cons kv kvs =>
      obtain ⟨k, v⟩ := kv
      simp only [encode, isAscii_cons, isAscii_append, newlineIndent_ascii, encodeString_ascii,
        ih (k, v) (List.mem_cons_self _ _),
        encodeMembers_ascii fun y hy => ih y (List.mem_cons_of_mem _ hy) _ _, and_true]
      decide

/-! ### `bytes.decode()` of ASCII text -/

theorem utf8Chars_cons_ascii {b : UInt8} (hb : b.toNat < 0x80) (bs : Bytes) :
    utf8Chars (b :: bs) = (Char.ofNat b.toNat :: ·) <$> utf8Chars bs := by
  delta utf8Chars
  dsimp only [List.brecOn, List.rec]
  rw [if_pos hb]

theorem utf8Chars_ascii {cs : List Char} (h : IsAscii cs) :
    utf8Chars (cs.map fun c => UInt8.ofNat c.toNat) = .ok cs := by
  induction cs with
  | nil => rfl
  | cons c cs ih =>
    obtain ⟨hc, hcs⟩ := isAscii_cons.mp h
    have hb : (UInt8.ofNat c.toNat).toNat = c.toNat := by rw [UInt8.toNat_ofNat_eq]; omega
    rw [List.map_cons, utf8Chars_cons_ascii (by rw [hb]; exact hc), ih hcs, hb, Char.ofNat_toNat]
    rfl

theorem decodeUtf8_asciiBytes {s : String} (h : IsAscii s.data) : decodeUtf8 (asciiBytes s) = .ok s := by
  rw [decodeUtf8, asciiBytes, utf8Chars_ascii h]
  rfl

/-- The octets of `json.dumps(v)` and of `json.dump(v, f, indent=2)`, decoded and read with
`json.loads`, give back `v`. -/
theorem loadsBytes_encode {v : Json} (hv : v.WF) (indent : Bool) :
    loadsBytes (asciiBytes ⟨encode indent 0 v⟩) = .ok v := by
  simp only [loadsBytes, decodeUtf8_asciiBytes (encode_ascii hv indent 0), bind, Except.bind]
  exact loads_encode hv indent

/-! ### The broadcasters -/

/-- `json.dumps(descriptor).encode()`: the text is ASCII (`encode_ascii`), so its UTF-8 octets
are its characters'. -/
def descriptorJson (descriptor : Json) : Bytes := asciiBytes (dumps descriptor)

namespace RendezvousDaemon

/-- `_broadcast_descriptor(addr, port)`, given what the signature file holds (`b""` when it
does not exist): the datagram handed to `sendto`, or `none` when it returns at
`if not self.node_descriptor` or catches the `struct.error` of an oversized signature. -/
def broadcastDescriptor (self : RendezvousDaemon) (signature : Bytes) : Option Bytes :=
  if self.nodeDescriptor.truthy then (frameMessage signature (descriptorJson self.nodeDescriptor)).toOption
  else none

/-- The checks `_handle_peer_message` makes on a descriptor it has read: its `node_id` is true
and hashable, not the node's own and not yet known. -/
def Admits (self : RendezvousDaemon) (known : List NodeId) (descriptor : Json) (k : NodeId) : Prop :=
  ∃ v own, descriptor.get "node_id" = .ok (some v) ∧ v.truthy = true ∧
    self.nodeDescriptor.get "node_id" = .ok own ∧ v.nodeId? = some k ∧ k.isOwn own = false ∧
    ¬ k.PyMem known

end RendezvousDaemon

/-- The client's `broadcast_descriptor` from `json.load(f)` to `message`, given the descriptor
file's text and what the signature file holds: the datagram, or the exception raised. -/
def broadcastMessage (descriptorText : String) (signature : Bytes) : Except PyError Bytes := do
  let descriptor ← loads descriptorText
  frameMessage signature (descriptorJson descriptor)

theorem loadsBytes_descriptorJson {d : Json} (hd : d.WF) : loadsBytes (descriptorJson d) = .ok d :=
  loadsBytes_encode hd false

theorem loadsBytes_jsonBytes {d : Json} (hd : d.WF) : loadsBytes (jsonBytes d) = .ok d :=
  loadsBytes_encode hd true

theorem frameMessage_eq_ok {s b x : Bytes} :
    frameMessage s b = .ok x ↔ s.length < 2 ^ 32 ∧ x = beBytes 4 s.length ++ s ++ b := by
  by_cases h : s.length < 2 ^ 32
  · rw [frameMessage_ok h, Except.ok.injEq]
    exact ⟨fun hx => ⟨h, hx.symm⟩, fun hx => hx.2.symm⟩
  · have h' : ¬((0 : ℤ) ≤ s.length ∧ (s.length : ℤ) < 2 ^ 32) := fun h' => h (by exact_mod_cast h'.2)
    have herr : frameMessage s b = .error .structError := by
      simp only [frameMessage, packI, if_neg h']
      rfl
    rw [herr]
    exact ⟨fun hx => (nomatch hx), fun hx => absurd hx.1 h⟩

/-- The daemon frames its descriptor as the client frames the descriptor file it reads. -/
theorem broadcastDescriptor_eq {self : RendezvousDaemon} {file : Option String}
    (hload : loadDescriptor file = .ok self.nodeDescriptor) {sig data : Bytes}
    (h : self.broadcastDescriptor sig = some data) :
    ∃ text, file = some text ∧ broadcastMessage text sig = .ok data := by
  unfold RendezvousDaemon.broadcastDescriptor at h
  split_ifs at h with ht
  cases file with
  | none =>
    rw [← (Except.ok.inj hload : Json.obj [] = _)] at ht
    cases ht
  | some text =>
    refine ⟨text, rfl, ?_⟩
    rw [loadDescriptor] at hload
    simp only [broadcastMessage, hload, bind, Except.bind]
    exact Except.toOption_eq_some.mp h

/-- The receiving daemon reads a broadcast frame as exactly the sender's signature and
descriptor, and accepts it exactly when the descriptor passes its `node_id` checks. -/
theorem acceptFrame_broadcast {d : Json} (hd : d.WF) {sig data : Bytes}
    (h : frameMessage sig (descriptorJson d) = .ok data) (B : RendezvousDaemon) (known : List NodeId)
    {sig' : Bytes} {d' : Json} {k : NodeId} :
    B.acceptFrame known data = some (sig', d', k) ↔ sig' = sig ∧ d' = d ∧ B.Admits known d k := by
  obtain ⟨hs, rfl⟩ := frameMessage_eq_ok.mp h
  rw [RendezvousDaemon.acceptFrame_eq_some, splitFrame_frame hs]
  constructor
  · rintro ⟨body, v, own, hsplit, hl, hg, hv, ho, hk, hown, hmem⟩
    obtain ⟨rfl, rfl⟩ := Prod.mk.inj (Option.some.inj hsplit)
    rw [loadsBytes_descriptorJson hd] at hl
    cases hl
    exact ⟨rfl, rfl, v, own, hg, hv, ho, hk, hown, hmem⟩
  · rintro ⟨rfl, rfl, v, own, hg, hv, ho, hk, hown, hmem⟩
    exact ⟨_, v, own, rfl, loadsBytes_descriptorJson hd, hg, hv, ho, hk, hown, hmem⟩

theorem broadcastMessage_eq_ok {text : String} {sig data : Bytes} :
    broadcastMessage text sig = .ok data ↔
      ∃ d, loads text = .ok d ∧ frameMessage sig (descriptorJson d) = .ok data := by
  constructor
  · intro h
    rcases hl : loads text with e | d <;> simp only [broadcastMessage, hl, bind, Except.bind] at h
    · exact nomatch h
    · exact ⟨d, rfl, h⟩
  · rintro ⟨d, hl, hf⟩
    simp only [broadcastMessage, hl, bind, Except.bind]
    exact hf

/-- What the daemon's `_broadcast_descriptor` sends is what the client's `broadcast_descriptor`
sends for the descriptor file the daemon loaded, and a receiving daemon reads it as exactly the
sender's signature and descriptor, accepting it exactly when that descriptor passes its
`node_id` checks. -/
theorem broadcastDescriptor_delivered {A : RendezvousDaemon} {file : Option String}
    (hload : loadDescriptor file = .ok A.nodeDescriptor) {sig data : Bytes}
    (h : A.broadcastDescriptor sig = some data) :
    ∃ text, file = some text ∧ broadcastMessage text sig = .ok data ∧
      ∀ (B : RendezvousDaemon) known sig' d' k, B.acceptFrame known data = some (sig', d', k) ↔
        sig' = sig ∧ d' = A.nodeDescriptor ∧ B.Admits known A.nodeDescriptor k := by
  obtain ⟨text, rfl, hb⟩ := broadcastDescriptor_eq hload h
  obtain ⟨d, hl, hf⟩ := broadcastMessage_eq_ok.mp hb
  rw [loadDescriptor, hl] at hload
  cases hload
  exact ⟨text, rfl, hb, fun B known _ _ _ => acceptFrame_broadcast (wf_of_loads hl) hf B known⟩

/-- The default daemon with the descriptor `{"node_id": "n1"}` and no signature file. -/
theorem broadcastDescriptor_delivered_n1 :
    loadDescriptor (some "\x7b\"node_id\": \"n1\"\x7d") = .ok (RendezvousDaemon.ofConfig DEFAULT_CONFIG (.obj [("node_id", .str "n1")])).nodeDescriptor ∧
      (RendezvousDaemon.ofConfig DEFAULT_CONFIG (.obj [("node_id", .str "n1")])).broadcastDescriptor [] =
        some ([0, 0, 0, 0] ++ asciiBytes "\x7b\"node_id\": \"n1\"\x7d") ∧
      ∃ text, some "\x7b\"node_id\": \"n1\"\x7d" = some text ∧ broadcastMessage text [] = .ok ([0, 0, 0, 0] ++ asciiBytes "\x7b\"node_id\": \"n1\"\x7d") ∧
        ∀ (B : RendezvousDaemon) known sig' d' k,
          B.acceptFrame known ([0, 0, 0, 0] ++ asciiBytes "\x7b\"node_id\": \"n1\"\x7d") = some (sig', d', k) ↔
            sig' = [] ∧ d' = (RendezvousDaemon.ofConfig DEFAULT_CONFIG (.obj [("node_id", .str "n1")])).nodeDescriptor ∧
              B.Admits known (RendezvousDaemon.ofConfig DEFAULT_CONFIG (.obj [("node_id", .str "n1")])).nodeDescriptor k :=
  have hl : loadDescriptor (some "\x7b\"node_id\": \"n1\"\x7d") =
      .ok (RendezvousDaemon.ofConfig DEFAULT_CONFIG (.obj [("node_id", .str "n1")])).nodeDescriptor := by rfl
  have hb : (RendezvousDaemon.ofConfig DEFAULT_CONFIG (.obj [("node_id", .str "n1")])).broadcastDescriptor [] =
      some ([0, 0, 0, 0] ++ asciiBytes "\x7b\"node_id\": \"n1\"\x7d") := by rfl
  ⟨hl, hb, broadcastDescriptor_delivered hl hb⟩

namespace RendezvousDaemon

variable (self : RendezvousDaemon)

/-- The peers directory after any run of a daemon that hears only broadcasts: every file holds
a prefix of what one of them carried, the JSON text of the descriptor the broadcaster loaded,
which `json.load` reads back as that descriptor, or its non-empty signature. -/
theorem filesAfter_broadcasts {tr : List Entry}
    (hsent : ∀ x ∈ tr, ∃ text sig, broadcastMessage text sig = .ok x.2.1) {p : PurePath} {c : Bytes}
    (hc : self.filesAfter tr p = some c) :
    ∃ x ∈ tr, ∃ text sig d k, broadcastMessage text sig = .ok x.2.1 ∧ loads text = .ok d ∧
      self.Admits x.1 d k ∧
      ((p = self.peerDescriptorPath k ∧ c <+: jsonBytes d ∧ loadsBytes (jsonBytes d) = .ok d) ∨
        (p = self.peerSigPath k ∧ sig ≠ [] ∧ c <+: sig)) := by
  rcases foldl_applyEffect_eq_some hc with h | ⟨data, o, hmem, hpre⟩
  · cases h
  obtain ⟨x, hx, he⟩ := List.mem_flatMap.mp hmem
  obtain ⟨sig', desc, k, hk, hwrite⟩ := self.mem_handlePeerMessage he
  obtain ⟨text, sig, hb⟩ := hsent x hx
  obtain ⟨d, hl, hf⟩ := broadcastMessage_eq_ok.mp hb
  have hd := wf_of_loads hl
  obtain ⟨rfl, rfl, hadm⟩ := (acceptFrame_broadcast hd hf self x.1).mp hk
  refine ⟨x, hx, text, sig', desc, k, hb, hl, hadm, ?_⟩
  rcases hwrite with ⟨_, hw⟩ | ⟨hsig, _, hw⟩ | hw | ⟨_, hw⟩ <;> cases hw
  · exact .inl ⟨rfl, hpre, loadsBytes_jsonBytes hd⟩
  · exact .inr ⟨rfl, hsig, hpre⟩

/-- One broadcast of `{"node_id": "a"}` heard by the default daemon and written completely. -/
theorem filesAfter_broadcasts_single :
    (∀ x ∈ [(([] : List NodeId), [0, 0, 0, 0] ++ asciiBytes "\x7b\"node_id\": \"a\"\x7d", (⟨.ok, .ok, 0⟩ : Env))],
      ∃ text sig, broadcastMessage text sig = .ok x.2.1) ∧
    (ofConfig DEFAULT_CONFIG (.obj [])).filesAfter
        [([], [0, 0, 0, 0] ++ asciiBytes "\x7b\"node_id\": \"a\"\x7d", ⟨.ok, .ok, 0⟩)]
        ((ofConfig DEFAULT_CONFIG (.obj [])).peerDescriptorPath (.str "a")) =
      some (jsonBytes (.obj [("node_id", .str "a")])) ∧
    ∃ x ∈ [(([] : List NodeId), [0, 0, 0, 0] ++ asciiBytes "\x7b\"node_id\": \"a\"\x7d", (⟨.ok, .ok, 0⟩ : Env))],
      ∃ text sig d k, broadcastMessage text sig = .ok x.2.1 ∧ loads text = .ok d ∧
        (ofConfig DEFAULT_CONFIG (.obj [])).Admits x.1 d k ∧
        (((ofConfig DEFAULT_CONFIG (.obj [])).peerDescriptorPath (.str "a") =
            (ofConfig DEFAULT_CONFIG (.obj [])).peerDescriptorPath k ∧
            jsonBytes (.obj [("node_id", .str "a")]) <+: jsonBytes d ∧ loadsBytes (jsonBytes d) = .ok d) ∨
          ((ofConfig DEFAULT_CONFIG (.obj [])).peerDescriptorPath (.str "a") =
            (ofConfig DEFAULT_CONFIG (.obj [])).peerSigPath k ∧ sig ≠ [] ∧
            jsonBytes (.obj [("node_id", .str "a")]) <+: sig)) :=
  have hs : ∀ x ∈ [(([] : List NodeId), [0, 0, 0, 0] ++ asciiBytes "\x7b\"node_id\": \"a\"\x7d", (⟨.ok, .ok, 0⟩ : Env))],
      ∃ text sig, broadcastMessage text sig = .ok x.2.1 := fun x hx => by
    rw [List.mem_singleton.mp hx]
    exact ⟨"\x7b\"node_id\": \"a\"\x7d", [], rfl⟩
  have hc : (ofConfig DEFAULT_CONFIG (.obj [])).filesAfter
      [([], [0, 0, 0, 0] ++ asciiBytes "\x7b\"node_id\": \"a\"\x7d", ⟨.ok, .ok, 0⟩)]
      ((ofConfig DEFAULT_CONFIG (.obj [])).peerDescriptorPath (.str "a")) =
    some (jsonBytes (.obj [("node_id", .str "a")])) := by decide
  ⟨hs, hc, filesAfter_broadcasts _ hs hc⟩

end RendezvousDaemon

end Rendezvous
