import Rendezvous.Json

/-!
# The wire frame

Both broadcasters, the daemon's `_broadcast_descriptor` and the client's
`broadcast_descriptor`, build the datagram

    message = struct.pack(">I", len(signature)) + signature + descriptor_json

(`frameMessage`). The daemon's `_handle_peer_message` reads it back as

    if len(data) < 4: return
    sig_len = struct.unpack(">I", data[:4])[0]
    if len(data) < 4 + sig_len: return
    signature = data[4:4 + sig_len]
    descriptor_json = data[4 + sig_len:]

(`splitFrame`), and the client's `discover_peers` makes the same two checks but keeps only
`descriptor_json` (`discoverFrameBody`).

## What is proved

* `frame_codec` — the daemon's reader returns exactly the signature and the body of every
  frame built from a signature shorter than `2 ^ 32` octets, and the client's reader the
  body; both accept a byte string exactly when it has four octets and the length they
  declare; and what the daemon's reader extracts is framed back into the same bytes.
* `discoverFrameBody_eq` — the client's reader is the daemon's, with the signature dropped.
-/

namespace Rendezvous

/-- The datagram both broadcasters send. -/
def frameMessage (signature descriptorJson : Bytes) : Except PyError Bytes :=
  (packI signature.length).map (· ++ signature ++ descriptorJson)

/-- The framing step of `_handle_peer_message`: the signature and the descriptor bytes. -/
def splitFrame (data : Bytes) : Option (Bytes × Bytes) :=
  if data.length < 4 then none
  else if data.length < 4 + unpackI (data.take 4) then none
  else some ((data.drop 4).take (unpackI (data.take 4)), data.drop (4 + unpackI (data.take 4)))

/-- The framing step of `discover_peers`: the descriptor bytes. -/
def discoverFrameBody (data : Bytes) : Option Bytes :=
  if data.length < 4 then none
  else if data.length < 4 + unpackI (data.take 4) then none
  else some (data.drop (4 + unpackI (data.take 4)))

/-- A byte string carries a whole frame: four octets, and as many more as they declare. -/
def FrameFits (data : Bytes) : Prop := 4 ≤ data.length ∧ 4 + unpackI (data.take 4) ≤ data.length

instance (data : Bytes) : Decidable (FrameFits data) := inferInstanceAs (Decidable (_ ∧ _))

theorem frameMessage_ok {s b : Bytes} (h : s.length < 2 ^ 32) :
    frameMessage s b = .ok (beBytes 4 s.length ++ s ++ b) := by
  have h' : (s.length : ℤ) < 2 ^ 32 := by exact_mod_cast h
  simp only [frameMessage, packI, if_pos (And.intro (Int.natCast_nonneg _) h'), Int.toNat_natCast]
  rfl

theorem splitFrame_eq_some {data s b : Bytes} :
    splitFrame data = some (s, b) ↔ FrameFits data ∧
      s = (data.drop 4).take (unpackI (data.take 4)) ∧ b = data.drop (4 + unpackI (data.take 4)) := by
  unfold splitFrame FrameFits
  split_ifs <;> simp_all [eq_comm]

theorem discoverFrameBody_eq (data : Bytes) :
    discoverFrameBody data = (splitFrame data).map Prod.snd := by
  unfold discoverFrameBody splitFrame
  split_ifs <;> rfl

theorem isSome_splitFrame (data : Bytes) : (splitFrame data).isSome ↔ FrameFits data := by
  unfold splitFrame FrameFits
  split_ifs <;> simp <;> omega

/-- Framing a signature and a body, then reading the frame, gives them back. -/
theorem splitFrame_frame {s b : Bytes} (h : s.length < 2 ^ 32) :
    splitFrame (beBytes 4 s.length ++ s ++ b) = some (s, b) := by
  have hhead : (beBytes 4 s.length ++ s ++ b).take 4 = beBytes 4 s.length := by
    simp [List.append_assoc, List.take_append_of_le_length]
  have hlen : unpackI (beBytes 4 s.length) = s.length := beNat_beBytes (by omega)
  rw [splitFrame_eq_some, FrameFits, hhead, hlen]
  simp [List.append_assoc, List.drop_append_eq_append_drop]

/-- The signature and body the reader extracts frame back into the bytes it read. -/
theorem frame_splitFrame {data s b : Bytes} (h : splitFrame data = some (s, b)) :
    frameMessage s b = .ok data := by
  obtain ⟨⟨h4, hfit⟩, rfl, rfl⟩ := splitFrame_eq_some.mp h
  have hhead : (data.take 4).length = 4 := by simp; omega
  have hs : ((data.drop 4).take (unpackI (data.take 4))).length = unpackI (data.take 4) := by
    simp; omega
  have hb : beBytes 4 (unpackI (data.take 4)) = data.take 4 := by
    have := beBytes_beNat (data.take 4)
    rw [hhead] at this
    exact this
  rw [frameMessage_ok (by rw [hs]; exact unpackI_lt hhead), hs, hb, List.append_assoc,
    ← List.drop_drop, List.take_append_drop, List.take_append_drop]

theorem frame_codec :
    (∀ s b : Bytes, s.length < 2 ^ 32 → ∃ x, frameMessage s b = .ok x ∧
        splitFrame x = some (s, b) ∧ discoverFrameBody x = some b) ∧
    ∀ x : Bytes, ((splitFrame x).isSome ↔ FrameFits x) ∧
      ((discoverFrameBody x).isSome ↔ FrameFits x) ∧
      ∀ s b, splitFrame x = some (s, b) → frameMessage s b = .ok x := by
  refine ⟨fun s b h => ⟨_, frameMessage_ok h, splitFrame_frame h, ?_⟩, fun x =>
    ⟨isSome_splitFrame x, ?_, fun _ _ => frame_splitFrame⟩⟩
  · rw [discoverFrameBody_eq, splitFrame_frame h]; rfl
  · simp [discoverFrameBody_eq, isSome_splitFrame]

/-- The frame of the spec's scenario S2: a three-octet signature and `{"node_id":"n1"}`. -/
theorem frame_codec_s2 :
    [0, 1, 2].length < 2 ^ 32 ∧ ∃ x, frameMessage [0, 1, 2] (asciiBytes "\x7b\"node_id\":\"n1\"\x7d") = .ok x ∧
      splitFrame x = some ([0, 1, 2], asciiBytes "\x7b\"node_id\":\"n1\"\x7d") ∧
      discoverFrameBody x = some (asciiBytes "\x7b\"node_id\":\"n1\"\x7d") :=
  ⟨by decide, frame_codec.1 _ _ (by decide)⟩

example : (frameMessage [0, 1, 2] (asciiBytes "\x7b\"node_id\":\"n1\"\x7d")).toOption.map List.length =
    some 23 := by decide

end Rendezvous
