import Rendezvous.Config
import Rendezvous.Json
import Rendezvous.PurePath
import Rendezvous.Clock

/-!
# The daemon's fixed fields

`RendezvousDaemon.__init__` copies nine configuration values into attributes, loads the
node's own descriptor, and starts with an empty `known_peers`, `running = True` and no
`current_socket`. The attributes it never changes afterwards form `RendezvousDaemon` here;
the ones it changes are the state of the learner (`Learner`) and of the slot loop, each in
its own module.

`main()` builds the daemon from `load_config`'s dict once `mesh_secret` is non-empty; the
typed reading `ofConfig` reads what `load_config` stored there
(`lookup_int_of_loadConfig`).
-/

namespace Rendezvous

/-- `config[key]` for a key holding an `int`. -/
def ConfigDict.int (d : ConfigDict) (k : String) : ℤ :=
  match d.lookup k with
  | some (.int n) => n
  | _ => 0

/-- `config[key]` for a key holding a `str`. -/
def ConfigDict.str (d : ConfigDict) (k : String) : String :=
  match d.lookup k with
  | some (.str s) => s
  | _ => ""

/-- `_load_descriptor()`: `{}` when the file does not exist, else `json.load(f)`. -/
def loadDescriptor : Option String → Except PyError Json
  | none => .ok (.obj [])
  | some text => loads text

/-- The attributes `__init__` sets once. -/
structure RendezvousDaemon where
  /-- `config["mesh_secret"]` (encoded to bytes where it is used). -/
  meshSecret : String
  /-- `self.epoch_seconds`. -/
  epochSeconds : ℤ
  /-- `self.slots_per_epoch`. -/
  slotsPerEpoch : ℤ
  /-- `self.slot_duration_ms`. -/
  slotDurationMs : ℤ
  /-- `self.interface`. -/
  interface : String
  /-- `self.max_peers`. -/
  maxPeers : ℤ
  /-- `self.peer_callback`. -/
  peerCallback : String
  /-- `self.descriptor_path`. -/
  descriptorPath : PurePath
  /-- `self.peers_dir`. -/
  peersDir : PurePath
  /-- `self.node_descriptor`. -/
  nodeDescriptor : Json

namespace RendezvousDaemon

/-- `RendezvousDaemon(config)`, given what `_load_descriptor` returned. -/
def ofConfig (config : ConfigDict) (nodeDescriptor : Json) : RendezvousDaemon where
  meshSecret := config.str "mesh_secret"
  epochSeconds := config.int "epoch_seconds"
  slotsPerEpoch := config.int "slots_per_epoch"
  slotDurationMs := config.int "slot_duration_ms"
  interface := config.str "interface"
  maxPeers := config.int "max_peers"
  peerCallback := config.str "peer_callback"
  descriptorPath := PurePath.parse (config.str "descriptor_path")
  peersDir := PurePath.parse (config.str "peers_dir")
  nodeDescriptor := nodeDescriptor

/-- `_get_epoch_slot()`, reading the clock `now`. -/
def getEpochSlot (self : RendezvousDaemon) (now : ℚ) : Except PyError (ℤ × ℤ) :=
  epochSlotAt self.epochSeconds self.slotsPerEpoch now

end RendezvousDaemon

theorem lookup_int_of_sameKinds {d e : ConfigDict} (h : SameKinds d e) (k : String) {m : ℤ}
    (hk : e.lookup k = some (.int m)) : d.lookup k = some (.int (d.int k)) := by
  unfold SameKinds at h
  induction e generalizing d with
  | nil => simp at hk
  | cons kv e ih =>
    obtain ⟨k', v'⟩ := kv
    match d, h with
    | (k'', v'') :: d, h =>
      simp only [List.map_cons, List.cons.injEq, Prod.mk.injEq] at h
      obtain ⟨⟨rfl, hkind⟩, hrest⟩ := h
      by_cases hkk : k = k''
      · subst hkk
        simp only [List.lookup_cons, beq_self_eq_true, Option.some.injEq] at hk
        subst hk
        cases v'' with
        | int n => simp [ConfigDict.int, List.lookup_cons]
        | str s => simp [PyVal.isInt] at hkind
      · simp only [List.lookup_cons, show (k == k'') = false from beq_false_of_ne hkk] at hk
        simpa [ConfigDict.int, List.lookup_cons, show (k == k'') = false from beq_false_of_ne hkk]
          using ih hrest hk

/-- Every `int` key of `DEFAULT_CONFIG` holds, after `load_config`, the `int` the daemon reads
there. -/
theorem lookup_int_of_loadConfig {file : Option String} {d : ConfigDict}
    (h : loadConfig file = .ok d) (k : String) {m : ℤ} (hk : DEFAULT_CONFIG.lookup k = some (.int m)) :
    d.lookup k = some (.int (d.int k)) :=
  lookup_int_of_sameKinds (loadConfigWith_kinds h) k hk

end Rendezvous
