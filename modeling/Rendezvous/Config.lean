import Rendezvous.Text

/-!
# Configuration

Both scripts read `/etc/infrasim/rendezvous.conf` with the same `load_config`: start from a
dict of defaults; for every line, stripped, that is not empty, not a `#` comment and holds
an `=`, split it at the first `=`, strip the key, strip the value and then its surrounding
quotes (`value.strip().strip('"\'')`), and if the key is one of the defaults' keys store the
value, through `int()` when the default is an `int`. They differ only in their defaults:
the daemon's `DEFAULT_CONFIG` has nine keys, the client's dict five (`loadConfigWith` is the
shared body). `main()` then refuses a configuration whose `mesh_secret` is empty, and
nothing else.

## What is proved

* `loadConfigWith_kinds` — a loaded configuration has the defaults' keys, each holding a
  value of its default's type, so the daemon's typed reading of it (`RendezvousDaemon.ofConfig`)
  reads what `load_config` stored.
* `loadConfigWith_quoted`, `loadConfig_quoted` — a known key's line `k = "v"` or `k = 'v'`
  stores `v` less every quote character at its two ends, of either kind: `strip('"\'')` takes
  them all, not one wrapping pair. `loadConfig_strips_inner_quote`: `"s'"` gives `s`.
-/

namespace Rendezvous

/-- A configuration value: a `str` or an `int`. -/
inductive PyVal where
  /-- A `str`. -/
  | str (s : String)
  /-- An `int`. -/
  | int (n : ℤ)
  deriving DecidableEq, Repr

/-- `isinstance(v, int)`. -/
def PyVal.isInt : PyVal → Bool
  | .int _ => true
  | .str _ => false

/-- A configuration dict, as its items. -/
abbrev ConfigDict := List (String × PyVal)

/-- `config[key] = value`, for a key of the dict. -/
def ConfigDict.set : ConfigDict → String → PyVal → ConfigDict
  | [], _, _ => []
  | (k', v') :: d, k, v => if k' = k then (k', v) :: d else (k', v') :: ConfigDict.set d k v

/-- The daemon's `DEFAULT_CONFIG`. -/
def DEFAULT_CONFIG : ConfigDict :=
  [("mesh_secret", .str ""), ("epoch_seconds", .int 60), ("slots_per_epoch", .int 4),
    ("slot_duration_ms", .int 500), ("interface", .str "eth0"), ("max_peers", .int 64),
    ("peer_callback", .str "/usr/local/bin/apply-peers.sh add"),
    ("descriptor_path", .str "/etc/infrasim/node-descriptor.json"),
    ("peers_dir", .str "/var/lib/infrasim/peer-descriptors")]

/-- The client's defaults. -/
def clientDefaults : ConfigDict :=
  [("mesh_secret", .str ""), ("epoch_seconds", .int 60), ("slots_per_epoch", .int 4),
    ("interface", .str "eth0"), ("descriptor_path", .str "/etc/infrasim/node-descriptor.json")]

/-- `key.strip()`, after `key, value = line.split("=", 1)`. -/
def lineKey (line : String) : String := strip (splitOnce '=' line).1

/-- `value.strip().strip('"\'')`. -/
def lineValue (line : String) : String := stripChars ['"', '\''] (strip (splitOnce '=' line).2)

/-- Store the value of a `key = value` line under its key, if the key is known. -/
def storeLine (config : ConfigDict) (line : String) : Except PyError ConfigDict :=
  match config.lookup (lineKey line) with
  | some (.int _) => (fun n => config.set (lineKey line) (.int n)) <$> pyInt (lineValue line)
  | some (.str _) => .ok (config.set (lineKey line) (.str (lineValue line)))
  | none => .ok config

/-- The body of `load_config`'s loop for one line. -/
def loadLine (config : ConfigDict) (raw : String) : Except PyError ConfigDict :=
  if (strip raw).data = [] ∨ startsWith (strip raw) '#' then .ok config
  else if '=' ∈ (strip raw).data then storeLine config (strip raw)
  else .ok config

/-- `load_config` with the given defaults, on the file's text (`none` when it does not
exist). -/
def loadConfigWith (defaults : ConfigDict) : Option String → Except PyError ConfigDict
  | none => .ok defaults
  | some text => (fileLines text).foldlM loadLine defaults

/-- The daemon's `load_config`. -/
def loadConfig (file : Option String) : Except PyError ConfigDict :=
  loadConfigWith DEFAULT_CONFIG file

/-- The client's `load_config`. -/
def clientLoadConfig (file : Option String) : Except PyError ConfigDict :=
  loadConfigWith clientDefaults file

/-- `not config["mesh_secret"]`, which makes `main()` exit. -/
def ConfigDict.meshSecretMissing (d : ConfigDict) : Bool :=
  match d.lookup "mesh_secret" with
  | some (.str s) => s.isEmpty
  | _ => true

/-! ### Kinds -/

/-- `d` has the keys of `e`, each holding a value of the same type. -/
def SameKinds (d e : ConfigDict) : Prop := d.map (fun kv => (kv.1, kv.2.isInt)) = e.map (fun kv => (kv.1, kv.2.isInt))

theorem sameKinds_set {d e : ConfigDict} {k : String} {v w : PyVal} (h : SameKinds d e)
    (hk : d.lookup k = some w) (hv : v.isInt = w.isInt) : SameKinds (d.set k v) e := by
  unfold SameKinds at *
  rw [← h]
  clear h
  induction d with
  | nil => rfl
  | cons kv d ih =>
    obtain ⟨k', v'⟩ := kv
    by_cases hk' : k = k'
    · subst hk'
      simp only [List.lookup_cons, beq_self_eq_true, Option.some.injEq] at hk
      subst hk
      simp [ConfigDict.set, hv]
    · simp only [List.lookup_cons, show (k == k') = false from beq_false_of_ne hk'] at hk
      simp [ConfigDict.set, Ne.symm hk', ih hk]

theorem storeLine_kinds {d d' e : ConfigDict} {line : String} (h : SameKinds d e)
    (hs : storeLine d line = .ok d') : SameKinds d' e := by
  unfold storeLine at hs
  split at hs
  next _ _ hk =>
    obtain ⟨n, -, rfl⟩ := Except.map_eq_ok.mp hs
    exact sameKinds_set h hk rfl
  next _ _ hk =>
    cases hs
    exact sameKinds_set h hk rfl
  next => cases hs; exact h

theorem loadLine_kinds {d d' e : ConfigDict} {raw : String} (h : SameKinds d e)
    (hl : loadLine d raw = .ok d') : SameKinds d' e := by
  unfold loadLine at hl
  generalize strip raw = line at hl
  split_ifs at hl
  · cases hl; exact h
  · exact storeLine_kinds h hl
  · cases hl; exact h

/-- A loaded configuration keeps its defaults' keys and the types of their values. -/
theorem loadConfigWith_kinds {defaults d : ConfigDict} {file : Option String}
    (h : loadConfigWith defaults file = .ok d) : SameKinds d defaults := by
  cases file with
  | none => cases h; rfl
  | some text =>
    simp only [loadConfigWith] at h
    suffices ∀ (lines : List String) (c : ConfigDict), SameKinds c defaults →
        lines.foldlM loadLine c = .ok d → SameKinds d defaults from this _ _ rfl h
    intro lines
    induction lines with
    | nil => intro c hc hf; cases hf; exact hc
    | cons l ls ih =>
      intro c hc hf
      simp only [List.foldlM_cons] at hf
      cases hl : loadLine c l with
      | error e => simp [hl] at hf; cases hf
      | ok c' => simp [hl] at hf; exact ih c' (loadLine_kinds hc hl) hf

/-! ### Quoted values -/

/-- `config[key] = value` for a line's key and value text, as `storeLine` does it: through
`int()` when the key's default is an `int`, and nothing for an unknown key. -/
def ConfigDict.store (config : ConfigDict) (key value : String) : Except PyError ConfigDict :=
  match config.lookup key with
  | some (.int _) => (fun n => config.set key (.int n)) <$> pyInt value
  | some (.str _) => .ok (config.set key (.str value))
  | none => .ok config

theorem storeLine_eq_store (config : ConfigDict) (line : String) :
    storeLine config line = config.store (lineKey line) (lineValue line) := rfl

/-- A key a `key = value` line gives back whole: not empty, not starting a comment, and without
`=`, a line break or whitespace. -/
def PlainKey (k : String) : Prop :=
  k.data ≠ [] ∧ k.data.head? ≠ some '#' ∧
    ∀ c ∈ k.data, c ≠ '=' ∧ c ≠ '\n' ∧ c ≠ '\r' ∧ isSpace c = false

instance : DecidablePred PlainKey := fun _ => inferInstanceAs (Decidable (_ ∧ _ ∧ _))

theorem plainKey_of_mem_defaults {k : String} (h : k ∈ DEFAULT_CONFIG.map Prod.fst) : PlainKey k := by
  simp only [DEFAULT_CONFIG, List.map_cons, List.map_nil, List.mem_cons, List.mem_singleton,
    List.not_mem_nil, or_false] at h
  rcases h with rfl | rfl | rfl | rfl | rfl | rfl | rfl | rfl | rfl <;> decide

theorem plainKey_of_mem_clientDefaults {k : String} (h : k ∈ clientDefaults.map Prod.fst) :
    PlainKey k := by
  simp only [clientDefaults, List.map_cons, List.map_nil, List.mem_cons, List.mem_singleton,
    List.not_mem_nil, or_false] at h
  rcases h with rfl | rfl | rfl | rfl | rfl <;> decide

theorem data_quotedLine (k v : String) (q : Char) :
    (k ++ " = " ++ q.toString ++ v ++ q.toString).data =
      k.data ++ ' ' :: '=' :: ' ' :: q :: (v.data ++ [q]) := by
  simp [Char.toString, String.singleton]

theorem getLast?_quotedLine (k v : String) (q : Char) :
    (k ++ " = " ++ q.toString ++ v ++ q.toString).data.getLast? = some q := by
  simp [Char.toString, String.singleton, List.getLast?_cons]

theorem PlainKey.head {k : String} (hk : PlainKey k) : ∀ c ∈ k.data.head?, isSpace c = false :=
  fun c hc => (hk.2.2 c (List.mem_of_mem_head? hc)).2.2.2

theorem PlainKey.last {k : String} (hk : PlainKey k) : ∀ c ∈ k.data.getLast?, isSpace c = false :=
  fun c hc => (hk.2.2 c (List.mem_of_mem_getLast? hc)).2.2.2

section Quoted

variable {k v : String} {q : Char} (hk : PlainKey k) (hq : q = '"' ∨ q = '\'')
include hk hq

theorem strip_quotedLine :
    strip (k ++ " = " ++ q.toString ++ v ++ q.toString) = k ++ " = " ++ q.toString ++ v ++ q.toString := by
  apply stripBy_eq_self
  · rw [data_quotedLine, List.head?_append_of_ne_nil _ hk.1]
    exact hk.head
  · rw [getLast?_quotedLine]
    rintro c ⟨⟩
    rcases hq with rfl | rfl <;> rfl

omit hq in
theorem lineKey_quotedLine : lineKey (k ++ " = " ++ q.toString ++ v ++ q.toString) = k := by
  have hne : ∀ c ∈ k.data, decide (c ≠ '=') = true := fun c hc => by simpa using (hk.2.2 c hc).1
  have htake : ∀ rest, List.takeWhile (fun c => decide (c ≠ '=')) (' ' :: '=' :: rest) = [' '] :=
    fun _ => rfl
  rw [lineKey, splitOnce, data_quotedLine, List.takeWhile_append_of_pos hne, htake]
  exact stripBy_append_singleton rfl hk.head hk.last

theorem lineValue_quotedLine :
    lineValue (k ++ " = " ++ q.toString ++ v ++ q.toString) = stripChars ['"', '\''] v := by
  have hne : ∀ c ∈ k.data, decide (c ≠ '=') = true := fun c hc => by simpa using (hk.2.2 c hc).1
  have hdrop : ∀ rest, List.dropWhile (fun c => decide (c ≠ '=')) (' ' :: '=' :: rest) = '=' :: rest :=
    fun _ => rfl
  have hquote : isSpace q = false := by rcases hq with rfl | rfl <;> rfl
  have hwrapped : strip ⟨q :: (v.data ++ [q])⟩ = ⟨q :: (v.data ++ [q])⟩ := by
    apply stripBy_eq_self
    · rintro c ⟨⟩; exact hquote
    · rw [← List.cons_append, List.getLast?_concat]
      rintro c ⟨⟩; exact hquote
  rw [lineValue, splitOnce, data_quotedLine, List.dropWhile_append_of_pos hne, hdrop, List.drop_one,
    List.tail_cons, strip, stripBy_cons rfl, ← strip, hwrapped, stripChars, ← List.cons_append,
    stripBy_wrap (by rcases hq with rfl | rfl <;> rfl)]
  rfl

/-- A known key's line `k = "v"` (or `k = 'v'`), `v` on one line, stores `v` less every quote
character at its two ends. -/
theorem loadConfigWith_quoted {defaults : ConfigDict} (hv : '\n' ∉ v.data ∧ '\r' ∉ v.data) :
    loadConfigWith defaults (some (k ++ " = " ++ q.toString ++ v ++ q.toString)) =
      defaults.store k (stripChars ['"', '\''] v) := by
  have hbreak : ∀ c ∈ (k ++ " = " ++ q.toString ++ v ++ q.toString).data, c ≠ '\n' ∧ c ≠ '\r' := by
    have hq' : q ≠ '\n' ∧ q ≠ '\r' := by rcases hq with rfl | rfl <;> decide
    intro c hc
    rw [data_quotedLine] at hc
    simp only [List.mem_append, List.mem_cons, List.mem_singleton, List.not_mem_nil, or_false] at hc
    rcases hc with hc | rfl | rfl | rfl | rfl | hc | rfl
    · exact ⟨(hk.2.2 c hc).2.1, (hk.2.2 c hc).2.2.1⟩
    · decide
    · decide
    · decide
    · exact hq'
    · exact ⟨fun h => hv.1 (h ▸ hc), fun h => hv.2 (h ▸ hc)⟩
    · exact hq'
  have hlines := fileLines_single (fun h => (hbreak _ h).1 rfl) (fun h => (hbreak _ h).2 rfl)
  have hkeep : ¬((k ++ " = " ++ q.toString ++ v ++ q.toString).data = [] ∨
      startsWith (k ++ " = " ++ q.toString ++ v ++ q.toString) '#' = true) := by
    rw [startsWith, data_quotedLine, List.head?_append_of_ne_nil _ hk.1]
    simpa using hk.2.1
  have heq : '=' ∈ (k ++ " = " ++ q.toString ++ v ++ q.toString).data := by
    rw [data_quotedLine]; simp
  simp only [loadConfigWith, hlines, List.foldlM_cons, List.foldlM_nil, loadLine, strip_quotedLine hk hq,
    if_neg hkeep, if_pos heq, storeLine_eq_store, lineKey_quotedLine hk, lineValue_quotedLine hk hq, bind_pure]

end Quoted

/-- Both `load_config`s read the line `k = "v"` or `k = 'v'`, for a known key `k` and a value `v`
on one line, as `v` less every quote character at its two ends (through `int()` for an
integer key): exactly `v` when `v` neither begins nor ends with one. -/
theorem loadConfig_quoted {k v : String} {q : Char} (hq : q = '"' ∨ q = '\'')
    (hv : '\n' ∉ v.data ∧ '\r' ∉ v.data) :
    (k ∈ DEFAULT_CONFIG.map Prod.fst → loadConfig (some (k ++ " = " ++ q.toString ++ v ++ q.toString)) =
        DEFAULT_CONFIG.store k (stripChars ['"', '\''] v)) ∧
      (k ∈ clientDefaults.map Prod.fst →
        clientLoadConfig (some (k ++ " = " ++ q.toString ++ v ++ q.toString)) =
          clientDefaults.store k (stripChars ['"', '\''] v)) ∧
      ((∀ c ∈ v.data.head?, c ≠ '"' ∧ c ≠ '\'') → (∀ c ∈ v.data.getLast?, c ≠ '"' ∧ c ≠ '\'') →
        stripChars ['"', '\''] v = v) := by
  refine ⟨fun hk => loadConfigWith_quoted (plainKey_of_mem_defaults hk) hq hv,
    fun hk => loadConfigWith_quoted (plainKey_of_mem_clientDefaults hk) hq hv, fun h₁ h₂ => ?_⟩
  apply stripBy_eq_self
  · intro c hc; simp [(h₁ c hc).1, (h₁ c hc).2]
  · intro c hc; simp [(h₂ c hc).1, (h₂ c hc).2]

/-- The configuration's own key, in double quotes. -/
theorem loadConfig_quoted_mesh_secret :
    ("mesh_secret" ∈ DEFAULT_CONFIG.map Prod.fst →
        loadConfig (some ("mesh_secret" ++ " = " ++ '"'.toString ++ "abc" ++ '"'.toString)) =
          DEFAULT_CONFIG.store "mesh_secret" (stripChars ['"', '\''] "abc")) ∧
      ("mesh_secret" ∈ clientDefaults.map Prod.fst →
        clientLoadConfig (some ("mesh_secret" ++ " = " ++ '"'.toString ++ "abc" ++ '"'.toString)) =
          clientDefaults.store "mesh_secret" (stripChars ['"', '\''] "abc")) ∧
      ((∀ c ∈ "abc".data.head?, c ≠ '"' ∧ c ≠ '\'') → (∀ c ∈ "abc".data.getLast?, c ≠ '"' ∧ c ≠ '\'') →
        stripChars ['"', '\''] "abc" = "abc") :=
  loadConfig_quoted (.inl rfl) (by decide)

/-- `mesh_secret = "s\x27"`: a double-quoted value ending in a single quote; both `load_config`s
store `s`. -/
theorem loadConfig_strips_inner_quote :
    ∃ d e, loadConfig (some "mesh_secret = \"s\x27\"\n") = .ok d ∧ d.lookup "mesh_secret" = some (.str "s") ∧
      clientLoadConfig (some "mesh_secret = \"s\x27\"\n") = .ok e ∧ e.lookup "mesh_secret" = some (.str "s") :=
  ⟨_, _, rfl, rfl, rfl, rfl⟩

end Rendezvous
