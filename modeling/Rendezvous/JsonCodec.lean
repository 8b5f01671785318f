import Rendezvous.Numeral
import Mathlib.Tactic.IntervalCases
import Mathlib.Data.List.DropRight

/-!
# `json.loads(json.dumps(v)) == v`

The daemon writes a descriptor with `json.dumps` (the UDP frame) and with
`json.dump(…, indent=2)` (the peer file); the learner and the client read both with
`json.loads`. This module shows the reader gets back exactly the value the writer was given,
for every value `json.loads` could itself have produced (`Json.WF`: integers of at most 4300
digits, doubles, distinct keys, and no string holding a high surrogate right before a low one,
which `json.dumps` writes as the escapes of one character).

## The model

`ReadsBack indent v` says that `scan_once`, given more fuel than the text is long, reads the
text `encode indent lvl v` back as `v`, after any whitespace and before any text that cannot
continue a number. The proof follows the encoder: one lemma per kind of value, and for a list
or a dict an induction over the items after the first (`parseElements_encode`,
`parseMembers_encode`), the fuel paid for by the text each item takes.

Strings go through `py_encode_basestring_ascii`: every code point comes back from its escape
(`scanString_escapeCodePoint`), a printable one as itself, one outside ASCII as `\uXXXX` or as a
surrogate pair, a lone surrogate as the escape of its code unit, which the scanner reads back
alone when no low surrogate escape follows (`noLowNext_escape`).

## What is proved

* `readsBack_of_wf` — every well-formed value reads back from its text, in both layouts.
* `loads_dumps` — `json.loads` inverts `json.dumps` and `json.dump(…, indent=2)`.
* `wf_of_loads` — `json.loads` returns only well-formed values: by induction on the fuel, over
  the three mutually recursive readers (`parsesWF`).
* `loads_dumps_loads` — so what is written back from a value `json.loads` returned reads back
  as that value.
-/

namespace Rendezvous

/-! ### Strings -/

/-- A printable ASCII character other than `"` and `\` passes through the string scanner.
The scanner's tests on the character decide only on a literal, so the proof goes through the
ninety-five printable characters one by one. -/
theorem scanString_plain {c : Char} (hp : ' ' ≤ c ∧ c ≤ '~') (h1 : c ≠ '"') (h2 : c ≠ '\\')
    (cs : List Char) (acc : PyStr) : scanString (c :: cs) acc = scanString cs (.char c :: acc) := by
  have hc : c = Char.ofNat (32 + (c.toNat - 32)) := by
    have : 32 ≤ c.toNat := hp.1
    rw [Nat.add_sub_cancel' this, Char.ofNat_toNat]
  have hk : c.toNat - 32 < 95 := by
    have : c.toNat ≤ 126 := hp.2
    omega
  generalize c.toNat - 32 = k at hc hk
  subst hc
  interval_cases k <;> first | rfl | exact absurd rfl h1 | exact absurd rfl h2

theorem hexVal_digit : ∀ d < 16,
    hexVal (if d < 10 then Char.ofNat (d + '0'.toNat) else Char.ofNat (d - 10 + 'a'.toNat)) = some d := by
  decide

/-- The four hexadecimal digits `\u{0:04x}` writes read back as the code unit. -/
theorem hex4_hexDigits4 {n : ℕ} (hn : n < 0x10000) :
    ∃ a b c d, hexDigits4 n = [a, b, c, d] ∧ hex4 a b c d = some n := by
  refine ⟨_, _, _, _, rfl, ?_⟩
  simp only [hex4, hexVal_digit _ (Nat.mod_lt _ (show 16 > 0 by norm_num))]
  show some _ = some n
  congr 1; omega

theorem Char.toNat_valid (c : Char) : c.toNat < 0xD800 ∨ (0xDFFF < c.toNat ∧ c.toNat < 0x110000) :=
  c.valid

theorem ofCodeUnit_toNat (c : Char) (h : c.toNat < 0x10000) : PyChar.ofCodeUnit c.toNat = .char c := by
  have hv := Char.toNat_valid c
  rw [PyChar.ofCodeUnit, dif_neg (by omega), Char.ofNat_toNat]

theorem ofCodeUnit_surrogate (n : Fin 0x800) : PyChar.ofCodeUnit (0xD800 + n) = .surrogate n := by
  rw [PyChar.ofCodeUnit, dif_pos (by omega)]
  exact congrArg PyChar.surrogate (Fin.ext (Nat.add_sub_cancel_left ..))

/-- What `py_encode_basestring_ascii` writes for one character, the string scanner reads back
as that character: printable ones pass, the others are escapes, a character outside the basic
plane the pair of a high and a low surrogate. -/
theorem scanString_escapeChar (c : Char) (cs : List Char) (acc : PyStr) :
    scanString (escapeChar c ++ cs) acc = scanString cs (.char c :: acc) := by
  unfold escapeChar
  split
  rotate_right
  next _ h1 h2 _ _ _ _ _ =>
    have hv := Char.toNat_valid c
    split_ifs with hp hb
    · exact scanString_plain hp h1 h2 cs acc
    · obtain ⟨a, b, c', d, hd, hx⟩ := hex4_hexDigits4 hb
      simp only [hd, List.cons_append, List.nil_append]
      rw [scanString_unit hx (fun h => absurd h (by omega)), ofCodeUnit_toNat c hb]
    · obtain ⟨a, b, c', d, hd, hx⟩ := hex4_hexDigits4 (n := 0xD800 + (c.toNat - 0x10000) / 0x400) (by omega)
      obtain ⟨e, f, g, k, he, hy⟩ := hex4_hexDigits4 (n := 0xDC00 + (c.toNat - 0x10000) % 0x400) (by omega)
      dsimp only
      rw [hd, he]
      simp only [List.cons_append, List.nil_append]
      rw [scanString_surrogates hx (by omega) hy (by omega)]
      have key : ∀ n, n = c.toNat → scanString cs (.char (Char.ofNat n) :: acc) = scanString cs (.char c :: acc) := by
        rintro n rfl; rw [Char.ofNat_toNat]
      exact key _ (by omega)
  all_goals rfl

/-- A code point reads back from its escape, a high surrogate provided no low surrogate escape
comes next. -/
theorem scanString_escapeCodePoint (c : PyChar) {cs : List Char} (hcs : c.isHigh → NoLowNext cs)
    (acc : PyStr) : scanString (escapeCodePoint c ++ cs) acc = scanString cs (c :: acc) := by
  cases c with
  | char c => exact scanString_escapeChar c cs acc
  | surrogate n =>
    obtain ⟨a, b, c', d, hd, hx⟩ := hex4_hexDigits4 (n := 0xD800 + n) (by omega)
    rw [escapeCodePoint, hd]
    simp only [List.cons_append, List.nil_append]
    rw [scanString_unit hx fun hu => hcs (by simp only [PyChar.isHigh, decide_eq_true_eq]; omega), ofCodeUnit_surrogate]

/-- No high surrogate stands right before a low one: `json.dumps` would write the two as the
escapes of one character, which `json.loads` reads back joined. -/
def PyStr.NoSplitPair (s : PyStr) : Prop := s.Chain' fun a b => (a.isHigh && b.isLow) = false

/-- A Lean text holds no surrogate at all. -/
theorem noSplitPair_ofString (s : String) : (PyStr.ofString s).NoSplitPair := by
  unfold PyStr.NoSplitPair PyStr.ofString
  rw [List.chain'_map]
  exact List.Pairwise.chain' (List.pairwise_of_forall fun _ _ => rfl)

/-- The escape of a code point other than a low surrogate starts no low surrogate escape. -/
theorem noLowNext_escape {c : PyChar} (hc : c.isLow = false) (X : List Char) :
    NoLowNext (escapeCodePoint c ++ X) := by
  intro e f g k rest h
  cases c with
  | surrogate n =>
    obtain ⟨a, b, c', d, hd, hx⟩ := hex4_hexDigits4 (n := 0xD800 + n) (by omega)
    rw [escapeCodePoint, hd] at h
    simp only [List.cons_append, List.nil_append, List.cons.injEq] at h
    obtain ⟨-, -, rfl, rfl, rfl, rfl, -⟩ := h
    simp only [PyChar.isLow, decide_eq_false_iff_not, not_le] at hc
    exact ⟨_, hx, by omega⟩
  | char c =>
    rw [escapeCodePoint] at h
    unfold escapeChar at h
    split at h
    all_goals try (simp at h; done)
    next _ h1 h2 _ _ _ _ _ =>
    have hv := Char.toNat_valid c
    split_ifs at h with hp hb
    · simp only [List.singleton_append, List.cons.injEq] at h
      exact absurd h.1 h2
    · obtain ⟨a, b, c', d, hd, hx⟩ := hex4_hexDigits4 hb
      simp only [hd, List.cons_append, List.nil_append, List.cons.injEq] at h
      obtain ⟨-, -, rfl, rfl, rfl, rfl, -⟩ := h
      exact ⟨_, hx, by omega⟩
    · obtain ⟨a, b, c', d, hd, hx⟩ := hex4_hexDigits4 (n := 0xD800 + (c.toNat - 0x10000) / 0x400) (by omega)
      dsimp only at h
      rw [hd] at h
      simp only [List.cons_append, List.nil_append, List.cons.injEq] at h
      obtain ⟨-, -, rfl, rfl, rfl, rfl, -⟩ := h
      exact ⟨_, hx, by omega⟩

/-- `scanString` reads an escaped body back, up to the closing quote. -/
theorem scanString_escaped {s : PyStr} (hs : s.NoSplitPair) (rest : List Char) (acc : PyStr) :
    scanString (s.flatMap escapeCodePoint ++ '"' :: rest) acc = .ok (acc.reverse ++ s, rest) := by
  induction s generalizing acc with
  | nil => simp only [List.flatMap_nil, List.nil_append, List.append_nil]; rfl
  | cons c s ih =>
    have hs' := List.chain'_cons'.mp hs
    rw [List.flatMap_cons, List.append_assoc, scanString_escapeCodePoint c _, ih hs'.2]
    · simp
    intro hc
    cases s with
    | nil => rintro _ _ _ _ _ ⟨⟩
    | cons d s =>
      have hd : d.isLow = false := by
        have := hs'.1 d rfl
        simp only [hc, Bool.true_and] at this
        exact this
      rw [List.flatMap_cons, List.append_assoc]
      exact noLowNext_escape hd _

/-! ### Whitespace and the parser -/

/-- Every character is JSON whitespace. -/
def AllWs (W : List Char) : Prop := ∀ c ∈ W, isJsonWs c = true

theorem skipWs_ws_append {W : List Char} (hW : AllWs W) (cs : List Char) :
    skipWs (W ++ cs) = skipWs cs := by
  rw [skipWs, List.dropWhile_append_of_pos hW]; rfl

theorem skipWs_cons {c : Char} (hc : isJsonWs c = false) (cs : List Char) :
    skipWs (c :: cs) = c :: cs := by
  simp [skipWs, List.dropWhile_cons, hc]

theorem parseValue_ws_append {W : List Char} (hW : AllWs W) (fuel : ℕ) (cs : List Char) :
    parseValue fuel (W ++ cs) = parseValue fuel cs := by
  cases fuel with
  | zero => rfl
  | succ f => rw [parseValue, parseValue, skipWs_ws_append hW]

theorem isDigit_cases {c : Char} (h : c.isDigit = true) : ∃ k < 10, c = Char.ofNat (48 + k) := by
  have h' : 48 ≤ c.toNat ∧ c.toNat ≤ 57 := by
    simpa [Char.isDigit, Char.toNat] using h
  exact ⟨c.toNat - 48, by omega, by rw [Nat.add_sub_cancel' h'.1, Char.ofNat_toNat]⟩

/-- A numeral goes to `scanNumber`: no other branch of `scan_once` starts with a digit or with
a minus sign and a digit. -/
theorem parseValue_number (neg : Bool) {I : List Char} (hI : IntDigits I) (f : ℕ) (T : List Char) :
    parseValue (f + 1) ((if neg then '-' :: I else I) ++ T) =
      scanNumber ((if neg then '-' :: I else I) ++ T) := by
  obtain ⟨hd, h | ⟨c, I', h, -⟩⟩ := hI
  · subst h; cases neg <;> rfl
  · subst h
    obtain ⟨k, hk, rfl⟩ := isDigit_cases (hd _ (List.mem_cons_self _ _))
    interval_cases k <;> cases neg <;> rfl

theorem skipWs_skipWs (cs : List Char) : skipWs (skipWs cs) = skipWs cs :=
  List.dropWhile_idempotent _ cs

theorem parseValue_skipWs (fuel : ℕ) (cs : List Char) : parseValue fuel (skipWs cs) = parseValue fuel cs := by
  cases fuel with
  | zero => rfl
  | succ f => rw [parseValue, parseValue, skipWs_skipWs]

theorem parseElements_skipWs (fuel : ℕ) (cs : List Char) (acc : List Json) :
    parseElements fuel (skipWs cs) acc = parseElements fuel cs acc := by
  cases fuel with
  | zero => rfl
  | succ f => rw [parseElements, parseElements, parseValue_skipWs]

/-! ### One step of the parser -/

theorem parseValue_bracket (f : ℕ) (X : List Char) : parseValue (f + 1) ('[' :: X) =
    match skipWs X with
    | ']' :: rest => .ok (.arr [], rest)
    | rest => parseElements f rest [] := rfl

theorem parseValue_brace (f : ℕ) (X : List Char) : parseValue (f + 1) ('{' :: X) =
    match skipWs X with
    | '}' :: rest => .ok (.obj [], rest)
    | rest => parseMembers f rest [] := rfl

theorem parseValue_quote (f : ℕ) (X : List Char) :
    parseValue (f + 1) ('"' :: X) = (fun (s, r) => (Json.str s, r)) <$> scanString X [] := rfl

/-- A closing bracket is not a value. -/
theorem parseValue_close {n : ℕ} {cs r : List Char} (h : skipWs cs = ']' :: r ∨ skipWs cs = '}' :: r) :
    parseValue (n + 1) cs = .error .jsonDecode := by
  rcases h with h | h <;> rw [parseValue, h] <;> rfl

section Steps

variable {g : ℕ} {cs X R R1 R2 T : List Char} {k : PyStr} {v : Json}

theorem parseElements_comma (acc : List Json) (h : parseValue g cs = .ok (v, R))
    (hR : skipWs R = ',' :: T) : parseElements (g + 1) cs acc = parseElements g T (v :: acc) := by
  rw [parseElements]
  simp only [h, hR, bind, Except.bind]

theorem parseElements_close (acc : List Json) (h : parseValue g cs = .ok (v, R))
    (hR : skipWs R = ']' :: T) : parseElements (g + 1) cs acc = .ok (.arr (v :: acc).reverse, T) := by
  rw [parseElements]
  simp only [h, hR, bind, Except.bind]

theorem parseMembers_comma (acc : List (PyStr × Json)) (h0 : skipWs cs = '"' :: X)
    (hk : scanString X [] = .ok (k, R1)) (h1 : skipWs R1 = ':' :: R2)
    (hv : parseValue g R2 = .ok (v, R)) (hR : skipWs R = ',' :: T) :
    parseMembers (g + 1) cs acc = parseMembers g T (setKey k v acc) := by
  rw [parseMembers]
  simp only [h0, hk, h1, hv, hR, bind, Except.bind]

theorem parseMembers_close (acc : List (PyStr × Json)) (h0 : skipWs cs = '"' :: X)
    (hk : scanString X [] = .ok (k, R1)) (h1 : skipWs R1 = ':' :: R2)
    (hv : parseValue g R2 = .ok (v, R)) (hR : skipWs R = '}' :: T) :
    parseMembers (g + 1) cs acc = .ok (.obj (setKey k v acc), T) := by
  rw [parseMembers]
  simp only [h0, hk, h1, hv, hR, bind, Except.bind]

end Steps

/-! ### The text `dumps` writes -/

theorem endsNumber_cons {c : Char} (h : c.isDigit = false ∧ c ≠ '.' ∧ c ≠ 'e' ∧ c ≠ 'E')
    (cs : List Char) : EndsNumber (c :: cs) := by
  rintro _ ⟨⟩; exact h

theorem endsNumber_ws_append {W cs : List Char} (hW : AllWs W) (h : EndsNumber cs) :
    EndsNumber (W ++ cs) := by
  cases W with
  | nil => exact h
  | cons c W =>
    apply endsNumber_cons
    have hc := hW c (List.mem_cons_self _ _)
    simp only [isJsonWs, Bool.or_eq_true, beq_iff_eq] at hc
    rcases hc with ((rfl | rfl) | rfl) | rfl <;> decide

theorem newlineIndent_ws (indent : Bool) (lvl : ℕ) : AllWs (newlineIndent indent lvl) := by
  unfold newlineIndent
  split
  · rintro c (_ | ⟨_, hc⟩)
    · rfl
    · rw [List.eq_of_mem_replicate hc]; rfl
  · rintro c ⟨⟩

/-- The separator is a comma and whitespace. -/
theorem itemSep_split (indent : Bool) (lvl : ℕ) :
    ∃ S, AllWs S ∧ ∀ X, itemSep indent lvl ++ X = ',' :: (S ++ X) := by
  cases indent
  · exact ⟨[' '], by rintro c (_ | ⟨_, ⟨⟩⟩); rfl, fun _ => rfl⟩
  · exact ⟨_, newlineIndent_ws true lvl, fun _ => rfl⟩

theorem encodeString_append (s : PyStr) (X : List Char) :
    encodeString s ++ X = '"' :: (s.flatMap escapeCodePoint ++ '"' :: X) := by
  simp [encodeString]

theorem skipWs_encodeString {W : List Char} (hW : AllWs W) (s : PyStr) (X : List Char) :
    skipWs (W ++ (encodeString s ++ X)) = '"' :: (s.flatMap escapeCodePoint ++ '"' :: X) := by
  rw [skipWs_ws_append hW, encodeString_append, skipWs_cons (by decide : isJsonWs '"' = false)]

theorem scanString_encodeString {s : PyStr} (hs : s.NoSplitPair) (X : List Char) :
    scanString (s.flatMap escapeCodePoint ++ '"' :: X) [] = .ok (s, X) := by
  rw [scanString_escaped hs]; rfl

/-- The text of a double: an optional minus sign, an integer part that `scanNumber` reads whole,
and the rest of the numeral. -/
theorem repr_data_split {m : ℚ} (hm : PyFloat.IsDouble m) (neg : Bool) :
    ∃ I tail, IntDigits I ∧ ∀ rest,
      (PyFloat.repr (.finite neg m)).data ++ rest = (if neg then '-' :: I else I) ++ (tail ++ rest) := by
  rw [PyFloat.repr]
  by_cases h0 : m = 0
  · refine ⟨['0'], ['.', '0'], ⟨by decide, .inl rfl⟩, fun rest => ?_⟩
    rw [if_pos h0]
    cases neg <;> rfl
  · obtain ⟨hc, -⟩ := PyFloat.shortest_spec hm (lt_of_le_of_ne hm.1 (Ne.symm h0))
    obtain ⟨-, hdig, d, ds, hds, hd0⟩ := significantDigits_spec hc
    obtain ⟨-, -, ⟨I, tail, ht, hI, -⟩, -⟩ := formatShort_readsAs hds hd0 hdig
      ((toString (PyFloat.shortest m).1).length + (PyFloat.shortest m).2)
    exact ⟨I, tail, hI, fun rest => by rw [if_neg h0]; exact sign_append_data neg ht rest⟩

/-! ### Well-formed values -/

/-- The values `json.dumps` writes text for that `json.loads` reads back as the same value. -/
inductive Json.WF : Json → Prop
  /-- `None`. -/
  | null : Json.WF .null
  /-- A `bool`. -/
  | bool (b : Bool) : Json.WF (.bool b)
  /-- An `int` of at most 4300 digits, the most CPython converts. -/
  | int {n : ℤ} (h : n.natAbs < 10 ^ 4300) : Json.WF (.int n)
  /-- A `float` that is a double, or an infinity, or NaN. -/
  | float {x : PyFloat} (h : x.Valid) : Json.WF (.float x)
  /-- A `str` with no high surrogate right before a low one. -/
  | str {s : PyStr} (h : s.NoSplitPair) : Json.WF (.str s)
  /-- A `list` of well-formed values. -/
  | arr {xs : List Json} (h : ∀ x ∈ xs, Json.WF x) : Json.WF (.arr xs)
  /-- A `dict`: its keys distinct and strings as above, its values well formed. -/
  | obj {kvs : List (PyStr × Json)} (hk : (kvs.map Prod.fst).Nodup) (hks : ∀ kv ∈ kvs, kv.1.NoSplitPair)
      (h : ∀ kv ∈ kvs, Json.WF kv.2) : Json.WF (.obj kvs)

/-- `d[k] = v` for a new key appends the item. -/
theorem setKey_fresh {k : PyStr} (v : Json) {kvs : List (PyStr × Json)} (hk : k ∉ kvs.map Prod.fst) :
    setKey k v kvs = kvs ++ [(k, v)] := by
  induction kvs with
  | nil => rfl
  | cons kv kvs ih =>
    simp only [List.map_cons, List.mem_cons, not_or] at hk
    rw [setKey, if_neg (Ne.symm hk.1), ih hk.2, List.cons_append]

/-- What `json.dumps` writes for `v`, after any whitespace and before any text that cannot
continue a number, `scan_once` reads back as `v` when its fuel exceeds the text's length. -/
def ReadsBack (indent : Bool) (v : Json) : Prop :=
  ∀ lvl fuel W rest, AllWs W → EndsNumber rest → (encode indent lvl v).length < fuel →
    parseValue fuel (W ++ (encode indent lvl v ++ rest)) = .ok (v, rest)

/-- What follows the first element of a list's text cannot continue a number. -/
theorem endsNumber_elems {indent : Bool} {lvl : ℕ} (xs : List Json) {W' rest : List Char}
    (hW' : AllWs W') : EndsNumber (encodeElems indent lvl xs ++ (W' ++ ']' :: rest)) := by
  cases xs with
  | nil =>
    rw [encodeElems, List.nil_append]
    exact endsNumber_ws_append hW' (endsNumber_cons (by decide) _)
  | cons y ys =>
    obtain ⟨S, -, hsep⟩ := itemSep_split indent lvl
    simp only [encodeElems, List.append_assoc, hsep, List.cons_append]
    exact endsNumber_cons (by decide) _

theorem allWs_space : AllWs [' '] := by
  rintro c (_ | ⟨_, ⟨⟩⟩); rfl

section Bridge

variable {indent : Bool} {lvl : ℕ}

/-- The elements after the first, up to the closing bracket. -/
theorem parseElements_encode {xs : List Json} (hxs : ∀ y ∈ xs, ReadsBack indent y) :
    ∀ {x : Json} {fuel : ℕ} {W W' rest : List Char} (acc : List Json), ReadsBack indent x →
      AllWs W → AllWs W' → (encode indent lvl x ++ encodeElems indent lvl xs).length < fuel →
      parseElements (fuel + 1)
          (W ++ (encode indent lvl x ++ (encodeElems indent lvl xs ++ (W' ++ ']' :: rest)))) acc =
        .ok (.arr ((x :: acc).reverse ++ xs), rest) := by
  induction xs with
  | nil =>
    intro x fuel W W' rest acc hx hW hW' hlen
    have hend : EndsNumber (W' ++ ']' :: rest) := endsNumber_ws_append hW' (endsNumber_cons (by decide) _)
    simp only [encodeElems, List.nil_append, List.append_nil] at hlen ⊢
    exact parseElements_close acc (hx lvl fuel W _ hW hend hlen)
      (by rw [skipWs_ws_append hW', skipWs_cons (by decide : isJsonWs ']' = false)])
  | cons y ys ih =>
    intro x fuel W W' rest acc hx hW hW' hlen
    obtain ⟨S, hS, hsep⟩ := itemSep_split indent lvl
    have hT : encodeElems indent lvl (y :: ys) ++ (W' ++ ']' :: rest) =
        ',' :: (S ++ (encode indent lvl y ++ (encodeElems indent lvl ys ++ (W' ++ ']' :: rest)))) := by
      simp only [encodeElems, List.append_assoc, hsep, List.cons_append]
    have hl : (encodeElems indent lvl (y :: ys)).length =
        S.length + 1 + (encode indent lvl y ++ encodeElems indent lvl ys).length := by
      have := congrArg List.length (hsep (encode indent lvl y ++ encodeElems indent lvl ys))
      simp only [encodeElems, List.length_append, List.length_cons] at this ⊢
      omega
    simp only [List.length_append] at hlen hl
    obtain ⟨f, rfl⟩ : ∃ f, fuel = f + 1 := ⟨fuel - 1, by omega⟩
    rw [hT, parseElements_comma acc (hx lvl _ W _ hW (endsNumber_cons (by decide) _) (by omega))
      (skipWs_cons (by decide : isJsonWs ',' = false) _), ih (fun z hz => hxs z (List.mem_cons_of_mem _ hz)) (x :: acc)
      (hxs y (List.mem_cons_self _ _)) hS hW' (by simp only [List.length_append]; omega)]
    simp

/-- The members after the first, up to the closing brace; the keys read so far are `acc`'s. -/
theorem parseMembers_encode {kvs : List (PyStr × Json)}
    (hkvs : ∀ kv ∈ kvs, kv.1.NoSplitPair ∧ ReadsBack indent kv.2) :
    ∀ {k : PyStr} {v : Json} {fuel : ℕ} {W W' rest : List Char} (acc : List (PyStr × Json)),
      k.NoSplitPair → ReadsBack indent v → AllWs W → AllWs W' →
      (acc.map Prod.fst ++ k :: kvs.map Prod.fst).Nodup →
      (encodeString k ++ encode indent lvl v ++ encodeMembers indent lvl kvs).length + 2 < fuel →
      parseMembers (fuel + 1) (W ++ (encodeString k ++ ':' :: ' ' :: (encode indent lvl v ++
          (encodeMembers indent lvl kvs ++ (W' ++ '}' :: rest))))) acc =
        .ok (.obj (acc ++ (k, v) :: kvs), rest) := by
  induction kvs with
  | nil =>
    intro k v fuel W W' rest acc hks hv hW hW' hk hlen
    have hend : EndsNumber (W' ++ '}' :: rest) := endsNumber_ws_append hW' (endsNumber_cons (by decide) _)
    have hfresh : k ∉ acc.map Prod.fst := fun h =>
      (List.nodup_cons.mp (List.nodup_middle.mp hk)).1 (List.mem_append_left _ h)
    simp only [encodeMembers, List.nil_append, List.append_nil, List.length_append] at hlen ⊢
    rw [parseMembers_close acc (skipWs_encodeString hW k _) (scanString_encodeString hks _)
      (skipWs_cons (by decide : isJsonWs ':' = false) _) (by exact hv lvl fuel _ _ allWs_space hend (by omega))
      (by rw [skipWs_ws_append hW', skipWs_cons (by decide : isJsonWs '}' = false)]), setKey_fresh v hfresh]
  | cons kv kvs ih =>
    intro k v fuel W W' rest acc hks hv hW hW' hk hlen
    obtain ⟨k', v'⟩ := kv
    obtain ⟨S, hS, hsep⟩ := itemSep_split indent lvl
    have hfresh : k ∉ acc.map Prod.fst := fun h =>
      (List.nodup_cons.mp (List.nodup_middle.mp hk)).1 (List.mem_append_left _ h)
    have hT : encodeMembers indent lvl ((k', v') :: kvs) ++ (W' ++ '}' :: rest) =
        ',' :: (S ++ (encodeString k' ++ ':' :: ' ' :: (encode indent lvl v' ++
          (encodeMembers indent lvl kvs ++ (W' ++ '}' :: rest))))) := by
      simp only [encodeMembers, List.append_assoc, hsep, List.cons_append, List.nil_append]
    have hl := congrArg List.length hT
    simp only [List.length_append, List.length_cons] at hl hlen
    obtain ⟨f, rfl⟩ : ∃ f, fuel = f + 1 := ⟨fuel - 1, by omega⟩
    rw [hT, parseMembers_comma acc (skipWs_encodeString hW k _) (scanString_encodeString hks _)
      (skipWs_cons (by decide : isJsonWs ':' = false) _)
      (by exact hv lvl _ _ _ allWs_space (endsNumber_cons (by decide) _) (by omega))
      (skipWs_cons (by decide : isJsonWs ',' = false) _), setKey_fresh v hfresh,
      ih (fun kv hkv => hkvs kv (List.mem_cons_of_mem _ hkv)) (acc ++ [(k, v)])
        (hkvs (k', v') (List.mem_cons_self _ _)).1 (hkvs (k', v') (List.mem_cons_self _ _)).2 hS hW'
        (by simpa using hk)
        (by simp only [List.length_append]; omega)]
    simp

end Bridge

theorem parseMembers_skipWs (fuel : ℕ) (cs : List Char) (acc : List (PyStr × Json)) :
    parseMembers fuel (skipWs cs) acc = parseMembers fuel cs acc := by
  cases fuel with
  | zero => rfl
  | succ f => rw [parseMembers, parseMembers, skipWs_skipWs]

theorem allWs_nil : AllWs [] := fun _ h => absurd h (List.not_mem_nil _)

theorem endsNumber_nil : EndsNumber [] := by
  rintro _ ⟨⟩

/-- Fuel one more than the text's length suffices, and whitespace before the text is skipped. -/
theorem readsBack_intro {indent : Bool} {v : Json}
    (h : ∀ lvl f rest, EndsNumber rest → (encode indent lvl v).length ≤ f →
      parseValue (f + 1) (encode indent lvl v ++ rest) = .ok (v, rest)) : ReadsBack indent v := by
  intro lvl fuel W rest hW hr hlen
  obtain ⟨f, rfl⟩ : ∃ f, fuel = f + 1 := ⟨fuel - 1, by omega⟩
  rw [parseValue_ws_append hW]
  exact h lvl f rest hr (by omega)

/-- Every well-formed value reads back from its text, at every nesting level and with either
layout. -/
theorem readsBack_of_wf {v : Json} (hv : v.WF) (indent : Bool) : ReadsBack indent v := by
  induction hv with
  | null => exact readsBack_intro fun _ _ _ _ _ => rfl
  | bool b => exact readsBack_intro fun _ _ _ _ _ => by cases b <;> rfl
  | int h =>
    refine readsBack_intro fun lvl f rest hr _ => ?_
    rw [← scanNumber_toString _ h hr]
    show parseValue (f + 1) ((toString _).data ++ rest) = scanNumber ((toString _).data ++ rest)
    rw [toString_int_data]
    split_ifs
    · exact parseValue_number true (intDigits_toDigits _) f rest
    · exact parseValue_number false (intDigits_toDigits _) f rest
  | float h =>
    rename_i x
    refine readsBack_intro fun lvl f rest hr _ => ?_
    cases x with
    | nan => rfl
    | inf neg => cases neg <;> rfl
    | finite neg m =>
      obtain ⟨I, tail, hI, hsplit⟩ := repr_data_split h neg
      rw [← scanNumber_repr h neg hr]
      show parseValue (f + 1) ((PyFloat.repr _).data ++ rest) = _
      rw [hsplit]
      exact parseValue_number neg hI f _
  | str hs =>
    rename_i s
    refine readsBack_intro fun lvl f rest _ _ => ?_
    show parseValue (f + 1) (encodeString s ++ rest) = _
    rw [encodeString_append, parseValue_quote, scanString_encodeString hs]
    rfl
  | arr h ih =>
    rename_i xs
    refine readsBack_intro fun lvl f rest hr hlen => ?_
    cases xs with
    | nil => rfl
    | cons x xs =>
      have hx : ReadsBack indent x := ih x (List.mem_cons_self _ _)
      have hxs : ∀ y ∈ xs, ReadsBack indent y := fun y hy => ih y (List.mem_cons_of_mem _ hy)
      have hN := newlineIndent_ws indent (lvl + 1)
      simp only [encode, List.cons_append, List.append_assoc, List.nil_append, List.length_nil,
        List.length_cons, List.length_append] at hlen ⊢
      obtain ⟨f, rfl⟩ : ∃ g, f = g + 1 := ⟨f - 1, by omega⟩
      rw [parseValue_bracket]
      split
      · next r heq =>
        rw [skipWs_ws_append hN] at heq
        cases (hx (lvl + 1) (f + 1) [] _ allWs_nil (endsNumber_elems xs (newlineIndent_ws indent lvl))
          (by omega)).symm.trans (parseValue_close (Or.inl heq))
      · rw [parseElements_skipWs, parseElements_encode hxs [] hx hN (newlineIndent_ws indent lvl)
          (by simp only [List.length_append]; omega)]
        rfl
  | obj hk hks h ih =>
    rename_i kvs
    refine readsBack_intro fun lvl f rest hr hlen => ?_
    cases kvs with
    | nil => rfl
    | cons kv kvs =>
      obtain ⟨k, v⟩ := kv
      have hv : ReadsBack indent v := ih (k, v) (List.mem_cons_self _ _)
      have hkvs : ∀ kv ∈ kvs, kv.1.NoSplitPair ∧ ReadsBack indent kv.2 := fun kv hkv =>
        ⟨hks kv (List.mem_cons_of_mem _ hkv), ih kv (List.mem_cons_of_mem _ hkv)⟩
      have hN := newlineIndent_ws indent (lvl + 1)
      simp only [encode, List.cons_append, List.append_assoc, List.nil_append, List.length_nil,
        List.length_cons, List.length_append] at hlen ⊢
      obtain ⟨f, rfl⟩ : ∃ g, f = g + 1 := ⟨f - 1, by omega⟩
      rw [parseValue_brace]
      split
      · next r heq =>
        rw [skipWs_encodeString hN] at heq
        cases heq
      · rw [parseMembers_skipWs, parseMembers_encode hkvs [] (hks (k, v) (List.mem_cons_self _ _)) hv hN
          (newlineIndent_ws indent lvl)
          (by simpa using hk) (by simp only [List.length_append]; omega)]
        rfl

/-- `json.loads` on the whole text of a value, at the fuel it gives itself. -/
theorem loads_encode {v : Json} (hv : v.WF) (indent : Bool) : loads ⟨encode indent 0 v⟩ = .ok v := by
  have h := readsBack_of_wf hv indent 0 (2 * (encode indent 0 v).length + 2) [] [] allWs_nil
    endsNumber_nil (by omega)
  rw [List.nil_append, List.append_nil] at h
  simp only [loads, String.length, h, bind, Except.bind]
  rfl

/-- `json.loads(json.dumps(v)) == v`, and `json.load` of what `json.dump(v, f, indent=2)`
wrote is `v`, for every well-formed value. -/
theorem loads_dumps {v : Json} (hv : v.WF) : loads (dumps v) = .ok v ∧ loads (dumpIndent2 v) = .ok v :=
  ⟨loads_encode hv false, loads_encode hv true⟩

/-- A descriptor with a node id and an address list is well formed and survives both encoders. -/
theorem loads_dumps_descriptor :
    Json.WF (.obj [("node_id", .str "n1"), ("addrs", .arr [.str "fe80::1"])]) ∧
      loads (dumps (.obj [("node_id", .str "n1"), ("addrs", .arr [.str "fe80::1"])])) =
        .ok (.obj [("node_id", .str "n1"), ("addrs", .arr [.str "fe80::1"])]) ∧
      loads (dumpIndent2 (.obj [("node_id", .str "n1"), ("addrs", .arr [.str "fe80::1"])])) =
        .ok (.obj [("node_id", .str "n1"), ("addrs", .arr [.str "fe80::1"])]) :=
  have h : Json.WF (.obj [("node_id", .str "n1"), ("addrs", .arr [.str "fe80::1"])]) :=
    .obj (by decide) (by simp [noSplitPair_ofString]) fun kv hkv => by
      simp only [List.mem_cons, List.mem_singleton, List.not_mem_nil, or_false] at hkv
      rcases hkv with rfl | rfl
      · exact .str (noSplitPair_ofString _)
      · exact .arr fun x hx => by rw [List.mem_singleton.mp hx]; exact .str (noSplitPair_ofString _)
  ⟨h, loads_dumps h⟩

/-! ### What `json.loads` returns -/

theorem foldl_digits_lt {I : List Char} (hI : ∀ c ∈ I, c.isDigit = true) (acc : ℕ) :
    I.foldl (fun acc c => acc * 10 + (c.toNat - '0'.toNat)) acc < (acc + 1) * 10 ^ I.length := by
  induction I generalizing acc with
  | nil => simp
  | cons c I ih =>
    have hc : c.toNat ≤ 57 := by
      have := hI c (List.mem_cons_self _ _)
      simp only [Char.isDigit, Bool.and_eq_true, decide_eq_true_eq] at this
      exact this.2
    have h := ih (fun d hd => hI d (List.mem_cons_of_mem _ hd)) (acc * 10 + (c.toNat - '0'.toNat))
    calc _ < (acc * 10 + (c.toNat - '0'.toNat) + 1) * 10 ^ I.length := h
      _ ≤ (acc + 1) * 10 * 10 ^ I.length :=
        Nat.mul_le_mul_right _ (by rw [show '0'.toNat = 48 from rfl]; omega)
      _ = (acc + 1) * 10 ^ (c :: I).length := by rw [List.length_cons, pow_succ]; ring

theorem digitsValue_lt {I : List Char} (hI : ∀ c ∈ I, c.isDigit = true) : digitsValue I < 10 ^ I.length := by
  simpa using foldl_digits_lt hI 0

/-- `scanNumber` returns only well-formed numbers. -/
theorem wf_scanNumber {cs r : List Char} {v : Json} (h : scanNumber cs = .ok (v, r)) : v.WF := by
  rcases scanNumber_ok h with ⟨I, hd, hl, neg, rfl⟩ | ⟨neg, mant, e, rfl⟩
  · refine .int ?_
    have habs : (if neg then -(digitsValue I : ℤ) else digitsValue I).natAbs = digitsValue I := by
      cases neg <;> simp
    rw [habs]
    generalize 4300 = N at hl ⊢
    exact (digitsValue_lt hd).trans_le (Nat.pow_le_pow_right (by norm_num) hl)
  · exact .float (PyFloat.valid_round neg (by positivity))

theorem dite_ok {p : Prop} {_ : Decidable p} {α : Type} {a : p → α} {b : ¬p → α} {x : α} {Q : Prop}
    (ha : ∀ hp, a hp = x → Q) (hb : ∀ hn, b hn = x → Q) : dite p a b = x → Q := by
  by_cases hp : p
  · rw [dif_pos hp]; exact ha hp
  · rw [dif_neg hp]; exact hb hp

/-- Outside a container or a string, `scan_once` returns a keyword's value or what
`scanNumber` returns. Its `match` tests the characters of `null`, `true`, `false`, `NaN`,
`Infinity` and `-Infinity` one at a time; each test either moves on to the next character or
falls through to `scanNumber`, and the proof follows those tests. -/
theorem wf_parseValue_scalar {f : ℕ} {c : Char} {t r : List Char} {v : Json} (hc : isJsonWs c = false)
    (h1 : c ≠ '{') (h2 : c ≠ '[') (h3 : c ≠ '"') (h : parseValue (f + 1) (c :: t) = .ok (v, r)) :
    v.WF := by
  rw [parseValue, skipWs_cons hc] at h
  delta parseValue.match_4 at h
  dsimp only at h
  rw [dif_neg h1, dif_neg h2, dif_neg h3] at h
  repeat'
    first
    | (subst hp
       dsimp only at h
       try (rcases t with _ | ⟨c, t⟩ <;> dsimp only at h))
    | (revert h; with_reducible refine dite_ok (fun hp h => ?_) (fun _ h => ?_))
    | with_reducible exact wf_scanNumber h
    | (cases h; first | exact .null | exact .bool _ | exact .float trivial)

theorem isJsonWs_head {cs t : List Char} {c : Char} (h : skipWs cs = c :: t) : isJsonWs c = false := by
  unfold skipWs at h
  have := List.head_dropWhile_not isJsonWs cs (by rw [h]; exact List.cons_ne_nil _ _)
  simpa [h] using this

theorem mem_setKey {k : PyStr} {v : Json} {kvs : List (PyStr × Json)} {kv : PyStr × Json}
    (h : kv ∈ setKey k v kvs) : kv = (k, v) ∨ kv ∈ kvs := by
  induction kvs with
  | nil => exact .inl (List.mem_singleton.mp h)
  | cons kv' kvs ih =>
    rw [setKey] at h
    split_ifs at h
    · rcases List.mem_cons.mp h with h | h
      · exact .inl h
      · exact .inr (List.mem_cons_of_mem _ h)
    · rcases List.mem_cons.mp h with h | h
      · exact .inr (h ▸ List.mem_cons_self _ _)
      · exact (ih h).imp_right (List.mem_cons_of_mem _)

theorem keys_setKey (k : PyStr) (v : Json) (kvs : List (PyStr × Json)) :
    (setKey k v kvs).map Prod.fst = if k ∈ kvs.map Prod.fst then kvs.map Prod.fst else kvs.map Prod.fst ++ [k] := by
  induction kvs with
  | nil => rfl
  | cons kv kvs ih =>
    rw [setKey]
    split_ifs with h1 h2 h2
    · simp [h1]
    · simp [h1] at h2
    · simp only [List.map_cons, ih, List.mem_cons] at h2 ⊢
      rw [if_pos (h2.resolve_left (Ne.symm h1))]
    · simp only [List.map_cons, ih, List.mem_cons, not_or] at h2 ⊢
      rw [if_neg h2.2]
      rfl

theorem nodup_keys_setKey (k : PyStr) (v : Json) {kvs : List (PyStr × Json)}
    (h : (kvs.map Prod.fst).Nodup) : ((setKey k v kvs).map Prod.fst).Nodup := by
  rw [keys_setKey]
  split_ifs with hk
  · exact h
  · exact h.append (List.nodup_singleton k) (List.disjoint_singleton.mpr hk)

/-! ### The strings `scanString` returns -/

/-- What `scanString` keeps between two escapes: the code points read so far (reversed) hold no
split pair, and after a high surrogate the text does not go on with a low surrogate escape. -/
def ScanInv (cs : List Char) (acc : PyStr) : Prop :=
  acc.Chain' (fun b a => (a.isHigh && b.isLow) = false) ∧ ∀ h ∈ acc.head?, h.isHigh → NoLowNext cs

theorem isHigh_ofCodeUnit {u : ℕ} : (PyChar.ofCodeUnit u).isHigh = true ↔ 0xD800 ≤ u ∧ u ≤ 0xDBFF := by
  unfold PyChar.ofCodeUnit
  split_ifs with h
  · simp only [PyChar.isHigh, decide_eq_true_eq]; omega
  · simp only [PyChar.isHigh, Bool.false_eq_true, false_iff]; omega

theorem isLow_ofCodeUnit {u : ℕ} : (PyChar.ofCodeUnit u).isLow = true ↔ 0xDC00 ≤ u ∧ u ≤ 0xDFFF := by
  unfold PyChar.ofCodeUnit
  split_ifs with h
  · simp only [PyChar.isLow, decide_eq_true_eq]; omega
  · simp only [PyChar.isLow, Bool.false_eq_true, false_iff]; omega

/-- Reading a code point `x` keeps the invariant when `x` is no low surrogate after a high one,
and the text after a high `x` does not go on with a low surrogate escape. -/
theorem ScanInv.push {cs cs' : List Char} {acc : PyStr} {x : PyChar} (h : ScanInv cs acc)
    (hlow : x.isLow → ∀ y ∈ acc.head?, y.isHigh = false) (hhigh : x.isHigh → NoLowNext cs') :
    ScanInv cs' (x :: acc) := by
  refine ⟨List.chain'_cons'.mpr ⟨fun y hy => ?_, h.1⟩, fun y hy => ?_⟩
  · cases hx : x.isLow
    · simp
    · simp [hlow hx y hy]
  · cases Option.some.inj hy
    exact hhigh

theorem ScanInv.char {cs cs' : List Char} {acc : PyStr} (h : ScanInv cs acc) (c : Char) :
    ScanInv cs' (.char c :: acc) :=
  h.push (fun h => nomatch h) (fun h => nomatch h)

/-- A code unit read at an escape after a high surrogate is no low one. -/
theorem ScanInv.unit {a b c d : Char} {cs cs' : List Char} {acc : PyStr} {u : ℕ}
    (h : ScanInv ('\\' :: 'u' :: a :: b :: c :: d :: cs) acc) (hu : hex4 a b c d = some u)
    (hhigh : 0xD800 ≤ u ∧ u ≤ 0xDBFF → NoLowNext cs') : ScanInv cs' (.ofCodeUnit u :: acc) := by
  refine h.push (fun hl y hy => ?_) (fun hh => hhigh (isHigh_ofCodeUnit.mp hh))
  cases hy' : y.isHigh
  · rfl
  obtain ⟨l, hl', hnl⟩ := h.2 y hy hy' a b c d cs rfl
  rw [hu] at hl'
  cases hl'
  exact absurd (isLow_ofCodeUnit.mp hl) hnl

/-- `scanString` returns no split pair: by induction along its own recursion, each step reading
one code point or failing. -/
theorem noSplitPair_scanString {cs : List Char} {acc : PyStr} (hinv : ScanInv cs acc) {s : PyStr}
    {r : List Char} (h : scanString cs acc = .ok (s, r)) : s.NoSplitPair := by
  induction cs, acc using scanString.induct with
  | case1 cs acc =>
    cases h
    exact List.chain'_reverse.mpr hinv.1
  | case2 a b c d e f g k cs acc hn =>
    rw [scanString.eq_2, hn] at h
    cases h
  | case3 a b c d e f g k cs acc u hu hhi l hl hlo ih =>
    rw [scanString_surrogates hu hhi hl hlo] at h
    exact ih (hinv.char _) h
  | case4 a b c d e f g k cs acc u hu hhi l hl hnl ih =>
    rw [scanString.eq_2, hu] at h
    dsimp only at h
    rw [if_pos hhi, hl] at h
    dsimp only at h
    rw [if_neg hnl] at h
    exact ih (hinv.unit hu fun _ _ _ _ _ _ he => by cases he; exact ⟨l, hl, hnl⟩) h
  | case5 a b c d e f g k cs acc u hu hhi hn =>
    rw [scanString.eq_2, hu] at h
    dsimp only at h
    rw [if_pos hhi, hn] at h
    cases h
  | case6 a b c d e f g k cs acc u hu hhi ih =>
    rw [scanString.eq_2, hu] at h
    dsimp only at h
    rw [if_neg hhi] at h
    exact ih (hinv.unit hu fun h => absurd h hhi) h
  | case7 a b c d cs acc hno hn =>
    rw [scanString.eq_3 _ _ _ _ _ _ hno, hn] at h
    cases h
  | case8 a b c d cs acc hno u hu ih =>
    rw [scanString.eq_3 _ _ _ _ _ _ hno, hu] at h
    exact ih (hinv.unit hu fun _ e f g k rest he => absurd he (hno e f g k rest)) h
  | case9 _ _ _ _ ih | case10 _ _ _ _ ih | case11 _ _ _ _ ih | case12 _ _ _ _ ih
  | case13 _ _ _ _ ih | case14 _ _ _ _ ih | case15 _ _ _ _ ih | case16 _ _ _ _ ih =>
    exact ih (hinv.char _) h
  | case17 e cs acc h1 h2 h3 h4 h5 h6 h7 h8 h9 h10 =>
    rw [scanString.eq_12 _ _ _ h1 h2 h3 h4 h5 h6 h7 h8 h9 h10] at h
    cases h
  | case18 c cs acc h1 h2 h3 h4 hc =>
    rw [scanString.eq_13 _ _ _ h1 h2 h3 h4, if_pos hc] at h
    cases h
  | case19 c cs acc h1 h2 h3 h4 hc ih =>
    rw [scanString.eq_13 _ _ _ h1 h2 h3 h4, if_neg hc] at h
    exact ih (hinv.char _) h
  | case20 => cases h

/-- The keys and strings `scanString` reads from a fresh start. -/
theorem noSplitPair_of_scanString {cs r : List Char} {s : PyStr} (h : scanString cs [] = .ok (s, r)) :
    s.NoSplitPair :=
  noSplitPair_scanString ⟨List.chain'_nil, fun _ h => nomatch h⟩ h

/-- Every value the parser returns is well formed, at every fuel. -/
def ParsesWF (fuel : ℕ) : Prop :=
  (∀ cs r v, parseValue fuel cs = .ok (v, r) → v.WF) ∧
  (∀ cs acc r v, (∀ x ∈ acc, Json.WF x) → parseElements fuel cs acc = .ok (v, r) → v.WF) ∧
  (∀ cs acc r v, (acc.map Prod.fst).Nodup → (∀ kv ∈ acc, kv.1.NoSplitPair) → (∀ kv ∈ acc, Json.WF kv.2) →
    parseMembers fuel cs acc = .ok (v, r) → v.WF)

theorem parsesWF_succ {f : ℕ} (ih : ParsesWF f) : ParsesWF (f + 1) := by
  refine ⟨fun cs r v h => ?_, fun cs acc r v hacc h => ?_, fun cs acc r v hk hks hacc h => ?_⟩
  · rw [← parseValue_skipWs] at h
    generalize hs : skipWs cs = xs at h
    rcases xs with _ | ⟨c, t⟩
    · cases h
    by_cases h1 : c = '{'
    · subst h1
      rw [parseValue_brace] at h
      split at h
      · cases h; exact .obj List.nodup_nil (by simp) (by simp)
      · exact ih.2.2 _ [] _ _ List.nodup_nil (by simp) (by simp) h
    by_cases h2 : c = '['
    · subst h2
      rw [parseValue_bracket] at h
      split at h
      · cases h; exact .arr (by simp)
      · exact ih.2.1 _ [] _ _ (by simp) h
    by_cases h3 : c = '"'
    · subst h3
      rw [parseValue_quote] at h
      rcases hs' : scanString t [] with e | ⟨s, rest⟩ <;> rw [hs'] at h <;> cases h
      exact .str (noSplitPair_of_scanString hs')
    exact wf_parseValue_scalar (isJsonWs_head hs) h1 h2 h3 h
  · rw [parseElements] at h
    rcases hv : parseValue f cs with e | ⟨x, rest⟩ <;> simp only [hv, bind, Except.bind] at h
    · cases h
    have hx := ih.1 _ _ _ hv
    split at h
    · exact ih.2.1 _ _ _ _ (List.forall_mem_cons.mpr ⟨hx, hacc⟩) h
    · cases h
      exact .arr fun y hy => List.forall_mem_cons.mpr ⟨hx, hacc⟩ y (List.mem_reverse.mp hy)
    · cases h
  · rw [parseMembers] at h
    split at h
    · next X _ =>
      rcases hs : scanString X [] with e | ⟨k, R⟩ <;> simp only [hs, bind, Except.bind] at h
      · cases h
      split at h
      · next R' _ =>
        rcases hv : parseValue f R' with e | ⟨x, R''⟩ <;> simp only [hv] at h
        · cases h
        have hvals : ∀ kv ∈ setKey k x acc, Json.WF kv.2 := fun kv hkv => by
          rcases mem_setKey hkv with rfl | h
          · exact ih.1 _ _ _ hv
          · exact hacc kv h
        have hkeys : ∀ kv ∈ setKey k x acc, kv.1.NoSplitPair := fun kv hkv => by
          rcases mem_setKey hkv with rfl | h
          · exact noSplitPair_of_scanString hs
          · exact hks kv h
        split at h
        · exact ih.2.2 _ _ _ _ (nodup_keys_setKey k x hk) hkeys hvals h
        · cases h
          exact .obj (nodup_keys_setKey k x hk) hkeys hvals
        · cases h
      · cases h
    · cases h

theorem parsesWF (fuel : ℕ) : ParsesWF fuel := by
  induction fuel with
  | zero =>
    unfold ParsesWF
    exact ⟨fun _ _ _ h => (nomatch h), fun _ _ _ _ _ h => (nomatch h), fun _ _ _ _ _ _ _ h => (nomatch h)⟩
  | succ f ih => exact parsesWF_succ ih

/-- `json.loads` returns only well-formed values. -/
theorem wf_of_loads {s : String} {v : Json} (h : loads s = .ok v) : v.WF := by
  unfold loads at h
  rcases hv : parseValue (2 * s.length + 2) s.data with e | ⟨x, rest⟩ <;>
    simp only [hv, bind, Except.bind] at h
  · cases h
  split_ifs at h
  cases h
  exact (parsesWF _).1 _ _ _ hv

/-- What `json.loads` returns is well formed, and written back with `json.dumps` or
`json.dump(…, indent=2)` it reads back as itself. -/
theorem loads_dumps_loads {s : String} {v : Json} (h : loads s = .ok v) :
    v.WF ∧ loads (dumps v) = .ok v ∧ loads (dumpIndent2 v) = .ok v :=
  ⟨wf_of_loads h, loads_encode (wf_of_loads h) false, loads_encode (wf_of_loads h) true⟩

/-- The text `{"node_id": "n1", "port": 51821}` read, written back and read again. -/
theorem loads_dumps_loads_descriptor :
    loads "\x7b\"node_id\": \"n1\", \"port\": 51821\x7d" = .ok (.obj [("node_id", .str "n1"), ("port", .int 51821)]) ∧
      Json.WF (.obj [("node_id", .str "n1"), ("port", .int 51821)]) ∧
      loads (dumps (.obj [("node_id", .str "n1"), ("port", .int 51821)])) =
        .ok (.obj [("node_id", .str "n1"), ("port", .int 51821)]) ∧
      loads (dumpIndent2 (.obj [("node_id", .str "n1"), ("port", .int 51821)])) =
        .ok (.obj [("node_id", .str "n1"), ("port", .int 51821)]) :=
  have h : loads "\x7b\"node_id\": \"n1\", \"port\": 51821\x7d" =
      .ok (.obj [("node_id", .str "n1"), ("port", .int 51821)]) := by rfl
  ⟨h, loads_dumps_loads h⟩

end Rendezvous
