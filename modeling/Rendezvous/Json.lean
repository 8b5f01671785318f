import Rendezvous.Text
import Rendezvous.Float

/-!
# JSON values as Python holds them

`json.loads` turns a peer's descriptor into a Python value; the daemon reads its `node_id`
with `dict.get`, tests it for truth, compares it with its own, looks it up in the set
`known_peers` and formats it into a file name; it writes the descriptor back with
`json.dump(…, indent=2)`. This module gives those values (`Json`) and operations, the
hashable node ids (`NodeId`) with Python's `==` (under which `True == 1`), and the
library's parser (`loads`) and encoders (`dumps`, `dumpIndent2`), following CPython's
`json.decoder` and `json.encoder`. A number with a fraction or an exponent, and `NaN`,
`Infinity`, `-Infinity`, decode to floats (`PyFloat`).

A `str` is a `PyStr`, its code points: `loads` reads a `\uXXXX` escape of a surrogate that no
low surrogate escape follows as that lone surrogate, as CPython's `scanstring` does.

## Honest scope

The parser runs on fuel twice the length of its input, which a value never exhausts;
CPython's recursion limit on deep nesting is not modelled.
-/

namespace Rendezvous

/-- A value `json.loads` returns: `None`, a `bool`, an `int`, a `float`, a `str`, a `list` or
a `dict` (its items, one per key, in insertion order). -/
inductive Json where
  /-- `None`. -/
  | null
  /-- `True` or `False`. -/
  | bool (b : Bool)
  /-- An `int`. -/
  | int (n : ℤ)
  /-- A `float`. -/
  | float (x : PyFloat)
  /-- A `str`. -/
  | str (s : PyStr)
  /-- A `list`. -/
  | arr (xs : List Json)
  /-- A `dict` with string keys. -/
  | obj (kvs : List (PyStr × Json))
  deriving Repr

namespace Json

/-- `bool(v)`: `None`, `False`, `0`, the zero floats, `""`, `[]` and `{}` are false. -/
def truthy : Json → Bool
  | .null => false
  | .bool b => b
  | .int n => n != 0
  | .float x => x.truthy
  | .str s => !s.isEmpty
  | .arr xs => !xs.isEmpty
  | .obj kvs => !kvs.isEmpty

/-- `v.get(k)`: the value under `k` of a `dict`; any other value has no `get`. -/
def get (v : Json) (k : PyStr) : Except PyError (Option Json) :=
  match v with
  | .obj kvs => .ok (kvs.lookup k)
  | _ => .error .attributeError

@[simp] theorem get_obj (kvs : List (PyStr × Json)) (k : PyStr) :
    (Json.obj kvs).get k = .ok (kvs.lookup k) := rfl

theorem get_ok_iff {v : Json} {k : PyStr} {r : Option Json} :
    v.get k = .ok r ↔ ∃ kvs, v = .obj kvs ∧ r = kvs.lookup k := by
  cases v <;> simp [get, eq_comm]

theorem get_error_iff {v : Json} {k : PyStr} {e : PyError} :
    v.get k = .error e ↔ e = .attributeError ∧ ∀ kvs, v ≠ .obj kvs := by
  cases v <;> simp [get, eq_comm]

end Json

/-! ### Node ids -/

/-- A value Python can hash and `known_peers` can hold: a `bool`, an `int`, a `float` or a
`str`. -/
inductive NodeId where
  /-- `True` or `False`. -/
  | bool (b : Bool)
  /-- An `int`. -/
  | int (n : ℤ)
  /-- A `float`. -/
  | float (x : PyFloat)
  /-- A `str`. -/
  | str (s : PyStr)
  deriving DecidableEq, Repr

namespace NodeId

/-- The value with `bool` and whole floats read as `int`: Python's `True == 1 == 1.0`, with
equal hashes. -/
def norm : NodeId → NodeId
  | .bool b => .int (if b then 1 else 0)
  | .float x => match x.toInt? with
    | some n => .int n
    | none => .float x
  | k => k

/-- `a == b` in Python: `nan` equals nothing, itself included. -/
def pyEq (a b : NodeId) : Prop := a.norm = b.norm ∧ a.norm ≠ .float .nan

instance : DecidableRel pyEq :=
  fun a b => inferInstanceAs (Decidable (a.norm = b.norm ∧ a.norm ≠ .float .nan))

theorem pyEq.symm {a b : NodeId} (h : pyEq a b) : pyEq b a := ⟨h.1.symm, h.1 ▸ h.2⟩

/-- `str(v)`, which the f-string `f"{node_id}.json"` formats. -/
def pyStr : NodeId → PyStr
  | .bool b => if b then "True" else "False"
  | .int n => toString n
  | .float x => x.repr
  | .str s => s

/-- `a` and `b` are one element of a Python set of node ids that `json.loads` returned: equal
hashes, and `a == b` or the same object. `json.loads` returns its one `nan` object
(`json.decoder.NaN`) for every `NaN`, so a `nan` is found by identity though it equals
nothing. -/
def sameInSet (a b : NodeId) : Prop := a.norm = b.norm

instance : DecidableRel sameInSet := fun a b => inferInstanceAs (Decidable (a.norm = b.norm))

/-- `k in s` for a Python set `s` of node ids that `json.loads` returned. -/
def PyMem (k : NodeId) (s : List NodeId) : Prop := ∃ k' ∈ s, sameInSet k' k

instance (k : NodeId) (s : List NodeId) : Decidable (PyMem k s) :=
  inferInstanceAs (Decidable (∃ k' ∈ s, sameInSet k' k))

end NodeId

/-- The node id a decoded `node_id` names, if Python can hash it: a `list` or a `dict`
raises `TypeError` at `node_id in self.known_peers`. -/
def Json.nodeId? : Json → Option NodeId
  | .bool b => some (.bool b)
  | .int n => some (.int n)
  | .float x => some (.float x)
  | .str s => some (.str s)
  | _ => none

/-! ### `json.loads` -/

/-- JSON whitespace: space, tab, newline, carriage return. -/
def isJsonWs (c : Char) : Bool := c == ' ' || c == '\t' || c == '\n' || c == '\r'

/-- Skip JSON whitespace. -/
def skipWs (cs : List Char) : List Char := cs.dropWhile isJsonWs

/-- The value of a hexadecimal digit. -/
def hexVal (c : Char) : Option ℕ :=
  if c.isDigit then some (c.toNat - '0'.toNat)
  else if 'a' ≤ c ∧ c ≤ 'f' then some (c.toNat - 'a'.toNat + 10)
  else if 'A' ≤ c ∧ c ≤ 'F' then some (c.toNat - 'A'.toNat + 10)
  else none

/-- The code unit of the four hexadecimal digits of a `\uXXXX` escape. -/
def hex4 (a b c d : Char) : Option ℕ := do
  return (← hexVal a) * 4096 + (← hexVal b) * 256 + (← hexVal c) * 16 + (← hexVal d)

/-- The body of a string after its opening quote, onto the reversed `acc`, as
`json.decoder.scanstring` reads it with `strict=True`. A high surrogate escape joins the low
surrogate escape right after it into one character; with anything else after it, it is a
lone surrogate, and what follows is read afresh. -/
def scanString : List Char → PyStr → Except PyError (PyStr × List Char)
  | '"' :: cs, acc => .ok (acc.reverse, cs)
  | '\\' :: 'u' :: a :: b :: c :: d :: '\\' :: 'u' :: e :: f :: g :: h :: cs, acc =>
    match hex4 a b c d with
    | none => .error .jsonDecode
    | some u =>
      if 0xD800 ≤ u ∧ u ≤ 0xDBFF then
        match hex4 e f g h with
        | some l =>
          if 0xDC00 ≤ l ∧ l ≤ 0xDFFF then
            scanString cs (.char (Char.ofNat (0x10000 + (u - 0xD800) * 0x400 + (l - 0xDC00))) :: acc)
          else scanString ('\\' :: 'u' :: e :: f :: g :: h :: cs) (.ofCodeUnit u :: acc)
        | none => .error .jsonDecode
      else scanString ('\\' :: 'u' :: e :: f :: g :: h :: cs) (.ofCodeUnit u :: acc)
  | '\\' :: 'u' :: a :: b :: c :: d :: cs, acc =>
    match hex4 a b c d with
    | none => .error .jsonDecode
    | some u => scanString cs (.ofCodeUnit u :: acc)
  | '\\' :: e :: cs, acc =>
    match e with
    | '"' => scanString cs (.char '"' :: acc)
    | '\\' => scanString cs (.char '\\' :: acc)
    | '/' => scanString cs (.char '/' :: acc)
    | 'b' => scanString cs (.char '\x08' :: acc)
    | 'f' => scanString cs (.char '\x0c' :: acc)
    | 'n' => scanString cs (.char '\n' :: acc)
    | 'r' => scanString cs (.char '\r' :: acc)
    | 't' => scanString cs (.char '\t' :: acc)
    | _ => .error .jsonDecode
  | c :: cs, acc => if c.toNat < 0x20 then .error .jsonDecode else scanString cs (.char c :: acc)
  | [], _ => .error .jsonDecode

/-- The text after a `\uXXXX` escape does not go on with the escape of a low surrogate, nor
with a broken one. -/
def NoLowNext (cs : List Char) : Prop :=
  ∀ e f g k rest, cs = '\\' :: 'u' :: e :: f :: g :: k :: rest →
    ∃ l, hex4 e f g k = some l ∧ ¬(0xDC00 ≤ l ∧ l ≤ 0xDFFF)

/-- `scanString` at a `\uXXXX` escape that starts no surrogate pair: its code unit, a lone
surrogate if it is one. -/
theorem scanString_unit {a b c d : Char} {u : ℕ} (h : hex4 a b c d = some u) {cs : List Char}
    (hcs : 0xD800 ≤ u ∧ u ≤ 0xDBFF → NoLowNext cs) (acc : PyStr) :
    scanString ('\\' :: 'u' :: a :: b :: c :: d :: cs) acc = scanString cs (.ofCodeUnit u :: acc) := by
  by_cases hc : ∃ e f g k rest, cs = '\\' :: 'u' :: e :: f :: g :: k :: rest
  · obtain ⟨e, f, g, k, rest, rfl⟩ := hc
    rw [scanString.eq_2, h]
    dsimp only
    split_ifs with hu
    · obtain ⟨l, hl, hnl⟩ := hcs hu e f g k rest rfl
      rw [hl]
      exact if_neg hnl
    · rfl
  · rw [scanString.eq_3 _ _ _ _ _ _ fun e f g k rest he => hc ⟨e, f, g, k, rest, he⟩, h]

/-- `scanString` at a surrogate pair of `\uXXXX` escapes: the character they encode. -/
theorem scanString_surrogates {a b c d e f g k : Char} {u l : ℕ} (h : hex4 a b c d = some u)
    (hu : 0xD800 ≤ u ∧ u ≤ 0xDBFF) (h' : hex4 e f g k = some l) (hl : 0xDC00 ≤ l ∧ l ≤ 0xDFFF)
    (cs : List Char) (acc : PyStr) :
    scanString ('\\' :: 'u' :: a :: b :: c :: d :: '\\' :: 'u' :: e :: f :: g :: k :: cs) acc =
      scanString cs (.char (Char.ofNat (0x10000 + (u - 0xD800) * 0x400 + (l - 0xDC00))) :: acc) := by
  rw [scanString.eq_2, h]
  dsimp only
  rw [if_pos hu, h']
  exact if_pos hl

/-- The number that decimal digits spell. -/
def digitsValue (ds : List Char) : ℕ := ds.foldl (fun acc c => acc * 10 + (c.toNat - '0'.toNat)) 0

/-- The fraction `.ddd` at the head of `cs`: its digits, none when there is no fraction, and
what follows. -/
def scanFrac : List Char → List Char × List Char
  | '.' :: cs =>
    if (cs.takeWhile Char.isDigit).isEmpty then ([], '.' :: cs)
    else (cs.takeWhile Char.isDigit, cs.dropWhile Char.isDigit)
  | cs => ([], cs)

/-- The exponent `e±ddd` at the head of `cs`, if there is one: its value and what follows. -/
def scanExp : List Char → Option (ℤ × List Char)
  | c :: cs =>
    if c = 'e' ∨ c = 'E' then
      match cs with
      | '+' :: ds | '-' :: ds | ds =>
        if (ds.takeWhile Char.isDigit).isEmpty then none
        else some ((if cs.head? = some '-' then -1 else 1) * digitsValue (ds.takeWhile Char.isDigit),
          ds.dropWhile Char.isDigit)
    else none
  | [] => none

/-- A number at the head of `cs`, as `NUMBER_RE` matches it: `-?(0|[1-9][0-9]*)` alone is an
`int` (CPython refuses more than 4300 digits with `ValueError`); with a fraction `.ddd` or an
exponent `e±ddd` after it, a `float`. -/
def scanNumber (cs : List Char) : Except PyError (Json × List Char) :=
  let (neg, ds) := match cs with
    | '-' :: ds => (true, ds)
    | ds => (false, ds)
  let intPart := match ds with
    | '0' :: _ => ['0']
    | ds => ds.takeWhile Char.isDigit
  if intPart.isEmpty then .error .jsonDecode
  else
    match scanFrac (ds.drop intPart.length), scanExp (scanFrac (ds.drop intPart.length)).2 with
    | ([], rest), none =>
      if 4300 < intPart.length then .error .valueError
      else .ok (.int (if neg then -(digitsValue intPart : ℤ) else digitsValue intPart), rest)
    | (frac, rest), ex =>
      .ok (.float (.ofDecimal neg (digitsValue (intPart ++ frac)) ((ex.map Prod.fst).getD 0 - frac.length)),
        (ex.map Prod.snd).getD rest)

/-! ### Reading a number back

Lemmas that take `scanNumber` apart on an integer part it reads whole; they sit beside it so
that they speak of its own `match`es. -/

/-- No digit comes next. -/
def NoDigit (cs : List Char) : Prop := ∀ c ∈ cs.head?, c.isDigit = false

/-- The digits of a JSON integer part: `0`, or digits without a leading zero. -/
def IntDigits (I : List Char) : Prop :=
  (∀ c ∈ I, c.isDigit = true) ∧ (I = ['0'] ∨ ∃ c I', I = c :: I' ∧ c ≠ '0')

theorem takeWhile_isDigit {I tail : List Char} (hI : ∀ c ∈ I, c.isDigit = true) (ht : NoDigit tail) :
    (I ++ tail).takeWhile Char.isDigit = I := by
  rw [List.takeWhile_append_of_pos hI]
  cases tail with
  | nil => simp
  | cons c cs => simp [List.takeWhile_cons, ht c rfl]

theorem dropWhile_isDigit {I tail : List Char} (hI : ∀ c ∈ I, c.isDigit = true) (ht : NoDigit tail) :
    (I ++ tail).dropWhile Char.isDigit = tail := by
  rw [List.dropWhile_append_of_pos hI]
  cases tail with
  | nil => simp
  | cons c cs => simp [List.dropWhile_cons, ht c rfl]

theorem scanNumber_sign (neg : Bool) {I tail : List Char} (hI : IntDigits I) :
    (match (if neg then '-' :: I else I) ++ tail with
      | '-' :: ds => (true, ds)
      | ds => (false, ds)) = (neg, I ++ tail) := by
  obtain ⟨hd, h | ⟨c, I', rfl, -⟩⟩ := hI
  · subst h; cases neg <;> rfl
  · have : c ≠ '-' := fun h => by simp [h] at hd
    cases neg
    · simp only [Bool.false_eq_true, ↓reduceIte, List.cons_append]
      split
      · next h => simp at h; exact absurd h.1 this
      · rfl
    · rfl

theorem scanNumber_intPart {I tail : List Char} (hI : IntDigits I) (ht : NoDigit tail) :
    (match I ++ tail with
      | '0' :: _ => ['0']
      | ds => ds.takeWhile Char.isDigit) = I := by
  obtain ⟨hd, h | ⟨c, I', rfl, hc⟩⟩ := hI
  · subst h; rfl
  · rw [List.cons_append]
    split
    · next h => simp at h; exact absurd h.1 hc
    · exact takeWhile_isDigit hd ht

/-- `scanNumber` on a sign, an integer part and what follows it: the integer part is read
whole, and what is left to do is the fraction and the exponent. -/
theorem scanNumber_parts (neg : Bool) {I tail : List Char} (hI : IntDigits I) (ht : NoDigit tail) :
    scanNumber ((if neg then '-' :: I else I) ++ tail) =
      match scanFrac tail, scanExp (scanFrac tail).2 with
      | ([], rest), none =>
        if 4300 < I.length then .error .valueError
        else .ok (.int (if neg then -(digitsValue I : ℤ) else digitsValue I), rest)
      | (frac, rest), ex =>
        .ok (.float (.ofDecimal neg (digitsValue (I ++ frac)) ((ex.map Prod.fst).getD 0 - frac.length)),
          (ex.map Prod.snd).getD rest) := by
  have hne : I.isEmpty = false := by
    obtain ⟨-, h | ⟨c, I', h, -⟩⟩ := hI <;> rw [h] <;> rfl
  unfold scanNumber
  rw [scanNumber_sign neg hI]
  dsimp only
  rw [scanNumber_intPart hI ht, hne, List.drop_left]
  rfl

/-- What `scanNumber` accepts: an `int` of at most 4300 digits, or a decimal rounded to a
float. -/
theorem scanNumber_ok {cs r : List Char} {v : Json} (h : scanNumber cs = .ok (v, r)) :
    (∃ I : List Char, (∀ c ∈ I, c.isDigit = true) ∧ I.length ≤ 4300 ∧
      ∃ neg : Bool, v = .int (if neg then -(digitsValue I : ℤ) else digitsValue I)) ∨
    ∃ neg mant e, v = .float (.ofDecimal neg mant e) := by
  unfold scanNumber at h
  generalize (match cs with
    | '-' :: ds => (true, ds)
    | ds => (false, ds)) = p at h
  obtain ⟨neg, ds⟩ := p
  dsimp only at h
  generalize hI : (match ds with
    | '0' :: _ => ['0']
    | ds => ds.takeWhile Char.isDigit) = I at h
  have hd : ∀ c ∈ I, c.isDigit = true := by
    subst hI
    split
    · intro c hc; rw [List.mem_singleton.mp hc]; rfl
    · exact fun c hc => List.mem_takeWhile_imp hc
  split at h
  · cases h
  split at h
  · split at h
    · cases h
    · cases h
      exact .inl ⟨I, hd, by omega, neg, rfl⟩
  · cases h
    exact .inr ⟨_, _, _, rfl⟩

/-- `d[k] = v` on the items of a `dict`: a repeated key keeps its place and takes the new
value. -/
def setKey (k : PyStr) (v : Json) : List (PyStr × Json) → List (PyStr × Json)
  | [] => [(k, v)]
  | (k', v') :: kvs => if k' = k then (k, v) :: kvs else (k', v') :: setKey k v kvs

mutual
/-- A value after optional whitespace (`scan_once`). -/
def parseValue : ℕ → List Char → Except PyError (Json × List Char)
  | 0, _ => .error .jsonDecode
  | fuel + 1, cs =>
    match skipWs cs with
    | '{' :: rest =>
      match skipWs rest with
      | '}' :: rest => .ok (.obj [], rest)
      | rest => parseMembers fuel rest []
    | '[' :: rest =>
      match skipWs rest with
      | ']' :: rest => .ok (.arr [], rest)
      | rest => parseElements fuel rest []
    | '"' :: rest => (fun (s, r) => (Json.str s, r)) <$> scanString rest []
    | 'n' :: 'u' :: 'l' :: 'l' :: rest => .ok (.null, rest)
    | 't' :: 'r' :: 'u' :: 'e' :: rest => .ok (.bool true, rest)
    | 'f' :: 'a' :: 'l' :: 's' :: 'e' :: rest => .ok (.bool false, rest)
    | 'N' :: 'a' :: 'N' :: rest => .ok (.float .nan, rest)
    | 'I' :: 'n' :: 'f' :: 'i' :: 'n' :: 'i' :: 't' :: 'y' :: rest => .ok (.float (.inf false), rest)
    | '-' :: 'I' :: 'n' :: 'f' :: 'i' :: 'n' :: 'i' :: 't' :: 'y' :: rest =>
      .ok (.float (.inf true), rest)
    | rest => scanNumber rest
/-- The elements of a non-empty list, up to its `]` (`JSONArray`). -/
def parseElements : ℕ → List Char → List Json → Except PyError (Json × List Char)
  | 0, _, _ => .error .jsonDecode
  | fuel + 1, cs, acc => do
    let (v, rest) ← parseValue fuel cs
    match skipWs rest with
    | ',' :: rest => parseElements fuel rest (v :: acc)
    | ']' :: rest => .ok (.arr (v :: acc).reverse, rest)
    | _ => .error .jsonDecode
/-- The members of a non-empty object, up to its `}` (`JSONObject`). -/
def parseMembers : ℕ → List Char → List (PyStr × Json) → Except PyError (Json × List Char)
  | 0, _, _ => .error .jsonDecode
  | fuel + 1, cs, acc =>
    match skipWs cs with
    | '"' :: rest => do
      let (k, rest) ← scanString rest []
      match skipWs rest with
      | ':' :: rest => do
        let (v, rest) ← parseValue fuel rest
        match skipWs rest with
        | ',' :: rest => parseMembers fuel rest (setKey k v acc)
        | '}' :: rest => .ok (.obj (setKey k v acc), rest)
        | _ => .error .jsonDecode
      | _ => .error .jsonDecode
    | _ => .error .jsonDecode
end

/-- `json.loads(s)`: one value, surrounded by whitespace only. -/
def loads (s : String) : Except PyError Json := do
  let (v, rest) ← parseValue (2 * s.length + 2) s.data
  if skipWs rest = [] then .ok v else .error .jsonDecode

/-- `json.loads(b.decode())`, as the daemon and the client read a frame's body. -/
def loadsBytes (b : Bytes) : Except PyError Json := do
  loads (← decodeUtf8 b)

/-! ### `json.dumps` and `json.dump(…, indent=2)` -/

/-- The four lowercase hexadecimal digits of `'\\u{0:04x}'.format(n)`. -/
def hexDigits4 (n : ℕ) : List Char :=
  [n / 4096 % 16, n / 256 % 16, n / 16 % 16, n % 16].map fun d =>
    if d < 10 then Char.ofNat (d + '0'.toNat) else Char.ofNat (d - 10 + 'a'.toNat)

/-- One character as `py_encode_basestring_ascii` writes it (`ensure_ascii=True`). -/
def escapeChar (c : Char) : List Char :=
  match c with
  | '"' => ['\\', '"']
  | '\\' => ['\\', '\\']
  | '\n' => ['\\', 'n']
  | '\r' => ['\\', 'r']
  | '\t' => ['\\', 't']
  | '\x08' => ['\\', 'b']
  | '\x0c' => ['\\', 'f']
  | c =>
    if ' ' ≤ c ∧ c ≤ '~' then [c]
    else if c.toNat < 0x10000 then '\\' :: 'u' :: hexDigits4 c.toNat
    else
      let v := c.toNat - 0x10000
      '\\' :: 'u' :: hexDigits4 (0xD800 + v / 0x400) ++ '\\' :: 'u' :: hexDigits4 (0xDC00 + v % 0x400)

/-- One code point as `py_encode_basestring_ascii` writes it: a lone surrogate as the
`\uXXXX` escape of its code unit. -/
def escapeCodePoint : PyChar → List Char
  | .char c => escapeChar c
  | .surrogate n => '\\' :: 'u' :: hexDigits4 (0xD800 + n)

/-- A string literal. -/
def encodeString (s : PyStr) : List Char := '"' :: s.flatMap escapeCodePoint ++ ['"']

/-- What comes between two items at nesting `lvl`, and after the opening bracket: a newline
and `2 * lvl` spaces with `indent=2`, nothing without. -/
def newlineIndent (indent : Bool) (lvl : ℕ) : List Char :=
  if indent then '\n' :: List.replicate (2 * lvl) ' ' else []

/-- The item separator: `","` with an indent, `", "` without. -/
def itemSep (indent : Bool) (lvl : ℕ) : List Char :=
  if indent then ',' :: newlineIndent true lvl else [',', ' ']

mutual
/-- `json.encoder._make_iterencode` of a value at nesting `lvl`. -/
def encode (indent : Bool) (lvl : ℕ) : Json → List Char
  | .null => "null".data
  | .bool b => if b then "true".data else "false".data
  | .int n => (toString n).data
  | .float x => x.jsonText.data
  | .str s => encodeString s
  | .arr [] => ['[', ']']
  | .arr (x :: xs) =>
    '[' :: newlineIndent indent (lvl + 1) ++ encode indent (lvl + 1) x ++
      encodeElems indent (lvl + 1) xs ++ newlineIndent indent lvl ++ [']']
  | .obj [] => ['{', '}']
  | .obj ((k, v) :: kvs) =>
    '{' :: newlineIndent indent (lvl + 1) ++ encodeString k ++ [':', ' '] ++
      encode indent (lvl + 1) v ++ encodeMembers indent (lvl + 1) kvs ++
      newlineIndent indent lvl ++ ['}']
/-- The elements after the first. -/
def encodeElems (indent : Bool) (lvl : ℕ) : List Json → List Char
  | [] => []
  | x :: xs => itemSep indent lvl ++ encode indent lvl x ++ encodeElems indent lvl xs
/-- The members after the first. -/
def encodeMembers (indent : Bool) (lvl : ℕ) : List (PyStr × Json) → List Char
  | [] => []
  | (k, v) :: kvs =>
    itemSep indent lvl ++ encodeString k ++ [':', ' '] ++ encode indent lvl v ++
      encodeMembers indent lvl kvs
end

/-- `json.dumps(v)`. -/
def dumps (v : Json) : String := ⟨encode false 0 v⟩

/-- What `json.dump(v, f, indent=2)` writes. -/
def dumpIndent2 (v : Json) : String := ⟨encode true 0 v⟩

end Rendezvous
