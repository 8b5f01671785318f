import Rendezvous.Struct

/-!
# Python text

The `str` operations the two scripts apply to configuration lines, to the peer callback and
to received bytes, as CPython defines them: `str.isspace`, `str.strip()` and `str.strip(cs)`,
`str.split()`, the lines of a file read in text mode, `int()` on a text, and the strict UTF-8
`bytes.decode()`.

A Python `str` read from a file or decoded from UTF-8 is a Lean `String`; the functions work
on its list of characters. A `str` that `json.loads` returns can also hold lone surrogates,
which a Lean `Char` cannot: it is a `PyStr`, the list of its code points (`PyChar`).

## Honest scope

`int()` reads ASCII digits only; CPython also accepts the other Unicode decimal digits.
-/

namespace Rendezvous

/-- `c.isspace()`: the characters CPython counts as whitespace. -/
def isSpace (c : Char) : Bool :=
  let n := c.toNat
  (9 ≤ n && n ≤ 13) || (28 ≤ n && n ≤ 32) || n == 0x85 || n == 0xA0 || n == 0x1680 ||
    (0x2000 ≤ n && n ≤ 0x200A) || n == 0x2028 || n == 0x2029 || n == 0x202F || n == 0x205F ||
    n == 0x3000

/-- Drop the characters satisfying `p` from both ends of `s`. -/
def stripBy (p : Char → Bool) (s : String) : String :=
  ⟨((s.data.dropWhile p).reverse.dropWhile p).reverse⟩

/-- `s.strip()`. -/
def strip (s : String) : String := stripBy isSpace s

/-- `s.strip(cs)`: drop every character of `cs` from both ends. -/
def stripChars (cs : List Char) (s : String) : String := stripBy cs.contains s

/-- `s.split()`: the maximal runs of characters that are not whitespace. -/
def splitWs (s : String) : List String :=
  ((s.data.splitOnP isSpace).filter (· ≠ [])).map String.mk

/-- `s.startswith(c)` for one character. -/
def startsWith (s : String) (c : Char) : Bool := s.data.head? == some c

/-- `s.split(c, 1)` when `c in s`: the text before the first `c` and the text after it. -/
def splitOnce (c : Char) (s : String) : String × String :=
  ⟨⟨s.data.takeWhile (· ≠ c)⟩, ⟨(s.data.dropWhile (· ≠ c)).drop 1⟩⟩

section Strip

variable {p : Char → Bool}

theorem dropWhile_eq_self_of_head {l : List Char} (h : ∀ c ∈ l.head?, p c = false) :
    l.dropWhile p = l := by
  cases l with
  | nil => rfl
  | cons c l => simp [h c rfl]

/-- A text whose two end characters are kept is its own strip. -/
theorem stripBy_eq_self {s : String} (h₁ : ∀ c ∈ s.data.head?, p c = false)
    (h₂ : ∀ c ∈ s.data.getLast?, p c = false) : stripBy p s = s := by
  rw [stripBy, dropWhile_eq_self_of_head h₁, dropWhile_eq_self_of_head (by simpa using h₂),
    List.reverse_reverse]

theorem stripBy_cons {c : Char} {l : List Char} (hc : p c) : stripBy p ⟨c :: l⟩ = stripBy p ⟨l⟩ := by
  simp [stripBy, hc]

/-- A stripped character on each side changes nothing: `strip(cs)` removes them all. -/
theorem stripBy_wrap {c : Char} {l : List Char} (hc : p c) :
    stripBy p ⟨c :: l ++ [c]⟩ = stripBy p ⟨l⟩ := by
  simp only [stripBy, List.cons_append, List.dropWhile_cons_of_pos hc, List.dropWhile_append]
  split
  · next h => simp [List.isEmpty_iff.mp h, hc]
  · simp [hc]

/-- A stripped character after a text whose two end characters are kept goes, and only it. -/
theorem stripBy_append_singleton {c : Char} {l : List Char} (hc : p c)
    (h₁ : ∀ x ∈ l.head?, p x = false) (h₂ : ∀ x ∈ l.getLast?, p x = false) :
    stripBy p ⟨l ++ [c]⟩ = ⟨l⟩ := by
  rcases l with _ | ⟨a, l⟩
  · simp [stripBy, hc]
  · have hfront : (a :: l ++ [c]).dropWhile p = a :: l ++ [c] :=
      dropWhile_eq_self_of_head (by simpa using h₁)
    have hback : (a :: l).reverse.dropWhile p = (a :: l).reverse :=
      dropWhile_eq_self_of_head (by rw [List.head?_reverse]; exact h₂)
    simp only [stripBy, hfront, List.reverse_append, List.reverse_singleton, List.singleton_append,
      List.dropWhile_cons_of_pos hc, hback, List.reverse_reverse]

end Strip

/-! ### Reading a file in text mode -/

/-- Universal newlines: `"\r\n"` and a lone `"\r"` read as `"\n"`. -/
def translateNewlines : List Char → List Char
  | '\r' :: '\n' :: cs => '\n' :: translateNewlines cs
  | '\r' :: cs => '\n' :: translateNewlines cs
  | c :: cs => c :: translateNewlines cs
  | [] => []

/-- The lines `for line in f` yields, without their `"\n"` (every caller strips it), and with
one more empty line when the text ends with `"\n"` (every caller skips empty lines). -/
def fileLines (text : String) : List String :=
  ((translateNewlines text.data).splitOn '\n').map String.mk

theorem translateNewlines_of_not_mem {cs : List Char} (h : '\r' ∉ cs) : translateNewlines cs = cs := by
  induction cs with
  | nil => rfl
  | cons c cs ih =>
    have hc : c ≠ '\r' := fun hc => h (hc ▸ List.mem_cons_self _ _)
    rw [translateNewlines.eq_3 c cs (fun _ h' => absurd h' hc) hc, ih (fun h' => h (List.mem_cons_of_mem _ h'))]

/-- A text without a line break is one line. -/
theorem fileLines_single {s : String} (hn : '\n' ∉ s.data) (hr : '\r' ∉ s.data) : fileLines s = [s] := by
  rw [fileLines, translateNewlines_of_not_mem hr, List.splitOn, List.splitOnP_eq_single]
  · rfl
  · intro x hx
    simp only [beq_iff_eq]
    rintro rfl
    exact hn hx

/-! ### `int()` -/

/-- Decimal digits with single underscores between them, read onto `acc`; `needDigit` says
that the next character must be a digit (at the start, and after an underscore). -/
def decimalDigits : List Char → Bool → ℕ → Except PyError ℕ
  | [], needDigit, acc => if needDigit then .error .valueError else .ok acc
  | c :: cs, needDigit, acc =>
    if c.isDigit then decimalDigits cs false (acc * 10 + (c.toNat - '0'.toNat))
    else if c = '_' ∧ !needDigit then decimalDigits cs true acc
    else .error .valueError

/-- `int(s)` for a text: surrounding whitespace, an optional sign, then decimal digits. -/
def pyInt (s : String) : Except PyError ℤ :=
  match (strip s).data with
  | '-' :: ds => (decimalDigits ds true 0).map fun n => -(n : ℤ)
  | '+' :: ds => (decimalDigits ds true 0).map fun n => (n : ℤ)
  | ds => (decimalDigits ds true 0).map fun n => (n : ℤ)

/-! ### `bytes.decode()` -/

/-- A UTF-8 continuation octet `10xxxxxx`. -/
def isCont (b : UInt8) : Bool := 0x80 ≤ b.toNat && b.toNat < 0xC0

/-- The character of a code point that strict UTF-8 may encode with `len` octets: not an
overlong form, not a surrogate, not above `U+10FFFF`. -/
def utf8Char (len cp : ℕ) : Except PyError Char :=
  let least := if len = 2 then 0x80 else if len = 3 then 0x800 else 0x10000
  if least ≤ cp ∧ cp ≤ 0x10FFFF ∧ ¬(0xD800 ≤ cp ∧ cp ≤ 0xDFFF) then .ok (Char.ofNat cp)
  else .error .unicodeDecode

/-- Strict UTF-8 decoding, as `bytes.decode()` does it. -/
def utf8Chars : Bytes → Except PyError (List Char)
  | [] => .ok []
  | b₁ :: bs =>
    let n := b₁.toNat
    if n < 0x80 then (Char.ofNat n :: ·) <$> utf8Chars bs
    else if n < 0xC0 then .error .unicodeDecode
    else if n < 0xE0 then
      match bs with
      | b₂ :: bs =>
        if isCont b₂ then do
          let c ← utf8Char 2 ((n % 0x20) * 0x40 + b₂.toNat % 0x40)
          (c :: ·) <$> utf8Chars bs
        else .error .unicodeDecode
      | [] => .error .unicodeDecode
    else if n < 0xF0 then
      match bs with
      | b₂ :: b₃ :: bs =>
        if isCont b₂ && isCont b₃ then do
          let c ← utf8Char 3 ((n % 0x10) * 0x1000 + (b₂.toNat % 0x40) * 0x40 + b₃.toNat % 0x40)
          (c :: ·) <$> utf8Chars bs
        else .error .unicodeDecode
      | _ => .error .unicodeDecode
    else if n < 0xF5 then
      match bs with
      | b₂ :: b₃ :: b₄ :: bs =>
        if isCont b₂ && isCont b₃ && isCont b₄ then do
          let c ← utf8Char 4 ((n % 0x08) * 0x40000 + (b₂.toNat % 0x40) * 0x1000 +
            (b₃.toNat % 0x40) * 0x40 + b₄.toNat % 0x40)
          (c :: ·) <$> utf8Chars bs
        else .error .unicodeDecode
      | _ => .error .unicodeDecode
    else .error .unicodeDecode

/-- `b.decode()`. -/
def decodeUtf8 (b : Bytes) : Except PyError String := String.mk <$> utf8Chars b

/-! ### Code points -/

/-- A code point of a Python `str`: a Unicode scalar value, which is a Lean `Char`, or the lone
surrogate `U+D800 + n`, which a `str` can hold (`json.loads` makes one of a `\ud800` escape)
and a `Char` cannot. -/
inductive PyChar where
  /-- A Unicode scalar value. -/
  | char (c : Char)
  /-- The lone surrogate `U+D800 + n`. -/
  | surrogate (n : Fin 0x800)
  deriving DecidableEq, Repr

/-- A Python `str`, as its code points. -/
abbrev PyStr := List PyChar

/-- The `str` of a Lean text. -/
def PyStr.ofString (s : String) : PyStr := s.data.map .char

instance : Coe String PyStr := ⟨PyStr.ofString⟩

@[simp] theorem PyStr.ofString_append (s t : String) :
    PyStr.ofString (s ++ t) = PyStr.ofString s ++ PyStr.ofString t := by
  simp [PyStr.ofString]

namespace PyChar

/-- The code point of the code unit `u < 0x10000` that a `\uXXXX` escape names. -/
def ofCodeUnit (u : ℕ) : PyChar :=
  if h : 0xD800 ≤ u ∧ u ≤ 0xDFFF then .surrogate ⟨u - 0xD800, by omega⟩ else .char (Char.ofNat u)

/-- A high surrogate, `U+D800`–`U+DBFF`. -/
def isHigh : PyChar → Bool
  | .surrogate n => n.val < 0x400
  | .char _ => false

/-- A low surrogate, `U+DC00`–`U+DFFF`. -/
def isLow : PyChar → Bool
  | .surrogate n => 0x400 ≤ n.val
  | .char _ => false

/-- `os.fsencode` encodes the code point and no NUL comes of it: UTF-8 with `surrogateescape`
carries a lone surrogate `U+DC80`–`U+DCFF` back to the octet it escapes, and raises
`UnicodeEncodeError` on any other. -/
def fsEncodable : PyChar → Bool
  | .char c => c ≠ '\x00'
  | .surrogate n => 0x480 ≤ n.val && n.val < 0x500

end PyChar

/-- `open(s)` gets past turning the path `s` into the octets of its system call: `os.fsencode`,
then the check for an embedded NUL (`ValueError`). -/
def PyStr.canOpen (s : PyStr) : Bool := s.all PyChar.fsEncodable

/-- The octets of an ASCII text, as a file opened for text writes them. -/
def asciiBytes (s : String) : Bytes := s.data.map fun c => UInt8.ofNat c.toNat

end Rendezvous
