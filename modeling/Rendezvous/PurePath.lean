import Rendezvous.Text

/-!
# `pathlib` paths

The daemon names a peer's files `self.peers_dir / f"{node_id}.json"` and
`self.peers_dir / f"{node_id}.json.sig"`, with `peers_dir = Path(config["peers_dir"])`, and
hands `str(descriptor_path)` to the peer callback. `PurePath` is `pathlib.PurePosixPath`:
a root (`""`, `"/"` or, for exactly two leading slashes, `"//"`) and the components of the
text between slashes, with empty and `"."` components dropped and `".."` kept; a component is
a `str`, which may hold lone surrogates. Joining a relative text appends its components;
joining an absolute text replaces the whole path.

## What is proved

* `div_of_isPart` — joining a single component makes a direct child.
* `isPart_of_safe` — a name of `[A-Za-z0-9_.-]+` followed by a suffix that is itself such a
  name and not `"."` or `".."` is a single component.
-/

namespace Rendezvous

/-- A `pathlib.PurePosixPath`. -/
structure PurePath where
  /-- `""`, `"/"` or `"//"`. -/
  root : String
  /-- The components, without empty or `"."` ones. -/
  parts : List PyStr
  deriving DecidableEq, Repr

namespace PurePath

/-- `posixpath.splitroot`'s root of a text. -/
def rootOf : PyStr → String
  | .char '/' :: .char '/' :: .char '/' :: _ => "/"
  | .char '/' :: .char '/' :: _ => "//"
  | .char '/' :: _ => "/"
  | _ => ""

/-- A component pathlib keeps: not empty and not `"."`. -/
def keep (c : PyStr) : Bool := c ≠ [] ∧ c ≠ [.char '.']

/-- `PurePosixPath(s)`. -/
def parse (s : PyStr) : PurePath :=
  ⟨rootOf s, (s.splitOnP (· == .char '/')).filter keep⟩

/-- `p / s`. -/
def div (p : PurePath) (s : PyStr) : PurePath :=
  let q := parse s
  if q.root = "" then ⟨p.root, p.parts ++ q.parts⟩ else q

/-- `str(p)`. -/
def toStr (p : PurePath) : PyStr :=
  if p.root = "" ∧ p.parts = [] then "." else PyStr.ofString p.root ++ [.char '/'].intercalate p.parts

/-- `s` is one component: no slash, not empty, not `"."`. -/
def IsPart (s : PyStr) : Prop := .char '/' ∉ s ∧ s ≠ [] ∧ s ≠ [.char '.']

/-- `q` is a direct child of `p`: the same root and one more component. -/
def IsChild (p q : PurePath) : Prop := q.root = p.root ∧ ∃ n, IsPart n ∧ q.parts = p.parts ++ [n]

theorem parse_of_isPart {s : PyStr} (h : IsPart s) : parse s = ⟨"", [s]⟩ := by
  obtain ⟨hslash, hne, hdot⟩ := h
  have hroot : rootOf s = "" := by
    match s, hne with
    | c :: _, _ =>
      have : c ≠ .char '/' := fun hc => hslash (by simp [hc])
      simp [rootOf, this]
  have hsplit : s.splitOnP (· == .char '/') = [s] :=
    List.splitOnP_eq_single _ _ fun x hx hx' => hslash (by simpa using (beq_iff_eq.mp hx') ▸ hx)
  simp [parse, hroot, hsplit, keep, hne, hdot]

theorem div_of_isPart (p : PurePath) {s : PyStr} (h : IsPart s) :
    p.div s = ⟨p.root, p.parts ++ [s]⟩ := by
  simp [div, parse_of_isPart h]

theorem IsChild.length {p q : PurePath} (h : IsChild p q) : q.parts.length = p.parts.length + 1 := by
  obtain ⟨-, n, -, hq⟩ := h
  simp [hq]

theorem isChild_div (p : PurePath) {s : PyStr} (h : IsPart s) : IsChild p (p.div s) :=
  ⟨by rw [div_of_isPart p h], s, h, by rw [div_of_isPart p h]⟩

/-- A character of `[A-Za-z0-9_.-]`. -/
def SafeChar (c : Char) : Prop := c.isAlphanum ∨ c = '_' ∨ c = '.' ∨ c = '-'

instance : DecidablePred SafeChar := fun c =>
  inferInstanceAs (Decidable (c.isAlphanum ∨ c = '_' ∨ c = '.' ∨ c = '-'))

/-- A code point of `[A-Za-z0-9_.-]`. -/
def SafePoint : PyChar → Prop
  | .char c => SafeChar c
  | .surrogate _ => False

instance : DecidablePred SafePoint
  | .char c => inferInstanceAs (Decidable (SafeChar c))
  | .surrogate _ => isFalse id

/-- A text matching `[A-Za-z0-9_.-]+`. -/
def SafeName (s : PyStr) : Prop := s ≠ [] ∧ ∀ c ∈ s, SafePoint c

instance : DecidablePred SafeName := fun s =>
  inferInstanceAs (Decidable (s ≠ [] ∧ ∀ c ∈ s, SafePoint c))

theorem slash_not_safe : ¬ SafePoint (.char '/') := by decide

theorem isPart_of_safe {n suffix : PyStr} (hn : SafeName n) (hs : SafeName suffix)
    (hdot : suffix.length ≥ 2) : IsPart (n ++ suffix) := by
  refine ⟨fun h => ?_, ?_, ?_⟩
  · rcases List.mem_append.mp h with h | h
    · exact slash_not_safe (hn.2 _ h)
    · exact slash_not_safe (hs.2 _ h)
  · simp only [ne_eq, List.append_eq_nil, hn.1, false_and, not_false_eq_true]
  · intro h
    have := congrArg List.length h
    rw [List.length_append, List.length_singleton] at this
    omega

end PurePath

end Rendezvous
