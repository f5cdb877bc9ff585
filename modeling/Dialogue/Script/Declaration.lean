import Dialogue.Pattern.WholeWord
import Dialogue.Script.Basic
import Dialogue.Script.Shape
import Dialogue.Text.Words

/-!
# Declarations of keywords

A keyword is declared by a name and a body. The name may begin with the memory marker and end with
a rank, as in `@ my 2`; the rank is a word of its own, so that a lone number is a name. The body is
one reply, a list of replies, or an object of rules; the first two are the rule that takes any
input as a whole.

`Keyword.declare` reads a declaration, and `Keyword.compile` also has the patterns of the keyword
built.
-/

namespace Dialogue

open Text (words contract trimStart)

namespace Keyword

/-- The number that a word is: digits, with at most a minus in front, within the range of a signed
machine word. -/
def rank? (word : Text) : Option Int := do
  let (negative, digits) :=
    match word with
    | '-' :: rest => (true, rest)
    | rest => (false, rest)
  if digits.isEmpty || ! digits.all Char.isDigit then failure
  let size := digits.foldl (fun n c ↦ n * 10 + (c.toNat - '0'.toNat)) 0
  if negative then
    if size ≤ 0x8000000000000000 then return -(size : Int) else failure
  else
    if size < 0x8000000000000000 then return (size : Int) else failure

/-- The name and the rank of a declared keyword. Without a rank as its last word, behind another
word, all of it is the name and the rank is 0. -/
def parseName (declared : Text) : Text × Int :=
  let all := words declared
  match all.dropLast, all.getLast?.bind rank? with
  | w :: rest, some rank => ([' '].intercalate (w :: rest), rank)
  | _, _ => (contract declared, 0)

/-- The text behind a marker and the blanks that follow it, if it starts with the marker. An empty
marker marks nothing. -/
def afterMarker? (marker s : Text) : Option Text :=
  if marker.isEmpty then none else (marker.isPrefixOf? s).map trimStart

/-- The body of a keyword. -/
inductive Body where
  | reply (text : Text)
  | replies (texts : List Text)
  | rules (rules : List (Text × List Text))
deriving Repr, DecidableEq

/-- Reads the body of a declared keyword. -/
def Body.ofJson (keyword : String) : Json → Except Defect Body
  | .string s => .ok (.reply s.toList)
  | .array items => do
    return .replies (← Script.texts (Defect.rulesField keyword) (.array items))
  | .object declared => do
    let rules ← declared.mapM fun
      | (decomposition, .string s) => .ok (decomposition.toList, [s.toList])
      | (decomposition, .array items) => do
        let field := Defect.rulesField keyword ++ "." ++ decomposition
        return (decomposition.toList, ← Script.texts field (.array items))
      | (decomposition, value) => .error (.replies keyword decomposition value.kind)
    return .rules rules
  | value => .error (.body keyword value.kind)

/-- The decompositions of a body with their replies. -/
def Body.toRules (wildcard : Text) : Body → List (Text × List Text)
  | reply text => [(wildcard, [text])]
  | replies texts => [(wildcard, texts)]
  | rules list => list

/-- The markers of decompositions that the library lets one look for. -/
def markers (library : Library) (options : Options) : Template.Markers :=
  Template.Markers.known library ⟨options.tagMarker.toList, options.wildcardMarker.toList⟩

/-- The rule of a declared decomposition with its replies, for a keyword that is memorized or
not. -/
def compileRule (library : Library) (options : Options) (tags : Tags) (memorized : Bool) :
    Text × List Text → Rule
  | (declared, replies) =>
    let contracted := contract declared
    let marked := afterMarker? options.memoryMarker.toList contracted
    let decomposition := marked.getD contracted
    { decomposition
      pattern := Template.pattern (markers library options) tags decomposition
      replies := replies.map contract
      memorized := memorized || marked.isSome }

/-- The keyword that a declaration at some position describes. -/
def declare (library : Library) (options : Options) (tags : Tags) (declared : String)
    (body : Json) (position : Nat) : Except Defect Keyword := do
  let (name, rank) := parseName declared.toList
  let marked := afterMarker? options.memoryMarker.toList name
  let key := marked.getD name
  if key.isEmpty then throw (.nameless declared)
  let rules := (← Body.ofJson declared body).toRules options.wildcardMarker.toList
  return {
    key, rank, position
    memorized := marked.isSome
    rules := rules.map (compileRule library options tags marked.isSome)
    matcher := .wholeWord key }

/-- The expressions of a keyword, in the order in which they are built. -/
def expressions (k : Keyword) : List Expression :=
  k.rules.map (·.pattern.expression) ++ [k.matcher.expression]

/-- The keyword of a declaration at some position, with its patterns built. -/
def compile (library : Library) (options : Options) (tags : Tags) (declared : String)
    (body : Json) (position : Nat) : Except Defect Keyword := do
  let keyword ← declare library options tags declared body position
  library.build "keywords" keyword.expressions
  return keyword

end Keyword

end Dialogue
