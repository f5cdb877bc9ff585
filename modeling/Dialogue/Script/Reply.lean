import Dialogue.Pattern.Library
import Dialogue.Script.Basic
import Dialogue.Text.Scan

/-!
# Replies from templates

The reply of a rule is a template. If it starts with the goto marker it may name another keyword,
which then answers in its place. Otherwise references such as `$2` are replaced by what the
decomposition captured.

A template is read once from left to right. What a capture says is put in as it is, so neither a
reference nor a redirect can come from the input.
-/

namespace Dialogue

open Character (sameFold)
open Text (trim trimStart)

namespace Reply

/-! ## Redirects -/

/-- The text behind a marker in any case, if it starts with the marker. -/
def afterMarker? : Text → Text → Option Text
  | [], s => some s
  | _ :: _, [] => none
  | m :: marker, c :: s => if sameFold m c then afterMarker? marker s else none

/-- The expression that finds redirects. -/
def targetExpression (marker : Text) : Expression :=
  ⟨'^' :: Piece.escape marker ++ "\\s*(.*)$".toList, true⟩

/-- The keyword that a template redirects to, if it is a redirect. -/
def target? (marker template : Text) : Option Text := do
  let target := trimStart (← afterMarker? marker template)
  if target.contains '\n' then none else some target

/-! ## References to captures -/

/-- The number that some digits stand for. -/
def ofDigits (digits : Text) : Nat :=
  digits.foldl (fun n c ↦ n * 10 + (c.toNat - '0'.toNat)) 0

/-- The number of the capture that some digits refer to. Captures are counted in machine words, and
a number that is too large for one is taken for 0, which is no capture. -/
def captureNumber (digits : Text) : Nat :=
  if ofDigits digits < 0x10000000000000000 then ofDigits digits else 0

/-- The most digits at the front of a text that have the closing marker behind them. -/
def digitsBefore? (closing : Text) : Text → Option Nat
  | [] => none
  | c :: s =>
    if c.isDigit then
      match digitsBefore? closing s with
      | some n => some (n + 1)
      | none => if closing.isPrefixOf s then some 1 else none
    else none

/-- The expression that finds references. -/
def referenceExpression (opening closing : Text) : Expression :=
  ⟨Piece.escape opening ++ "([0-9]+)".toList ++ Piece.escape closing, false⟩

/-- The reference at the front of a text: the number of the capture, and the length of the
reference. It has as many digits as possible, but leaves room for the closing marker, which may
itself start with digits. -/
def referenceAt? (opening closing s : Text) : Option (Nat × Nat) := do
  let rest ← opening.isPrefixOf? s
  let n ← digitsBefore? closing rest
  return (captureNumber (rest.take n), opening.length + n + closing.length)

/-- What a reference to some capture stands for; captures are counted from 1. -/
def captured (post : Substitution) (captures : List Text) : Nat → Text
  | 0 => []
  | n + 1 => (captures[n]?.map fun capture ↦ post.apply (trim capture)).getD []

/-- The reply that a template makes of some captures. -/
def fill (opening closing : Text) (post : Substitution) (template : Text) (captures : List Text) :
    Text :=
  trim ((Text.scan (referenceAt? opening closing) template).flatMap fun
    | .inl c => [c]
    | .inr n => captured post captures n)

end Reply

namespace Script

/-- The keyword that a template redirects to, with its place. A redirect to a keyword that the
script does not have is no redirect. -/
def redirect? (script : Script) (template : Text) : Option (Text × Nat) := do
  let target ← Reply.target? script.options.gotoMarker.toList template
  return (target, ← script.keywordIndex? target)

/-- The reply that a template of the script makes of some captures. -/
def fill (script : Script) (template : Text) (captures : List Text) : Text :=
  Reply.fill script.options.paramMarkerPre.toList script.options.paramMarkerPost.toList
    script.post template captures

end Script

end Dialogue
