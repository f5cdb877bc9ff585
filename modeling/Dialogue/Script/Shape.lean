import Dialogue.Failure
import Dialogue.Json.Basic
import Dialogue.Pattern.Library
import Dialogue.Text.Basic

/-!
# The shape of a script

A script is declared as a document with fields of certain shapes. The readers here take a field
apart or say what is wrong with it. Of several defects they report the first in document order.

What a field of the right shape asks for may still be too much for the library that builds patterns.
This counts as a defect of the field too, though the failure does not name the field.
-/

namespace Dialogue

/-- What can be wrong with the document of a script. Kinds are those of `Json.kind`. -/
inductive Defect where
  /-- The script is not an object. -/
  | notScript (kind : String)
  /-- A field that every script has is missing. -/
  | missing (field : String)
  /-- A field is not an array. -/
  | notArray (field kind : String)
  /-- An item of an array is not a string. -/
  | item (field : String) (index : Nat) (kind : String)
  /-- A field is not an object. -/
  | notObject (field kind : String)
  /-- A member of an object is not a string. -/
  | member (field name kind : String)
  /-- Of the declared keyword nothing but rank and memory marker is there. -/
  | nameless (declared : String)
  /-- The body of a keyword has none of its three shapes. -/
  | body (declared kind : String)
  /-- The replies of a rule have neither of their two shapes. -/
  | replies (declared decomposition kind : String)
  /-- A regular expression that a field asks for is not built, for the reason that the library
  gives. -/
  | pattern (field message : String)
deriving Repr, DecidableEq

namespace Defect

/-- The field that holds the rules of a keyword. -/
def rulesField (declared : String) : String := "keywords." ++ declared

/-- The field to blame. -/
def field : Defect → String
  | notScript _ => "script"
  | missing field | notArray field _ | item field _ _ => field
  | notObject field _ | member field _ _ | pattern field _ => field
  | nameless _ | body _ _ => "keywords"
  | replies declared _ _ => rulesField declared

/-- What is wrong, in words. -/
def message : Defect → String
  | notScript kind => s!"script needs to be an object (not {kind})"
  | missing field => s!"script is missing '{field}'"
  | notArray field kind => s!"'{field}' needs to be an array (not {kind})"
  | item field index kind => s!"'{field}': index {index} needs to be string (not {kind})"
  | notObject field kind => s!"'{field}' needs to be an object (not {kind})"
  | member field name kind => s!"'{field}': '{name}' needs to be string (not {kind})"
  | nameless declared => s!"'{declared}' does not name a keyword"
  | body declared kind =>
    s!"'{declared}' needs to be object or array or string (not {kind})"
  | replies _ decomposition kind =>
    s!"'{decomposition}' needs to be array or string (not {kind})"
  | pattern _ message => message

/-- The failure of a script with this defect. -/
def failure : Defect → Failure
  | pattern _ message => .pattern message
  | d => .script d.field d.message

end Defect

/-- Has some expressions built that a field asks for, one after the other. -/
def Library.build (library : Library) (field : String) (expressions : List Expression) :
    Except Defect Unit :=
  expressions.forM fun e ↦
    match library.refusal? e with
    | some message => .error (.pattern field message)
    | none => .ok ()

namespace Script

/-- The value of a field that every script has. -/
def required (members : Members) (field : String) : Except Defect Json :=
  match members.get? field with
  | some value => .ok value
  | none => .error (.missing field)

/-- The texts of an array of strings. -/
def texts (field : String) : Json → Except Defect (List Text)
  | .array items =>
    items.zipIdx.mapM fun
      | (.string s, _) => .ok s.toList
      | (item, index) => .error (.item field index item.kind)
  | value => .error (.notArray field value.kind)

/-- The members of an object. -/
def members (field : String) : Json → Except Defect Members
  | .object members => .ok members
  | value => .error (.notObject field value.kind)

/-- The pairs of texts of an object of strings. -/
def textPairs (field : String) (value : Json) : Except Defect (List (Text × Text)) := do
  (← members field value).mapM fun
    | (name, .string s) => .ok (name.toList, s.toList)
    | (name, value) => .error (.member field name value.kind)

/-- The texts of a field that every script has. -/
def requiredTexts (script : Members) (field : String) : Except Defect (List Text) := do
  texts field (← required script field)

/-- The texts of a field that a script may lack. -/
def optionalTexts (script : Members) (field : String) : Except Defect (List Text) :=
  match script.get? field with
  | some value => texts field value
  | none => .ok []

end Script

end Dialogue
