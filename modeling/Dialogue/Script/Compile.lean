import Dialogue.Script.Declaration
import Dialogue.Script.Reply
import Dialogue.Segmentation

/-!
# Compiling scripts

`Script.compile` turns the document of a script into a script, or says what is the first thing
wrong with it. The fields are looked at in a fixed order: the options, the pools of replies, the
substitutions, the tags, and last the keywords, which need the tags.

Patterns are built along with this: that of a table when its field has been read, those of a keyword
after its declaration, and at the very end those that the options ask for.
-/

namespace Dialogue.Script

/-- The options of the caller, overridden by those of the script. Script options that are not an
object count as none. -/
def mergedOptions (options : Options) (script : Members) : Except Failure Options :=
  match script.get? "options" with
  | some (.object overrides) =>
    match options.merge? overrides with
    | some merged => .ok merged
    | none => .error .malformed
  | _ => .ok options

/-- A declared table of substitutions, with its pattern built. -/
def readTable (library : Library) (script : Members) (field : String) :
    Except Defect Substitution := do
  let table := Substitution.ofList (← textPairs field (← required script field))
  library.build field table.expressions
  return table

/-- The declared tags. White space in a name becomes an underscore, since the name of a tag ends
at the next blank of a template. -/
def readTags (script : Members) : Except Defect Tags := do
  (← members "tags" (← required script "tags")).mapM fun (name, words) ↦ do
    return (Text.joinWords ['_'] name.toList, ← texts ("tags." ++ name) words)

/-- The declared keywords in the order in which they are tried. -/
def readKeywords (library : Library) (options : Options) (tags : Tags) (script : Members) :
    Except Defect (List Keyword) := do
  let declared ← members "keywords" (← required script "keywords")
  let keywords ← declared.zipIdx.mapM fun ((name, body), position) ↦
    Keyword.compile library options tags name body position
  return keywords.mergeSort Keyword.precedes

/-- The expressions that the options ask for, in the order in which they are built. -/
def optionExpressions (o : Options) : List Expression :=
  Reply.targetExpression o.gotoMarker.toList ::
    Reply.referenceExpression o.paramMarkerPre.toList o.paramMarkerPost.toList ::
      o.plainExpressions

/-- The script that some members declare, with its options already merged. -/
def ofMembers (library : Library) (options : Options) (script : Members) :
    Except Defect Script := do
  let greetings ← requiredTexts script "initial"
  let farewells ← requiredTexts script "final"
  let quitParts ← requiredTexts script "quit"
  let evasions ← requiredTexts script "none"
  let quitPhrases ← optionalTexts script "quit*"
  let prompts ← optionalTexts script "empty"
  let pre ← readTable library script "pre"
  let post ← readTable library script "post"
  let tags ← readTags script
  let keywords ← readKeywords library options tags script
  library.build "options" (optionExpressions options)
  return {
    options, greetings, farewells, quitParts, quitPhrases, evasions, prompts, pre, post, tags,
    keywords }

/-- The script of a document, compiled under the options of a caller with some library. -/
def compile (library : Library) (document : Json) (options : Options) : Except Failure Script :=
  match document with
  | .object members => do
    let options ← mergedOptions options members
    (ofMembers library options members).mapError Defect.failure
  | value => .error (Defect.notScript value.kind).failure

end Dialogue.Script
