/-!
# Failures

What can go wrong: a script of the wrong shape, a pattern that cannot be built, an input that is no
text, redirects that do not come to an end, and a document that cannot be read. Only the first two
make a script unusable for good.
-/

namespace Dialogue

/-- A reason why a script cannot be compiled or a text not be answered. -/
inductive Failure where
  /-- The field of a script has the wrong shape. -/
  | script (field message : String)
  /-- A regular expression that the script asks for is not built. -/
  | pattern (message : String)
  /-- The input is not a text. -/
  | input (message : String)
  /-- After `depth` redirects a further one to `keyword` was due. -/
  | redirectCycle (keyword : String) (depth : Nat)
  /-- A text is not a document, or an option has a wrong value. -/
  | malformed
deriving Repr, DecidableEq

namespace Failure

/-- The text of a failure; a malformed document has none of its own. -/
def message? : Failure → Option String
  | script field message => some s!"Script error in '{field}': {message}"
  | pattern message => some s!"Pattern error: {message}"
  | input message => some s!"Input error: {message}"
  | redirectCycle keyword depth =>
    some s!"Redirect cycle: gave up following '{keyword}' after {depth} redirects"
  | malformed => none

/-- Does the failure lie in the script? -/
def isScriptError : Failure → Bool
  | script _ _ | pattern _ => true
  | _ => false

end Failure

end Dialogue
