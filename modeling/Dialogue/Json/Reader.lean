import Dialogue.Json.Token

/-!
# Reading documents

`Json.read?` reads a document in three steps. The text is cut into tokens; the tokens are put
together to a `Json.Form`, the document as it is written; and the form is evaluated. Forms exist
because not every well-formed text denotes a document: an object may repeat a name, a number may
be too large, and a string may hold half a character. A reader that skips a part of a document
does not care about these, and asks only for its form.

Tokens are put together by one pass with a stack of the arrays and objects that are still open, so
how deep a text is nested does not matter there. Evaluation admits `Json.maxDepth` levels.
-/

namespace Dialogue.Json

/-- A document as it is written. -/
inductive Form where
  | null
  | bool (b : Bool)
  | number (n : Numeral)
  | string (text : Option String)
  | array (items : List Form)
  | object (members : List (Option String × Form))

/-! ## Putting tokens together -/

/-- An array or object that is still open, with what it holds so far in reverse. An open object
waits for the value of a member. -/
inductive Frame where
  | array (items : List Form)
  | object (members : List (Option String × Form)) (name : Option String)

/-- What may come next. -/
inductive Expecting where
  /-- A value. -/
  | value (stack : List Frame)
  /-- A value, or the end of an empty array. -/
  | firstItem (stack : List Frame)
  /-- A name, or the end of an empty object. -/
  | firstName (stack : List Frame)
  /-- A name. -/
  | name (stack : List Frame) (members : List (Option String × Form))
  /-- A colon. -/
  | colon (stack : List Frame) (members : List (Option String × Form)) (name : Option String)
  /-- A comma or the end of the innermost array or object, or nothing more if none is open. The
  value in front is complete. -/
  | more (stack : List Frame) (value : Form)

/-- The token that starts a value. -/
def startValue? (stack : List Frame) : Token → Option Expecting
  | .null => some (.more stack .null)
  | .bool b => some (.more stack (.bool b))
  | .number n => some (.more stack (.number n))
  | .string text => some (.more stack (.string text))
  | .openArray => some (.firstItem stack)
  | .openObject => some (.firstName stack)
  | _ => none

/-- The next token. -/
def Expecting.step? : Expecting → Token → Option Expecting
  | value stack, token => startValue? stack token
  | firstItem stack, .closeArray => some (more stack (.array []))
  | firstItem stack, token => startValue? (.array [] :: stack) token
  | firstName stack, .closeObject => some (more stack (.object []))
  | firstName stack, .string text => some (colon stack [] text)
  | name stack members, .string text => some (colon stack members text)
  | colon stack members n, .colon => some (value (.object members n :: stack))
  | more (.array items :: stack) v, .comma => some (value (.array (v :: items) :: stack))
  | more (.array items :: stack) v, .closeArray =>
    some (more stack (.array (v :: items).reverse))
  | more (.object members n :: stack) v, .comma => some (name stack ((n, v) :: members))
  | more (.object members n :: stack) v, .closeObject =>
    some (more stack (.object ((n, v) :: members).reverse))
  | _, _ => none

/-- The form that the tokens make up, if nothing is left open. -/
def Form.ofTokens? (tokens : List Token) : Option Form := do
  match ← tokens.foldlM Expecting.step? (.value []) with
  | .more [] form => return form
  | _ => failure

/-- The form of a text. -/
def Form.read? (s : String) : Option Form := do Form.ofTokens? (← tokens? s.toList)

/-! ## Evaluation -/

/-- The number of arrays and objects that may be open at one place of a document. -/
def maxDepth : Nat := 127

/-- The document that a form denotes, with at most `depth` levels of arrays and objects. -/
def Form.value? : Nat → Form → Option Json
  | _, null => some .null
  | _, bool b => some (.bool b)
  | _, number n => n.value?.map .number
  | _, string text => text.map .string
  | 0, array _ => none
  | 0, object _ => none
  | depth + 1, array items => (items.mapM (value? depth)).map .array
  | depth + 1, object members => do
    let pairs ← members.mapM fun (name, form) ↦ do return (← name, ← value? depth form)
    return .object (Members.ofList pairs)

/-- The document of a text. -/
def read? (s : String) : Option Json := do (← Form.read? s).value? maxDepth

end Dialogue.Json
