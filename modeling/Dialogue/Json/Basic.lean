/-!
# Documents

Scripts and options are documents: trees of objects, arrays and plain values. The members of an
object keep their order, because a script means something by it: rules are tried in the order in
which they stand. A name occurs once in an object, so `Members.put` overwrites in place.
-/

namespace Dialogue

/-- A number of a document. Whole numbers that fit a machine word, signed or unsigned, are kept
exactly, all others as floating point. -/
inductive Number where
  | int (n : Int)
  | real (x : Float)
deriving DecidableEq

/-- A document. -/
inductive Json where
  | null
  | bool (b : Bool)
  | number (n : Number)
  | string (s : String)
  | array (items : List Json)
  | object (members : List (String × Json))

/-- The members of an object: names with values, in document order. -/
abbrev Members := List (String × Json)

namespace Members

/-- The value of the member `name`. -/
def get? (members : Members) (name : String) : Option Json := members.lookup name

/-- The members with `name` set to `value`: in its place if the name occurs, else at the end. -/
def put : Members → String → Json → Members
  | [], name, value => [(name, value)]
  | (n, v) :: rest, name, value =>
    if n == name then (n, value) :: rest else (n, v) :: put rest name value

/-- The members that result from setting each name of a list in turn: a name that is repeated has
its first place and its last value. -/
def ofList (pairs : List (String × Json)) : Members :=
  pairs.foldl (fun members (name, value) ↦ put members name value) []

theorem get?_put (members : Members) (name other : String) (value : Json) :
    get? (put members name value) other =
      if other = name then some value else get? members other := by
  simp only [get?]
  induction members with
  | nil =>
    by_cases h : other = name
    · simp [put, h]
    · simp [put, h, List.lookup_cons, beq_eq_false_iff_ne.2 h]
  | cons m rest ih =>
    obtain ⟨n, v⟩ := m
    rw [put]
    by_cases hn : n = name
    · subst hn
      by_cases h : other = n
      · simp [h]
      · simp [h, List.lookup_cons, beq_eq_false_iff_ne.2 h]
    · rw [if_neg (by simpa using hn), List.lookup_cons, List.lookup_cons, ih]
      by_cases ho : other = n
      · subst ho
        simp [hn]
      · simp [beq_eq_false_iff_ne.2 ho]

end Members

namespace Json

/-- The word for the kind of a document. -/
def kind : Json → String
  | null => "null"
  | bool _ => "boolean"
  | number _ => "number"
  | string _ => "string"
  | array _ => "array"
  | object _ => "object"

/-- The text of a document that is a string. -/
def string? : Json → Option String
  | string s => some s
  | _ => none

end Json

end Dialogue
