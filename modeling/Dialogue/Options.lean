import Dialogue.Json.Reader

/-!
# Options

The settings under which a script is compiled and a conversation held. Options are given by the
caller and may be overridden by the script, field by field.

Each option has a `Field`: its name in documents, and how its value is read and written. All that
happens to options in documents goes through the table `Options.fields`.
-/

namespace Dialogue

/-- The settings of a script. -/
structure Options where
  /-- Where the random numbers start; below zero no start is fixed. -/
  seed : Int := -1
  /-- The most replies kept in memory. -/
  memorySize : Nat := 100
  /-- Are cycles shuffled when they start again? -/
  shuffleChoices : Bool := false
  /-- Are replies drawn at random instead of in turn? -/
  randomizeChoices : Bool := false
  /-- Is the input lowercased? -/
  lowercaseInput : Bool := true
  /-- Is the reply lowercased? -/
  lowercaseOutput : Bool := false
  /-- What marks a wildcard in a decomposition. -/
  wildcardMarker : String := "*"
  /-- What stands before a tag in a decomposition. -/
  tagMarker : String := "#"
  /-- What stands before a keyword or a decomposition whose replies are kept for later. -/
  memoryMarker : String := "@"
  /-- What stands before the keyword to which a reply redirects. -/
  gotoMarker : String := "="
  /-- What stands before the number of a capture. -/
  paramMarkerPre : String := "$"
  /-- What stands behind the number of a capture. -/
  paramMarkerPost : String := ""
  /-- The characters that end a part of the input. -/
  stopChars : String := ".,;:?!"
  /-- The words that end a part of the input. -/
  stopWords : List String := ["but"]
  /-- The characters kept beside letters, digits and spaces. -/
  allowChars : String := "'äöüß-"
  /-- Are emoji kept? -/
  allowEmoji : Bool := false
  /-- The reply of last resort. -/
  fallbackReply : String := "I am at a loss for words."
  /-- The number of greetings that are never shuffled. -/
  fixedInitial : Nat := 0
  /-- The number of farewells that are never shuffled. -/
  fixedFinal : Nat := 0
  /-- The most redirects followed for one keyword. -/
  maxRedirectDepth : Nat := 16
deriving Repr, DecidableEq

namespace Options

/-- The seed from which random numbers start, if one is fixed. -/
def seed? (o : Options) : Option UInt64 :=
  if o.seed < 0 then none else some (UInt64.ofNat o.seed.toNat)

/-! ## Values of options -/

/-- A signed machine word. -/
def signed? : Json → Option Int
  | .number (.int n) => if -0x8000000000000000 ≤ n ∧ n < 0x8000000000000000 then some n else none
  | _ => none

/-- An unsigned machine word. -/
def word? : Json → Option Nat
  | .number (.int n) => if 0 ≤ n ∧ n < 0x10000000000000000 then some n.toNat else none
  | _ => none

/-- A truth value. -/
def flag? : Json → Option Bool
  | .bool b => some b
  | _ => none

/-- A list of strings. -/
def strings? : Json → Option (List String)
  | .array items => items.mapM Json.string?
  | _ => none

/-! ## The table of options -/

/-- An option in documents. -/
structure Field where
  name : String
  /-- The value in some options. -/
  value : Options → Json
  /-- Options with another value, unless this value does not fit the option. -/
  set? : Options → Json → Option Options

/-- The options in the order in which a plain list gives their values. -/
def fields : List Field :=
  [⟨"seed", fun o ↦ .number (.int o.seed),
      fun o j ↦ (signed? j).map fun v ↦ { o with seed := v }⟩,
    ⟨"memory_size", fun o ↦ .number (.int o.memorySize),
      fun o j ↦ (word? j).map fun v ↦ { o with memorySize := v }⟩,
    ⟨"shuffle_choices", fun o ↦ .bool o.shuffleChoices,
      fun o j ↦ (flag? j).map fun v ↦ { o with shuffleChoices := v }⟩,
    ⟨"randomize_choices", fun o ↦ .bool o.randomizeChoices,
      fun o j ↦ (flag? j).map fun v ↦ { o with randomizeChoices := v }⟩,
    ⟨"lowercase_input", fun o ↦ .bool o.lowercaseInput,
      fun o j ↦ (flag? j).map fun v ↦ { o with lowercaseInput := v }⟩,
    ⟨"lowercase_output", fun o ↦ .bool o.lowercaseOutput,
      fun o j ↦ (flag? j).map fun v ↦ { o with lowercaseOutput := v }⟩,
    ⟨"wildcard_marker", fun o ↦ .string o.wildcardMarker,
      fun o j ↦ j.string?.map fun v ↦ { o with wildcardMarker := v }⟩,
    ⟨"tag_marker", fun o ↦ .string o.tagMarker,
      fun o j ↦ j.string?.map fun v ↦ { o with tagMarker := v }⟩,
    ⟨"memory_marker", fun o ↦ .string o.memoryMarker,
      fun o j ↦ j.string?.map fun v ↦ { o with memoryMarker := v }⟩,
    ⟨"goto_marker", fun o ↦ .string o.gotoMarker,
      fun o j ↦ j.string?.map fun v ↦ { o with gotoMarker := v }⟩,
    ⟨"param_marker_pre", fun o ↦ .string o.paramMarkerPre,
      fun o j ↦ j.string?.map fun v ↦ { o with paramMarkerPre := v }⟩,
    ⟨"param_marker_post", fun o ↦ .string o.paramMarkerPost,
      fun o j ↦ j.string?.map fun v ↦ { o with paramMarkerPost := v }⟩,
    ⟨"stop_chars", fun o ↦ .string o.stopChars,
      fun o j ↦ j.string?.map fun v ↦ { o with stopChars := v }⟩,
    ⟨"stop_words", fun o ↦ .array (o.stopWords.map .string),
      fun o j ↦ (strings? j).map fun v ↦ { o with stopWords := v }⟩,
    ⟨"allow_chars", fun o ↦ .string o.allowChars,
      fun o j ↦ j.string?.map fun v ↦ { o with allowChars := v }⟩,
    ⟨"allow_emoji", fun o ↦ .bool o.allowEmoji,
      fun o j ↦ (flag? j).map fun v ↦ { o with allowEmoji := v }⟩,
    ⟨"fallback_reply", fun o ↦ .string o.fallbackReply,
      fun o j ↦ j.string?.map fun v ↦ { o with fallbackReply := v }⟩,
    ⟨"fixed_initial", fun o ↦ .number (.int o.fixedInitial),
      fun o j ↦ (word? j).map fun v ↦ { o with fixedInitial := v }⟩,
    ⟨"fixed_final", fun o ↦ .number (.int o.fixedFinal),
      fun o j ↦ (word? j).map fun v ↦ { o with fixedFinal := v }⟩,
    ⟨"max_redirect_depth", fun o ↦ .number (.int o.maxRedirectDepth),
      fun o j ↦ (word? j).map fun v ↦ { o with maxRedirectDepth := v }⟩]

/-- The name by which an option goes in `fields`: the goto marker has a second one. -/
def canonicalName (name : String) : String :=
  if name = "redirect_marker" then "goto_marker" else name

/-- Does an option of this name exist? -/
def isOption (name : String) : Bool := fields.any (·.name == canonicalName name)

/-! ## Options and documents -/

/-- The options as a document. -/
def toMembers (o : Options) : Members := fields.map fun field ↦ (field.name, field.value o)

/-- Options with the values that some members give by canonical names. Other members are
ignored. -/
def override? (o : Options) (members : Members) : Option Options :=
  fields.foldlM
    (fun o field ↦
      match members.get? field.name with
      | none => some o
      | some value => field.set? o value)
    o

/-- The options of a caller, overridden by those of a script. An entry of the script counts as the
last one of its name, also where it is given by its second name. -/
def merge? (o : Options) (overrides : Members) : Option Options :=
  o.override? (Members.ofList (overrides.map fun (name, value) ↦ (canonicalName name, value)))

/-- The options that some pairs give, each option at most once. -/
def ofPairs? (pairs : List (String × Json)) : Option Options :=
  let known := (pairs.filter (isOption ·.1)).map fun (name, value) ↦ (canonicalName name, value)
  if (known.map (·.1)).eraseDups.length = known.length then override? {} known else none

/-- The options whose values a list gives in the order of `fields`, those at its end missing. -/
def ofValues? (values : List Json) : Option Options :=
  if values.length ≤ fields.length then
    (List.zip fields values).foldlM (fun o (field, value) ↦ field.set? o value) {}
  else none

/-- The options that a document gives. -/
def ofJson? : Json → Option Options
  | .object members => ofPairs? members
  | .array values => ofValues? values
  | _ => none

/-- The options that a text gives. Members that are no options are skipped without a look at what
they denote. -/
def read? (s : String) : Option Options := do
  match ← Json.Form.read? s with
  | .object members =>
    let named ← members.mapM fun (name, form) ↦ do return (← name, form)
    let pairs ← (named.filter (isOption ·.1)).mapM fun (name, form) ↦ do
      return (name, ← form.value? Json.maxDepth)
    ofPairs? pairs
  | .array items => ofValues? (← items.mapM (Json.Form.value? Json.maxDepth))
  | _ => none

end Options

end Dialogue
