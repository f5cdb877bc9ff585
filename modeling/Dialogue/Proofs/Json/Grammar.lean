import Dialogue.Proofs.Json.Commas

/-!
# The grammar of documents

A document is read by a machine that takes one token after the other and keeps a stack of what is
open. What it accepts is described here by a grammar, which says nothing of stacks: a value is a
word, a numeral, a string, or items or members between brackets (`Derives`). The grammar has a
parameter, the places where a comma too many is tolerated; with none of them it is the grammar of
documents, and the machine accepts exactly what that derives (`Form.ofTokens?_eq_some_iff`).

That what is derived is accepted goes by induction on the derivation, over everything that may be
open around a phrase. For the other direction `Reached` keeps account of the tokens behind the
machine: those that opened its stack, complete items and members with their commas, and the value
at hand.
-/

namespace Dialogue.Json

/-! ## The grammar -/

/-- Where a comma may stand before a closing bracket. -/
structure Tolerance where
  /-- In an array or object with nothing else in it. -/
  empty : Bool
  /-- Behind the last item or member. -/
  trailing : Bool

/-- No comma too many. -/
def Tolerance.strict : Tolerance := ⟨false, false⟩

/-- A comma behind a last item or member. -/
def Tolerance.afterLast : Tolerance := ⟨false, true⟩

/-- A comma before every closing bracket. -/
def Tolerance.forgiving : Tolerance := ⟨true, true⟩

/-- Nothing, or one comma if it is tolerated. -/
inductive Slack (tolerated : Bool) : List Token → Prop where
  | none : Slack tolerated []
  | comma : tolerated = true → Slack tolerated [.comma]

/-- What a piece of a document can be: a value, or the items of an array or the members of an
object, at least one, with commas between them. -/
inductive Phrase where
  | value (form : Form)
  | items (items : List Form)
  | members (members : List (Option String × Form))

/-- The tokens make up the phrase. -/
inductive Derives (tolerance : Tolerance) : Phrase → List Token → Prop where
  | null : Derives tolerance (.value .null) [.null]
  | bool (b : Bool) : Derives tolerance (.value (.bool b)) [.bool b]
  | number (n : Numeral) : Derives tolerance (.value (.number n)) [.number n]
  | string (text : Option String) : Derives tolerance (.value (.string text)) [.string text]
  | emptyArray {slack : List Token} : Slack tolerance.empty slack →
      Derives tolerance (.value (.array [])) (.openArray :: (slack ++ [.closeArray]))
  | array {items : List Form} {tokens slack : List Token} :
      Derives tolerance (.items items) tokens → Slack tolerance.trailing slack →
        Derives tolerance (.value (.array items))
          (.openArray :: (tokens ++ (slack ++ [.closeArray])))
  | emptyObject {slack : List Token} : Slack tolerance.empty slack →
      Derives tolerance (.value (.object [])) (.openObject :: (slack ++ [.closeObject]))
  | object {members : List (Option String × Form)} {tokens slack : List Token} :
      Derives tolerance (.members members) tokens → Slack tolerance.trailing slack →
        Derives tolerance (.value (.object members))
          (.openObject :: (tokens ++ (slack ++ [.closeObject])))
  | lastItem {form : Form} {tokens : List Token} :
      Derives tolerance (.value form) tokens → Derives tolerance (.items [form]) tokens
  | item {form : Form} {items : List Form} {first rest : List Token} :
      Derives tolerance (.value form) first → Derives tolerance (.items items) rest →
        Derives tolerance (.items (form :: items)) (first ++ .comma :: rest)
  | lastMember (name : Option String) {form : Form} {tokens : List Token} :
      Derives tolerance (.value form) tokens →
        Derives tolerance (.members [(name, form)]) (.string name :: .colon :: tokens)
  | member (name : Option String) {form : Form} {members : List (Option String × Form)}
      {first rest : List Token} :
      Derives tolerance (.value form) first → Derives tolerance (.members members) rest →
        Derives tolerance (.members ((name, form) :: members))
          (.string name :: .colon :: (first ++ .comma :: rest))

theorem slack_false_iff {slack : List Token} : Slack false slack ↔ slack = [] := by
  constructor
  · rintro (_ | h)
    · rfl
    · exact absurd h Bool.false_ne_true
  · rintro rfl
    exact .none

/-- No phrase begins with a comma. -/
theorem exists_cons_of_derives {tolerance : Tolerance} {phrase : Phrase} {tokens : List Token}
    (h : Derives tolerance phrase tokens) :
    ∃ token rest, tokens = token :: rest ∧ token ≠ .comma := by
  induction h with
  | lastItem _ ih => exact ih
  | item _ _ ihfirst =>
    obtain ⟨token, rest, rfl, htoken⟩ := ihfirst
    exact ⟨token, _, rfl, htoken⟩
  | _ => exact ⟨_, _, rfl, Token.noConfusion⟩

/-! ## What is derived is accepted -/

section Completeness

variable {stack : List Frame} {e : Expecting} {tokens : List Token}

/-- At the start of an array a value is read as it is behind a comma. -/
theorem foldlM_firstItem (htokens : tokens ≠ [])
    (h : tokens.foldlM Expecting.step? (.value (.array [] :: stack)) = some e) :
    tokens.foldlM Expecting.step? (.firstItem stack) = some e := by
  cases tokens with
  | nil => exact absurd rfl htokens
  | cons token tokens =>
    obtain ⟨next, hstep, hrest⟩ := Option.bind_eq_some_iff.1 h
    have hfirst : (Expecting.firstItem stack).step? token = some next := by
      cases token with
      | closeArray => exact absurd hstep (Option.some_ne_none _).symm
      | _ => exact hstep
    exact Option.bind_eq_some_iff.2 ⟨next, hfirst, hrest⟩

/-- At the start of an object a name is read as it is behind a comma. -/
theorem foldlM_firstName (htokens : tokens ≠ [])
    (h : tokens.foldlM Expecting.step? (.name stack []) = some e) :
    tokens.foldlM Expecting.step? (.firstName stack) = some e := by
  cases tokens with
  | nil => exact absurd rfl htokens
  | cons token tokens =>
    obtain ⟨next, hstep, hrest⟩ := Option.bind_eq_some_iff.1 h
    have hfirst : (Expecting.firstName stack).step? token = some next := by
      cases token with
      | string text => exact hstep
      | _ => exact absurd hstep (Option.some_ne_none _).symm
    exact Option.bind_eq_some_iff.2 ⟨next, hfirst, hrest⟩

/-- The machine reads the tokens as the phrase, whatever is open around it. The last item or member
stays at hand, since only what comes next tells that it is the last one. -/
def Accepts : Phrase → List Token → Prop
  | .value form, tokens =>
    ∀ stack, tokens.foldlM Expecting.step? (.value stack) = some (.more stack form)
  | .items items, tokens =>
    ∃ front last, items = front ++ [last] ∧ ∀ done stack,
      tokens.foldlM Expecting.step? (.value (.array done :: stack)) =
        some (.more (.array (front.reverse ++ done) :: stack) last)
  | .members members, tokens =>
    ∃ front name last, members = front ++ [(name, last)] ∧ ∀ done stack,
      tokens.foldlM Expecting.step? (.name stack done) =
        some (.more (.object (front.reverse ++ done) name :: stack) last)

theorem foldlM_append_of_eq_some {next : Expecting} {more : List Token}
    (h : tokens.foldlM Expecting.step? e = some next) :
    (tokens ++ more).foldlM Expecting.step? e = more.foldlM Expecting.step? next := by
  rw [List.foldlM_append, h]
  rfl

theorem foldlM_cons_of_eq_some {next : Expecting} {token : Token} {more : List Token}
    (h : e.step? token = some next) :
    (token :: more).foldlM Expecting.step? e = more.foldlM Expecting.step? next := by
  rw [List.foldlM_cons, h]
  rfl

/-- **What is derived is accepted.** -/
theorem accepts_of_derives {phrase : Phrase} (h : Derives .strict phrase tokens) :
    Accepts phrase tokens := by
  induction h with
  | null | bool | number | string => exact fun _ ↦ rfl
  | emptyArray hslack | emptyObject hslack =>
    rw [slack_false_iff.1 hslack]
    exact fun _ ↦ rfl
  | @array items tokens slack _ hslack ih =>
    rw [slack_false_iff.1 hslack]
    intro stack
    obtain ⟨front, last, rfl, hread⟩ := ih
    have hne : tokens ≠ [] := by
      rintro rfl
      exact Expecting.noConfusion (Option.some.inj (hread [] stack))
    rw [foldlM_cons_of_eq_some rfl,
      foldlM_append_of_eq_some (foldlM_firstItem hne (hread [] stack)), List.nil_append,
      foldlM_cons_of_eq_some rfl, List.append_nil, List.reverse_cons, List.reverse_reverse]
    rfl
  | @object members tokens slack _ hslack ih =>
    rw [slack_false_iff.1 hslack]
    intro stack
    obtain ⟨front, name, last, rfl, hread⟩ := ih
    have hne : tokens ≠ [] := by
      rintro rfl
      exact Expecting.noConfusion (Option.some.inj (hread [] stack))
    rw [foldlM_cons_of_eq_some rfl,
      foldlM_append_of_eq_some (foldlM_firstName hne (hread [] stack)), List.nil_append,
      foldlM_cons_of_eq_some rfl, List.append_nil, List.reverse_cons, List.reverse_reverse]
    rfl
  | lastItem _ ih => exact ⟨[], _, rfl, fun done stack ↦ ih _⟩
  | @item form _ _ _ _ _ ihfirst ihrest =>
    obtain ⟨front, last, rfl, hread⟩ := ihrest
    refine ⟨form :: front, last, rfl, fun done stack ↦ ?_⟩
    rw [foldlM_append_of_eq_some (ihfirst _), foldlM_cons_of_eq_some rfl, hread,
      List.reverse_cons, List.append_assoc, List.singleton_append]
  | lastMember name _ ih => exact ⟨[], _, _, rfl, fun done stack ↦ ih _⟩
  | @member name form _ _ _ _ _ ihfirst ihrest =>
    obtain ⟨front, name', last, rfl, hread⟩ := ihrest
    refine ⟨(name, form) :: front, name', last, rfl, fun done stack ↦ ?_⟩
    rw [foldlM_cons_of_eq_some rfl, foldlM_cons_of_eq_some rfl,
      foldlM_append_of_eq_some (ihfirst _), foldlM_cons_of_eq_some rfl, hread,
      List.reverse_cons, List.append_assoc, List.singleton_append]

end Completeness

/-! ## What is accepted is derived -/

section Soundness

variable {tolerance : Tolerance}

/-- The tokens are those of complete items, each with the comma behind it. The items are in
reverse. -/
inductive DoneItems (tolerance : Tolerance) : List Form → List Token → Prop where
  | nil : DoneItems tolerance [] []
  | snoc {form : Form} {done : List Form} {front last : List Token} :
      DoneItems tolerance done front → Derives tolerance (.value form) last →
        DoneItems tolerance (form :: done) (front ++ (last ++ [.comma]))

/-- The tokens are those of complete members, each with the comma behind it. The members are in
reverse. -/
inductive DoneMembers (tolerance : Tolerance) :
    List (Option String × Form) → List Token → Prop where
  | nil : DoneMembers tolerance [] []
  | snoc (name : Option String) {form : Form} {done : List (Option String × Form)}
      {front last : List Token} :
      DoneMembers tolerance done front → Derives tolerance (.value form) last →
        DoneMembers tolerance ((name, form) :: done)
          (front ++ .string name :: .colon :: (last ++ [.comma]))

theorem DoneItems.derives {done items : List Form} {front tokens : List Token}
    (h : DoneItems tolerance done front) (hitems : Derives tolerance (.items items) tokens) :
    Derives tolerance (.items (done.reverse ++ items)) (front ++ tokens) := by
  induction h generalizing items tokens with
  | nil => exact hitems
  | @snoc form done front last _ hlast ih =>
    have hmore := ih (.item hlast hitems)
    rw [List.reverse_cons, List.append_assoc, List.singleton_append]
    simpa only [List.append_assoc, List.singleton_append] using hmore

theorem DoneMembers.derives {done members : List (Option String × Form)}
    {front tokens : List Token} (h : DoneMembers tolerance done front)
    (hmembers : Derives tolerance (.members members) tokens) :
    Derives tolerance (.members (done.reverse ++ members)) (front ++ tokens) := by
  induction h generalizing members tokens with
  | nil => exact hmembers
  | @snoc name form done front last _ hlast ih =>
    have hmore := ih (.member name hlast hmembers)
    rw [List.reverse_cons, List.append_assoc, List.singleton_append]
    simpa only [List.append_assoc, List.cons_append, List.nil_append] using hmore

/-- The tokens that have opened a stack. -/
inductive Opened (tolerance : Tolerance) : List Frame → List Token → Prop where
  | nil : Opened tolerance [] []
  | array {done : List Form} {stack : List Frame} {before front : List Token} :
      Opened tolerance stack before → DoneItems tolerance done front →
        Opened tolerance (.array done :: stack) (before ++ .openArray :: front)
  | object {done : List (Option String × Form)} (name : Option String) {stack : List Frame}
      {before front : List Token} :
      Opened tolerance stack before → DoneMembers tolerance done front →
        Opened tolerance (.object done name :: stack)
          (before ++ .openObject :: (front ++ [.string name, .colon]))

/-- The tokens that have led the machine where it stands. -/
inductive Reached (tolerance : Tolerance) : Expecting → List Token → Prop where
  | value {stack : List Frame} {before : List Token} :
      Opened tolerance stack before → Reached tolerance (.value stack) before
  | firstItem {stack : List Frame} {before : List Token} :
      Opened tolerance stack before → Reached tolerance (.firstItem stack) (before ++ [.openArray])
  | firstName {stack : List Frame} {before : List Token} :
      Opened tolerance stack before → Reached tolerance (.firstName stack) (before ++ [.openObject])
  | name {stack : List Frame} {done : List (Option String × Form)} {before front : List Token} :
      Opened tolerance stack before → DoneMembers tolerance done front →
        Reached tolerance (.name stack done) (before ++ .openObject :: front)
  | colon {stack : List Frame} {done : List (Option String × Form)} (name : Option String)
      {before front : List Token} :
      Opened tolerance stack before → DoneMembers tolerance done front →
        Reached tolerance (.colon stack done name)
          (before ++ .openObject :: (front ++ [.string name]))
  | more {stack : List Frame} {form : Form} {before tokens : List Token} :
      Opened tolerance stack before → Derives tolerance (.value form) tokens →
        Reached tolerance (.more stack form) (before ++ tokens)

theorem reached_of_startValue? {stack : List Frame} {before : List Token} {token : Token}
    {next : Expecting} (h : Opened tolerance stack before)
    (hstart : startValue? stack token = some next) :
    Reached tolerance next (before ++ [token]) := by
  revert hstart
  fun_cases startValue? stack token with
  | case1 =>
    rintro ⟨⟩
    exact .more h .null
  | case2 b =>
    rintro ⟨⟩
    exact .more h (.bool b)
  | case3 n =>
    rintro ⟨⟩
    exact .more h (.number n)
  | case4 text =>
    rintro ⟨⟩
    exact .more h (.string text)
  | case5 =>
    rintro ⟨⟩
    exact .firstItem h
  | case6 =>
    rintro ⟨⟩
    exact .firstName h
  | case7 => exact fun h ↦ absurd h (Option.some_ne_none _).symm

/-- One token. -/
theorem reached_step {e next : Expecting} {tokens : List Token} {token : Token}
    (h : Reached tolerance e tokens) (hstep : e.step? token = some next) :
    Reached tolerance next (tokens ++ [token]) := by
  revert hstep
  fun_cases Expecting.step? e token with
  | case1 =>
    intro hstart
    cases h with
    | value hopened => exact reached_of_startValue? hopened hstart
  | case2 =>
    rintro ⟨⟩
    cases h with
    | firstItem hopened =>
      have hnext := Reached.more hopened (.emptyArray .none)
      simpa only [List.append_assoc, List.singleton_append, List.nil_append] using hnext
  | case3 =>
    intro hstart
    cases h with
    | firstItem hopened => exact reached_of_startValue? (.array hopened .nil) hstart
  | case4 =>
    rintro ⟨⟩
    cases h with
    | firstName hopened =>
      have hnext := Reached.more hopened (.emptyObject .none)
      simpa only [List.append_assoc, List.singleton_append, List.nil_append] using hnext
  | case5 stack name =>
    rintro ⟨⟩
    cases h with
    | firstName hopened =>
      have hnext := Reached.colon name hopened .nil
      simpa only [List.append_assoc, List.singleton_append, List.nil_append] using hnext
  | case6 stack members name =>
    rintro ⟨⟩
    cases h with
    | name hopened hdone =>
      have hnext := Reached.colon name hopened hdone
      simpa only [List.append_assoc, List.cons_append] using hnext
  | case7 stack members name =>
    rintro ⟨⟩
    cases h with
    | colon _ hopened hdone =>
      have hnext := Reached.value (hopened.object name hdone)
      simpa only [List.append_assoc, List.cons_append, List.nil_append] using hnext
  | case8 =>
    rintro ⟨⟩
    cases h with
    | more hopened hvalue =>
      cases hopened with
      | array hopened hdone =>
        have hnext := Reached.value (hopened.array (hdone.snoc hvalue))
        simpa only [List.append_assoc, List.cons_append] using hnext
  | case9 =>
    rintro ⟨⟩
    cases h with
    | more hopened hvalue =>
      cases hopened with
      | array hopened hdone =>
        have hitems := hdone.derives (.lastItem hvalue)
        rw [← List.reverse_cons] at hitems
        have hnext := Reached.more hopened (.array hitems .none)
        simpa only [List.append_assoc, List.cons_append, List.nil_append] using hnext
  | case10 members name =>
    rintro ⟨⟩
    cases h with
    | more hopened hvalue =>
      cases hopened with
      | object _ hopened hdone =>
        have hnext := Reached.name hopened (hdone.snoc name hvalue)
        simpa only [List.append_assoc, List.cons_append, List.nil_append] using hnext
  | case11 members name =>
    rintro ⟨⟩
    cases h with
    | more hopened hvalue =>
      cases hopened with
      | object _ hopened hdone =>
        have hmembers := hdone.derives (.lastMember name hvalue)
        rw [← List.reverse_cons] at hmembers
        have hnext := Reached.more hopened (.object hmembers .none)
        simpa only [List.append_assoc, List.cons_append, List.nil_append] using hnext
  | case12 => exact fun h ↦ absurd h (Option.some_ne_none _).symm

/-- A run of the machine. -/
theorem reached_of_foldlM {e last : Expecting} {tokens more : List Token}
    (h : Reached tolerance e tokens) (hrun : more.foldlM Expecting.step? e = some last) :
    Reached tolerance last (tokens ++ more) := by
  induction more generalizing e tokens with
  | nil =>
    obtain rfl := Option.some.inj hrun
    rwa [List.append_nil]
  | cons token more ih =>
    obtain ⟨next, hstep, hrest⟩ := Option.bind_eq_some_iff.1 hrun
    rw [List.append_cons]
    exact ih (reached_step h hstep) hrest

/-- **What is accepted is derived**, with whatever tolerance. -/
theorem derives_of_ofTokens? {tokens : List Token} {form : Form}
    (h : Form.ofTokens? tokens = some form) : Derives tolerance (.value form) tokens := by
  obtain ⟨last, hrun, hlast⟩ := Option.bind_eq_some_iff.1 h
  have hreached := reached_of_foldlM (Reached.value (@Opened.nil tolerance)) hrun
  rw [List.nil_append] at hreached
  split at hlast
  · obtain rfl := Option.some.inj hlast
    cases hreached with
    | more hopened hvalue =>
      cases hopened
      exact hvalue
  · exact absurd hlast (Option.some_ne_none _).symm

end Soundness

/-- **The grammar of documents.** The machine puts tokens together to a form exactly if the strict
grammar derives the form from them. -/
theorem Form.ofTokens?_eq_some_iff {tokens : List Token} {form : Form} :
    Form.ofTokens? tokens = some form ↔ Derives .strict (.value form) tokens := by
  refine ⟨derives_of_ofTokens?, fun h ↦ ?_⟩
  rw [Form.ofTokens?, accepts_of_derives h []]
  rfl

/-- What a text is read as: the tokens of the text are derived, and what they make up has a
value. -/
theorem read?_eq_some_iff {s : String} {value : Json} :
    Json.read? s = some value ↔
      ∃ tokens form, tokens? s.toList = some tokens ∧ Derives .strict (.value form) tokens ∧
        form.value? maxDepth = some value := by
  simp only [Json.read?, Form.read?, Option.bind_eq_bind, Option.bind_eq_some_iff,
    Form.ofTokens?_eq_some_iff]
  constructor
  · rintro ⟨form, ⟨tokens, htokens, hform⟩, hvalue⟩
    exact ⟨tokens, form, htokens, hform, hvalue⟩
  · rintro ⟨tokens, form, htokens, hform, hvalue⟩
    exact ⟨form, ⟨tokens, htokens, hform⟩, hvalue⟩

end Dialogue.Json
