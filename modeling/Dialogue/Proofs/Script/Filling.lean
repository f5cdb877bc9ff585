import Dialogue.Proofs.Conversation.Silence
import Dialogue.Proofs.Script.Requirements

/-!
# Filling in templates

How a template is read does not depend on the input. From left to right, a reference that begins
somewhere is taken with as many digits as leave room for the closing marker, and every other
character stands for itself. This is the relation `Reply.Reads`, which gives each template one
reading. A reply is the reading with a value put in for each reference, whatever the value looks
like: it is not read again, and whether a rule redirects is asked of the template alone.
-/

namespace Dialogue

open Text (trim scan scan_cons)

namespace Reply

variable {opening closing s digits rest : Text} {reading : List (Char ⊕ Text)}

/-! ## References -/

/-- The text begins with a reference: digits between the two markers. Of all references that it
begins with, this one has the most digits. -/
structure Begins (opening closing s digits rest : Text) : Prop where
  eq : s = opening ++ (digits ++ (closing ++ rest))
  ne_nil : digits ≠ []
  isDigit : ∀ c ∈ digits, c.isDigit = true
  longest (digits' rest' : Text) (isDigit : ∀ c ∈ digits', c.isDigit = true)
    (eq : s = opening ++ (digits' ++ (closing ++ rest'))) : digits'.length ≤ digits.length

/-- A text begins with one reference at most. -/
theorem Begins.unique {digits' rest' : Text} (h : Begins opening closing s digits rest)
    (h' : Begins opening closing s digits' rest') : digits' = digits ∧ rest' = rest := by
  have hlength : digits'.length = digits.length :=
    Nat.le_antisymm (h.longest _ _ h'.isDigit h'.eq) (h'.longest _ _ h.isDigit h.eq)
  have heq := List.append_cancel_left (h'.eq.symm.trans h.eq)
  obtain ⟨hdigits, hrest⟩ := List.append_inj heq hlength
  exact ⟨hdigits, List.append_cancel_left hrest⟩

/-- What stands behind a reference. -/
theorem Begins.drop_eq (h : Begins opening closing s digits rest) :
    s.drop (opening.length + digits.length + closing.length) = rest := by
  rw [h.eq, ← List.drop_drop, ← List.drop_drop, List.drop_left, List.drop_left, List.drop_left]

theorem Begins.length_lt (h : Begins opening closing s digits rest) : rest.length < s.length := by
  have hpos := List.length_pos_of_ne_nil h.ne_nil
  rw [h.eq]
  simp only [List.length_append]
  omega

/-- What is found in front of a closing marker are digits. -/
theorem exists_digits {n : Nat} (h : digitsBefore? closing s = some n) :
    ∃ digits rest, s = digits ++ (closing ++ rest) ∧ digits.length = n ∧ digits ≠ [] ∧
      ∀ c ∈ digits, c.isDigit = true := by
  induction s generalizing n with
  | nil => exact absurd h (Option.some_ne_none n).symm
  | cons c s ih =>
    rw [digitsBefore?, Option.ite_none_right_eq_some] at h
    obtain ⟨hdigit, h⟩ := h
    split at h
    · rename_i m hm
      obtain ⟨digits, rest, rfl, rfl, -, hdigits⟩ := ih hm
      refine ⟨c :: digits, rest, rfl, Option.some.inj h, List.cons_ne_nil _ _, ?_⟩
      exact List.forall_mem_cons.2 ⟨hdigit, hdigits⟩
    · rw [Option.ite_none_right_eq_some] at h
      obtain ⟨rest, rfl⟩ := List.isPrefixOf_iff_prefix.1 h.1
      exact ⟨[c], rest, rfl, Option.some.inj h.2, List.cons_ne_nil _ _,
        List.forall_mem_singleton.2 hdigit⟩

/-- At least as many digits are found as there are in front of some closing marker. -/
theorem le_digitsBefore? (hne : digits ≠ []) (hdigits : ∀ c ∈ digits, c.isDigit = true) :
    ∃ n, digitsBefore? closing (digits ++ (closing ++ rest)) = some n ∧ digits.length ≤ n := by
  induction digits with
  | nil => exact absurd rfl hne
  | cons c digits ih =>
    obtain ⟨hdigit, hdigits⟩ := List.forall_mem_cons.1 hdigits
    rw [List.cons_append, digitsBefore?, if_pos hdigit, List.length_cons]
    split
    · rename_i n hn
      refine ⟨n + 1, rfl, Nat.succ_le_succ ?_⟩
      by_cases hnil : digits = []
      · exact hnil ▸ Nat.zero_le n
      · obtain ⟨m, hm, hle⟩ := ih hnil hdigits
        exact Option.some.inj (hm.symm.trans hn) ▸ hle
    · rename_i hnone
      have hnil : digits = [] := by
        by_contra hnil
        obtain ⟨m, hm, -⟩ := ih hnil hdigits
        exact Option.some_ne_none m (hm.symm.trans hnone)
      subst hnil
      exact ⟨1, if_pos (List.isPrefixOf_iff_prefix.2 ⟨rest, rfl⟩), Nat.le_refl 1⟩

theorem referenceAt?_append (opening closing s : Text) :
    referenceAt? opening closing (opening ++ s) = (digitsBefore? closing s).map fun n ↦
      (captureNumber (s.take n), opening.length + n + closing.length) := by
  have hopening : opening.isPrefixOf? (opening ++ s) = some s :=
    List.isPrefixOf?_eq_some_iff_append_eq.2 rfl
  rw [referenceAt?, hopening, Option.bind_eq_bind, Option.bind_some, Option.bind_eq_bind,
    Option.map_eq_bind]
  rfl

/-- A reference is recognized where a text begins with one, and nowhere else. -/
theorem referenceAt?_cases (opening closing s : Text) :
    (∃ digits rest, Begins opening closing s digits rest ∧ referenceAt? opening closing s =
        some (captureNumber digits, opening.length + digits.length + closing.length)) ∨
      (∀ digits rest, ¬ Begins opening closing s digits rest) ∧
        referenceAt? opening closing s = none := by
  by_cases hprefix : ∃ behind, s = opening ++ behind
  · obtain ⟨behind, rfl⟩ := hprefix
    rw [referenceAt?_append]
    rcases hn : digitsBefore? closing behind with _ | n
    · refine .inr ⟨fun digits rest h ↦ ?_, rfl⟩
      obtain ⟨n, hsome, -⟩ := le_digitsBefore? h.ne_nil h.isDigit
      rw [← List.append_cancel_left h.eq, hn] at hsome
      exact Option.some_ne_none n hsome.symm
    · obtain ⟨digits, rest, rfl, rfl, hne, hdigits⟩ := exists_digits hn
      refine .inl ⟨digits, rest, ⟨rfl, hne, hdigits, fun digits' rest' hdigits' heq ↦ ?_⟩, ?_⟩
      · by_cases hnil : digits' = []
        · exact hnil ▸ Nat.zero_le _
        · obtain ⟨n, hsome, hle⟩ := le_digitsBefore? hnil hdigits'
          rw [← List.append_cancel_left heq, hn] at hsome
          exact Option.some.inj hsome ▸ hle
      · rw [Option.map_some, List.take_left]
  · refine .inr ⟨fun digits rest h ↦ hprefix ⟨_, h.eq⟩, ?_⟩
    have hopening : opening.isPrefixOf? s = none := by
      refine Option.eq_none_iff_forall_ne_some.2 fun behind hbehind ↦ hprefix ⟨behind, ?_⟩
      exact (List.isPrefixOf?_eq_some_iff_append_eq.1 hbehind).symm
    rw [referenceAt?, hopening]
    rfl

/-! ## Reading a template -/

/-- How a template is read from left to right: a reference is given by its digits, and where none
begins a character stands for itself. -/
inductive Reads (opening closing : Text) : Text → List (Char ⊕ Text) → Prop
  | done : Reads opening closing [] []
  | character {c : Char} {s : Text} {reading : List (Char ⊕ Text)}
      (none : ∀ digits rest, ¬ Begins opening closing (c :: s) digits rest)
      (reads : Reads opening closing s reading) : Reads opening closing (c :: s) (.inl c :: reading)
  | reference {s digits rest : Text} {reading : List (Char ⊕ Text)}
      (begins : Begins opening closing s digits rest) (reads : Reads opening closing rest reading) :
      Reads opening closing s (.inr digits :: reading)

/-- Every template has a reading. -/
theorem exists_reads (opening closing s : Text) : ∃ reading, Reads opening closing s reading := by
  induction hlength : s.length using Nat.strong_induction_on generalizing s with
  | _ n ih =>
    subst hlength
    rcases s with _ | ⟨c, s⟩
    · exact ⟨[], .done⟩
    · obtain ⟨digits, rest, hbegins, -⟩ | ⟨hnone, -⟩ := referenceAt?_cases opening closing (c :: s)
      · obtain ⟨reading, hreads⟩ := ih _ hbegins.length_lt rest rfl
        exact ⟨_, .reference hbegins hreads⟩
      · obtain ⟨reading, hreads⟩ := ih _ (Nat.lt_succ_self _) s rfl
        exact ⟨_, .character hnone hreads⟩

/-- A scan gives the reading of a template, with the numbers that the digits of its references
stand for. -/
theorem Reads.scan_eq (h : Reads opening closing s reading) :
    scan (referenceAt? opening closing) s = reading.map (Sum.map id captureNumber) := by
  induction h with
  | done => rfl
  | @character c s reading hnone _ ih =>
    obtain ⟨digits, rest, hbegins, -⟩ | ⟨-, hreference⟩ :=
      referenceAt?_cases opening closing (c :: s)
    · exact absurd hbegins (hnone digits rest)
    · rw [scan_cons, hreference, ih]
      rfl
  | @reference s digits rest reading hbegins _ ih =>
    obtain ⟨digits', rest', hbegins', hreference⟩ | ⟨hnone, -⟩ :=
      referenceAt?_cases opening closing s
    · obtain ⟨rfl, rfl⟩ := hbegins.unique hbegins'
      obtain ⟨c, s, rfl⟩ : ∃ c t, s = c :: t :=
        List.exists_cons_of_ne_nil (List.ne_nil_of_length_pos (Nat.zero_lt_of_lt hbegins.length_lt))
      obtain ⟨n, hn⟩ : ∃ n, opening.length + digits'.length + closing.length = n + 1 := by
        have hpos := List.length_pos_of_ne_nil hbegins'.ne_nil
        exact ⟨opening.length + digits'.length + closing.length - 1, by omega⟩
      have hdrop := hbegins'.drop_eq
      rw [hn, List.drop_succ_cons] at hdrop
      rw [scan_cons, hreference]
      dsimp only
      rw [hn, Nat.add_sub_cancel, hdrop, ih]
      rfl
    · exact absurd hbegins (hnone digits rest)

/-- A template has one reading only. -/
theorem Reads.unique {other : List (Char ⊕ Text)} (h : Reads opening closing s reading)
    (hother : Reads opening closing s other) : other = reading := by
  induction h generalizing other with
  | done =>
    rcases hother with _ | _ | ⟨hbegins, -⟩
    · rfl
    · exact absurd hbegins.length_lt (Nat.not_lt_zero _)
  | character hnone _ ih =>
    rcases hother with _ | ⟨-, hreads⟩ | ⟨hbegins, -⟩
    · rw [ih hreads]
    · exact absurd hbegins (hnone _ _)
  | reference hbegins _ ih =>
    rcases hother with _ | ⟨hnone, -⟩ | ⟨hbegins', hreads⟩
    · exact absurd hbegins.length_lt (Nat.not_lt_zero _)
    · exact absurd hbegins (hnone _ _)
    · obtain ⟨rfl, rfl⟩ := hbegins.unique hbegins'
      rw [ih hreads]

/-! ## Putting in values -/

variable {post : Substitution} {captures : List Text}

/-- The value of a reference with some digits. -/
def valueOf (post : Substitution) (captures : List Text) (digits : Text) : Text :=
  captured post captures (captureNumber digits)

/-- The digits of a reference that has no value. -/
theorem valueOf_eq_nil (h : ofDigits digits = 0 ∨ 0x10000000000000000 ≤ ofDigits digits ∨
      captures.length < ofDigits digits) : valueOf post captures digits = [] := by
  rw [valueOf, captureNumber]
  split
  · rcases hnumber : ofDigits digits with _ | n
    · rfl
    · rw [captured, List.getElem?_eq_none (by omega)]
      rfl
  · rfl

theorem valueOf_eq {n : Nat} {capture : Text} (h : captures[n]? = some capture)
    (hnumber : ofDigits digits = n + 1) (hword : n + 1 < 0x10000000000000000) :
    valueOf post captures digits = post.apply (trim capture) := by
  rw [valueOf, captureNumber, if_pos (by omega), hnumber, captured, h]
  rfl

/-- What a reading says with the values of its references put in. -/
def putIn (post : Substitution) (captures : List Text) (reading : List (Char ⊕ Text)) : Text :=
  trim (reading.flatMap (Sum.elim (fun c ↦ [c]) (valueOf post captures)))

/-- A reply is the reading of its template with the values put in. -/
theorem Reads.fill_eq (h : Reads opening closing s reading) :
    fill opening closing post s captures = putIn post captures reading := by
  rw [fill, h.scan_eq, List.flatMap_map, putIn]
  congr 2
  funext piece
  rcases piece with c | digits <;> rfl

/-- The reply of a visit is the reading of a template under the markers of the script. -/
theorem exists_reads_of_visit {script : Script} {part text : Text} {k : Nat} {s t : State}
    (h : script.visit k part s = (.reply text, t)) :
    ∃ keyword ∈ script.keywords, ∃ rule ∈ keyword.rules, ∃ template ∈ rule.replies,
      script.redirect? template = none ∧ ∃ captures, rule.decompose part = some captures ∧
        ∃ reading, Reads script.options.paramMarkerPre.toList
            script.options.paramMarkerPost.toList template reading ∧
          text = putIn script.post captures reading := by
  obtain ⟨keyword, hk, rule, hrule, -, template, htemplate, hredirect, captures, hcaptures, rfl⟩ :=
    Script.exists_fill_of_visit h
  obtain ⟨reading, hreading⟩ := exists_reads script.options.paramMarkerPre.toList
    script.options.paramMarkerPost.toList template
  exact ⟨keyword, List.mem_of_getElem? hk, rule, hrule, template, htemplate, hredirect, captures,
    hcaptures, reading, hreading, hreading.fill_eq⟩

/-- A template has one reading, whatever it is filled with, and **the reply is this reading with
the values of its references put in**. The value of a reference is what was captured, trimmed and
with everything substituted; numbers that no capture has stand for nothing. A script fills in its
templates in this way, under its own markers and with its own table. Values are not read again: a
visit to a keyword answers with such a reply just as it is, and redirects only if one of the
templates does. -/
theorem fills_in_one_reading (opening closing template : Text) :
    (∃ reading, (∀ other, Reads opening closing template other ↔ other = reading) ∧
      ∀ (post : Substitution) (captures : List Text),
        fill opening closing post template captures = putIn post captures reading) ∧
    (∀ (post : Substitution) (captures : List Text) (digits : Text),
      (ofDigits digits = 0 ∨ 0x10000000000000000 ≤ ofDigits digits ∨
          captures.length < ofDigits digits →
        valueOf post captures digits = []) ∧
      ∀ n capture, captures[n]? = some capture → ofDigits digits = n + 1 →
          n + 1 < 0x10000000000000000 →
        valueOf post captures digits = post.apply (trim capture) ∧
          (post.isEmpty = true → valueOf post captures digits = trim capture)) ∧
    ∀ script : Script,
      let opening := script.options.paramMarkerPre.toList
      let closing := script.options.paramMarkerPost.toList
      (∀ (template : Text) (captures : List Text) (reading : List (Char ⊕ Text)),
        Reads opening closing template reading →
          script.fill template captures = putIn script.post captures reading) ∧
      ∀ (part : Text) (k : Nat) (s : State),
        (∀ text t, script.visit k part s = (.reply text, t) →
          (∃ keyword ∈ script.keywords, ∃ rule ∈ keyword.rules, ∃ template ∈ rule.replies,
            script.redirect? template = none ∧ ∃ captures, rule.decompose part = some captures ∧
              ∃ reading, Reads opening closing template reading ∧
                text = putIn script.post captures reading) ∧
          ∀ n, script.follow part n k s = (.ok text, t)) ∧
        ∀ name l t, script.visit k part s = (.redirect name l, t) → script.RedirectsTo k l := by
  obtain ⟨reading, hreading⟩ := exists_reads opening closing template
  refine ⟨⟨reading, fun other ↦ ⟨hreading.unique, fun h ↦ h ▸ hreading⟩, fun post captures ↦
    hreading.fill_eq⟩, fun post captures digits ↦ ⟨valueOf_eq_nil, ?_⟩, fun script ↦
    ⟨fun template captures reading h ↦ h.fill_eq, fun part k s ↦ ⟨fun text t h ↦ ?_,
      fun name l t ↦ Script.redirectsTo_of_visit⟩⟩⟩
  · intro n capture hcapture hnumber hword
    have hvalue : valueOf post captures digits = post.apply (trim capture) :=
      valueOf_eq hcapture hnumber hword
    refine ⟨hvalue, fun hempty ↦ ?_⟩
    rw [hvalue, Substitution.apply_of_isEmpty hempty]
  · refine ⟨exists_reads_of_visit h, fun n ↦ ?_⟩
    rw [Script.follow_of_ne_redirect (by simp [h]), h]
    rfl

/-- A closing marker that is a digit is left to the reference in front of it, and what was said is
not read again, though it looks like a reference and like a redirect. -/
theorem fills_before_a_closing_digit :
    let template := "$10 or $20, $100".toList
    let declared : Members := [("x", .object [("* x *", .string "$10 or $20, $100")])]
    ∃ script, Script.compile .boundless (.object (Script.ofKeywords declared))
        { paramMarkerPost := "0" } = .ok script ∧
      ∃ reading, Reads ['$'] ['0'] template reading ∧
        putIn script.post ["$10 ".toList, " = b".toList] reading = "$10 or = b,".toList ∧
        ∃ t, script.visit 0 "$10 x = b".toList (.start script fun _ ↦ 0.0) =
          (.reply "$10 or = b,".toList, t) := by
  intro template declared
  obtain ⟨script, hcompile, hoptions, hfill, hvisit⟩ :
      ∃ script, Script.compile .boundless (.object (Script.ofKeywords declared))
          { paramMarkerPost := "0" } = .ok script ∧
        script.options = { paramMarkerPost := "0" } ∧
        script.fill template ["$10 ".toList, " = b".toList] = "$10 or = b,".toList ∧
        (script.visit 0 "$10 x = b".toList (.start script fun _ ↦ 0.0)).1 =
          .reply "$10 or = b,".toList :=
    ⟨_, rfl, rfl, by decide +kernel, by decide +kernel⟩
  obtain ⟨⟨reading, hunique, -⟩, -, hscript⟩ := fills_in_one_reading ['$'] ['0'] template
  have hreading : Reads ['$'] ['0'] template reading := (hunique reading).2 rfl
  refine ⟨script, hcompile, reading, hreading, ?_, _, Prod.ext hvisit rfl⟩
  rw [← (hscript script).1 template _ reading (by rw [hoptions]; exact hreading), hfill]

end Reply

end Dialogue
