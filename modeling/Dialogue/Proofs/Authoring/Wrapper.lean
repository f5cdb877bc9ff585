import Dialogue.Proofs.Authoring.Comments

/-!
# Taking off the wrapper

Once the comments are out, only white space stands around `export default`, around the document
and around the semicolons, so cutting and trimming finds the document, whether or not there is a
wrapper. No document looks like one: none begins with `e`, and none ends with a semicolon.
-/

namespace Dialogue.Authoring

open Character (isBlank)
open Json (isSpace Lexeme Apart tokens?)
open Text

variable {document s t gap : Text}

/-! ## White space around a document -/

theorem blank_of_spaces (h : Spaces s) : Blank s := fun c hc ↦ isBlank_of_isSpace (h c hc)

theorem apart_of_prefix {l : Text} (h : Apart l t) (hst : s <+: t) : Apart l s := by
  obtain ⟨rest, rfl⟩ := hst
  intro c hc d hd
  refine h c hc d ?_
  rw [List.head?_append, Option.mem_def.1 hd]
  rfl

theorem loosened_trimStart (h : Loosened Spaces document s) :
    Loosened Spaces document (trimStart s) := by
  induction h with
  | nil => exact .nil
  | tighten hc _ ih => exact .tighten hc ih
  | loosen hbetween _ ih =>
    rw [trimStart_append_of_blank (blank_of_spaces hbetween)]
    exact ih
  | lexeme hl hs ht hrest =>
    obtain ⟨c, u, rfl, hc⟩ := exists_cons_of_lexeme hl
    rw [@List.cons_append _ c u, @List.cons_append _ c u, trimStart_cons hc.not_blank]
    exact .lexeme hl hs ht hrest
  | comma hbracket hbetween hrest =>
    rw [trimStart_cons solid_comma.not_blank]
    exact .comma hbracket hbetween hrest

theorem loosened_trimEnd (h : Loosened Spaces document s) :
    Loosened Spaces document (trimEnd s) := by
  induction h with
  | nil => exact .nil
  | tighten hc _ ih => exact .tighten hc ih
  | @loosen between s t hbetween _ ih =>
    by_cases ht : trimEnd t = []
    · -- nothing is left of the gap, either
      have hblank : Blank (between ++ t) :=
        blank_append_iff.2 ⟨blank_of_spaces hbetween, trimEnd_eq_nil_iff.1 ht⟩
      rw [trimEnd_eq_nil_iff.2 hblank, ← ht]
      exact ih
    · rw [trimEnd_append ht]
      exact .loosen hbetween ih
  | @lexeme l s t hl hs ht _ ih =>
    have hapart : Apart l (trimEnd t) := apart_of_prefix ht (trimEnd_prefix_self t)
    obtain ⟨init, c, hinit, hc⟩ := exists_append_of_lexeme hl
    have htrim : trimEnd (l ++ t) = l ++ trimEnd t := by
      rw [hinit, List.append_assoc, List.singleton_append, trimEnd_append_cons hc.not_blank,
        List.append_assoc, List.singleton_append]
    rw [htrim]
    exact .lexeme hl hs hapart ih
  | comma hbracket hbetween _ ih =>
    rw [← List.cons_append, trimEnd_append_cons (solid_bracket hbracket).not_blank,
      List.cons_append]
    exact .comma hbracket hbetween ih

theorem loosened_trim (h : Loosened Spaces document s) : Loosened Spaces document (trim s) :=
  loosened_trimEnd (loosened_trimStart h)

/-! ## The ends of a document -/

private theorem forall_getLast?_append {P : Char → Prop} (hs : ∀ c ∈ s.getLast?, P c)
    (ht : ∀ c ∈ t.getLast?, P c) : ∀ c ∈ (s ++ t).getLast?, P c := by
  intro c hc
  rw [List.getLast?_append, Option.mem_def, Option.or_eq_some_iff] at hc
  rcases hc with hc | ⟨-, hc⟩
  · exact ht c hc
  · exact hs c hc

/-- No document ends with a semicolon. -/
theorem getLast?_ne_semicolon (h : Loosened Spaces document s) : ∀ c ∈ s.getLast?, c ≠ ';' := by
  induction h with
  | nil => exact fun _ hc ↦ absurd hc (Option.not_mem_none _)
  | tighten _ _ ih => exact ih
  | loosen hbetween _ ih =>
    refine forall_getLast?_append (fun c hc ↦ ?_) ih
    rintro rfl
    exact absurd (hbetween _ (List.mem_of_getLast? hc)) (by decide)
  | lexeme hl _ _ _ ih =>
    exact forall_getLast?_append (fun c hc ↦ (solid_of_getLast? hl c hc).ne_semicolon) ih
  | @comma bracket between s t hbracket hbetween _ ih =>
    have hsplit : ',' :: (between ++ bracket :: t) = (',' :: between ++ [bracket]) ++ t := by simp
    rw [hsplit]
    refine forall_getLast?_append (fun c hc ↦ ?_) ih
    rw [List.getLast?_concat] at hc
    exact Option.some.inj hc ▸ (solid_bracket hbracket).ne_semicolon

theorem tokens?_of_loosened_nil (h : Loosened Spaces document []) : tokens? document = some [] := by
  generalize hnil : ([] : Text) = s at h
  induction h with
  | nil => rfl
  | tighten hc _ ih =>
    rw [Json.tokens?_cons_of_isSpace hc]
    exact ih hnil
  | loosen _ _ ih => exact ih (List.append_eq_nil_iff.1 hnil.symm).2.symm
  | lexeme hl =>
    have hne := List.ne_nil_of_length_pos hl.length_pos
    exact absurd (List.append_eq_nil_iff.1 hnil.symm).1 hne
  | comma => exact absurd hnil (List.cons_ne_nil _ _).symm

theorem tokens?_cons_e {run : Text} (h : Lexeme ('e' :: run)) : tokens? ('e' :: run) = none := by
  have hbare : Json.bareToken? ('e' :: run) = none := by
    simp [Json.bareToken?, Numeral.ofChars?, Numeral.unsigned?, Numeral.digits?, Numeral.digits]
  cases h with
  | mark hc => exact absurd hc (Option.some_ne_none _).symm
  | bare hrun =>
    have hread := Json.tokens?_bare hrun (s := []) (fun _ hd ↦ absurd hd (Option.not_mem_none _))
    rw [List.append_nil, hbare] at hread
    exact hread

/-- No document begins with `e`. -/
theorem head?_ne_e (h : Loosened Spaces document s) (htokens : (tokens? document).isSome) :
    ∀ c ∈ (trimStart s).head?, c ≠ 'e' := by
  induction h with
  | nil => exact fun _ hc ↦ absurd hc (Option.not_mem_none _)
  | tighten hc _ ih =>
    rw [Json.tokens?_cons_of_isSpace hc] at htokens
    exact ih htokens
  | loosen hbetween _ ih =>
    rw [trimStart_append_of_blank (blank_of_spaces hbetween)]
    exact ih htokens
  | lexeme hl hs _ _ _ =>
    obtain ⟨d, u, rfl, hd⟩ := exists_cons_of_lexeme hl
    rw [@List.cons_append _ d u, trimStart_cons hd.not_blank]
    rintro c hc rfl
    obtain rfl := Option.some.inj hc
    rw [hl.tokens?_append hs, tokens?_cons_e hl] at htokens
    exact absurd htokens Bool.false_ne_true
  | comma =>
    rw [trimStart_cons solid_comma.not_blank]
    intro c hc
    exact Option.some.inj hc ▸ by decide

/-! ## The wrapper -/

theorem afterWord?_append {word gap : Text} (hgap : Blank gap) (hne : gap ≠ []) (s : Text) :
    afterWord? word (word ++ (gap ++ s)) = some (trimStart s) := by
  have hword : word.isPrefixOf? (word ++ (gap ++ s)) = some (gap ++ s) :=
    List.isPrefixOf?_eq_some_iff_append_eq.2 rfl
  obtain ⟨c, gap, rfl⟩ := List.exists_cons_of_ne_nil hne
  rw [blank_cons_iff] at hgap
  rw [afterWord?, hword]
  simp only [Option.bind_eq_bind, Option.bind_some, List.cons_append, hgap.1, if_true]
  rw [trimStart_append_of_blank hgap.2]
  rfl

theorem afterExport?_append {front between behind : Text} (hfront : Blank front)
    (hbetween : Blank between) (hne : between ≠ []) (hbehind : Blank behind) (hne' : behind ≠ [])
    (s : Text) :
    afterExport? (front ++ "export".toList ++ between ++ "default".toList ++ behind ++ s) =
      some (trimStart s) := by
  have hexport :
      trimStart (front ++ "export".toList ++ between ++ "default".toList ++ behind ++ s) =
        "export".toList ++ (between ++ ("default".toList ++ (behind ++ s))) := by
    simp only [List.append_assoc]
    rw [trimStart_append_of_blank hfront]
    rfl
  have hdefault : trimStart ("default".toList ++ (behind ++ s)) =
      "default".toList ++ (behind ++ s) := rfl
  rw [afterExport?, hexport, afterWord?_append hbetween hne, hdefault, Option.bind_eq_bind,
    Option.bind_some, afterWord?_append hbehind hne']

theorem afterExport?_eq_none (h : ∀ c ∈ (trimStart s).head?, c ≠ 'e') :
    afterExport? s = none := by
  have hword : "export".toList.isPrefixOf? (trimStart s) = none := by
    rw [Option.eq_none_iff_forall_ne_some]
    intro rest hrest
    rw [List.isPrefixOf?_eq_some_iff_append_eq] at hrest
    exact h 'e' (by rw [← hrest]; rfl) rfl
  rw [afterExport?, afterWord?, hword]
  rfl

theorem dropSemicolons_append_replicate (hs : ∀ c ∈ s.getLast?, c ≠ ';') (n : Nat) :
    dropSemicolons (s ++ List.replicate n ';') = s := by
  have hself : dropSemicolons s = s := by
    refine List.rdropWhile_eq_self_iff.2 fun hne hlast ↦ ?_
    exact hs _ (List.getLast?_eq_some_getLast hne) (beq_iff_eq.1 hlast)
  rw [dropSemicolons, List.reverse_append, List.dropWhile_append_of_pos]
  · exact hself
  · intro c hc
    rw [List.mem_reverse, List.mem_replicate] at hc
    exact beq_iff_eq.2 hc.2

/-- Semicolons are dropped, and the white space around them is trimmed. -/
theorem trim_dropSemicolons {before behind : Text} (hs : ∀ c ∈ s.getLast?, c ≠ ';')
    (hs' : ∀ c ∈ (trimEnd s).getLast?, c ≠ ';') (hbefore : Blank before) (hbehind : Blank behind)
    (n : Nat) :
    trim (dropSemicolons (trimEnd (s ++ (before ++ List.replicate n ';' ++ behind)))) =
      trim s := by
  rcases n with _ | n
  · have hblank : Blank (before ++ List.replicate 0 ';' ++ behind) := by
      rw [List.replicate_zero, List.append_nil]
      exact blank_append_iff.2 ⟨hbefore, hbehind⟩
    have hself : dropSemicolons (trimEnd s) = trimEnd s := by
      simpa using dropSemicolons_append_replicate hs' 0
    rw [trimEnd_append_of_blank hblank, hself, trim_trimEnd]
  · have hlast : ∀ c ∈ (s ++ before).getLast?, c ≠ ';' := by
      refine forall_getLast?_append hs fun c hc ↦ ?_
      rintro rfl
      exact absurd (hbefore _ (List.mem_of_getLast? hc)) (by decide)
    have hsplit : s ++ (before ++ List.replicate (n + 1) ';' ++ behind) =
        (s ++ before ++ List.replicate n ';') ++ ';' :: behind := by
      simp [List.replicate_succ']
    have htrim : trimEnd (s ++ (before ++ List.replicate (n + 1) ';' ++ behind)) =
        s ++ before ++ List.replicate (n + 1) ';' := by
      rw [hsplit, trimEnd_append_cons (by decide), trimEnd_eq_nil_iff.2 hbehind,
        List.replicate_succ', List.append_assoc]
    rw [htrim, dropSemicolons_append_replicate hlast, trim_append_of_blank hbefore]

/-- **Without its wrapper a document is left.** -/
theorem unwrap_eq {heading ending : Text} {tokens : List Json.Token}
    (htokens : tokens? document = some tokens) (hne : tokens ≠ [])
    (hheading : Heading Blank heading) (hs : Loosened Spaces document s)
    (hending : Ending Blank ending) : unwrap (heading ++ s ++ ending) = trim s := by
  have hcut : ∃ t, Loosened Spaces document t ∧ trim t = trim s ∧
      (afterExport? (heading ++ s ++ ending)).getD (heading ++ s ++ ending) = t ++ ending := by
    -- there is something to find, or the document would have no tokens
    have hsolid : trimStart s ≠ [] := by
      intro hnil
      have hnone : tokens? document = some [] :=
        tokens?_of_loosened_nil (hnil ▸ loosened_trimStart hs)
      exact hne (Option.some.inj (htokens.symm.trans hnone))
    cases hheading with
    | none =>
      refine ⟨s, hs, rfl, ?_⟩
      have hbegins : ∀ c ∈ (trimStart (s ++ ending)).head?, c ≠ 'e' := by
        have hdocument := head?_ne_e hs (htokens ▸ rfl)
        rw [trimStart_append hsolid]
        obtain ⟨c, rest, hrest⟩ := List.exists_cons_of_ne_nil hsolid
        rw [hrest] at hdocument ⊢
        exact hdocument
      rw [List.nil_append, afterExport?_eq_none hbegins, Option.getD_none]
    | exported hfront hbetween hne hbehind hne' =>
      refine ⟨trimStart s, loosened_trimStart hs, trim_trimStart s, ?_⟩
      rw [List.append_assoc _ s, afterExport?_append hfront hbetween hne hbehind hne',
        Option.getD_some, trimStart_append hsolid]
  obtain ⟨t, ht, htrim, hcut⟩ := hcut
  obtain ⟨n, hbefore, hbehind⟩ := hending
  rw [unwrap, hcut, trim_dropSemicolons (getLast?_ne_semicolon ht)
    (getLast?_ne_semicolon (loosened_trimEnd ht)) hbefore hbehind, htrim]

end Dialogue.Authoring
