import Dialogue.Proofs.Authoring.Format
import Dialogue.Proofs.Text.Trim

/-!
# Taking out the comments

Comments are found line by line, while an authored text is made of gaps and lexemes. The two views
meet because nothing but a gap holds a line feed: wherever a lexeme or a gap ends, the rest of its
line is no comment, and what is put in front of it on the same line does not make it one. So a text
can be cleared piece by piece (`Clears`).

The comments are gone then and everything else is as it was. What is left is loosened by white space
only.
-/

namespace Dialogue.Authoring

open Character (isBlank)
open Json (isSpace Apart Lexeme)
open Text (Blank trimStart trimStart_cons blank_cons_iff)

/-! ## Lines -/

variable {line s t : Text}

theorem isComment_cons_of_isBlank {c : Char} (hc : isBlank c = true) :
    isComment (c :: line) = isComment line := by
  rw [isComment, isComment, trimStart, List.dropWhile_cons_of_pos hc, trimStart]

theorem isComment_cons {c : Char} (hc : isBlank c = false) (hslash : c ≠ '/') :
    isComment (c :: line) = false := by
  have hne : ('/' == c) = false := beq_eq_false_iff_ne.2 hslash.symm
  rw [isComment, trimStart_cons hc]
  exact congrArg (· && ['/'].isPrefixOf line) hne

theorem isComment_indented {indent words : Text} (h : Blank indent) :
    isComment (indent ++ '/' :: '/' :: words) = true := by
  induction indent with
  | nil => rfl
  | cons c indent ih =>
    rw [blank_cons_iff] at h
    rw [List.cons_append, isComment_cons_of_isBlank h.1, ih h.2]

theorem blankComments_of_notMem (h : '\n' ∉ line) :
    blankComments line = if isComment line then [] else line := by
  rw [blankComments, List.splitOn_eq_singleton h, List.map_singleton, List.intercalate_singleton]

theorem blankComments_append (h : '\n' ∉ line) (s : Text) :
    blankComments (line ++ '\n' :: s) =
      (if isComment line then [] else line) ++ '\n' :: blankComments s := by
  have hsplit : (line ++ '\n' :: s).splitOn '\n' = line :: s.splitOn '\n' := by
    have hline : (line.splitOn '\n') = [line] := List.splitOn_eq_singleton h
    rw [List.splitOn] at hline ⊢
    rw [List.splitOnP_append_cons line s rfl, hline]
    rfl
  have hne : (s.splitOn '\n').map (fun line ↦ if isComment line then [] else line) ≠ [] :=
    mt List.map_eq_nil_iff.1 (List.splitOnP_ne_nil _ s)
  rw [blankComments, hsplit, List.map_cons, List.intercalate_cons_of_ne_nil hne, List.append_assoc,
    blankComments]
  rfl

/-- Taking the comments out of the first text gives the second, and they begin with the same
line. -/
inductive Uncommented : Text → Text → Prop
  | line {line : Text} : '\n' ∉ line → isComment line = false → Uncommented line line
  | lines {line s : Text} : '\n' ∉ line → isComment line = false →
      Uncommented (line ++ '\n' :: s) (line ++ '\n' :: blankComments s)

namespace Uncommented

theorem eq (h : Uncommented s t) : blankComments s = t := by
  cases h with
  | line hline hcomment =>
    rw [blankComments_of_notMem hline, hcomment, if_neg Bool.false_ne_true]
  | lines hline hcomment =>
    rw [blankComments_append hline, hcomment, if_neg Bool.false_ne_true]

theorem head?_eq (h : Uncommented s t) : t.head? = s.head? := by
  cases h with
  | line => rfl
  | @lines line => cases line <;> rfl

theorem nil : Uncommented [] [] := .line List.not_mem_nil rfl

theorem lineFeed (h : blankComments s = t) : Uncommented ('\n' :: s) ('\n' :: t) := by
  subst h
  exact @lines [] s List.not_mem_nil rfl

/-- What stands in front on the same line stays, unless it makes that line a comment. -/
theorem append {u : Text} (hu : '\n' ∉ u)
    (hsafe : ∀ line, isComment line = false → isComment (u ++ line) = false)
    (h : Uncommented s t) : Uncommented (u ++ s) (u ++ t) := by
  cases h with
  | line hline hcomment => exact .line (List.not_mem_append hu hline) (hsafe _ hcomment)
  | lines hline hcomment =>
    rw [← List.append_assoc, ← List.append_assoc]
    exact .lines (List.not_mem_append hu hline) (hsafe _ hcomment)

end Uncommented

/-! ## Pieces of a text -/

/-- Taking the comments out of the first text leaves the second, whatever follows. -/
def Clears (u v : Text) : Prop := ∀ s t, Uncommented s t → Uncommented (u ++ s) (v ++ t)

namespace Clears

variable {u v u' v' : Text}

theorem nil : Clears [] [] := fun _ _ ↦ id

theorem append (h : Clears u v) (h' : Clears u' v') : Clears (u ++ u') (v ++ v') := by
  intro s t hst
  rw [List.append_assoc, List.append_assoc]
  exact h _ _ (h' s t hst)

theorem eq (h : Clears u v) : blankComments u = v := by
  simpa using (h [] [] .nil).eq

theorem head?_eq (h : Clears u v) : v.head? = u.head? := by
  simpa using (h [] [] .nil).head?_eq

/-- A line is no comment if it begins with neither white space nor a slash. -/
theorem word {c : Char} (hc : isBlank c = false) (hslash : c ≠ '/') (hu : '\n' ∉ c :: u) :
    Clears (c :: u) (c :: u) :=
  fun _ _ ↦ .append hu fun _ _ ↦ isComment_cons hc hslash

theorem solid {c : Char} (hc : Solid c) : Clears [c] [c] := by
  refine word hc.not_blank hc.ne_slash ?_
  rw [List.mem_singleton]
  rintro rfl
  exact absurd hc.not_blank (by decide)

theorem lexeme (h : Lexeme u) : Clears u u := by
  have hline := notMem_lineFeed_of_lexeme h
  obtain ⟨c, rest, rfl, hc⟩ := exists_cons_of_lexeme h
  exact word hc.not_blank hc.ne_slash hline

theorem blank {c : Char} (hc : isBlank c = true) : Clears [c] [c] := by
  intro s t hst
  by_cases hline : c = '\n'
  · subst hline
    exact .lineFeed hst.eq
  · refine hst.append ?_ fun line hcomment ↦ (isComment_cons_of_isBlank hc).trans hcomment
    rw [List.mem_singleton]
    exact Ne.symm hline

theorem comment {indent words : Text} (hindent : Blank indent) (hindent' : '\n' ∉ indent)
    (hwords : '\n' ∉ words) :
    Clears ('\n' :: (indent ++ '/' :: '/' :: words) ++ ['\n']) ['\n', '\n'] := by
  intro s t hst
  have hline : '\n' ∉ indent ++ '/' :: '/' :: words := by
    refine List.not_mem_append hindent' ?_
    refine List.not_mem_cons_of_ne_of_not_mem (by decide) ?_
    exact List.not_mem_cons_of_ne_of_not_mem (by decide) hwords
  rw [List.append_assoc]
  refine .lineFeed ?_
  rw [List.append_eq, List.singleton_append, blankComments_append hline,
    isComment_indented hindent, if_pos rfl, hst.eq]
  rfl

end Clears

/-! ## Authored texts -/

/-- Of a gap, white space is left. -/
theorem Gap.clears {space : Char → Bool} (hspace : ∀ c, space c = true → isBlank c = true)
    (hline : space '\n' = true) {gap : Text} (h : Gap space gap) :
    ∃ spaces : Text, (∀ c ∈ spaces, space c = true) ∧ (spaces = [] → gap = []) ∧
      Clears gap spaces := by
  induction h with
  | nil => exact ⟨[], fun _ hc ↦ absurd hc List.not_mem_nil, id, .nil⟩
  | @space c gap hc _ ih =>
    obtain ⟨spaces, hspaces, -, hclears⟩ := ih
    refine ⟨[c] ++ spaces, List.forall_mem_cons.2 ⟨hc, hspaces⟩, nofun, ?_⟩
    exact (Clears.blank (hspace c hc)).append hclears
  | @comment indent words gap hindent hindent' hwords _ ih =>
    obtain ⟨spaces, hspaces, -, hclears⟩ := ih
    have hsplit : '\n' :: (indent ++ '/' :: '/' :: (words ++ '\n' :: gap)) =
        ('\n' :: (indent ++ '/' :: '/' :: words) ++ ['\n']) ++ gap := by simp
    refine ⟨['\n', '\n'] ++ spaces, ?_, nofun, ?_⟩
    · exact List.forall_mem_cons.2 ⟨hline, List.forall_mem_cons.2 ⟨hline, hspaces⟩⟩
    · rw [hsplit]
      exact (Clears.comment hindent hindent' hwords).append hclears

theorem exists_spaces_of_gap {gap : Text} (h : Gap isSpace gap) :
    ∃ spaces, Spaces spaces ∧ Clears gap spaces := by
  obtain ⟨spaces, hspaces, -, hclears⟩ := h.clears (fun _ ↦ isBlank_of_isSpace) rfl
  exact ⟨spaces, hspaces, hclears⟩

theorem exists_blank_of_gap {gap : Text} (h : Gap isBlank gap) :
    ∃ spaces, Blank spaces ∧ (spaces = [] → gap = []) ∧ Clears gap spaces :=
  h.clears (fun _ ↦ id) rfl

/-- Without its comments an authored text is loosened by white space only. -/
theorem Loosened.clears {document : Text} (h : Loosened (Gap isSpace) document s) :
    ∃ t, Loosened Spaces document t ∧ Clears s t := by
  induction h with
  | nil => exact ⟨[], .nil, .nil⟩
  | tighten hc _ ih =>
    obtain ⟨t, hloosened, hclears⟩ := ih
    exact ⟨t, .tighten hc hloosened, hclears⟩
  | loosen hbetween _ ih =>
    obtain ⟨t, hloosened, hclears⟩ := ih
    obtain ⟨spaces, hspaces, hout⟩ := exists_spaces_of_gap hbetween
    exact ⟨spaces ++ t, .loosen hspaces hloosened, hout.append hclears⟩
  | @lexeme l _ s hl hs ht _ ih =>
    obtain ⟨t, hloosened, hclears⟩ := ih
    have hapart : Apart l t := by
      rw [Apart, hclears.head?_eq]
      exact ht
    exact ⟨l ++ t, .lexeme hl hs hapart hloosened, (Clears.lexeme hl).append hclears⟩
  | @comma bracket between _ s hbracket hbetween _ ih =>
    obtain ⟨t, hloosened, hclears⟩ := ih
    obtain ⟨spaces, hspaces, hout⟩ := exists_spaces_of_gap hbetween
    have hclosed : Clears (bracket :: s) (bracket :: t) :=
      (Clears.solid (solid_bracket hbracket)).append hclears
    exact ⟨_, .comma hbracket hspaces hloosened,
      (Clears.solid solid_comma).append (hout.append hclosed)⟩

theorem Heading.clears {heading : Text} (h : Heading (Gap isBlank) heading) :
    ∃ plain, Heading Blank plain ∧ Clears heading plain := by
  cases h with
  | none => exact ⟨[], .none, .nil⟩
  | exported hfront hbetween hne hbehind hne' =>
    obtain ⟨front, hfront, -, hclears₁⟩ := exists_blank_of_gap hfront
    obtain ⟨between, hbetween, hkept, hclears₂⟩ := exists_blank_of_gap hbetween
    obtain ⟨behind, hbehind, hkept', hclears₃⟩ := exists_blank_of_gap hbehind
    have hexport : Clears "export".toList "export".toList := .word rfl (by decide) (by decide)
    have hdefault : Clears "default".toList "default".toList := .word rfl (by decide) (by decide)
    refine ⟨_, .exported hfront hbetween (mt hkept hne) hbehind (mt hkept' hne'), ?_⟩
    exact (((hclears₁.append hexport).append hclears₂).append hdefault).append hclears₃

theorem Ending.clears {ending : Text} (h : Ending (Gap isBlank) ending) :
    ∃ plain, Ending Blank plain ∧ Clears ending plain := by
  obtain ⟨n, hbefore, hbehind⟩ := h
  obtain ⟨before, hbefore, -, hclears₁⟩ := exists_blank_of_gap hbefore
  obtain ⟨behind, hbehind, -, hclears₂⟩ := exists_blank_of_gap hbehind
  have hsemicolons : Clears (List.replicate n ';') (List.replicate n ';') := by
    rcases n with _ | n
    · exact .nil
    · refine .word rfl (by decide) ?_
      rw [← List.replicate_succ, List.mem_replicate]
      rintro ⟨-, h⟩
      exact absurd h (by decide)
  exact ⟨_, .semicolons n hbefore hbehind, (hclears₁.append hsemicolons).append hclears₂⟩

/-- **Without its comments an authored text is a document with white space around its lexemes and
its wrapper.** -/
theorem blankComments_authored {document heading body ending : Text}
    (hheading : Heading (Gap isBlank) heading) (hbody : Loosened (Gap isSpace) document body)
    (hending : Ending (Gap isBlank) ending) :
    ∃ heading' body' ending', Heading Blank heading' ∧ Loosened Spaces document body' ∧
      Ending Blank ending' ∧
      blankComments (heading ++ body ++ ending) = heading' ++ body' ++ ending' := by
  obtain ⟨heading', hheading', hclears₁⟩ := hheading.clears
  obtain ⟨body', hbody', hclears₂⟩ := hbody.clears
  obtain ⟨ending', hending', hclears₃⟩ := hending.clears
  exact ⟨heading', body', ending', hheading', hbody', hending',
    ((hclears₁.append hclears₂).append hclears₃).eq⟩

end Dialogue.Authoring
