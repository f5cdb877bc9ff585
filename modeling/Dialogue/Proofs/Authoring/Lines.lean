import Dialogue.Proofs.Authoring.Comments
import Dialogue.Proofs.Text.Trim
import Mathlib.Data.List.DropRight

/-!
# Lines of a cleaned text

Cleaning an authored text deletes characters, so a character may end up on another line than that
on which the author wrote it. A cleaned text does not tell where its characters come from: a line
feed in it may be any of several in the source. Cleaning is therefore followed on a text whose
characters carry a mark, `Traced`; with the marks erased it is the cleaning of the text
(`Traced.text_clean`), and with positions as marks it tells where each survivor stood.

Comments are emptied and commas dropped without touching a line feed. Unwrapping cuts off a piece
in front, the `opening`, and with it the line feeds of that piece: white space before the document,
lines that were comments, and the line breaks of `export default`. So every survivor moves up by
that one number of lines (`survivors_move_up_by_opening`), and lines are kept only where the
opening stays on the first line.
-/

namespace Dialogue.Authoring

open Character (isBlank)
open Text (trim trimStart trimEnd)

/-- The number of line feeds of a text. -/
def lineFeeds (s : Text) : Nat := s.count '\n'

/-- The first line of a text. -/
def firstLine (s : Text) : Text := s.takeWhile (· != '\n')

/-- The part behind a wrapper's first words, or the whole text. -/
def exported (s : Text) : Text := (afterExport? s).getD s

/-- What unwrapping cuts off in front of the document. -/
def opening (s : Text) : Text :=
  s.take (s.length - (exported s).length) ++
    (dropSemicolons (trimEnd (exported s))).takeWhile isBlank

/-- A text whose characters carry marks. -/
abbrev Traced (α : Type) := List (Char × α)

namespace Traced

variable {α : Type}

/-- The text without the marks. -/
def text (m : Traced α) : Text := m.map (·.1)

/-! ## Cleaning with marks -/

/-- A text from within a line, which is a comment or not, with comments emptied. -/
def blankFrom (comment : Bool) : Traced α → Traced α
  | [] => []
  | (c, a) :: m =>
    if c == '\n' then (c, a) :: blankFrom (isComment (firstLine (text m))) m
    else if comment then blankFrom comment m
    else (c, a) :: blankFrom comment m

/-- The marked text with every comment line emptied. -/
def blankComments (m : Traced α) : Traced α := blankFrom (isComment (firstLine m.text)) m

/-- The marked text behind a wrapper's first words and before its semicolons. -/
def unended (m : Traced α) : Traced α :=
  ((m.drop (m.length - (exported m.text).length)).rdropWhile (isBlank ·.1)).rdropWhile (·.1 == ';')

/-- The marked text without a wrapper. -/
def unwrap (m : Traced α) : Traced α :=
  (m.unended.dropWhile (isBlank ·.1)).rdropWhile (isBlank ·.1)

/-- The marked text that stands at some place without the commas before closing brackets. -/
def dropCommasFrom : Place → Traced α → Traced α
  | _, [] => []
  | place, (c, a) :: m =>
    if place == .outside && c == ',' && closes (text m) then dropCommasFrom .outside m
    else (c, a) :: dropCommasFrom (place.next c) m

/-- The marked document text. -/
def clean (m : Traced α) : Traced α := dropCommasFrom .outside (unwrap (blankComments m))

/-! ## Erasing the marks -/

variable (m : Traced α)

theorem text_cons (c : Char) (a : α) : text ((c, a) :: m) = c :: m.text := rfl

theorem text_append (m' : Traced α) : text (m ++ m') = m.text ++ m'.text := List.map_append

theorem length_text : m.text.length = m.length := List.length_map _

theorem text_dropWhile (p : Char → Bool) :
    text (m.dropWhile (p ·.1)) = m.text.dropWhile p := List.dropWhile_map.symm

theorem text_takeWhile (p : Char → Bool) :
    text (m.takeWhile (p ·.1)) = m.text.takeWhile p := List.takeWhile_map.symm

theorem text_rdropWhile (p : Char → Bool) :
    text (m.rdropWhile (p ·.1)) = m.text.rdropWhile p := by
  rw [List.rdropWhile, text, List.map_reverse]
  change (text _).reverse = _
  rw [text_dropWhile, text, List.map_reverse]
  rfl

/-- What emptying comments leaves of the lines behind the first. -/
def laterLines (s : Text) : Text :=
  match s.dropWhile (· != '\n') with
  | [] => []
  | c :: rest => c :: Authoring.blankComments rest

theorem blankComments_eq (s : Text) :
    Authoring.blankComments s =
      (if isComment (firstLine s) then [] else firstLine s) ++ laterLines s := by
  have hline : '\n' ∉ firstLine s := by
    intro h
    rw [firstLine] at h
    simpa using List.mem_takeWhile_imp h
  have hs : firstLine s ++ s.dropWhile (· != '\n') = s := List.takeWhile_append_dropWhile
  rw [laterLines]
  rcases hrest : s.dropWhile (· != '\n') with _ | ⟨c, rest⟩
  · rw [hrest, List.append_nil] at hs
    rw [List.append_nil, ← blankComments_of_notMem hline, hs]
  · have hc : c = '\n' := by
      have hhead := List.head?_dropWhile_not (· != '\n') s
      rw [hrest] at hhead
      simpa using hhead
    subst hc
    conv_lhs => rw [← hs, hrest]
    rw [blankComments_append hline]

theorem text_blankFrom (comment : Bool) :
    text (blankFrom comment m) =
      (if comment then [] else firstLine m.text) ++ laterLines m.text := by
  induction m generalizing comment with
  | nil => cases comment <;> rfl
  | cons entry m ih =>
    obtain ⟨c, a⟩ := entry
    rw [blankFrom]
    by_cases hc : c = '\n'
    · subst hc
      rw [if_pos (beq_self_eq_true _), text_cons, ih, ← blankComments_eq, text_cons]
      cases comment <;> rfl
    · have hne : (c != '\n') = true := bne_iff_ne.2 hc
      have hline : firstLine (c :: text m) = c :: firstLine (text m) :=
        List.takeWhile_cons_of_pos hne
      have hdrop : (c :: text m).dropWhile (· != '\n') = (text m).dropWhile (· != '\n') :=
        List.dropWhile_cons_of_pos hne
      have hlater : laterLines (c :: text m) = laterLines (text m) := by
        rw [laterLines, hdrop, laterLines]
      rw [if_neg (by simpa using hc), text_cons, hline, hlater]
      cases comment
      · exact congrArg (c :: ·) (ih false)
      · exact ih true

theorem text_blankComments : text (blankComments m) = Authoring.blankComments m.text := by
  rw [blankComments, text_blankFrom, blankComments_eq]

theorem suffix_of_afterWord? {word s rest : Text} (h : afterWord? word s = some rest) :
    rest <:+ s := by
  rw [afterWord?] at h
  obtain ⟨behind, hbehind, h⟩ := Option.bind_eq_some_iff.1 h
  rw [List.isPrefixOf?_eq_some_iff_append_eq] at hbehind
  rcases behind with _ | ⟨c, behind⟩
  · exact absurd h (Option.some_ne_none _).symm
  · change (if isBlank c = true then some (trimStart behind) else none) = some rest at h
    split at h
    · have hrest : trimStart behind = rest := Option.some.inj h
      rw [← hrest, ← hbehind]
      exact ((List.dropWhile_suffix isBlank).trans (List.suffix_cons c behind)).trans
        (List.suffix_append word _)
    · exact absurd h (Option.some_ne_none _).symm

theorem exported_suffix (s : Text) : exported s <:+ s := by
  rw [exported]
  rcases h : afterExport? s with _ | rest
  · exact List.suffix_refl s
  · rw [afterExport?] at h
    obtain ⟨behind, hbehind, hrest⟩ := Option.bind_eq_some_iff.1 h
    exact ((suffix_of_afterWord? hrest).trans (suffix_of_afterWord? hbehind)).trans
      (List.dropWhile_suffix isBlank)

theorem text_drop_exported :
    text (m.drop (m.length - (exported m.text).length)) = exported m.text := by
  rw [text, List.map_drop, ← length_text]
  exact (List.suffix_iff_eq_drop.1 (exported_suffix m.text)).symm

theorem text_unended : text m.unended = dropSemicolons (trimEnd (exported m.text)) := by
  rw [unended, text_rdropWhile _ (· == ';'), text_rdropWhile, text_drop_exported]
  rfl

theorem text_unwrap : text m.unwrap = Authoring.unwrap m.text := by
  rw [unwrap, text_rdropWhile, text_dropWhile, text_unended]
  rfl

theorem text_dropCommasFrom (place : Place) :
    text (dropCommasFrom place m) = Authoring.dropCommasFrom place m.text := by
  induction m generalizing place with
  | nil => rfl
  | cons entry m ih =>
    obtain ⟨c, a⟩ := entry
    rw [dropCommasFrom, text_cons, Authoring.dropCommasFrom]
    split
    · exact ih .outside
    · rw [text_cons, ih]

/-- Without the marks, following the cleaning of a text is cleaning it. -/
theorem text_clean : text (clean m) = Authoring.clean m.text := by
  rw [clean, text_dropCommasFrom, text_unwrap, text_blankComments]
  rfl

/-! ## Survivors come from the source -/

theorem blankFrom_sublist (comment : Bool) : (blankFrom comment m).Sublist m := by
  induction m generalizing comment with
  | nil => exact .slnil
  | cons entry m ih =>
    obtain ⟨c, a⟩ := entry
    rw [blankFrom]
    split
    · exact (ih _).cons_cons _
    · split
      · exact (ih _).cons _
      · exact (ih _).cons_cons _

theorem dropCommasFrom_sublist (place : Place) : (dropCommasFrom place m).Sublist m := by
  induction m generalizing place with
  | nil => exact .slnil
  | cons entry m ih =>
    obtain ⟨c, a⟩ := entry
    rw [dropCommasFrom]
    split
    · exact (ih _).cons _
    · exact (ih _).cons_cons _

/-- Unwrapping cuts off the opening in front, and something at the end. -/
theorem exists_cut (m : Traced α) :
    ∃ front back, m = front ++ (m.unwrap ++ back) ∧ front.text = opening m.text := by
  obtain ⟨ending, hending⟩ : m.unended <+: m.drop (m.length - (exported m.text).length) :=
    (List.rdropWhile_prefix _ _).trans (List.rdropWhile_prefix _ _)
  obtain ⟨blanks, hblanks⟩ : m.unwrap <+: m.unended.dropWhile (isBlank ·.1) :=
    List.rdropWhile_prefix _ _
  refine ⟨m.take (m.length - (exported m.text).length) ++ m.unended.takeWhile (isBlank ·.1),
    blanks ++ ending, ?_, ?_⟩
  · calc
      m = m.take (m.length - (exported m.text).length) ++ (m.unended ++ ending) := by
        rw [hending, List.take_append_drop]
      _ = m.take (m.length - (exported m.text).length) ++
          ((m.unended.takeWhile (isBlank ·.1) ++ (m.unwrap ++ blanks)) ++ ending) := by
        rw [hblanks, List.takeWhile_append_dropWhile]
      _ = _ := by simp only [List.append_assoc]
  · rw [text_append, text_takeWhile, text_unended, opening, length_text, text, text,
      List.map_take]

/-- The text that unwrapping cuts off in front is the opening. -/
theorem exists_closing (s : Text) :
    ∃ closing, s = opening s ++ (Authoring.unwrap s ++ closing) := by
  obtain ⟨front, back, hcut, hfront⟩ := exists_cut s.zipIdx
  have hsource : text s.zipIdx = s := List.zipIdx_map_fst 0 s
  refine ⟨text back, ?_⟩
  have htext := congrArg text hcut
  rwa [text_append, text_append, text_unwrap, hfront, hsource] at htext

theorem clean_sublist : (clean m).Sublist m := by
  obtain ⟨front, back, hcut, -⟩ := exists_cut (blankComments m)
  have hunwrap : (unwrap (blankComments m)).Sublist (blankComments m) := by
    conv_rhs => rw [hcut]
    exact (List.sublist_append_left _ back).trans (List.sublist_append_right front _)
  exact ((dropCommasFrom_sublist _ _).trans hunwrap).trans (blankFrom_sublist m _)

/-! ## Lines -/

/-- Every character has the mark of its line, the first line being `n`. -/
inductive OnLines (line : α → Nat) : Nat → Traced α → Prop where
  | nil {n : Nat} : OnLines line n []
  | cons {n : Nat} {c : Char} {a : α} {m : Traced α} (first : line a = n)
      (rest : OnLines line (n + lineFeeds [c]) m) : OnLines line n ((c, a) :: m)

variable {line : α → Nat} {n : Nat}

theorem onLines_cons_iff {c : Char} {a : α} :
    OnLines line n ((c, a) :: m) ↔ line a = n ∧ OnLines line (n + lineFeeds [c]) m := by
  constructor
  · rintro (_ | ⟨first, rest⟩)
    exact ⟨first, rest⟩
  · rintro ⟨first, rest⟩
    exact .cons first rest

theorem lineFeeds_append (s t : Text) : lineFeeds (s ++ t) = lineFeeds s + lineFeeds t :=
  List.count_append

theorem lineFeeds_cons (c : Char) (s : Text) : lineFeeds (c :: s) = lineFeeds [c] + lineFeeds s :=
  lineFeeds_append [c] s

theorem lineFeeds_eq_zero {c : Char} (hc : c ≠ '\n') : lineFeeds [c] = 0 :=
  List.count_eq_zero.2 fun h ↦ hc (List.mem_singleton.1 h).symm

theorem onLines_append (m m' : Traced α) :
    OnLines line n (m ++ m') ↔
      OnLines line n m ∧ OnLines line (n + lineFeeds m.text) m' := by
  induction m generalizing n with
  | nil => exact (and_iff_right .nil).symm
  | cons entry m ih =>
    obtain ⟨c, a⟩ := entry
    rw [List.cons_append, onLines_cons_iff, onLines_cons_iff, ih, text_cons,
      lineFeeds_cons c (text m), Nat.add_assoc, and_assoc]

/-- On which line a character stands is told by the line feeds before it. -/
theorem onLines_iff :
    OnLines line n m ↔
      ∀ i c a, m[i]? = some (c, a) → line a = n + lineFeeds (m.text.take i) := by
  induction m generalizing n with
  | nil => exact iff_of_true .nil fun i c a h ↦ absurd h (Option.some_ne_none _).symm
  | cons entry m ih =>
    obtain ⟨c, a⟩ := entry
    rw [onLines_cons_iff, ih]
    constructor
    · rintro ⟨hfirst, hrest⟩ (_ | i) d b h
      · obtain ⟨rfl, rfl⟩ := Prod.mk.inj (Option.some.inj h)
        exact hfirst
      · rw [hrest i d b h, text_cons, List.take_succ_cons, lineFeeds_cons c ((text m).take i),
          Nat.add_assoc]
    · intro h
      refine ⟨h 0 c a rfl, fun i d b hi ↦ ?_⟩
      rw [h (i + 1) d b hi, text_cons, List.take_succ_cons, lineFeeds_cons c ((text m).take i),
        Nat.add_assoc]

theorem OnLines.blankFrom (h : OnLines line n m) (comment : Bool) :
    OnLines line n (blankFrom comment m) := by
  induction h generalizing comment with
  | nil => exact .nil
  | @cons n c a m first rest ih =>
    rw [Traced.blankFrom]
    split
    · exact .cons first (ih _)
    · next hc =>
      split
      · have hfeeds : n + lineFeeds [c] = n := by rw [lineFeeds_eq_zero (by simpa using hc)]; rfl
        exact hfeeds ▸ ih _
      · exact .cons first (ih _)

theorem OnLines.dropCommasFrom (h : OnLines line n m) (place : Place) :
    OnLines line n (dropCommasFrom place m) := by
  induction h generalizing place with
  | nil => exact .nil
  | @cons n c a m first rest ih =>
    rw [Traced.dropCommasFrom]
    split
    · next hcomma =>
      have hc : c = ',' := by simp_all
      have hfeeds : n + lineFeeds [c] = n := by rw [lineFeeds_eq_zero (by rw [hc]; decide)]; rfl
      exact hfeeds ▸ ih _
    · exact .cons first (ih _)

theorem OnLines.unwrap (h : OnLines line n m) :
    OnLines line (n + lineFeeds (opening m.text)) m.unwrap := by
  obtain ⟨front, back, hcut, hfront⟩ := exists_cut m
  rw [hcut, onLines_append, onLines_append] at h
  rw [← hfront]
  exact h.2.1

/-- The survivors of a text whose marks are right are shifted by the lines of its opening. -/
theorem OnLines.clean (h : OnLines line n m) :
    OnLines line (n + lineFeeds (opening (Authoring.blankComments m.text))) (clean m) := by
  rw [← text_blankComments]
  exact ((h.blankFrom m _).unwrap _).dropCommasFrom _ .outside

theorem onLines_zipIdx (before s : Text) :
    OnLines (fun place ↦ lineFeeds ((before ++ s).take place)) (lineFeeds before)
      (s.zipIdx before.length) := by
  induction s generalizing before with
  | nil => exact .nil
  | cons c s ih =>
    rw [List.zipIdx_cons]
    refine .cons (congrArg lineFeeds List.take_left) ?_
    have hnext := ih (before ++ [c])
    rwa [lineFeeds_append, List.length_append, List.append_assoc] at hnext

end Traced

/-- **Cleaning moves every character up by the lines of the opening.** What survives the cleaning
of a text is followed by the position at which it stood. The line on which a survivor stood is its
line in the cleaned text, moved by the line feeds of the opening, which is what unwrapping cuts off
in front; so lines are kept exactly if nothing survives or the opening holds no line feed. -/
theorem survivors_move_up_by_opening (s : Text) :
    (∃ closing, blankComments s =
      opening (blankComments s) ++ (unwrap (blankComments s) ++ closing)) ∧
    (Traced.clean s.zipIdx).text = clean s ∧ (Traced.clean s.zipIdx).Sublist s.zipIdx ∧
    (∀ i c place, (Traced.clean s.zipIdx)[i]? = some (c, place) →
      lineFeeds (s.take place) =
        lineFeeds (opening (blankComments s)) + lineFeeds ((clean s).take i)) ∧
    ((∀ i c place, (Traced.clean s.zipIdx)[i]? = some (c, place) →
      lineFeeds (s.take place) = lineFeeds ((clean s).take i)) ↔
        clean s = [] ∨ '\n' ∉ opening (blankComments s)) := by
  have hsource : Traced.text s.zipIdx = s := List.zipIdx_map_fst 0 s
  have htext : (Traced.clean s.zipIdx).text = clean s := by rw [Traced.text_clean, hsource]
  have hlines : Traced.OnLines (fun place ↦ lineFeeds (s.take place))
      (0 + lineFeeds (opening (blankComments s))) (Traced.clean s.zipIdx) := by
    have hshifted := (Traced.onLines_zipIdx [] s).clean
    rwa [List.length_nil, hsource] at hshifted
  rw [Nat.zero_add] at hlines
  have hplaces : ∀ i c place, (Traced.clean s.zipIdx)[i]? = some (c, place) →
      lineFeeds (s.take place) =
        lineFeeds (opening (blankComments s)) + lineFeeds ((clean s).take i) := by
    rw [← htext]
    exact (Traced.onLines_iff _).1 hlines
  refine ⟨Traced.exists_closing _, htext, Traced.clean_sublist _, hplaces, ?_⟩
  constructor
  · intro hkept
    rcases hfirst : (Traced.clean s.zipIdx)[0]? with _ | ⟨c, place⟩
    · left
      rw [← htext, List.length_eq_zero_iff.1 (Nat.le_zero.1 (List.getElem?_eq_none_iff.1 hfirst))]
      rfl
    · right
      have hshift := (hplaces 0 c place hfirst).symm.trans (hkept 0 c place hfirst)
      exact List.count_eq_zero.1 (Nat.add_eq_right.1 hshift)
  · rintro (hnil | hopening) i c place hi
    · rw [hnil] at htext
      rw [List.map_eq_nil_iff.1 htext] at hi
      exact absurd hi (Option.some_ne_none _).symm
    · rw [hplaces i c place hi, lineFeeds, List.count_eq_zero.2 hopening, Nat.zero_add]

/-- A line feed before the document is enough to move it up by a line. -/
theorem survivors_move_up_by_a_line_feed :
    let s := "\n[\n1]".toList
    (Traced.clean s.zipIdx)[2]? = some ('1', 3) ∧ lineFeeds (s.take 3) = 2 ∧
      lineFeeds ((clean s).take 2) = 1 := by
  intro s
  have hthird : (Traced.clean s.zipIdx)[2]? = some ('1', 3) := by decide
  obtain ⟨-, -, -, hplaces, -⟩ := survivors_move_up_by_opening s
  have hmoved := hplaces 2 '1' 3 hthird
  have hsource : lineFeeds (s.take 3) = 2 := by decide
  have hopening : lineFeeds (opening (blankComments s)) = 1 := by decide
  rw [hsource, hopening] at hmoved
  exact ⟨hthird, hsource, by omega⟩

end Dialogue.Authoring
