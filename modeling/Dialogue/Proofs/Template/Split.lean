import Dialogue.Proofs.Pattern.Notation
import Dialogue.Proofs.Template.Reading
import Mathlib.Data.List.Forall2

/-!
# How a template takes a text apart

What a template means can be said without patterns: it splits a text into one section for each of
its tokens. A section is the text of its token in any case, or one of the words of a tag, or, for a
wildcard, anything within a line; and on both sides of a wildcard, except at the ends of the
template, there is a word edge. Of several splits the template takes the one that comes *before*
the others: at the first difference, it has the longer section for a wildcard, or the section of
an earlier word for a tag.

The pattern of a template does just that. Between its pieces for the tokens it has pieces for the
edges, which match the empty text; `sections` puts their sections in, and a match of the pattern is
a split with these sections put in (`Template.cuts_pieces_iff`).
-/

namespace Dialogue.Template

open Pattern (Cuts Precedes)
open Text (SameFold Edge)

namespace Token

/-- A section of a text fits a token. -/
def Fits (x : List Char) : Token → Prop
  | text s => SameFold s x
  | wildcard => '\n' ∉ x
  | tag words => (words = [] ∧ x = []) ∨ ∃ word ∈ words, SameFold word x

/-- The token has the section `x` rather than `y`: the longer one for a wildcard, the one of an
earlier word for a tag. -/
def Prefers (x y : List Char) : Token → Prop
  | text _ => False
  | wildcard => y.length < x.length
  | tag words => words.findIdx (SameFold · x) < words.findIdx (SameFold · y)

/-- Is the section of the token captured? -/
def captures : Token → Bool
  | text _ => false
  | wildcard | tag _ => true

/-- The piece of a token, without word edges. -/
def piece : Token → Piece
  | text s => .literal s
  | wildcard => .wildcard
  | tag words => .oneOf words

theorem takes_piece {before x after : List Char} {token : Token} :
    token.piece.Takes before x after ↔ token.Fits x := by
  cases token <;> rfl

theorem prefers_piece {x y : List Char} {token : Token} :
    token.piece.Prefers x y ↔ token.Prefers x y := by
  cases token <;> rfl

theorem captures_piece (token : Token) : token.piece.captures = token.captures := by
  cases token <;> rfl

end Token

/-- Some tokens, with a text before them or not, split a text into sections, one for each token.
Wherever two tokens meet and one of them is a wildcard, there is a word edge. If `inside`, the
first token meets one that stands before it. -/
structure SplitsBehind (inside : Bool) (before : List Char) (tokens : List Token)
    (text : List Char) (xs : List (List Char)) : Prop where
  flatten : xs.flatten = text
  fits : List.Forall₂ (fun token x ↦ token.Fits x) tokens xs
  edge (left right : List Token) : tokens = left ++ right → left ≠ [] ∨ inside = true →
    right ≠ [] → left.getLast? = some .wildcard ∨ right.head? = some .wildcard →
    Edge (before ++ (xs.take left.length).flatten) (xs.drop left.length).flatten

/-- Some tokens split a text into sections, one for each token. Wherever two tokens meet and one of
them is a wildcard, there is a word edge. -/
structure Splits (tokens : List Token) (text : List Char) (xs : List (List Char)) : Prop where
  flatten : xs.flatten = text
  fits : List.Forall₂ (fun token x ↦ token.Fits x) tokens xs
  edge (left right : List Token) : tokens = left ++ right → left ≠ [] → right ≠ [] →
    left.getLast? = some .wildcard ∨ right.head? = some .wildcard →
    Edge (xs.take left.length).flatten (xs.drop left.length).flatten

/-- At the first difference between two splits, the token prefers the section of the first. -/
inductive Before : List Token → List (List Char) → List (List Char) → Prop
  | here {token : Token} {tokens : List Token} {x y : List Char} {xs ys : List (List Char)}
      (prefers : token.Prefers x y) : Before (token :: tokens) (x :: xs) (y :: ys)
  | later {token : Token} {tokens : List Token} {x : List Char} {xs ys : List (List Char)}
      (rest : Before tokens xs ys) : Before (token :: tokens) (x :: xs) (x :: ys)

/-- Of all ways in which some tokens split a text, this one comes before the others. -/
structure SplitsFirst (tokens : List Token) (text : List Char) (xs : List (List Char)) : Prop where
  splits : Splits tokens text xs
  before {ys : List (List Char)} : Splits tokens text ys → xs = ys ∨ Before tokens xs ys

/-- The sections of wildcards and tags. -/
def captured (tokens : List Token) (xs : List (List Char)) : List (List Char) :=
  ((tokens.zip xs).filter (·.1.captures)).map (·.2)

/-! ## Splits, one token at a time -/

section

variable {inside : Bool} {before text : List Char} {token : Token} {tokens : List Token}
  {xs : List (List Char)}

theorem splits_iff : Splits tokens text xs ↔ SplitsBehind false [] tokens text xs := by
  constructor
  · rintro ⟨hflatten, hfits, hedge⟩
    exact ⟨hflatten, hfits, fun l r h hl hr hw ↦ hedge l r h (hl.resolve_right (by simp)) hr hw⟩
  · rintro ⟨hflatten, hfits, hedge⟩
    exact ⟨hflatten, hfits, fun l r h hl hr hw ↦ hedge l r h (.inl hl) hr hw⟩

theorem splitsBehind_nil_iff :
    SplitsBehind inside before [] text xs ↔ text = [] ∧ xs = [] := by
  constructor
  · rintro ⟨rfl, hfits, -⟩
    cases hfits
    exact ⟨rfl, rfl⟩
  · rintro ⟨rfl, rfl⟩
    refine ⟨rfl, .nil, fun l r h hl hr hw ↦ ?_⟩
    exact absurd (List.append_eq_nil_iff.1 h.symm).2 hr

theorem splitsBehind_cons_iff :
    SplitsBehind inside before (token :: tokens) text xs ↔ ∃ x after ys, xs = x :: ys ∧
      text = x ++ after ∧ token.Fits x ∧
      (token = .wildcard → inside = true → Edge before text) ∧
      (token = .wildcard → tokens ≠ [] → Edge (before ++ x) after) ∧
      SplitsBehind true (before ++ x) tokens after ys := by
  constructor
  · rintro ⟨rfl, hfits, hedge⟩
    obtain ⟨x, ys, hx, hys, rfl⟩ := List.forall₂_cons_left_iff.1 hfits
    refine ⟨x, ys.flatten, ys, rfl, rfl, hx, ?_, ?_, rfl, hys, ?_⟩
    · rintro rfl hinside
      simpa using hedge [] _ rfl (.inr hinside) (by simp) (.inr rfl)
    · rintro rfl hne
      simpa using hedge [.wildcard] tokens rfl (.inl (by simp)) hne (.inl rfl)
    · rintro left right rfl - hne hw
      have := hedge (token :: left) right rfl (.inl (by simp)) hne ?_
      · simpa using this
      · refine hw.imp_left fun h ↦ ?_
        rw [List.getLast?_cons, h, Option.getD_some]
  · rintro ⟨x, after, ys, rfl, rfl, hx, hfirst, hsecond, rfl, hys, hedge⟩
    refine ⟨rfl, .cons hx hys, fun left right h hl hr hw ↦ ?_⟩
    cases left with
    | nil =>
      obtain rfl : token :: tokens = right := h
      have hw : token = .wildcard := by simpa using hw
      simpa using hfirst hw (hl.resolve_left (by simp))
    | cons token' left =>
      rw [List.cons_append] at h
      obtain ⟨rfl, rfl⟩ := List.cons_eq_cons.1 h
      by_cases hlast : left = [] ∧ token = .wildcard
      · obtain ⟨rfl, rfl⟩ := hlast
        simpa using hsecond rfl hr
      · -- the token before the place is not the first one, or the one behind is the wildcard
        have := hedge left right rfl (.inr rfl) hr ?_
        · simpa using this
        · refine hw.elim (fun h ↦ .inl ?_) .inr
          cases left with
          | nil => exact absurd ⟨rfl, by simpa using h⟩ hlast
          | cons token' left => rwa [List.getLast?_cons_cons] at h

theorem Before.asymm {tokens : List Token} {xs ys : List (List Char)} (h : Before tokens xs ys) :
    ¬ Before tokens ys xs := by
  have token {token : Token} {x y : List Char} (h : token.Prefers x y) : ¬ token.Prefers y x := by
    rw [← Token.prefers_piece] at h ⊢
    exact h.asymm
  induction h with
  | here hprefers =>
    rintro (hprefers' | _)
    · exact token hprefers hprefers'
    · exact token hprefers hprefers
  | later _ ih =>
    rintro (hprefers | h)
    · exact token hprefers hprefers
    · exact ih h

/-! ## The sections of a pattern -/

/-- The empty sections of the edges put between the sections of some tokens, and that of the end of
the text. -/
def sections (inside : Bool) : List Token → List (List Char) → List (List Char)
  | token :: tokens, x :: xs =>
    (if token = .wildcard ∧ inside = true then [[]] else []) ++
      x :: ((if token = .wildcard ∧ tokens ≠ [] then [[]] else []) ++ sections true tokens xs)
  | _, _ => [[]]

theorem pieces_cons :
    pieces inside (token :: tokens) =
      (if token = .wildcard ∧ inside = true then [.wordEdge] else []) ++
        token.piece ::
          ((if token = .wildcard ∧ tokens ≠ [] then [.wordEdge] else []) ++
            pieces true tokens) := by
  cases token with
  | text s => rfl
  | wildcard => cases inside <;> cases tokens <;> rfl
  | tag words => rfl

/-- A word edge that a pattern asks for at some place or not. -/
private theorem cuts_edge_iff {b : Prop} [Decidable b] {p : Pattern} :
    Cuts ((if b then [.wordEdge] else []) ++ p) before text xs ↔
      ∃ ys, xs = (if b then [[]] else []) ++ ys ∧ (b → Edge before text) ∧
        Cuts p before text ys := by
  by_cases hb : b
  · simp only [hb, if_true, List.singleton_append, Pattern.cuts_cons_iff, Piece.Takes, forall_const]
    constructor
    · rintro ⟨x, after, ys, rfl, rfl, ⟨rfl, hedge⟩, hcuts⟩
      rw [List.append_nil] at hcuts
      exact ⟨ys, rfl, hedge, hcuts⟩
    · rintro ⟨ys, rfl, hedge, hcuts⟩
      refine ⟨[], text, ys, rfl, rfl, ⟨rfl, hedge⟩, ?_⟩
      rwa [List.append_nil]
  · simp [hb]

private theorem cuts_textEnd_iff :
    Cuts [.textEnd] before text xs ↔ text = [] ∧ xs = [[]] := by
  rw [Pattern.cuts_cons_iff]
  constructor
  · rintro ⟨x, after, ys, rfl, rfl, ⟨rfl, rfl⟩, hcuts⟩
    rw [Pattern.cuts_nil_iff.1 hcuts]
    exact ⟨rfl, rfl⟩
  · rintro ⟨rfl, rfl⟩
    exact ⟨[], [], [], rfl, rfl, ⟨rfl, rfl⟩, .nil⟩

/-- **A match of the pattern of some tokens is a split** with the sections of the edges put in. -/
theorem cuts_pieces_iff :
    Cuts (pieces inside tokens ++ [.textEnd]) before text xs ↔
      ∃ ys, xs = sections inside tokens ys ∧ SplitsBehind inside before tokens text ys := by
  induction tokens generalizing inside before text xs with
  | nil =>
    rw [pieces, List.nil_append, cuts_textEnd_iff]
    simp only [splitsBehind_nil_iff]
    constructor
    · rintro ⟨rfl, rfl⟩
      exact ⟨[], rfl, rfl, rfl⟩
    · rintro ⟨_, rfl, rfl, rfl⟩
      exact ⟨rfl, rfl⟩
  | cons token tokens ih =>
    -- the same conditions on both sides, once the edges around the token are taken off
    rw [pieces_cons, List.append_assoc, List.cons_append, List.append_assoc, cuts_edge_iff]
    simp only [Pattern.cuts_cons_iff, cuts_edge_iff, ih, splitsBehind_cons_iff,
      Token.takes_piece, and_imp]
    constructor
    · rintro ⟨_, rfl, hfirst, x, after, _, rfl, rfl, hx, _, rfl, hsecond, ys, rfl, hys⟩
      exact ⟨x :: ys, rfl, x, after, ys, rfl, rfl, hx, hfirst, hsecond, hys⟩
    · rintro ⟨_, rfl, x, after, ys, rfl, rfl, hx, hfirst, hsecond, hys⟩
      exact ⟨_, rfl, hfirst, x, after, _, rfl, rfl, hx, _, rfl, hsecond, ys, rfl, hys⟩

/-- **The same split comes first** for a pattern and for its tokens. -/
theorem before_of_precedes {ys : List (List Char)} (hx : xs.length = tokens.length)
    (hy : ys.length = tokens.length)
    (h : Precedes (pieces inside tokens ++ [.textEnd]) (sections inside tokens xs)
      (sections inside tokens ys)) : Before tokens xs ys := by
  -- the section of an edge is empty in both splits, so they differ elsewhere
  have edge {b : Prop} [Decidable b] {p : Pattern} {as bs : List (List Char)}
      (h : Precedes ((if b then [.wordEdge] else []) ++ p) ((if b then [[]] else []) ++ as)
        ((if b then [[]] else []) ++ bs)) : Precedes p as bs := by
    split at h
    · rcases h with h | h
      · exact h.elim
      · exact h
    · exact h
  induction tokens generalizing inside xs ys with
  | nil =>
    rcases h with h | h
    · exact h.elim
    · cases h
  | cons token tokens ih =>
    obtain ⟨x, xs, rfl⟩ := List.exists_cons_of_length_eq_add_one hx
    obtain ⟨y, ys, rfl⟩ := List.exists_cons_of_length_eq_add_one hy
    rw [pieces_cons, List.append_assoc, List.cons_append, List.append_assoc] at h
    have h := edge h
    rcases h with h | h
    · exact .here (Token.prefers_piece.1 h)
    · exact .later (ih (Nat.succ.inj hx) (Nat.succ.inj hy) (edge h))

theorem captured_pieces (h : xs.length = tokens.length) :
    Pattern.captured (pieces inside tokens ++ [.textEnd]) (sections inside tokens xs) =
      captured tokens xs := by
  have edge {b : Prop} [Decidable b] {p : Pattern} {as : List (List Char)} :
      Pattern.captured ((if b then [.wordEdge] else []) ++ p) ((if b then [[]] else []) ++ as) =
        Pattern.captured p as := by
    split <;> rfl
  induction tokens generalizing inside xs with
  | nil => rfl
  | cons token tokens ih =>
    obtain ⟨x, xs, rfl⟩ := List.exists_cons_of_length_eq_add_one h
    rw [pieces_cons, List.append_assoc, List.cons_append, List.append_assoc, sections, edge,
      Pattern.captured_cons, edge, ih (Nat.succ.inj h), Token.captures_piece, captured, captured,
      List.zip_cons_cons, List.filter_cons]
    cases token.captures <;> rfl

/-- At most one split comes before all others. -/
theorem SplitsFirst.eq {ys : List (List Char)} (hx : SplitsFirst tokens text xs)
    (hy : SplitsFirst tokens text ys) : xs = ys := by
  rcases hx.before hy.splits with h | h
  · exact h
  · exact ((hy.before hx.splits).resolve_right h.asymm).symm

theorem Splits.length_eq (h : Splits tokens text xs) : xs.length = tokens.length :=
  h.fits.length_eq.symm

theorem sections_inj {ys : List (List Char)} (hx : xs.length = tokens.length)
    (hy : ys.length = tokens.length) (h : sections inside tokens xs = sections inside tokens ys) :
    xs = ys := by
  induction tokens generalizing inside xs ys with
  | nil => rw [List.length_eq_zero_iff.1 hx, List.length_eq_zero_iff.1 hy]
  | cons token tokens ih =>
    obtain ⟨x, xs, rfl⟩ := List.exists_cons_of_length_eq_add_one hx
    obtain ⟨y, ys, rfl⟩ := List.exists_cons_of_length_eq_add_one hy
    obtain ⟨rfl, hrest⟩ := List.cons_eq_cons.1 (List.append_cancel_left h)
    rw [ih (Nat.succ.inj hx) (Nat.succ.inj hy) (List.append_cancel_left hrest)]

end

/-! ## Templates -/

section

variable {markers : Markers} {tags : Tags} {template text : List Char} {xs : List (List Char)}

/-- A match of the pattern of a template is a split of the text. -/
theorem cuts_pattern_iff :
    Cuts (pattern markers tags template) [] text xs ↔
      ∃ ys, xs = [] :: sections false (tokens markers tags template) ys ∧
        Splits (tokens markers tags template) text ys := by
  rw [pattern, List.cons_append, Pattern.cuts_cons_iff]
  simp only [splits_iff]
  constructor
  · rintro ⟨x, after, zs, rfl, rfl, ⟨rfl, -⟩, hcuts⟩
    obtain ⟨ys, rfl, hys⟩ := cuts_pieces_iff.1 hcuts
    exact ⟨ys, rfl, hys⟩
  · rintro ⟨ys, rfl, hys⟩
    exact ⟨[], text, _, rfl, rfl, ⟨rfl, rfl⟩, cuts_pieces_iff.2 ⟨ys, rfl, hys⟩⟩

theorem isSome_capture?_pattern_iff :
    ((pattern markers tags template).capture? text).isSome = true ↔
      ∃ xs, Splits (tokens markers tags template) text xs := by
  rw [pattern, List.cons_append, Pattern.isSome_capture?_iff, ← List.cons_append, ← pattern]
  simp only [cuts_pattern_iff]
  constructor
  · rintro ⟨_, ys, -, hys⟩
    exact ⟨ys, hys⟩
  · rintro ⟨ys, hys⟩
    exact ⟨_, ys, rfl, hys⟩

theorem exists_splitsFirst {captures : List (List Char)}
    (h : (pattern markers tags template).capture? text = some captures) :
    ∃ xs, SplitsFirst (tokens markers tags template) text xs ∧
      captures = captured (tokens markers tags template) xs := by
  rw [pattern, List.cons_append, Pattern.capture?_eq_some_iff, ← List.cons_append, ← pattern] at h
  obtain ⟨zs, ⟨hcuts, hfirst⟩, rfl⟩ := h
  obtain ⟨xs, rfl, hxs⟩ := cuts_pattern_iff.1 hcuts
  refine ⟨xs, ⟨hxs, fun {ys} hys ↦ ?_⟩, captured_pieces hxs.length_eq⟩
  -- every other split is a match too, which the match found precedes
  rcases hfirst (cuts_pattern_iff.2 ⟨ys, rfl, hys⟩) with heq | hprecedes
  · exact .inl (sections_inj hxs.length_eq hys.length_eq (List.cons_eq_cons.1 heq).2)
  · rcases hprecedes with h | h
    · exact h.elim
    · exact .inr (before_of_precedes hxs.length_eq hys.length_eq h)

theorem capture?_pattern_eq_some_iff {captures : List (List Char)} :
    (pattern markers tags template).capture? text = some captures ↔
      ∃ xs, SplitsFirst (tokens markers tags template) text xs ∧
        captures = captured (tokens markers tags template) xs := by
  refine ⟨exists_splitsFirst, ?_⟩
  rintro ⟨xs, hxs, rfl⟩
  obtain ⟨captures, hcaptures⟩ :=
    Option.isSome_iff_exists.1 (isSome_capture?_pattern_iff.2 ⟨xs, hxs.splits⟩)
  obtain ⟨ys, hys, rfl⟩ := exists_splitsFirst hcaptures
  rw [hcaptures, hxs.eq hys]

example :
    (pattern ⟨['#'], ['*']⟩ [("kin".toList, ["mom".toList, "dad".toList])]
      "* my #kin *".toList).render =
      "^(.*)\\bmy (mom|dad)\\b(.*)$" := by
  decide +kernel

end

end Dialogue.Template
