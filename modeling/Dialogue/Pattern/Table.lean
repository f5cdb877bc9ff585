import Dialogue.Pattern.Basic

/-!
# Matching in linear time

`Pattern.table` finds the preferred match from every position of a text at once. It goes through
the pieces from the last to the first and keeps one row: the answers of the pieces that follow,
for every position. The row of a wildcard comes from one pass from right to left, because the
farthest good end seen from a position is the one seen from the next position, unless a line feed
stands between; so a pattern with many wildcards costs one pass each. Literal text is compared only
where the pieces that follow it match.

The main statement is `Pattern.getElem?_table`: the table holds what `Pattern.match?` says.
-/

namespace Dialogue

/-- The preferred matches from the positions of a text, from 0 to its length. -/
abbrev Row := Array (Option Captures)

namespace Piece

/-- One step from right to left: the farthest good end seen from position `i`, before those seen
from the positions behind it. -/
def farthestStep (t : Array Char) (next : Row) (i : Nat)
    (later : List (Option (Nat × Captures))) : List (Option (Nat × Captures)) :=
  let ahead := if (t[i]?).any (· != '\n') then later.head?.join else none
  ahead.or (next[i]?.join.map (i, ·)) :: later

/-- From each position on, the farthest position that `next` accepts and no line feed bars, with
the captures from there. -/
def farthest (t : Array Char) (next : Row) : List (Option (Nat × Captures)) :=
  (List.range (t.size + 1)).foldr (farthestStep t next) []

/-- The row of a piece, from the row of the pieces that follow it. -/
def row (t : Array Char) (p : Piece) (next : Row) : Row :=
  match p with
  | wildcard => ((farthest t next).mapIdx fun i best ↦ best.map fun (j, cs) ↦ (i, j) :: cs).toArray
  | literal text => (Array.range (t.size + 1)).map fun i ↦
      next[i + text.length]?.join.filter fun _ ↦ standsAt t text i
  | p => (Array.range (t.size + 1)).map fun i ↦
      (p.ends t i).findSome? fun j ↦ next[j]?.join.map (p.capture i j)

end Piece

namespace Pattern

/-- For every position of the text, the preferred match of the pattern from there. -/
def table (t : Array Char) (p : Pattern) : Row :=
  p.foldr (Piece.row t) (Array.replicate (t.size + 1) (some []))

/-- The captures of the leftmost match, if there is a match. -/
def find? (p : Pattern) (t : Array Char) : Option Captures := (p.table t).findSome? id

/-- The texts that the leftmost match in `s` captures, if there is a match. -/
def capture? (p : Pattern) (s : List Char) : Option (List (List Char)) :=
  (p.find? s.toArray).map fun spans ↦ spans.map fun (a, b) ↦ (s.drop a).take (b - a)

/-- Does the pattern match anywhere in the text? -/
def occursIn (p : Pattern) (t : Array Char) : Bool := (p.table t).any Option.isSome

end Pattern

/-! ## The table holds what a pattern means -/

namespace Piece

theorem add_length_le_size_of_standsAt {t : Array Char} {word : List Char} {i : Nat}
    (hi : i ≤ t.size) (h : standsAt t word i = true) : i + word.length ≤ t.size := by
  induction word generalizing i with
  | nil => simpa using hi
  | cons c word ih =>
    rw [standsAt, Bool.and_eq_true, Option.any_eq_true] at h
    obtain ⟨⟨d, hd, -⟩, h⟩ := h
    have := ih (Array.getElem?_eq_some_iff.1 hd).1 h
    simp only [List.length_cons]
    omega

theorem lineLength_le (t : Array Char) (i : Nat) : lineLength t i ≤ t.size - i := by
  have := (List.takeWhile_sublist (l := t.toList.drop i) (· != '\n')).length_le
  simpa [lineLength] using this

theorem mem_ends_le {t : Array Char} {i j : Nat} {p : Piece} (hi : i ≤ t.size)
    (h : j ∈ p.ends t i) : i ≤ j ∧ j ≤ t.size := by
  have blank : (t[i]?).any Character.isBlank = true → i + 1 ≤ t.size := by
    intro h
    obtain ⟨c, hc, -⟩ := (Option.any_eq_true _ _).1 h
    exact (Array.getElem?_eq_some_iff.1 hc).1
  cases p with
  | literal text =>
    simp only [ends] at h
    split at h
    · rename_i hs
      have := add_length_le_size_of_standsAt hi hs
      simp only [List.mem_singleton] at h
      omega
    · simp at h
  | wildcard =>
    have := lineLength_le t i
    simp only [ends, List.mem_map, List.mem_reverse, List.mem_range] at h
    omega
  | oneOf words =>
    simp only [ends, List.mem_map, List.mem_filter] at h
    obtain ⟨word, ⟨-, hs⟩, rfl⟩ := h
    have := add_length_le_size_of_standsAt hi hs
    omega
  | wordEdge | textStart | textEnd =>
    simp only [ends] at h
    split at h <;> simp_all
  | startOrBlank | blankOrEnd =>
    simp only [ends, List.mem_append] at h
    rcases h with h | h <;> split at h <;> simp_all

/-- What `farthest` holds for a position: the best of the ends of a wildcard there. -/
private def farthestFrom (t : Array Char) (next : Row) (i : Nat) : Option (Nat × Captures) :=
  (wildcard.ends t i).findSome? fun j ↦ next[j]?.join.map (j, ·)

private theorem lineLength_succ {t : Array Char} {i : Nat} (h : (t[i]?).any (· != '\n') = true) :
    lineLength t i = lineLength t (i + 1) + 1 := by
  obtain ⟨c, hc, hne⟩ := (Option.any_eq_true _ _).1 h
  obtain ⟨hi, rfl⟩ := Array.getElem?_eq_some_iff.1 hc
  rw [lineLength, lineLength, List.drop_eq_getElem_cons (by simpa using hi), List.takeWhile_cons]
  simp only [Array.getElem_toList, hne, if_true, List.length_cons]

private theorem lineLength_eq_zero {t : Array Char} {i : Nat}
    (h : ¬ (t[i]?).any (· != '\n') = true) : lineLength t i = 0 := by
  rw [lineLength]
  by_cases hi : i < t.size
  · rw [List.drop_eq_getElem_cons (by simpa using hi), List.takeWhile_cons]
    simp only [Array.getElem?_eq_getElem hi, Option.any_some] at h
    simp [Array.getElem_toList, h]
  · rw [List.drop_eq_nil_of_le (by simpa using hi)]
    rfl

private theorem farthestFrom_eq (t : Array Char) (next : Row) (i : Nat) :
    farthestFrom t next i =
      (if (t[i]?).any (· != '\n') then farthestFrom t next (i + 1) else none).or
        (next[i]?.join.map (i, ·)) := by
  have last : wildcard.ends t i = (List.range (lineLength t i)).reverse.map (i + 1 + ·) ++ [i] := by
    simp [ends, List.range_succ_eq_map, Nat.add_assoc, Nat.add_comm 1, Function.comp_def]
  rw [farthestFrom, last, List.findSome?_append]
  congr 1
  · split
    · rename_i h
      rw [lineLength_succ h]
      rfl
    · rename_i h
      rw [lineLength_eq_zero h]
      rfl
  · simp

private theorem farthest_eq (t : Array Char) (next : Row) :
    farthest t next = (List.range (t.size + 1)).map (farthestFrom t next) := by
  have key : ∀ k, k ≤ t.size + 1 →
      (List.range' (t.size + 1 - k) k).foldr (farthestStep t next) [] =
        (List.range' (t.size + 1 - k) k).map (farthestFrom t next) := by
    intro k hk
    induction k with
    | zero => rfl
    | succ k ih =>
      have hs : t.size + 1 - (k + 1) + 1 = t.size + 1 - k := by omega
      rw [List.range'_succ, hs, List.foldr_cons, ih (by omega), List.map_cons, farthestStep,
        farthestFrom_eq]
      split
      · rename_i h
        obtain ⟨c, hc, -⟩ := (Option.any_eq_true _ _).1 h
        have := (Array.getElem?_eq_some_iff.1 hc).1
        obtain ⟨k, rfl⟩ : ∃ j, k = j + 1 := ⟨k - 1, by omega⟩
        rw [List.range'_succ, List.map_cons, List.head?_cons, Option.join_some, hs]
      · rfl
  have := key (t.size + 1) (Nat.le_refl _)
  rwa [Nat.sub_self, ← List.range_eq_range'] at this

private theorem findSome?_ends_literal (t : Array Char) (next : Row) (text : List Char) (i : Nat) :
    ((literal text).ends t i).findSome? (fun j ↦ next[j]?.join.map ((literal text).capture i j)) =
      next[i + text.length]?.join.filter fun _ ↦ standsAt t text i := by
  rw [ends]
  generalize hbest : next[i + text.length]?.join = best
  by_cases h : standsAt t text i = true
  · rw [if_pos h, List.findSome?_singleton, hbest]
    cases best
    · rfl
    · simp [capture, captures, h, Option.filter]
  · rw [if_neg h]
    cases best <;> simp [h, Option.filter]

theorem getElem?_row {t : Array Char} (p : Piece) (next : Row) {i : Nat} (hi : i ≤ t.size) :
    (p.row t next)[i]? =
      some ((p.ends t i).findSome? fun j ↦ next[j]?.join.map (p.capture i j)) := by
  have hi' : i < t.size + 1 := by omega
  cases p with
  | wildcard =>
    simp only [row, farthest_eq, List.getElem?_toArray, List.getElem?_mapIdx, List.getElem?_map,
      List.getElem?_range hi', Option.map_some, farthestFrom]
    rw [List.map_findSome?]
    congr 2
    funext j
    simp only [Function.comp_apply, Option.map_map]
    rfl
  | literal text =>
    rw [row, Array.getElem?_map, Array.getElem?_range, if_pos hi', Option.map_some,
      findSome?_ends_literal]
  | _ => rw [row, Array.getElem?_map, Array.getElem?_range, if_pos hi', Option.map_some] <;> simp

end Piece

namespace Pattern

private theorem findSome?_congr {α β : Type} {f g : α → Option β} {l : List α}
    (h : ∀ a ∈ l, f a = g a) : l.findSome? f = l.findSome? g := by
  induction l with
  | nil => rfl
  | cons a l ih =>
    rw [List.findSome?_cons, List.findSome?_cons, h a List.mem_cons_self,
      ih fun b hb ↦ h b (List.mem_cons_of_mem a hb)]

theorem size_table (t : Array Char) (p : Pattern) : (p.table t).size = t.size + 1 := by
  induction p with
  | nil => simp [table]
  | cons p ps ih =>
    cases p <;> simp [table, Piece.row, Piece.farthest_eq]

/-- **The table of a pattern holds its preferred match from every position.** -/
theorem getElem?_table {t : Array Char} {p : Pattern} {i : Nat} (hi : i ≤ t.size) :
    (p.table t)[i]? = some (p.match? t i) := by
  induction p generalizing i with
  | nil => simp [table, match?, Array.getElem?_replicate]; omega
  | cons p ps ih =>
    rw [table, List.foldr_cons, ← table, Piece.getElem?_row p _ hi, match?]
    congr 1
    exact findSome?_congr fun j hj ↦ by rw [ih (Piece.mem_ends_le hi hj).2, Option.join_some]

end Pattern

end Dialogue
