import Dialogue.Pattern.Table

/-!
# Replacing what a pattern captures

`Pattern.replaceAll` goes through a text once and replaces the first capture of each match. The
search for the next match starts where the previous capture ended, so a blank behind a capture
may also be the blank in front of the next one; what has been put in is not searched.
-/

namespace Dialogue.Pattern

/-- The first captures of successive matches. The rows are those from position `i` on, and no
match may start before `resume`. -/
def spansFrom (resume : Nat) : Nat → List (Option Captures) → List (Nat × Nat)
  | _, [] => []
  | i, some ((a, b) :: _) :: rows =>
    if resume ≤ i then (a, b) :: spansFrom b (i + 1) rows else spansFrom resume (i + 1) rows
  | i, _ :: rows => spansFrom resume (i + 1) rows

/-- The first captures of successive matches, from left to right. -/
def spans (p : Pattern) (t : Array Char) : List (Nat × Nat) :=
  spansFrom 0 0 (p.table t).toList

/-- The text `rest`, which starts at position `i`, with `f` applied to each span. -/
def replaceSpans (f : List Char → List Char) (rest : List Char) (i : Nat) :
    List (Nat × Nat) → List Char
  | [] => rest
  | (a, b) :: spans =>
    rest.take (a - i) ++ f ((rest.drop (a - i)).take (b - a))
      ++ replaceSpans f (rest.drop (b - i)) b spans

/-- The text with `f` applied to the first capture of each match. -/
def replaceAll (p : Pattern) (f : List Char → List Char) (s : List Char) : List Char :=
  replaceSpans f s 0 (p.spans s.toArray)

end Dialogue.Pattern
