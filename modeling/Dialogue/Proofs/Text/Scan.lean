import Dialogue.Text.Scan

/-!
# Scans, one mark at a time

A scan leaves text without marks as it is, and what it finds behind such text is what it finds
there alone. Gathering joins the characters up to a mark, and nothing beyond it.
-/

namespace Dialogue.Text

/-- A scan keeps characters at which no mark starts. -/
theorem scan_append {α : Type} {recognize : List Char → Option (α × Nat)} {s t : List Char}
    (h : ∀ a c b, s = a ++ c :: b → recognize (c :: b ++ t) = none) :
    scan recognize (s ++ t) = s.map .inl ++ scan recognize t := by
  induction s with
  | nil => rfl
  | cons c s ih =>
    have hs := ih fun a d b hab ↦ h (c :: a) d b (by rw [hab, List.cons_append])
    rw [List.cons_append, scan_cons, ← List.cons_append, h [] c s rfl, List.map_cons,
      List.cons_append, hs]

theorem gather_map_append_inr {α : Type} (run : List Char) (a : α) (s : List (Char ⊕ α)) :
    gather (run.map .inl ++ .inr a :: s) =
      (if run = [] then [] else [.inl run]) ++ .inr a :: gather s := by
  induction run with
  | nil => rfl
  | cons c run ih =>
    rw [List.map_cons, List.cons_append, gather, ih]
    cases run <;> rfl

theorem gather_map {α : Type} (run : List Char) :
    gather (run.map .inl : List (Char ⊕ α)) = if run = [] then [] else [.inl run] := by
  induction run with
  | nil => rfl
  | cons c run ih =>
    rw [List.map_cons, gather, ih]
    cases run <;> rfl

end Dialogue.Text
