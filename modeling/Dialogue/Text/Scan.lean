/-!
# Scanning for marked places

Several notations of a script are marks inside running text: tags, wildcards, references to
captures. They are found in the same way. Going from left to right, `Text.scan` asks at each
position whether a mark starts there, replaces it by what it stands for and goes on behind it;
all other characters stay. A mark never overlaps another one, and what it stands for is not
scanned again.
-/

namespace Dialogue.Text

variable {α : Type}

/-- The text after `skip` characters, with each mark replaced by its value. `recognize` sees the
text from a position on and answers with the value of a mark there and its length, which is not
zero. -/
def scanFrom (recognize : List Char → Option (α × Nat)) : Nat → List Char → List (Char ⊕ α)
  | _, [] => []
  | skip + 1, _ :: s => scanFrom recognize skip s
  | 0, c :: s =>
    match recognize (c :: s) with
    | some (a, n) => .inr a :: scanFrom recognize (n - 1) s
    | none => .inl c :: scanFrom recognize 0 s

/-- The text with each mark replaced by its value. -/
def scan (recognize : List Char → Option (α × Nat)) (s : List Char) : List (Char ⊕ α) :=
  scanFrom recognize 0 s

/-- Neighbouring characters joined to runs, so that no two runs are neighbours and none is
empty. -/
def gather : List (Char ⊕ α) → List (List Char ⊕ α)
  | [] => []
  | .inr a :: s => .inr a :: gather s
  | .inl c :: s =>
    match gather s with
    | .inl run :: rest => .inl (c :: run) :: rest
    | rest => .inl [c] :: rest

theorem scanFrom_eq_scan_drop (recognize : List Char → Option (α × Nat)) (skip : Nat)
    (s : List Char) : scanFrom recognize skip s = scan recognize (s.drop skip) := by
  induction s generalizing skip with
  | nil => cases skip <;> rfl
  | cons c s ih =>
    cases skip with
    | zero => rfl
    | succ skip => rw [scanFrom, ih, List.drop_succ_cons]

/-- A scan reads a mark if there is one, else a character, and goes on behind it. -/
theorem scan_cons (recognize : List Char → Option (α × Nat)) (c : Char) (s : List Char) :
    scan recognize (c :: s) =
      match recognize (c :: s) with
      | some (a, n) => .inr a :: scan recognize (s.drop (n - 1))
      | none => .inl c :: scan recognize s := by
  rw [scan, scanFrom]
  split
  · rw [scanFrom_eq_scan_drop]
  · rfl

end Dialogue.Text
