import Dialogue.Json.Reader
import Dialogue.Proofs.Character.Word

/-!
# Lexemes

A lexeme is the text of one token: a mark, a string with its quotes, or a run of bare characters.
The tokens of a text are those of its lexemes, one after the other, and the white space between
them does not matter, as long as no bare run is cut in two or runs into the next one.

The tokenizer never speaks of lexemes; it walks over the characters in one of its modes. Here its
walk is shown to go lexeme by lexeme, in both directions: it reads what lexemes make up, and what it
reads is made up of lexemes.
-/

namespace Dialogue.Json

/-- The token that a mark is. -/
def markToken? : Char → Option Token
  | '[' => some .openArray
  | ']' => some .closeArray
  | '\x7b' => some .openObject
  | '\x7d' => some .closeObject
  | ',' => some .comma
  | ':' => some .colon
  | _ => none

/-- What stands behind the opening quote of a string, with the closing quote. -/
inductive Quoted : List Char → Prop
  | close : Quoted ['"']
  | char {c : Char} {s : List Char} :
      c ≠ '"' → c ≠ '\\' → c ≠ '\n' → Quoted s → Quoted (c :: s)
  | escape {c : Char} {s : List Char} : c ≠ '\n' → Quoted s → Quoted ('\\' :: c :: s)

/-- The text of one token. -/
inductive Lexeme : List Char → Prop
  | mark {c : Char} {token : Token} : markToken? c = some token → Lexeme [c]
  | string {s : List Char} : Quoted s → Lexeme ('"' :: s)
  | bare {c : Char} {run : List Char} : (∀ d ∈ c :: run, isBare d = true) → Lexeme (c :: run)

/-- A lexeme ends where the text `s` begins: the two do not run into each other. -/
def Apart (lexeme s : List Char) : Prop :=
  ∀ c ∈ lexeme.getLast?, ∀ d ∈ s.head?, isBare c = true → isBare d = false

/-! ## Characters -/

theorem isSpace_iff {c : Char} : isSpace c = true ↔ c = ' ' ∨ c = '\t' ∨ c = '\n' ∨ c = '\r' := by
  simp [isSpace, or_assoc]

theorem isBare_lt {c : Char} (h : isBare c = true) : c.toNat < 128 := by
  simp only [isBare, Bool.or_eq_true, beq_iff_eq] at h
  rcases h with ((h | rfl) | rfl) | rfl
  · delta Char.isAlphanum Char.isAlpha Char.isUpper Char.isLower Char.isDigit at h
    simp only [Bool.or_eq_true, Bool.and_eq_true, decide_eq_true_eq, UInt32.le_iff_toNat_le,
      ge_iff_le] at h
    have hc : c.toNat = c.val.toNat := rfl
    have hZ : 'Z'.val.toNat = 90 := rfl
    have hz : 'z'.val.toNat = 122 := rfl
    have h9 : '9'.val.toNat = 57 := rfl
    omega
  all_goals decide

theorem start?_of_isSpace {c : Char} (h : isSpace c = true) : start? c = some ([], .between) := by
  rcases isSpace_iff.1 h with rfl | rfl | rfl | rfl <;> rfl

theorem start?_of_markToken? {c : Char} {token : Token} (h : markToken? c = some token) :
    start? c = some ([token], .between) := by
  rw [markToken?.eq_def] at h
  split at h
  case h_7 => exact absurd h (Option.some_ne_none _).symm
  all_goals
    rw [← Option.some.inj h]
    rfl

theorem start?_of_isBare {c : Char} (h : isBare c = true) : start? c = some ([], .bare [c]) :=
  @Character.forall_ascii (fun c ↦ isBare c = true → start? c = some ([], .bare [c]))
    (by decide +kernel) c (isBare_lt h) h

theorem isBare_of_markToken? {c : Char} {token : Token} (h : markToken? c = some token) :
    isBare c = false := by
  rw [markToken?.eq_def] at h
  split at h
  case h_7 => exact absurd h (Option.some_ne_none _).symm
  all_goals rfl

/-- A lexeme whose last character is not bare ends anywhere. -/
theorem apart_of_getLast? {l s : List Char} {c : Char} (h : l.getLast? = some c)
    (hc : isBare c = false) : Apart l s := by
  intro d hd _ _ hbare
  obtain rfl := Option.some.inj (h.symm.trans hd)
  exact absurd hbare (by rw [hc]; exact Bool.false_ne_true)

theorem Lexeme.length_pos {l : List Char} (h : Lexeme l) : 0 < l.length := by
  cases h <;> exact Nat.succ_pos _

theorem Quoted.getLast?_eq {l : List Char} (h : Quoted l) : l.getLast? = some '"' := by
  induction h with
  | close => rfl
  | char _ _ _ _ ih => rw [List.getLast?_cons, ih, Option.getD_some]
  | escape _ _ ih =>
    rw [List.getLast?_cons, List.getLast?_cons, ih, Option.getD_some, Option.getD_some]

/-! ## The walk, one character at a time -/

theorem tokensFrom?_cons (mode : Mode) (c : Char) (s : List Char) :
    tokensFrom? mode (c :: s) =
      (mode.step? c).bind fun read ↦ (tokensFrom? read.2 s).map (read.1 ++ ·) := by
  rw [tokensFrom?]
  simp only [Option.map_eq_bind, Option.bind_eq_bind, Option.pure_def, Function.comp_def]

/-- A character that completes no token only changes the mode. -/
theorem tokensFrom?_cons_of_step? {mode next : Mode} {c : Char}
    (h : mode.step? c = some ([], next)) (s : List Char) :
    tokensFrom? mode (c :: s) = tokensFrom? next s := by
  rw [tokensFrom?_cons, h, Option.bind_some]
  exact Option.map_id_apply

theorem tokensFrom?_cons_of_step?_eq_none {mode : Mode} {c : Char} (h : mode.step? c = none)
    (s : List Char) : tokensFrom? mode (c :: s) = none := by
  rw [tokensFrom?_cons, h, Option.bind_none]

theorem tokens?_cons_of_start? {next : Mode} {c : Char} (h : start? c = some ([], next))
    (s : List Char) : tokens? (c :: s) = tokensFrom? next s :=
  @tokensFrom?_cons_of_step? .between next c h s

theorem tokens?_cons_of_isSpace {c : Char} (hc : isSpace c = true) (s : List Char) :
    tokens? (c :: s) = tokens? s := tokens?_cons_of_start? (start?_of_isSpace hc) s

/-- White space between lexemes does not matter. -/
theorem tokens?_append_of_isSpace {gap : List Char} (hgap : ∀ c ∈ gap, isSpace c = true)
    (s : List Char) : tokens? (gap ++ s) = tokens? s := by
  induction gap with
  | nil => rfl
  | cons c gap ih =>
    rw [List.forall_mem_cons] at hgap
    rw [List.cons_append, tokens?_cons_of_isSpace hgap.1, ih hgap.2]

/-! ## What lexemes make up is read -/

/-- Read in this mode, the text is the rest of one token, or it is no part of a document. -/
def Mode.Completes (mode : Mode) (l : List Char) : Prop :=
  ∃ token? : Option Token, ∀ s,
    tokensFrom? mode (l ++ s) = token?.bind fun token ↦ (tokens? s).map (token :: ·)

theorem Mode.Completes.cons {mode next : Mode} {c : Char} {l : List Char}
    (h : next.Completes l) (hstep : mode.step? c = some ([], next)) : mode.Completes (c :: l) := by
  obtain ⟨token?, hread⟩ := h
  refine ⟨token?, fun s ↦ ?_⟩
  rw [List.cons_append, tokensFrom?_cons_of_step? hstep, hread]

theorem Mode.completes_of_step?_eq_none {mode : Mode} {c : Char} {l : List Char}
    (hstep : mode.step? c = none) : mode.Completes (c :: l) := by
  refine ⟨none, fun s ↦ ?_⟩
  rw [List.cons_append, tokensFrom?_cons_of_step?_eq_none hstep, Option.bind_none]

namespace Mode

variable {c : Char} (units : List StringUnit)

theorem step?_quoted (hquote : c ≠ '"') (hbackslash : c ≠ '\\') :
    (quoted units).step? c =
      if c.toNat < 0x20 then none else some ([], quoted (.char c :: units)) := by
  simp [step?, hquote, hbackslash]

theorem step?_escape (hu : c ≠ 'u') :
    (escape units).step? c = (escaped? c).map fun d ↦ ([], quoted (.char d :: units)) := by
  simp [step?, hu]

theorem step?_hex (missing code : Nat) :
    (hex units missing code).step? c = (hexDigit? c).map fun digit ↦
      ([], match missing with
        | 0 => quoted (.code (code * 16 + digit) :: units)
        | missing + 1 => hex units missing (code * 16 + digit)) := by
  rw [step?]
  cases hexDigit? c <;> cases missing <;> rfl

end Mode

/-- In a string, and in an escape of hexadecimal digits there, the closing quote completes the
token. -/
theorem Quoted.completes {l : List Char} (h : Quoted l) :
    (∀ units, (Mode.quoted units).Completes l) ∧
      ∀ units missing code, (Mode.hex units missing code).Completes l := by
  induction h with
  | close =>
    refine ⟨fun units ↦ ?_, fun units missing code ↦ Mode.completes_of_step?_eq_none rfl⟩
    exact ⟨some (.string ((decode? units.reverse).map String.ofList)), fun s ↦ tokensFrom?_cons ..⟩
  | @char c l hquote hbackslash _ _ ih =>
    constructor
    · intro units
      have hstep := Mode.step?_quoted units hquote hbackslash
      split at hstep
      · exact Mode.completes_of_step?_eq_none hstep
      · exact (ih.1 _).cons hstep
    · intro units missing code
      have hstep := @Mode.step?_hex c units missing code
      cases hdigit : hexDigit? c with
      | none =>
        rw [hdigit] at hstep
        exact Mode.completes_of_step?_eq_none hstep
      | some digit =>
        rw [hdigit] at hstep
        cases missing with
        | zero => exact (ih.1 _).cons hstep
        | succ missing => exact (ih.2 _ _ _).cons hstep
  | @escape c l _ _ ih =>
    refine ⟨fun units ↦ ?_, fun units missing code ↦ Mode.completes_of_step?_eq_none rfl⟩
    have hescape : (Mode.quoted units).step? '\\' = some ([], .escape units) := rfl
    refine Mode.Completes.cons ?_ hescape
    by_cases hu : c = 'u'
    · subst hu
      exact (ih.2 units 3 0).cons rfl
    · have hstep := Mode.step?_escape units hu
      cases hescaped : escaped? c with
      | none =>
        rw [hescaped] at hstep
        exact Mode.completes_of_step?_eq_none hstep
      | some d =>
        rw [hescaped] at hstep
        exact (ih.1 _).cons hstep

/-- Behind a run of bare characters the walk goes on as if it began there. -/
theorem tokensFrom?_bare {run more s : List Char} (hmore : ∀ c ∈ more, isBare c = true)
    (hs : ∀ c ∈ s.head?, isBare c = false) :
    tokensFrom? (.bare run) (more ++ s) =
      (bareToken? (run.reverse ++ more)).bind fun token ↦ (tokens? s).map (token :: ·) := by
  induction more generalizing run with
  | nil =>
    rw [List.nil_append, List.append_nil]
    cases s with
    | nil =>
      rw [tokensFrom?, Mode.finish?]
      cases bareToken? run.reverse <;> rfl
    | cons c s =>
      have hc : isBare c = false := hs c rfl
      rw [tokensFrom?_cons, tokens?, tokensFrom?_cons, Mode.step?, Mode.step?, hc]
      cases bareToken? run.reverse with
      | none => rfl
      | some token =>
        cases start? c with
        | none => rfl
        | some read => simp [Function.comp_def]
  | cons c more ih =>
    rw [List.forall_mem_cons] at hmore
    have hstep : (Mode.bare run).step? c = some ([], .bare (c :: run)) := by
      rw [Mode.step?, if_pos hmore.1]
    rw [List.cons_append, tokensFrom?_cons_of_step? hstep, ih hmore.2, List.reverse_cons,
      List.append_assoc, List.singleton_append]

theorem tokens?_mark {c : Char} {token : Token} (hc : markToken? c = some token) (s : List Char) :
    tokens? (c :: s) = (tokens? s).map (token :: ·) := by
  rw [tokens?, tokensFrom?_cons, Mode.step?, start?_of_markToken? hc]
  rfl

theorem tokens?_bare {c : Char} {run s : List Char} (hrun : ∀ d ∈ c :: run, isBare d = true)
    (hs : ∀ d ∈ s.head?, isBare d = false) :
    tokens? (c :: run ++ s) =
      (bareToken? (c :: run)).bind fun token ↦ (tokens? s).map (token :: ·) := by
  rw [List.forall_mem_cons] at hrun
  rw [List.cons_append, tokens?_cons_of_start? (start?_of_isBare hrun.1)]
  exact tokensFrom?_bare hrun.2 hs

/-- **The tokens of a text are those of its lexemes.** -/
theorem Lexeme.tokens?_append {l s : List Char} (hl : Lexeme l) (hs : Apart l s) :
    tokens? (l ++ s) = (tokens? l).bind fun first ↦ (tokens? s).map (first ++ ·) := by
  have hread : ∃ token? : Option Token, ∀ s, Apart l s →
      tokens? (l ++ s) = token?.bind fun token ↦ (tokens? s).map (token :: ·) := by
    cases hl with
    | @mark c token hc =>
      exact ⟨some token, fun s _ ↦ tokens?_mark hc s⟩
    | string hl =>
      obtain ⟨token?, hread⟩ := hl.completes.1 []
      exact ⟨token?, fun s _ ↦ (tokens?_cons_of_start? rfl _).trans (hread s)⟩
    | @bare c run hrun =>
      refine ⟨bareToken? (c :: run), fun s hs ↦ ?_⟩
      have hend : ∀ d ∈ s.head?, isBare d = false := by
        intro d hd
        have hlast := List.getLast?_eq_some_getLast (List.cons_ne_nil c run)
        exact hs _ hlast d hd (hrun _ (List.getLast_mem _))
      exact tokens?_bare hrun hend
  obtain ⟨token?, hread⟩ := hread
  have hone : tokens? l = token?.map fun token ↦ [token] := by
    have h := hread [] (by simp [Apart])
    rw [List.append_nil] at h
    rw [h]
    cases token? <;> rfl
  rw [hread s hs, hone]
  cases token? <;> rfl

/-! ## What is read is made up of lexemes -/

theorem exists_step?_of_isSome {mode : Mode} {c : Char} {s : List Char}
    (h : (tokensFrom? mode (c :: s)).isSome) :
    ∃ read, mode.step? c = some read ∧ (tokensFrom? read.2 s).isSome := by
  rw [tokensFrom?_cons] at h
  cases hstep : mode.step? c with
  | none =>
    rw [hstep] at h
    exact absurd h Bool.false_ne_true
  | some read =>
    rw [hstep, Option.bind_some, Option.isSome_map] at h
    exact ⟨read, rfl, h⟩

/-- A string that is read has a closing quote. -/
theorem exists_quoted (s : List Char) :
    (∀ units, (tokensFrom? (.quoted units) s).isSome →
      ∃ l rest, s = l ++ rest ∧ Quoted l ∧ (tokens? rest).isSome) ∧
    (∀ units, (tokensFrom? (.escape units) s).isSome →
      ∃ c l rest, s = c :: (l ++ rest) ∧ c ≠ '\n' ∧ Quoted l ∧ (tokens? rest).isSome) ∧
    (∀ units missing code, (tokensFrom? (.hex units missing code) s).isSome →
      ∃ l rest, s = l ++ rest ∧ Quoted l ∧ (tokens? rest).isSome) := by
  induction s with
  | nil => simp [tokensFrom?, Mode.finish?]
  | cons c s ih =>
    obtain ⟨hquoted, hescape, hhex⟩ := ih
    refine ⟨fun units h ↦ ?_, fun units h ↦ ?_, fun units missing code h ↦ ?_⟩ <;>
      obtain ⟨read, hstep, hrest⟩ := exists_step?_of_isSome h
    · by_cases hquote : c = '"'
      · subst hquote
        obtain rfl := Option.some.inj hstep
        exact ⟨['"'], s, rfl, .close, hrest⟩
      · by_cases hbackslash : c = '\\'
        · subst hbackslash
          obtain rfl := Option.some.inj hstep
          obtain ⟨d, l, rest, rfl, hd, hl, hrest⟩ := hescape units hrest
          exact ⟨'\\' :: d :: l, rest, rfl, .escape hd hl, hrest⟩
        · rw [Mode.step?_quoted units hquote hbackslash] at hstep
          split at hstep
          · exact absurd hstep (Option.some_ne_none _).symm
          · rename_i hcontrol
            obtain rfl := Option.some.inj hstep
            obtain ⟨l, rest, rfl, hl, hrest⟩ := hquoted _ hrest
            have hline : c ≠ '\n' := by
              rintro rfl
              exact hcontrol (by decide)
            exact ⟨c :: l, rest, rfl, .char hquote hbackslash hline hl, hrest⟩
    · by_cases hu : c = 'u'
      · subst hu
        obtain rfl := Option.some.inj hstep
        obtain ⟨l, rest, rfl, hl, hrest⟩ := hhex _ _ _ hrest
        exact ⟨'u', l, rest, rfl, by decide, hl, hrest⟩
      · rw [Mode.step?_escape units hu, Option.map_eq_some_iff] at hstep
        obtain ⟨d, hd, rfl⟩ := hstep
        obtain ⟨l, rest, rfl, hl, hrest⟩ := hquoted _ hrest
        have hline : c ≠ '\n' := by
          rintro rfl
          exact absurd hd (Option.some_ne_none d).symm
        exact ⟨c, l, rest, rfl, hline, hl, hrest⟩
    · rw [Mode.step?_hex, Option.map_eq_some_iff] at hstep
      obtain ⟨digit, hdigit, rfl⟩ := hstep
      obtain ⟨l, rest, rfl, hl, hrest⟩ : ∃ l rest, s = l ++ rest ∧ Quoted l ∧
          (tokens? rest).isSome := by
        cases missing with
        | zero => exact hquoted _ hrest
        | succ missing => exact hhex _ _ _ hrest
      -- none of these is a digit
      have hne {d : Char} (hd : hexDigit? d = none) : c ≠ d := by
        rintro rfl
        rw [hd] at hdigit
        exact absurd hdigit (Option.some_ne_none _).symm
      exact ⟨c :: l, rest, rfl, .char (hne rfl) (hne rfl) (hne rfl) hl, hrest⟩

theorem start?_cases {c : Char} {read : List Token × Mode} (h : start? c = some read) :
    (∃ token, markToken? c = some token) ∨ c = '"' ∨ isSpace c = true ∨ isBare c = true := by
  rw [start?.eq_def] at h
  split at h
  case h_7 => exact .inr (.inl rfl)
  case h_8 =>
    split at h
    · exact .inr (.inr (.inl ‹_›))
    · split at h
      · exact .inr (.inr (.inr ‹_›))
      · exact absurd h (Option.some_ne_none _).symm
  all_goals exact .inl ⟨_, rfl⟩

/-- **A text that is read begins with white space or with a lexeme.** -/
theorem exists_lexeme {c : Char} {s : List Char} (h : (tokens? (c :: s)).isSome) :
    isSpace c = true ∧ (tokens? s).isSome ∨
      ∃ l rest, c :: s = l ++ rest ∧ Lexeme l ∧ Apart l rest ∧ (tokens? rest).isSome := by
  obtain ⟨read, hstart, hrest⟩ := exists_step?_of_isSome h
  rcases start?_cases hstart with ⟨token, hc⟩ | rfl | hc | hc
  · obtain rfl := Option.some.inj ((start?_of_markToken? hc).symm.trans hstart)
    exact .inr ⟨[c], s, rfl, .mark hc, apart_of_getLast? rfl (isBare_of_markToken? hc), hrest⟩
  · obtain rfl := Option.some.inj hstart
    obtain ⟨l, rest, rfl, hl, hrest⟩ := (exists_quoted s).1 [] hrest
    refine .inr ⟨'"' :: l, rest, rfl, .string hl, ?_, hrest⟩
    exact apart_of_getLast? (by rw [List.getLast?_cons, hl.getLast?_eq, Option.getD_some]) rfl
  · obtain rfl := Option.some.inj ((start?_of_isSpace hc).symm.trans hstart)
    exact .inl ⟨hc, hrest⟩
  · have hsplit : c :: s = (c :: s.takeWhile isBare) ++ s.dropWhile isBare := by
      rw [List.cons_append, List.takeWhile_append_dropWhile]
    have hl : Lexeme (c :: s.takeWhile isBare) := .bare fun d hd ↦ by
      rcases List.mem_cons.1 hd with rfl | hd
      · exact hc
      · exact List.all_eq_true.1 (List.all_takeWhile ..) d hd
    have hapart : Apart (c :: s.takeWhile isBare) (s.dropWhile isBare) := fun _ _ d hd _ ↦ by
      simpa [Option.mem_def.1 hd] using List.head?_dropWhile_not isBare s
    refine .inr ⟨_, _, hsplit, hl, hapart, ?_⟩
    rw [hsplit, hl.tokens?_append hapart] at h
    cases htokens : tokens? (s.dropWhile isBare) with
    | some tokens => rfl
    | none =>
      rw [htokens] at h
      cases hfirst : tokens? (c :: s.takeWhile isBare) <;> rw [hfirst] at h <;> exact h

end Dialogue.Json
