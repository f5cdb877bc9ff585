import Dialogue.Proofs.Script.Keyword
import Dialogue.Proofs.Script.Readers
import Dialogue.Proofs.Text.Blank

/-!
# Names behind the memory marker

The declared name of a keyword is taken apart in two steps. The rank is split off its end first, and
then the memory marker off its front. What is split off depends on the words of the name only
(`Keyword.parseName_eq`), so the two steps can be compared word by word: a marker in front is either
a word more or a part of the first word.

Both leave the rank alone, with one exception. A number is a rank only behind another word, so a
lone number is a name; but the marker is another word as long as it has not been taken off. The
marker with white space behind it turns a lone number into a rank, and no name is left
(`Keyword.marker_keeps_name_and_rank`).
-/

namespace Dialogue

open Character (isBlank)
open Text (words contract trimStart Tidy)

/-! ## Words behind a marker -/

namespace Text

variable {c d : Char} {s marker : Text}

/-- A character in front of a word becomes a part of it. -/
theorem words_cons_cons (hc : isBlank c = false) (hd : isBlank d = false) (s : Text) :
    words (c :: d :: s) = (words (d :: s)).modifyHead (c :: ·) := by
  obtain ⟨first, rest, hs⟩ := List.exists_cons_of_ne_nil (List.splitOnP_ne_nil isBlank s)
  simp [words, List.splitOnP_cons_eq_if_modifyHead, hc, hd, hs]

theorem words_append_of_solid (hmarker : ∀ c ∈ marker, isBlank c = false) (hd : isBlank d = false)
    (s : Text) : words (marker ++ d :: s) = (words (d :: s)).modifyHead (marker ++ ·) := by
  induction marker with
  | nil => exact (congrFun List.modifyHead_id _).symm
  | cons c marker ih =>
    rw [List.forall_mem_cons] at hmarker
    have hnext : words (c :: (marker ++ d :: s)) =
        (words (marker ++ d :: s)).modifyHead (c :: ·) := by
      rcases marker with _ | ⟨e, marker⟩
      · exact words_cons_cons hmarker.1 hd s
      · exact words_cons_cons hmarker.1 (hmarker.2 e List.mem_cons_self) _
    rw [List.cons_append, hnext, ih hmarker.2, List.modifyHead_modifyHead]
    rfl

/-- A marker with white space behind it is a word of its own. -/
theorem words_marker_of_blank (hne : marker ≠ []) (hmarker : ∀ c ∈ marker, isBlank c = false)
    (hd : isBlank d = true) (s : Text) : words (marker ++ d :: s) = marker :: words s := by
  rw [words_append_cons hd, words_of_forall hne hmarker, List.singleton_append]

end Text

namespace Keyword

/-! ## Names and ranks, word by word -/

/-- The name and the rank that some words declare. -/
def nameOf (all : List Text) : Text × Int :=
  match all.dropLast, all.getLast?.bind rank? with
  | w :: rest, some rank => ([' '].intercalate (w :: rest), rank)
  | _, _ => ([' '].intercalate all, 0)

theorem parseName_eq (declared : Text) : parseName declared = nameOf (words declared) := rfl

/-- A lone word is the name. -/
theorem nameOf_singleton (w : Text) : nameOf [w] = (w, 0) := by
  rw [nameOf]
  simp

/-- The last of several words is the rank if it is a number. -/
theorem nameOf_concat {ws : List Text} (hws : ws ≠ []) (w : Text) :
    nameOf (ws ++ [w]) = ((rank? w).map fun rank ↦ ([' '].intercalate ws, rank)).getD
      ([' '].intercalate (ws ++ [w]), 0) := by
  obtain ⟨v, ws, rfl⟩ := List.exists_cons_of_ne_nil hws
  rw [nameOf, List.dropLast_concat, List.getLast?_concat, Option.bind_some]
  cases rank? w <;> rfl

/-- Is the declared name nothing but a number? -/
def isLoneNumber (declared : Text) : Bool :=
  match words declared with
  | [w] => (rank? w).isSome
  | _ => false

theorem isLoneNumber_iff {declared : Text} :
    isLoneNumber declared = true ↔ ∃ w, words declared = [w] ∧ (rank? w).isSome = true := by
  rw [isLoneNumber]
  split
  · rename_i w hwords
    simp [hwords]
  · rename_i hwords
    simp only [Bool.false_eq_true, false_iff]
    rintro ⟨w, hw, -⟩
    exact hwords w hw

/-- A word in front belongs to the name, unless there is nothing but a number behind it. -/
theorem nameOf_cons {all : List Text} (hne : all ≠ [])
    (hnumber : ∀ w, all = [w] → rank? w = none) (marker : Text) :
    nameOf (marker :: all) = (marker ++ ' ' :: (nameOf all).1, (nameOf all).2) := by
  have hjoin {ws : List Text} (h : ws ≠ []) :
      [' '].intercalate (marker :: ws) = marker ++ ' ' :: [' '].intercalate ws := by
    obtain ⟨v, ws, rfl⟩ := List.exists_cons_of_ne_nil h
    rw [List.intercalate_cons_cons, List.append_assoc, List.singleton_append]
  obtain ⟨ws, w, rfl⟩ := (List.eq_nil_or_concat' all).resolve_left hne
  have hall := hjoin hne
  rw [← List.cons_append] at hall ⊢
  rw [nameOf_concat (List.cons_ne_nil _ _), hall]
  by_cases hws : ws = []
  · subst hws
    rw [hnumber w rfl, List.nil_append, nameOf_singleton, Option.map_none, Option.getD_none,
      List.intercalate_singleton]
  · rw [nameOf_concat hws, hjoin hws]
    cases rank? w <;> rfl

/-- What is put in front of the first word is put in front of the name. -/
theorem nameOf_append_cons (marker w : Text) (ws : List Text) :
    nameOf ((marker ++ w) :: ws) = (marker ++ (nameOf (w :: ws)).1, (nameOf (w :: ws)).2) := by
  have hjoin (ws : List Text) :
      [' '].intercalate ((marker ++ w) :: ws) = marker ++ [' '].intercalate (w :: ws) := by
    rcases ws with _ | ⟨v, ws⟩
    · simp
    · rw [List.intercalate_cons_cons, List.intercalate_cons_cons]
      simp only [List.append_assoc]
  rcases List.eq_nil_or_concat' ws with rfl | ⟨ws, v, rfl⟩
  · rw [nameOf_singleton, nameOf_singleton]
  · rw [← List.cons_append, ← List.cons_append, nameOf_concat (List.cons_ne_nil _ _),
      nameOf_concat (List.cons_ne_nil _ _), List.cons_append, List.cons_append, hjoin, hjoin]
    cases rank? v <;> rfl

/-! ## Names behind the marker -/

section Marker

variable {marker declared : Text} {d : Char}

/-- With white space behind it, the marker is a word before the name. -/
theorem parseName_marker_cons (hne : marker ≠ []) (hmarker : ∀ c ∈ marker, isBlank c = false)
    (hd : isBlank d = true) (hlone : isLoneNumber declared = false) (hwords : words declared ≠ []) :
    parseName (marker ++ d :: declared) =
      (marker ++ ' ' :: (parseName declared).1, (parseName declared).2) := by
  rw [parseName_eq, parseName_eq, Text.words_marker_of_blank hne hmarker hd]
  refine nameOf_cons hwords (fun w hw ↦ ?_) marker
  by_contra hrank
  rw [isLoneNumber_iff.2 ⟨w, hw, Option.isSome_iff_ne_none.2 hrank⟩] at hlone
  cases hlone

/-- A lone number is taken for a rank, and the marker for the name. -/
theorem parseName_marker_number (hne : marker ≠ []) (hmarker : ∀ c ∈ marker, isBlank c = false)
    (hd : isBlank d = true) (hlone : isLoneNumber declared = true) :
    (parseName (marker ++ d :: declared)).1 = marker := by
  obtain ⟨w, hw, hrank⟩ := isLoneNumber_iff.1 hlone
  obtain ⟨rank, hrank⟩ := Option.isSome_iff_exists.1 hrank
  have hname := nameOf_concat (List.cons_ne_nil marker []) w
  rw [hrank, Option.map_some, Option.getD_some, List.intercalate_singleton] at hname
  rw [parseName_eq, Text.words_marker_of_blank hne hmarker hd, hw]
  exact congrArg Prod.fst hname

/-- Without white space behind it, the marker is a part of the name. -/
theorem parseName_marker_append (hmarker : ∀ c ∈ marker, isBlank c = false)
    (hd : isBlank d = false) (rest : Text) : parseName (marker ++ d :: rest) =
      (marker ++ (parseName (d :: rest)).1, (parseName (d :: rest)).2) := by
  obtain ⟨w, ws, hwords⟩ := List.exists_cons_of_ne_nil (Text.words_cons_ne_nil hd rest)
  rw [parseName_eq, parseName_eq, Text.words_append_of_solid hmarker hd, hwords,
    List.modifyHead_cons, nameOf_append_cons]

end Marker

theorem afterMarker?_append {marker : Text} (hne : marker ≠ []) (s : Text) :
    afterMarker? marker (marker ++ s) = some (trimStart s) := by
  rw [afterMarker?, if_neg (mt List.isEmpty_iff.1 hne),
    List.isPrefixOf?_eq_some_iff_append_eq.2 rfl, Option.map_some]

/-! ## Declarations behind the marker -/

end Keyword

namespace Rule

/-- The rule with its replies kept for a later turn. -/
def memorize (rule : Rule) : Rule := { rule with memorized := true }

end Rule

namespace Keyword

/-- The keyword with all replies kept for a later turn. -/
def memorize (k : Keyword) : Keyword :=
  { k with memorized := true, rules := k.rules.map Rule.memorize }

variable {library : Library} {options : Options} {tags : Tags} {declared name : String}
  {body : Json} {position : Nat} {keyword : Keyword}

/-- What a body says does not depend on the name that it stands behind. -/
theorem ofJson_eq_ok {rules : Body} (h : Body.ofJson declared body = .ok rules) :
    Body.ofJson name body = .ok rules := by
  have htexts {field field' : String} {value : Json} {list : List Text}
      (h : Script.texts field value = .ok list) : Script.texts field' value = .ok list := by
    rcases value
    case array items =>
      refine Reader.mapM_eq_ok_iff.2 ((Reader.mapM_eq_ok_iff.1 h).imp ?_)
      rintro ⟨item, index⟩ text hitem
      rcases item
      case string => exact hitem
      all_goals cases hitem
    all_goals cases h
  rcases body
  case string => exact h
  case array items =>
    obtain ⟨list, hlist, hrules⟩ := Reader.bind_eq_ok_iff.1 h
    exact Reader.bind_eq_ok_iff.2 ⟨list, htexts hlist, hrules⟩
  case object rules =>
    obtain ⟨list, hlist, hrules⟩ := Reader.bind_eq_ok_iff.1 h
    refine Reader.bind_eq_ok_iff.2 ⟨list, ?_, hrules⟩
    refine Reader.mapM_eq_ok_iff.2 ((Reader.mapM_eq_ok_iff.1 hlist).imp ?_)
    rintro ⟨decomposition, value⟩ rule hrule
    rcases value
    case string => exact hrule
    case array =>
      obtain ⟨texts, hread, hrule⟩ := Reader.bind_eq_ok_iff.1 hrule
      exact Reader.bind_eq_ok_iff.2 ⟨texts, htexts hread, hrule⟩
    all_goals cases hrule
  all_goals cases h

theorem compileRule_true (rule : Text × List Text) :
    compileRule library options tags true rule =
      (compileRule library options tags false rule).memorize := rfl

/-- Whether replies are kept or not, the same expressions are asked for. -/
theorem expressions_memorize (k : Keyword) : k.memorize.expressions = k.expressions := by
  simp [expressions, memorize, Rule.memorize, Function.comp_def]

/-- What an unmarked keyword is made of. -/
theorem exists_of_declare_unmarked
    (h : declare library options tags declared body position = .ok keyword)
    (hplain : keyword.memorized = false) :
    (parseName declared.toList).1 ≠ [] ∧
      ∃ rules, Body.ofJson declared body = .ok rules ∧
        keyword = {
          key := (parseName declared.toList).1
          rank := (parseName declared.toList).2
          memorized := false
          rules := (rules.toRules options.wildcardMarker.toList).map
            (compileRule library options tags false)
          position
          matcher := .wholeWord (parseName declared.toList).1 } := by
  simp only [declare] at h
  split at h
  · cases h
  · rename_i hkey
    obtain ⟨rules, hrules, h⟩ := Reader.bind_eq_ok_iff.1 h
    obtain rfl := Except.ok.inj h
    have hunmarked :
        afterMarker? options.memoryMarker.toList (parseName declared.toList).1 = none :=
      Option.isNone_iff_eq_none.1 (Option.isSome_eq_false_iff.1 hplain)
    rw [hunmarked, Option.getD_none] at hkey
    refine ⟨mt List.isEmpty_iff.2 hkey, rules, hrules, ?_⟩
    rw [hunmarked]
    rfl

/-- The name of an unmarked keyword behind the marker makes the same keyword, memorized. -/
theorem compile_memorize (h : compile library options tags declared body position = .ok keyword)
    (hplain : keyword.memorized = false)
    (hname : afterMarker? options.memoryMarker.toList (parseName name.toList).1 =
      some (parseName declared.toList).1)
    (hrank : (parseName name.toList).2 = (parseName declared.toList).2) :
    compile library options tags name body position = .ok keyword.memorize := by
  obtain ⟨hdeclare, hbuilds⟩ := compile_eq_ok_iff.1 h
  refine compile_eq_ok_iff.2 ⟨?_, (expressions_memorize keyword).symm ▸ hbuilds⟩
  obtain ⟨hkey, rules, hrules, rfl⟩ := exists_of_declare_unmarked hdeclare hplain
  simp only [declare]
  rw [hname, Option.getD_some, if_neg (mt List.isEmpty_iff.1 hkey)]
  refine Reader.bind_eq_ok_iff.2 ⟨rules, ofJson_eq_ok hrules, congrArg Except.ok ?_⟩
  simp [memorize, hrank, Function.comp_def, compileRule_true]

theorem compile_of_nameless (position : Nat)
    (h : afterMarker? options.memoryMarker.toList (parseName name.toList).1 = some []) :
    compile library options tags name body position = .error (.nameless name) := by
  simp only [compile, declare]
  rw [h]
  rfl

section Marked

variable (h : compile library options tags declared body position = .ok keyword)
  (hplain : keyword.memorized = false) (hne : options.memoryMarker.toList ≠ [])
  (hmarker : ∀ c ∈ options.memoryMarker.toList, isBlank c = false)
include h hplain hne hmarker

/-- The marker, white space, and the words of an unmarked declaration. -/
theorem compile_marker_cons {d : Char} (hd : isBlank d = true) {rest : Text}
    (hwords : words rest = words declared.toList)
    (hname : name.toList = options.memoryMarker.toList ++ d :: rest) :
    compile library options tags name body position =
      if isLoneNumber declared.toList then .error (.nameless name) else .ok keyword.memorize := by
  have hparse : parseName rest = parseName declared.toList := by
    rw [parseName_eq, hwords, ← parseName_eq]
  have hnumber : isLoneNumber rest = isLoneNumber declared.toList := by
    rw [isLoneNumber, hwords, ← isLoneNumber]
  obtain ⟨hkey, -⟩ := exists_of_declare_unmarked (declare_of_compile h) hplain
  split
  · rename_i hlone
    refine compile_of_nameless position ?_
    rw [hname, parseName_marker_number hne hmarker hd (hnumber.trans hlone)]
    have hnone := afterMarker?_append hne []
    rwa [List.append_nil] at hnone
  · rename_i hlone
    have hsome : words rest ≠ [] := by
      intro hnil
      rw [← hparse, parseName_eq, hnil] at hkey
      exact hkey rfl
    have hjoined := parseName_marker_cons hne hmarker hd
      (hnumber.trans (Bool.eq_false_iff.2 hlone)) hsome
    refine compile_memorize h hplain ?_ ?_
    · rw [hname, hjoined, hparse, afterMarker?_append hne, Text.trimStart,
        List.dropWhile_cons_of_pos rfl, ← Text.trimStart,
        Text.trimStart_eq_self (tidy_parseName _).head]
    · rw [hname, hjoined, hparse]

/-- The marker, and an unmarked declaration that begins with a word. -/
theorem compile_marker_append (hhead : declared.toList.head?.any isBlank = false)
    (hname : name.toList = options.memoryMarker.toList ++ declared.toList) :
    compile library options tags name body position = .ok keyword.memorize := by
  obtain ⟨hkey, -⟩ := exists_of_declare_unmarked (declare_of_compile h) hplain
  obtain ⟨d, rest, hdeclared⟩ : ∃ d rest, declared.toList = d :: rest := by
    refine List.exists_cons_of_ne_nil fun hnil ↦ hkey ?_
    rw [hnil, parseName_eq, Text.words_nil]
    rfl
  rw [hdeclared, List.head?_cons, Option.any_some] at hhead
  have hjoined := parseName_marker_append hmarker hhead rest
  rw [← hdeclared, ← hname] at hjoined
  refine compile_memorize h hplain ?_ ?_
  · rw [hjoined, afterMarker?_append hne, Text.trimStart_eq_self (tidy_parseName _).head]
  · rw [hjoined]

end Marked

/-- **The memory marker says nothing about name and rank**, but for one case: a lone number is a
name, and with the marker and white space in front of it there is no name any more. In all other
cases, with white space behind the marker or without, the declaration makes the same keyword with
the same rank, memorized with all its rules. -/
theorem marker_keeps_name_and_rank (hmarker : options.memoryMarker = "@")
    (h : compile library options tags declared body position = .ok keyword)
    (hplain : keyword.memorized = false) :
    compile library options tags ("@ " ++ declared) body position =
        (if isLoneNumber declared.toList then .error (.nameless ("@ " ++ declared))
          else .ok keyword.memorize) ∧
      compile library options tags ("@" ++ declared) body position =
        (if isLoneNumber declared.toList ∧ declared.toList.head?.any isBlank then
            .error (.nameless ("@" ++ declared))
          else .ok keyword.memorize) := by
  have htext : options.memoryMarker.toList = ['@'] := by rw [hmarker]; rfl
  have hne : options.memoryMarker.toList ≠ [] := by rw [htext]; exact List.cons_ne_nil _ _
  have hsolid : ∀ c ∈ options.memoryMarker.toList, isBlank c = false := by
    rw [htext]
    exact List.forall_mem_singleton.2 rfl
  have hspaced :
      ("@ " ++ declared).toList = options.memoryMarker.toList ++ ' ' :: declared.toList := by
    simp [htext]
  have hjoined : ("@" ++ declared).toList = options.memoryMarker.toList ++ declared.toList := by
    simp [htext]
  refine ⟨compile_marker_cons h hplain hne hsolid rfl rfl hspaced, ?_⟩
  by_cases hhead : declared.toList.head?.any isBlank = true
  · obtain ⟨d, hd, hblank⟩ := (Option.any_eq_true _ _).1 hhead
    obtain ⟨rest, hrest⟩ := List.head?_eq_some_iff.1 hd
    have hwords : words rest = words declared.toList := by
      rw [hrest, Text.words_cons_of_blank hblank]
    rw [compile_marker_cons h hplain hne hsolid hblank hwords (hrest ▸ hjoined)]
    simp only [hhead, and_true]
  · rw [compile_marker_append h hplain hne hsolid (Bool.eq_false_iff.2 hhead) hjoined,
      if_neg fun hboth ↦ hhead hboth.2]

/-- The keyword `5` is memorized if the marker is part of its word. With a space behind the marker
the number is taken for a rank, and no name is left. -/
theorem spaced_marker_leaves_no_name :
    ∃ keyword, compile .boundless {} [] "5" (.string "high five") 0 = .ok keyword ∧
      keyword.memorized = false ∧
      compile .boundless {} [] "@ 5" (.string "high five") 0 = .error (.nameless "@ 5") ∧
      compile .boundless {} [] "@5" (.string "high five") 0 = .ok keyword.memorize := by
  have hcompile : compile .boundless {} [] "5" (.string "high five") 0 =
      .ok ⟨['5'], 0, false, [⟨['*'], Template.pattern ⟨['#'], ['*']⟩ [] ['*'],
        ["high five".toList], false⟩], 0, .wholeWord ['5']⟩ := by
    decide +kernel
  obtain ⟨hspaced, hjoined⟩ := marker_keeps_name_and_rank rfl hcompile rfl
  have hlone : isLoneNumber "5".toList = true := by decide +kernel
  rw [hlone, if_pos rfl] at hspaced
  exact ⟨_, hcompile, rfl, hspaced, hjoined⟩

end Keyword

end Dialogue
