import Dialogue.Proofs.Script.Readers
import Dialogue.Script.Compile

/-!
# Having patterns built

Reading a script and having its patterns built go hand in hand, but they are two things. Building a
list of expressions stops at the first one that is refused (`Library.reports_build`), so the list is
built if the library refuses none of them (`Library.build_eq_ok_iff`). So a keyword is compiled
exactly if its declaration can be read and the library builds its expressions
(`Keyword.compile_eq_ok_iff`). Beyond this the library has one effect only: a marker that it does
not let one look for marks nothing in a template.
-/

namespace Dialogue

open Reader (Reports)

/-! ## Lists of expressions -/

namespace Library

variable {library : Library} {field : String} {expressions : List Expression}

theorem build_cons (e : Expression) :
    library.build field (e :: expressions) =
      match library.refusal? e with
      | some message => .error (.pattern field message)
      | none => library.build field expressions := by
  rw [build, List.forM]
  cases library.refusal? e <;> rfl

/-- The defects of a field some of whose expressions are refused. -/
def refusals (library : Library) (field : String) (expressions : List Expression) : List Defect :=
  expressions.filterMap fun e ↦ (library.refusal? e).map (.pattern field)

theorem refusals_eq_nil_iff :
    library.refusals field expressions = [] ↔ ∀ e ∈ expressions, library.Builds e := by
  simp [refusals, Builds]

theorem reports_build :
    Reports (library.build field expressions) (library.refusals field expressions) := by
  induction expressions with
  | nil => rfl
  | cons e es ih =>
    rw [build_cons, refusals, List.filterMap_cons]
    rcases library.refusal? e with _ | message
    · exact ih
    · rfl

theorem build_eq_ok_iff {u : Unit} :
    library.build field expressions = .ok u ↔ ∀ e ∈ expressions, library.Builds e := by
  rw [← refusals_eq_nil_iff, ← reports_build.isOk_iff]
  exact ⟨fun h ↦ ⟨u, h⟩, fun ⟨_, h⟩ ↦ h⟩

theorem builds_boundless (e : Expression) : boundless.Builds e := rfl

theorem build_boundless : boundless.build field expressions = .ok () :=
  build_eq_ok_iff.2 fun e _ ↦ builds_boundless e

theorem builds_limited_iff {size : Expression → Nat} {limit : Nat} {e : Expression} :
    (limited size limit).Builds e ↔ size e ≤ limit := by
  simp [Builds, limited]

/-- A library with a limit says the same of everything that it refuses. -/
theorem message_of_limited {size : Expression → Nat} {limit : Nat} {e : Expression}
    {message : String} (h : (limited size limit).refusal? e = some message) :
    message = s!"Compiled regex exceeds size limit of {limit} bytes." :=
  (Option.some.inj (Option.ite_none_left_eq_some.1 h).2).symm

end Library

/-! ## Keywords -/

namespace Keyword

variable {library : Library} {options : Options} {tags : Tags} {name : String} {body : Json}
  {position : Nat} {k : Keyword}

/-- If wildcards can be looked for, only the marker of tags may be lost. -/
theorem markers_of_builds
    (h : library.Builds (Template.wildcardExpression options.wildcardMarker.toList)) :
    markers library options =
      ⟨if library.Builds (Template.tagExpression options.tagMarker.toList) then
        options.tagMarker.toList else [], options.wildcardMarker.toList⟩ := by
  rw [markers, Template.Markers.known, if_pos h]

/-- A keyword is compiled if its declaration can be read and its expressions are built. -/
theorem compile_eq_ok_iff :
    compile library options tags name body position = .ok k ↔
      declare library options tags name body position = .ok k ∧
        ∀ e ∈ k.expressions, library.Builds e := by
  rw [compile, Reader.bind_eq_ok_iff]
  constructor
  · rintro ⟨l, hl, h⟩
    obtain ⟨_, hbuild, h⟩ := Reader.bind_eq_ok_iff.1 h
    obtain rfl : l = k := Except.ok.inj h
    exact ⟨hl, Library.build_eq_ok_iff.1 hbuild⟩
  · rintro ⟨hk, hbuild⟩
    exact ⟨k, hk, Reader.bind_eq_ok_iff.2 ⟨(), Library.build_eq_ok_iff.2 hbuild, rfl⟩⟩

theorem declare_of_compile (h : compile library options tags name body position = .ok k) :
    declare library options tags name body position = .ok k :=
  (compile_eq_ok_iff.1 h).1

end Keyword

/-! ## Tables -/

/-- What some library lets one read is read without limits too. -/
theorem Script.readTable_boundless {library : Library} {members : Members} {field : String}
    {table : Substitution} (h : readTable library members field = .ok table) :
    readTable .boundless members field = .ok table := by
  obtain ⟨value, hvalue, h⟩ := Reader.bind_eq_ok_iff.1 h
  obtain ⟨pairs, hpairs, h⟩ := Reader.bind_eq_ok_iff.1 h
  obtain ⟨_, -, h⟩ := Reader.bind_eq_ok_iff.1 h
  exact Reader.bind_eq_ok_iff.2 ⟨value, hvalue, Reader.bind_eq_ok_iff.2
    ⟨pairs, hpairs, Reader.bind_eq_ok_iff.2 ⟨(), Library.build_boundless, h⟩⟩⟩

end Dialogue
