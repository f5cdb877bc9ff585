import Dialogue.Proofs.Segmentation.StopWords
import Dialogue.Proofs.Text.Lowercase
import Dialogue.Proofs.Text.Spacing

/-!
# Parts of an input are final

An input is brought into plain form by six passes, and a later pass could in principle bring back
what an earlier one removed: putting spaces around emoji makes white space, cutting a text makes
word edges, and lower case depends on what stands around a letter. What the passes achieve together
is said of a part in `Options.Plain`. A plain text goes through all passes unchanged
(`Options.Plain.normalize_eq`), and the parts of every input are plain
(`Options.plain_of_mem_parts`). So to cut a part once more gives that part
(`Options.parts_are_final`).
-/

namespace Dialogue

open Character (isBlank isEmoji IsLow)
open Text (contract lowercase trim parts Tidy Parted FreeOf SameFold Edge)

namespace Options

variable {o : Options} {s p : Text}

/-- Does the plain form have a space on either side of the character? -/
def spaces (o : Options) (c : Char) : Bool := o.allowEmoji && isEmoji c

/-- The plain form of a text in which stop words still stand. -/
def withStopWords (o : Options) (s : Text) : Text :=
  (contract (Text.spaceOut o.spaces ((if o.lowercaseInput then lowercase s else s).map fun c ↦
    if o.allows c then c else ' '))).map fun c ↦ if o.stopChars.toList.contains c then '.' else c

theorem normalize_eq (o : Options) (s : Text) :
    o.normalize s = o.replaceStopWords (o.withStopWords s) := by
  have hspace (s : Text) :
      (if o.allowEmoji then Text.spaceEmoji s else s) = Text.spaceOut o.spaces s := by
    by_cases h : o.allowEmoji = true
    · simp [Text.spaceEmoji, Text.spaceOut, spaces, h]
    · simp [Text.spaceOut, spaces, h]
  rw [normalize, withStopWords, ← hspace]

/-- What the passes achieve: a text that they leave alone. -/
structure Plain (o : Options) (p : Text) : Prop where
  ne_nil : p ≠ []
  tidy : Tidy p
  parted : p.IsChain (Parted o.spaces)
  allowed : ∀ c ∈ p, o.allows c = true
  notStop : ∀ c ∈ p, c ≠ '.' ∧ c ∉ o.stopChars.toList
  low : o.lowercaseInput = true → ∀ c ∈ p, IsLow c
  freeOf : FreeOf o.stops p

theorem spaces_space : o.spaces ' ' = false := by
  rw [spaces, show isEmoji ' ' = false from rfl, Bool.and_false]

theorem spaces_stop : o.spaces '.' = false := by
  rw [spaces, show isEmoji '.' = false from rfl, Bool.and_false]

/-! ## Plain texts -/

theorem Plain.notMem_stop (h : Plain o p) : '.' ∉ p := fun hmem ↦ (h.notStop '.' hmem).1 rfl

theorem Plain.withStopWords_eq (h : Plain o p) : o.withStopWords p = p := by
  have hlower : (if o.lowercaseInput then lowercase p else p) = p := by
    split
    · rename_i hlower
      exact Text.lowercase_eq_self (h.low hlower)
    · rfl
  have hallowed : p.map (fun c ↦ if o.allows c then c else ' ') = p := by
    rw [List.map_congr_left fun c hc ↦ if_pos (h.allowed c hc), List.map_id']
  have hstop : p.map (fun c ↦ if o.stopChars.toList.contains c then '.' else c) = p := by
    have hnot : ∀ c ∈ p, ¬ o.stopChars.toList.contains c = true :=
      fun c hc ↦ by simpa using (h.notStop c hc).2
    rw [List.map_congr_left fun c hc ↦ if_neg (hnot c hc), List.map_id']
  rw [withStopWords, hlower, hallowed,
    Text.contract_spaceOut spaces_space h.ne_nil h.tidy h.parted h.notMem_stop, hstop]

/-- **A plain text goes through all passes unchanged.** -/
theorem Plain.normalize_eq (h : Plain o p) : o.normalize p = p := by
  rw [Options.normalize_eq, h.withStopWords_eq, replaceStopWords_of_freeOf h.freeOf]

theorem Plain.parts_eq (h : Plain o p) : parts p = [p] := by
  rw [parts, List.splitOn_eq_singleton h.notMem_stop, List.map_singleton, h.tidy.trim_eq_self]
  simpa using h.ne_nil

/-! ## Parts are plain -/

theorem mem_withStopWords {c : Char} (h : c ∈ o.withStopWords s) (hc : c ≠ '.') :
    c ∉ o.stopChars.toList ∧ (isBlank c = true → c = ' ') ∧ o.allows c = true ∧
      (o.lowercaseInput = true → IsLow c) := by
  obtain ⟨d, hd, hdc⟩ := List.mem_map.1 h
  by_cases hstop : o.stopChars.toList.contains d = true
  · rw [if_pos hstop] at hdc
    exact absurd hdc.symm hc
  rw [if_neg hstop] at hdc
  subst hdc
  refine ⟨by simpa using hstop, (Text.tidy_contract _).space d hd, ?_⟩
  have hspace : o.allows ' ' = true ∧ (o.lowercaseInput = true → IsLow ' ') :=
    ⟨by simp [allows], fun _ ↦ by decide +kernel⟩
  rcases Text.mem_contract hd with rfl | hd
  · exact hspace
  rcases Text.mem_spaceOut hd with rfl | hd
  · exact hspace
  obtain ⟨e, he, rfl⟩ := List.mem_map.1 hd
  split
  · rename_i hallowed
    refine ⟨hallowed, fun hlower ↦ ?_⟩
    rw [if_pos hlower] at he
    exact Text.isLow_of_mem_lowercase he
  · exact hspace

/-- Full stops in place of stop characters keep to the rule for neighbours. -/
theorem isChain_withStopWords (o : Options) (s : Text) :
    (o.withStopWords s).IsChain (Parted o.spaces) := by
  let mark (c : Char) : Char := if o.stopChars.toList.contains c then '.' else c
  have hmark (c : Char) : mark c = '.' ∨ mark c = c := by
    by_cases hc : o.stopChars.toList.contains c = true
    · exact .inl (if_pos hc)
    · exact .inr (if_neg hc)
  have hspaces {c : Char} (h : o.spaces (mark c) = true) : mark c = c := by
    refine (hmark c).resolve_left fun hdot ↦ ?_
    rw [hdot, spaces_stop] at h
    cases h
  have hseparator {c : Char} (h : c = ' ' ∨ c = '.') : mark c = ' ' ∨ mark c = '.' := by
    rcases hmark c with hdot | hsame
    · exact .inr hdot
    · rwa [hsame]
  have hspace {c : Char} (h : mark c = ' ') : c = ' ' := by
    rcases hmark c with hdot | hsame
    · rw [hdot] at h
      exact absurd h (by decide)
    · rw [← hsame, h]
  rw [withStopWords, List.isChain_map]
  refine (Text.isChain_contract_spaceOut spaces_space _).imp fun a b hab ↦ ?_
  exact {
    spaces := fun h ↦ hab.spaces ⟨hspace h.1, hspace h.2⟩
    left := fun h ↦ hseparator (hab.left (by rwa [← hspaces h]))
    right := fun h ↦ hseparator (hab.right (by rwa [← hspaces h])) }

/-- **The parts of every input are plain.** -/
theorem plain_of_mem_parts (h : p ∈ parts (o.normalize s)) : Plain o p := by
  obtain ⟨hp, hne⟩ := List.mem_filter.1 h
  obtain ⟨piece, hpiece, rfl⟩ := List.mem_map.1 hp
  rw [normalize_eq] at hpiece
  obtain ⟨hfree, hinside⟩ := freeOf_of_mem_splitOn hpiece
  have hstop : ∀ c ∈ piece, c ≠ '.' := fun c hc hdot ↦ Text.notMem_of_mem_splitOn hpiece (hdot ▸ hc)
  have hchar (c : Char) (hc : c ∈ piece) := mem_withStopWords (hinside.subset hc) (hstop c hc)
  have hsubset := (Text.trim_isInfix piece).subset
  exact {
    ne_nil := by simpa using hne
    tidy := Text.tidy_trim fun c hc ↦ (hchar c hc).2.1
    parted := List.IsChain.infix (isChain_withStopWords o s)
      ((Text.trim_isInfix piece).trans hinside)
    allowed := fun c hc ↦ (hchar c (hsubset hc)).2.2.1
    notStop := fun c hc ↦ ⟨hstop c (hsubset hc), (hchar c (hsubset hc)).1⟩
    low := fun hlower c hc ↦ (hchar c (hsubset hc)).2.2.2 hlower
    freeOf := hfree.trim }

/-- **The parts of an input are final.** A part is not empty, has no white space at its ends and
only single spaces inside. It has no characters but ASCII letters and digits, spaces, the allowed
characters and, if they are allowed, emoji; no full stop and no stop character is among them. No
stop word stands in it between word edges. And brought into plain form and cut once more it is its
own and only part. -/
theorem parts_are_final (o : Options) (s : Text) :
    ∀ p ∈ parts (o.normalize s),
      p ≠ [] ∧ (∀ c, p.head? = some c ∨ p.getLast? = some c → isBlank c = false) ∧
      (∀ c ∈ p, isBlank c = true → c = ' ') ∧ ¬ [' ', ' '] <:+: p ∧
      (∀ c ∈ p, (c.isAlphanum = true ∨ c = ' ' ∨ c ∈ o.allowChars.toList ∨
        o.allowEmoji = true ∧ isEmoji c = true) ∧ c ≠ '.' ∧ c ∉ o.stopChars.toList) ∧
      (∀ stop ∈ o.stopWords, contract stop.toList ≠ [] → ∀ before w after,
        p = before ++ w ++ after → SameFold (contract stop.toList) w →
          Edge before (w ++ after) → ¬ Edge (before ++ w) after) ∧
      o.normalize p = p ∧ parts (o.normalize p) = [p] := by
  intro p hp
  have hplain := plain_of_mem_parts hp
  refine ⟨hplain.ne_nil, ?_, hplain.tidy.space, ?_, fun c hc ↦ ⟨?_, hplain.notStop c hc⟩, ?_,
    hplain.normalize_eq, ?_⟩
  · rintro c (hc | hc)
    · exact hplain.tidy.head c hc
    · exact hplain.tidy.last c hc
  · intro hinside
    have hpair := List.IsChain.infix hplain.parted hinside
    exact (List.isChain_pair.1 hpair).spaces ⟨rfl, rfl⟩
  · have hallowed := hplain.allowed c hc
    have hnot := (hplain.notStop c hc).2
    simp only [allows, Bool.or_eq_true, Bool.and_eq_true, beq_iff_eq, List.contains_iff_mem, hnot,
      or_false] at hallowed
    rcases hallowed with ((h | h) | h) | h
    · exact .inl h
    · exact .inr (.inl h)
    · exact .inr (.inr (.inl h))
    · exact .inr (.inr (.inr h))
  · intro stop hstop hne before w after hsplit hsame hleft
    exact hplain.freeOf before w after hsplit
      ⟨_, mem_stops_iff.2 ⟨hne, stop, hstop, rfl⟩, hsame⟩ hleft
  · rw [hplain.normalize_eq, hplain.parts_eq]

/-- A stop character and a stop word cut, and a longer word that begins with a stop word does not:
the name in the last part stays, and no stop word is left in the part. -/
theorem butler_is_final :
    "you are butler".toList ∈
        parts (({} : Options).normalize "I am sad, but you are Butler".toList) ∧
      parts (({} : Options).normalize "you are butler".toList) = ["you are butler".toList] := by
  have hmem : "you are butler".toList ∈
      parts (({} : Options).normalize "I am sad, but you are Butler".toList) := by decide +kernel
  obtain ⟨-, -, -, -, -, -, -, hparts⟩ := parts_are_final {} _ _ hmem
  exact ⟨hmem, hparts⟩

end Options

end Dialogue
