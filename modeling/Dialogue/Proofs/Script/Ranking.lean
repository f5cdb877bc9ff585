import Dialogue.Proofs.Script.Building
import Mathlib.Data.List.Forall2
import Mathlib.Data.List.Perm.Basic
import Mathlib.Data.List.Sort

/-!
# The order of keywords

Keywords are tried by descending rank, and those of equal rank in the order of their declarations.
There is one such order of the declared keywords (`Script.Arranged.eq`), and it is the one that
reading them gives (`Script.arranged_of_readKeywords`).

Declarations may be moved past declarations of another rank. This changes the positions that the
keywords remember, but not which keywords there are and in what order they are tried
(`Script.readKeywords_of_reordered`). And one declaration more adds one keyword, without moving the
others past each other (`Script.exists_eraseIdx_of_readKeywords`).
-/

namespace Dialogue

namespace Keyword

variable {library : Library} {options : Options} {tags : Tags} {name : String} {body : Json}
  {k l : Keyword}

/-- The keyword without its position among the declarations. -/
def unplaced (k : Keyword) : Keyword := { k with position := 0 }

@[simp] theorem key_unplaced (k : Keyword) : k.unplaced.key = k.key := rfl

@[simp] theorem isIn_unplaced (k : Keyword) (part : Text) : k.unplaced.isIn part = k.isIn part :=
  rfl

/-- The rank that a declared name asks for. -/
def declaredRank (name : String) : Int := (parseName name.toList).2

/-- The position of a declaration has no other effect than to be remembered. -/
theorem declare_eq_map (position : Nat) :
    declare library options tags name body position =
      (declare library options tags name body 0).map fun k ↦ { k with position } := by
  simp only [declare]
  split
  · rfl
  · rcases Body.ofJson name body with defect | rules <;> rfl

theorem compile_eq_map (position : Nat) :
    compile library options tags name body position =
      (compile library options tags name body 0).map fun k ↦ { k with position } := by
  rw [compile, compile, declare_eq_map]
  rcases declare library options tags name body 0 with defect | k
  · rfl
  · -- the expressions of a keyword say nothing of its position
    change (library.build "keywords" k.expressions >>= fun _ ↦ .ok { k with position }) =
      (library.build "keywords" k.expressions >>= fun _ ↦ .ok k).map fun k ↦ { k with position }
    rcases library.build "keywords" k.expressions with defect | u <;> rfl

theorem rank_of_compile {position : Nat}
    (h : compile library options tags name body position = .ok k) : k.rank = declaredRank name := by
  replace h := declare_of_compile h
  simp only [declare] at h
  split at h
  · cases h
  · obtain ⟨rules, -, h⟩ := Reader.bind_eq_ok_iff.1 h
    rw [← Except.ok.inj h]
    rfl

theorem compile_unplaced {position : Nat}
    (h : compile library options tags name body position = .ok k) :
    compile library options tags name body 0 = .ok k.unplaced ∧ k.position = position := by
  rw [compile_eq_map, Reader.map_eq_ok_iff] at h
  obtain ⟨l, hl, rfl⟩ := h
  have hposition : l.position = 0 := by
    rw [compile_eq_map, Reader.map_eq_ok_iff] at hl
    obtain ⟨l, -, rfl⟩ := hl
    rfl
  refine ⟨?_, rfl⟩
  rw [hl, unplaced, ← hposition]

/-! ## Precedence -/

theorem precedes_iff :
    k.precedes l = true ↔ l.rank < k.rank ∨ k.rank = l.rank ∧ k.position ≤ l.position := by
  simp [precedes]

theorem precedes_trans (k l m : Keyword) (hkl : k.precedes l = true) (hlm : l.precedes m = true) :
    k.precedes m = true := by
  rw [precedes_iff] at *
  omega

theorem precedes_total (k l : Keyword) : (k.precedes l || l.precedes k) = true := by
  rw [Bool.or_eq_true, precedes_iff, precedes_iff]
  omega

end Keyword

/-! ## Sorting -/

/-- Sorting leaves keywords of one rank in the order of their positions. -/
theorem filter_mergeSort_precedes {keywords : List Keyword}
    (h : keywords.Pairwise fun k l ↦ k.position < l.position) (rank : Int) :
    (keywords.mergeSort Keyword.precedes).filter (·.rank = rank) =
      keywords.filter (·.rank = rank) := by
  have hsame : (keywords.filter (·.rank = rank)).Pairwise fun k l ↦ k.precedes l = true := by
    refine (h.filter _).imp_of_mem fun {k l} hk hl hlt ↦ Keyword.precedes_iff.2 (.inr ⟨?_, hlt.le⟩)
    have hk : k.rank = rank := by simpa using (List.mem_filter.1 hk).2
    have hl : l.rank = rank := by simpa using (List.mem_filter.1 hl).2
    rw [hk, hl]
  have hsub := List.sublist_mergeSort Keyword.precedes_trans Keyword.precedes_total hsame
    List.filter_sublist
  have hperm := (List.mergeSort_perm keywords Keyword.precedes).filter (·.rank = rank)
  refine (List.Sublist.eq_of_length ?_ hperm.length_eq.symm).symm
  simpa using hsub.filter (·.rank = rank)

/-- Lists with the same items of each kind have the same items. -/
theorem mem_iff_of_filter_eq {α κ : Type} [DecidableEq κ] {kind : α → κ} {xs ys : List α}
    (h : ∀ k, xs.filter (kind · = k) = ys.filter (kind · = k)) (x : α) : x ∈ xs ↔ x ∈ ys := by
  have := congrArg (x ∈ ·) (h (kind x))
  simpa using this

/-- A list of keywords in descending rank is known from its parts of one rank. -/
theorem eq_of_filter_rank {ks ls : List Keyword} (hks : ks.Pairwise fun k l ↦ l.rank ≤ k.rank)
    (hls : ls.Pairwise fun k l ↦ l.rank ≤ k.rank)
    (h : ∀ rank : Int, ks.filter (·.rank = rank) = ls.filter (·.rank = rank)) : ks = ls := by
  induction ks generalizing ls with
  | nil =>
    refine (List.eq_nil_iff_forall_not_mem.2 fun k hk ↦ ?_).symm
    exact List.not_mem_nil ((mem_iff_of_filter_eq h k).2 hk)
  | cons k ks ih =>
    have hmem := mem_iff_of_filter_eq h
    rcases ls with _ | ⟨l, ls⟩
    · exact absurd ((hmem k).1 List.mem_cons_self) List.not_mem_nil
    · rw [List.pairwise_cons] at hks hls
      -- neither first keyword is of a higher rank than the other
      have hkl : l.rank ≤ k.rank := by
        rcases List.mem_cons.1 ((hmem l).2 List.mem_cons_self) with rfl | hl
        · exact le_refl _
        · exact hks.1 l hl
      have hlk : k.rank ≤ l.rank := by
        rcases List.mem_cons.1 ((hmem k).1 List.mem_cons_self) with rfl | hk
        · exact le_refl _
        · exact hls.1 k hk
      have hrank : l.rank = k.rank := le_antisymm hkl hlk
      have hfirst := h k.rank
      rw [List.filter_cons_of_pos (by simp), List.filter_cons_of_pos (by simp [hrank])] at hfirst
      obtain ⟨rfl, -⟩ := List.cons_eq_cons.1 hfirst
      have hrest (rank : Int) : ks.filter (·.rank = rank) = ls.filter (·.rank = rank) := by
        have := h rank
        by_cases hk : k.rank = rank
        · simpa [hk] using this
        · simpa [hk] using this
      rw [ih hks.2 hls.2 hrest]

/-! ## Reading declarations -/

namespace Script

variable {library : Library} {options : Options} {tags : Tags}
  {members members' declared declared' : Members} {keywords keywords' : List Keyword}

/-- Reading the declared keywords compiles each of them at its place and sorts them. -/
theorem readKeywords_eq_ok_iff (h : members.get? "keywords" = some (.object declared)) :
    readKeywords library options tags members = .ok keywords ↔
      ∃ compiled, List.Forall₂
          (fun item k ↦ Keyword.compile library options tags item.1.1 item.1.2 item.2 = .ok k)
          declared.zipIdx compiled ∧ compiled.mergeSort Keyword.precedes = keywords := by
  simp only [readKeywords, required, h, Script.members, Reader.bind_eq_ok_iff,
    Reader.mapM_eq_ok_iff, Except.ok.injEq, exists_eq_left']
  exact exists_congr fun _ ↦ and_congr_right fun _ ↦ .of_eq (Except.ok.injEq _ _)

/-- The keywords can be read if each of them can. -/
theorem exists_readKeywords_iff (h : members.get? "keywords" = some (.object declared)) :
    (∃ keywords, readKeywords library options tags members = .ok keywords) ↔
      ∀ declaration ∈ declared,
        ∃ k, Keyword.compile library options tags declaration.1 declaration.2 0 = .ok k := by
  have hcompile (name : String) (body : Json) (position : Nat) :
      (∃ k, Keyword.compile library options tags name body position = .ok k) ↔
        ∃ k, Keyword.compile library options tags name body 0 = .ok k := by
    rw [Keyword.compile_eq_map]
    simp only [Reader.map_eq_ok_iff]
    exact ⟨fun ⟨_, l, hl, _⟩ ↦ ⟨l, hl⟩, fun ⟨l, hl⟩ ↦ ⟨_, l, hl, rfl⟩⟩
  have hread : (∃ keywords, readKeywords library options tags members = .ok keywords) ↔
      ∃ compiled, declared.zipIdx.mapM
        (fun item ↦ Keyword.compile library options tags item.1.1 item.1.2 item.2) =
          .ok compiled := by
    simp only [readKeywords_eq_ok_iff h, Reader.mapM_eq_ok_iff]
    exact ⟨fun ⟨_, compiled, hc, _⟩ ↦ ⟨compiled, hc⟩, fun ⟨compiled, hc⟩ ↦ ⟨_, compiled, hc, rfl⟩⟩
  rw [hread, Reader.exists_mapM_eq_ok_iff]
  constructor
  · intro hall declaration hmem
    obtain ⟨position, hposition⟩ := List.mem_iff_getElem?.1 hmem
    exact (hcompile _ _ position).1
      (hall (declaration, position) (List.mem_zipIdx_iff_getElem?.2 hposition))
  · rintro hall ⟨declaration, position⟩ hmem
    exact (hcompile _ _ _).2
      (hall declaration (List.mem_of_getElem? (List.mem_zipIdx_iff_getElem?.1 hmem)))

theorem map_position_of_forall₂ {compiled : List Keyword}
    (h : List.Forall₂
      (fun item k ↦ Keyword.compile library options tags item.1.1 item.1.2 item.2 = .ok k)
      declared.zipIdx compiled) :
    compiled.map (·.position) = List.range declared.length := by
  have hposition : List.Forall₂ (· = ·) (declared.zipIdx.map Prod.snd)
      (compiled.map (·.position)) := by
    rw [List.forall₂_map_left_iff, List.forall₂_map_right_iff]
    exact h.imp fun _ _ hk ↦ (Keyword.compile_unplaced hk).2.symm
  rw [List.forall₂_eq_eq_eq, List.zipIdx_map_snd] at hposition
  rw [← hposition, List.range_eq_range']

/-! ## The arrangement -/

/-- Some keywords are those of the declarations, by descending rank, and those of equal rank as
they are declared. -/
structure Arranged (library : Library) (options : Options) (tags : Tags) (declared : Members)
    (keywords : List Keyword) : Prop where
  /-- There is one keyword for each declaration. -/
  positions : (keywords.map (·.position)).Perm (List.range declared.length)
  /-- A keyword is what its declaration says. -/
  compiled : ∀ k ∈ keywords, ∃ declaration, declared[k.position]? = some declaration ∧
    Keyword.compile library options tags declaration.1 declaration.2 k.position = .ok k
  sorted : keywords.Pairwise fun k l ↦
    l.rank < k.rank ∨ k.rank = l.rank ∧ k.position < l.position

namespace Arranged

/-- Every declaration has its keyword. -/
theorem exists_keyword_at (h : Arranged library options tags declared keywords) {position : Nat}
    {declaration : String × Json} (hdeclaration : declared[position]? = some declaration) :
    ∃ keyword ∈ keywords,
      Keyword.compile library options tags declaration.1 declaration.2 position = .ok keyword := by
  obtain ⟨hposition, -⟩ := List.getElem?_eq_some_iff.1 hdeclaration
  obtain ⟨keyword, hkeyword, rfl⟩ :=
    List.mem_map.1 (h.positions.mem_iff.2 (List.mem_range.2 hposition))
  obtain ⟨declaration', hdeclaration', hcompile⟩ := h.compiled keyword hkeyword
  obtain rfl : declaration = declaration' :=
    Option.some.inj (hdeclaration.symm.trans hdeclaration')
  exact ⟨keyword, hkeyword, hcompile⟩

theorem mem_of_mem (hk : Arranged library options tags declared keywords)
    (hl : Arranged library options tags declared keywords') {k : Keyword} (h : k ∈ keywords) :
    k ∈ keywords' := by
  obtain ⟨declaration, hdeclaration, hcompile⟩ := hk.compiled k h
  have hposition : k.position ∈ keywords'.map (·.position) :=
    hl.positions.mem_iff.2 (hk.positions.mem_iff.1 (List.mem_map_of_mem h))
  obtain ⟨l, hmem, hsame⟩ := List.mem_map.1 hposition
  obtain ⟨declaration', hdeclaration', hcompile'⟩ := hl.compiled l hmem
  have hsame : l.position = k.position := hsame
  rw [hsame] at hdeclaration' hcompile'
  obtain rfl : declaration = declaration' :=
    Option.some.inj (hdeclaration.symm.trans hdeclaration')
  obtain rfl : k = l := Except.ok.inj (hcompile.symm.trans hcompile')
  exact hmem

/-- **There is only one arrangement** of some declared keywords. -/
theorem eq (hk : Arranged library options tags declared keywords)
    (hl : Arranged library options tags declared keywords') : keywords = keywords' := by
  have hnodup {ks : List Keyword} (h : Arranged library options tags declared ks) : ks.Nodup :=
    .of_map _ (h.positions.nodup_iff.2 List.nodup_range)
  have hperm : keywords.Perm keywords' :=
    (List.perm_ext_iff_of_nodup (hnodup hk) (hnodup hl)).2
      fun k ↦ ⟨mem_of_mem hk hl, mem_of_mem hl hk⟩
  refine hperm.eq_of_pairwise (fun k l _ _ hkl hlk ↦ ?_) hk.sorted hl.sorted
  omega

end Arranged

/-- Reading the declared keywords arranges them. -/
theorem arranged_of_readKeywords (h : members.get? "keywords" = some (.object declared))
    (hread : readKeywords library options tags members = .ok keywords) :
    Arranged library options tags declared keywords := by
  obtain ⟨compiled, hcompiled, rfl⟩ := (readKeywords_eq_ok_iff h).1 hread
  have hpositions := map_position_of_forall₂ hcompiled
  have hperm := List.mergeSort_perm compiled Keyword.precedes
  have hplaces : ((compiled.mergeSort Keyword.precedes).map (·.position)).Perm
      (List.range declared.length) := hpositions ▸ hperm.map _
  refine ⟨hplaces, fun k hk ↦ ?_, ?_⟩
  · obtain ⟨i, hi, rfl⟩ := List.mem_iff_getElem.1 (hperm.mem_iff.1 hk)
    obtain ⟨hlength, hitem⟩ := List.forall₂_iff_get.1 hcompiled
    have hk := hitem i (hlength ▸ hi) hi
    simp only [List.get_eq_getElem, List.getElem_zipIdx, Nat.zero_add] at hk
    rw [(Keyword.compile_unplaced hk).2]
    exact ⟨_, List.getElem?_eq_getElem _, hk⟩
  · -- positions differ, so keywords of equal rank are in strict order
    have hsorted := List.pairwise_mergeSort Keyword.precedes_trans Keyword.precedes_total compiled
    have hdistinct := List.pairwise_map.1 (hplaces.nodup_iff.2 List.nodup_range)
    refine hsorted.imp₂ (fun k l hkl hne ↦ ?_) hdistinct
    have hkl := Keyword.precedes_iff.1 hkl
    omega

/-! ## Other orders of declaration -/

/-- Two lists of declarations differ at most in the order of declarations of different rank. -/
def Reordered (declared declared' : Members) : Prop :=
  ∀ rank, declared.filter (Keyword.declaredRank ·.1 = rank) =
    declared'.filter (Keyword.declaredRank ·.1 = rank)

theorem Reordered.mem_iff (h : Reordered declared declared') (declaration : String × Json) :
    declaration ∈ declared ↔ declaration ∈ declared' :=
  mem_iff_of_filter_eq h declaration

/-- Keywords without their positions, taken rank by rank, follow their declarations. -/
theorem filter_rank_of_readKeywords (h : members.get? "keywords" = some (.object declared))
    (hread : readKeywords library options tags members = .ok keywords) (rank : Int) :
    List.Forall₂ (fun declaration k ↦
        Keyword.compile library options tags declaration.1 declaration.2 0 = .ok k)
      (declared.filter (Keyword.declaredRank ·.1 = rank))
      ((keywords.map Keyword.unplaced).filter (·.rank = rank)) := by
  obtain ⟨compiled, hcompiled, rfl⟩ := (readKeywords_eq_ok_iff h).1 hread
  have hunplaced : List.Forall₂ (fun declaration k ↦
      Keyword.compile library options tags declaration.1 declaration.2 0 = .ok k)
      declared (compiled.map Keyword.unplaced) := by
    have := hcompiled.imp fun _ _ hk ↦ (Keyword.compile_unplaced hk).1
    rw [← List.zipIdx_map_fst 0 declared, List.forall₂_map_left_iff, List.forall₂_map_right_iff]
    exact this
  have hplaced : compiled.Pairwise fun k l ↦ k.position < l.position := by
    refine List.pairwise_map.1 ?_
    rw [map_position_of_forall₂ hcompiled]
    exact List.pairwise_lt_range
  have hfilter : ((compiled.mergeSort Keyword.precedes).map Keyword.unplaced).filter
      (·.rank = rank) = (compiled.map Keyword.unplaced).filter (·.rank = rank) := by
    rw [List.filter_map, List.filter_map]
    exact congrArg _ (filter_mergeSort_precedes hplaced rank)
  rw [hfilter]
  refine List.rel_filter (fun declaration k hk ↦ ?_) hunplaced
  simp [Keyword.rank_of_compile hk]

/-- The keywords that are read are in descending rank. -/
theorem pairwise_rank_of_readKeywords (h : members.get? "keywords" = some (.object declared))
    (hread : readKeywords library options tags members = .ok keywords) :
    (keywords.map Keyword.unplaced).Pairwise fun k l ↦ l.rank ≤ k.rank := by
  refine List.pairwise_map.2 ((arranged_of_readKeywords h hread).sorted.imp ?_)
  rintro k l (hlt | ⟨heq, -⟩)
  · exact hlt.le
  · exact heq.ge

/-- A declaration compiles to one keyword only. -/
theorem eq_of_forall₂_compile {compiled compiled' : List Keyword}
    (h : List.Forall₂ (fun declaration k ↦
      Keyword.compile library options tags declaration.1 declaration.2 0 = .ok k) declared compiled)
    (h' : List.Forall₂ (fun declaration k ↦
      Keyword.compile library options tags declaration.1 declaration.2 0 = .ok k)
        declared compiled') :
    compiled = compiled' :=
  List.right_unique_forall₂' (fun _ _ _ hk hl ↦ Except.ok.inj (hk.symm.trans hl)) h h'

/-- **Declarations may be moved past declarations of another rank.** The keywords can still be
read if they could before, and except for their positions they are the same in the same order. -/
theorem readKeywords_of_reordered (h : members.get? "keywords" = some (.object declared))
    (h' : members'.get? "keywords" = some (.object declared'))
    (hreordered : Reordered declared declared') :
    ((∃ keywords, readKeywords library options tags members = .ok keywords) ↔
      ∃ keywords', readKeywords library options tags members' = .ok keywords') ∧
    ∀ keywords keywords', readKeywords library options tags members = .ok keywords →
      readKeywords library options tags members' = .ok keywords' →
        keywords.map Keyword.unplaced = keywords'.map Keyword.unplaced := by
  constructor
  · rw [exists_readKeywords_iff h, exists_readKeywords_iff h']
    simp only [hreordered.mem_iff]
  · intro keywords keywords' hread hread'
    refine eq_of_filter_rank (pairwise_rank_of_readKeywords h hread)
      (pairwise_rank_of_readKeywords h' hread') fun rank ↦ ?_
    have hfirst := filter_rank_of_readKeywords h hread rank
    have hsecond := filter_rank_of_readKeywords h' hread' rank
    rw [hreordered rank] at hfirst
    exact eq_of_forall₂_compile hfirst hsecond

/-! ## One declaration more -/

/-- **A declaration more adds its keyword at one place** and leaves all others as they are, but for
the positions that they remember. -/
theorem exists_eraseIdx_of_readKeywords {before after : Members} {name : String} {body : Json}
    {keyword : Keyword} (h : members.get? "keywords" = some (.object (before ++ after)))
    (h' : members'.get? "keywords" = some (.object (before ++ (name, body) :: after)))
    (hread : readKeywords library options tags members = .ok keywords)
    (hread' : readKeywords library options tags members' = .ok keywords')
    (hkeyword : Keyword.compile library options tags name body 0 = .ok keyword) :
    ∃ place, (keywords'.map Keyword.unplaced)[place]? = some keyword ∧
      (keywords'.map Keyword.unplaced).eraseIdx place = keywords.map Keyword.unplaced := by
  have hrank := Keyword.rank_of_compile hkeyword
  -- among the keywords of its rank, the new one comes behind those that are declared before it
  have hsame := filter_rank_of_readKeywords h hread keyword.rank
  have hsame' := filter_rank_of_readKeywords h' hread' keyword.rank
  rw [List.filter_append] at hsame hsame'
  rw [List.filter_cons_of_pos (by simp [hrank])] at hsame'
  have hearly := List.forall₂_take
    (before.filter (Keyword.declaredRank ·.1 = keyword.rank)).length hsame
  have hlate := List.forall₂_drop
    (before.filter (Keyword.declaredRank ·.1 = keyword.rank)).length hsame
  rw [List.take_left] at hearly
  rw [List.drop_left] at hlate
  have hinsert := eq_of_forall₂_compile hsame' (List.rel_append hearly (.cons hkeyword hlate))
  obtain ⟨first, second, hsplit, hfirst, hsecond⟩ := List.filter_eq_append_iff.1 hinsert
  obtain ⟨between, back, rfl, hbetween, -, hback⟩ := List.filter_eq_cons_iff.1 hsecond
  have hnew : keywords'.map Keyword.unplaced = (first ++ between) ++ keyword :: back := by
    rw [hsplit, List.append_assoc]
  have herase : (keywords'.map Keyword.unplaced).eraseIdx (first ++ between).length =
      first ++ between ++ back := by
    rw [hnew, List.eraseIdx_append_of_length_le (le_refl _), Nat.sub_self, List.eraseIdx_cons_zero]
  refine ⟨(first ++ between).length, by rw [hnew]; simp, ?_⟩
  refine eq_of_filter_rank
    ((pairwise_rank_of_readKeywords h' hread').sublist (List.eraseIdx_sublist ..))
    (pairwise_rank_of_readKeywords h hread) fun rank ↦ ?_
  rw [herase]
  by_cases hother : keyword.rank = rank
  · subst hother
    have hnone : between.filter (·.rank = keyword.rank) = [] := List.filter_eq_nil_iff.2 hbetween
    rw [List.filter_append, List.filter_append, hnone, hfirst, hback, List.append_nil,
      List.take_append_drop]
  · have hdeclared : (before ++ (name, body) :: after).filter (Keyword.declaredRank ·.1 = rank) =
        (before ++ after).filter (Keyword.declaredRank ·.1 = rank) := by
      rw [List.filter_append, List.filter_cons_of_neg (by simpa [← hrank] using hother),
        ← List.filter_append]
    have hkeywords : (keywords'.map Keyword.unplaced).filter (·.rank = rank) =
        (first ++ between ++ back).filter (·.rank = rank) := by
      rw [hnew, List.filter_append, List.filter_cons_of_neg (by simpa using hother),
        ← List.filter_append]
    have hothers := filter_rank_of_readKeywords h' hread' rank
    rw [hdeclared, hkeywords] at hothers
    exact eq_of_forall₂_compile hothers (filter_rank_of_readKeywords h hread rank)

end Script

end Dialogue
