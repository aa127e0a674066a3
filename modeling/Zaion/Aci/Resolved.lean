import Zaion.Aci.Pairing

/-! When a merge is free of conflicts, and what it puts in the place of a chunk. -/
namespace Zaion.Aci.AstMergeResolver

variable {shortHash : String → String} {syntaxCheck : String → String → SyntaxCheckResult}
  {base language : String} {branches : List (String × String)}

/-- No branch deletes the chunk, and those that modify it agree. -/
structure Settled (decisions : List (String × AstChange)) : Prop where
  kept : ∀ d ∈ decisions, d.2.deletes = false
  agree : ∀ d ∈ decisions, ∀ e ∈ decisions, ∀ v w, d.2.modification? = some v → e.2.modification? = some w → v.hash = w.hash

/-- The text a settled chunk comes to. -/
def Outcome (base : AstChunk) (decisions : List (String × AstChange)) (text : String) : Prop :=
  ((∀ d ∈ decisions, d.2.modification? = none) ∧ text = base.text) ∨
    ∃ d ∈ decisions, ∃ v, d.2.modification? = some v ∧ text = v.text

theorem resolve_spec (totalBranches : Nat) (chunk : AstChunk) (decisions : List (String × AstChange)) :
    ((resolve totalBranches chunk decisions).2 = none ↔ Settled decisions) ∧
      (Settled decisions → Outcome chunk decisions (resolve totalBranches chunk decisions).1) := by
  have modified : ∀ v, v ∈ decisions.filterMap (fun d => d.2.modification?.map (d.1, ·)) ↔
      ∃ d ∈ decisions, d.1 = v.1 ∧ d.2.modification? = some v.2 := by
    intro v
    rw [List.mem_filterMap]
    refine exists_congr fun d => and_congr_right fun _ => ?_
    cases d.2.modification? <;> simp [Prod.ext_iff]
  have deleted : (decisions.filter fun d => d.2.deletes).map Prod.fst = [] ↔ ∀ d ∈ decisions, d.2.deletes = false := by
    rw [List.map_eq_nil_iff,List.filter_eq_nil_iff]
    simp only [Bool.not_eq_true]
  unfold resolve
  simp only
  generalize decisions.filterMap (fun d => d.2.modification?.map (d.1, ·)) = modifications at modified ⊢
  generalize (decisions.filter fun d => d.2.deletes).map Prod.fst = deletions at deleted ⊢
  cases modifications with
  | nil =>
    have none : ∀ d ∈ decisions, d.2.modification? = none := by
      intro d member
      cases found : d.2.modification? with
      | none => rfl
      | some v => exact absurd ((modified (d.1, v)).mpr ⟨d, member, rfl, found⟩) List.not_mem_nil
    have agree : ∀ d ∈ decisions, ∀ e ∈ decisions, ∀ v w, d.2.modification? = some v → e.2.modification? = some w →
        v.hash = w.hash := by
      intro d member _ _ v _ found
      rw [none d member] at found
      cases found
    cases deletions with
    | nil => exact ⟨⟨fun _ => ⟨deleted.mp rfl, agree⟩, fun _ => rfl⟩, fun _ => .inl ⟨none, rfl⟩⟩
    | cons first rest =>
      have touched : ¬Settled decisions := fun settled => absurd (deleted.mpr settled.kept) (List.cons_ne_nil _ _)
      exact ⟨⟨fun absent => (by cases absent), fun settled => absurd settled touched⟩, fun settled => absurd settled touched⟩
  | cons first rest =>
    obtain ⟨d, member, _, found⟩ := (modified first).mp List.mem_cons_self
    have chosen : Outcome chunk decisions first.2.text := .inr ⟨d, member, first.2, found, rfl⟩
    have settled : (∀ v ∈ first :: rest, v.2.hash = first.2.hash) ∧ deletions = [] ↔ Settled decisions := by
      constructor
      · rintro ⟨same, none⟩
        refine ⟨deleted.mp none, fun d member e other v w found found' => ?_⟩
        exact (same _ ((modified (d.1, v)).mpr ⟨d, member, rfl, found⟩)).trans
          (same _ ((modified (e.1, w)).mpr ⟨e, other, rfl, found'⟩)).symm
      · intro settled
        refine ⟨fun v inside => ?_, deleted.mpr settled.kept⟩
        obtain ⟨e, other, _, found'⟩ := (modified v).mp inside
        exact settled.agree e other d member _ _ found' found
    rw [if_neg (by simp)]
    dsimp only
    split
    · rename_i single
      obtain ⟨none, rfl⟩ := single
      exact ⟨⟨fun _ => settled.mp ⟨by simp, none⟩, fun _ => rfl⟩, fun _ => chosen⟩
    split
    · rename_i more single
      exact absurd ⟨single.2.1, single.1⟩ more
    split
    · rename_i same
      exact ⟨⟨fun _ => settled.mp same, fun _ => rfl⟩, fun _ => chosen⟩
    · rename_i differ
      have open_ : ¬Settled decisions := fun holds => differ (settled.mpr holds)
      exact ⟨⟨fun absent => (by cases absent), fun holds => absurd holds open_⟩, fun holds => absurd holds open_⟩

/-- What the branches say about the chunks with a hash. -/
def decisionsFor (shortHash : String → String) (base : String) (branches : List (String × String)) (hash : String) :
    List (String × AstChange) :=
  (allChanges shortHash base branches).filter fun d => decide (d.2.decides = some hash)

theorem mem_decisionsFor {hash : String} {d : String × AstChange} : d ∈ decisionsFor shortHash base branches hash ↔
    (∃ branch ∈ branches, d.1 = branch.1 ∧ d.2 ∈ AstDiff.diff shortHash base branch.2) ∧ d.2.decides = some hash := by
  rw [decisionsFor,List.mem_filter,decide_eq_true_eq,allChanges,List.mem_flatMap]
  refine and_congr_left fun _ => exists_congr fun branch => and_congr_right fun _ => ?_
  rw [List.mem_map]
  exact ⟨fun ⟨change, member, same⟩ => same ▸ ⟨rfl, member⟩, fun ⟨first, member⟩ => ⟨d.2, member, Prod.ext first.symm rfl⟩⟩

theorem modification_mem {hash : String} {v : AstChunk} :
    (∃ d ∈ decisionsFor shortHash base branches hash, d.2.modification? = some v) ↔
      ∃ branch ∈ branches, ∃ c, .modified c v ∈ AstDiff.diff shortHash base branch.2 ∧ c.hash = hash := by
  constructor
  · rintro ⟨d, decided, found⟩
    obtain ⟨⟨branch, inside, _, change⟩, filed⟩ := mem_decisionsFor.mp decided
    cases kind : d.2 with
    | modified c w =>
      rw [kind] at found filed change
      obtain rfl := Option.some.inj found
      exact ⟨branch, inside, c, change, Option.some.inj filed⟩
    | unchanged _ => rw [kind] at found; cases found
    | added _ => rw [kind] at found; cases found
    | deleted _ => rw [kind] at found; cases found
  · rintro ⟨branch, inside, c, change, rfl⟩
    exact ⟨(branch.1, .modified c v), mem_decisionsFor.mpr ⟨⟨branch, inside, rfl, change⟩, rfl⟩, rfl⟩

theorem deletion_mem {hash : String} : (∃ d ∈ decisionsFor shortHash base branches hash, d.2.deletes = true) ↔
    ∃ branch ∈ branches, ∃ c, .deleted c ∈ AstDiff.diff shortHash base branch.2 ∧ c.hash = hash := by
  constructor
  · rintro ⟨d, decided, found⟩
    obtain ⟨⟨branch, inside, _, change⟩, filed⟩ := mem_decisionsFor.mp decided
    cases kind : d.2 with
    | deleted c =>
      rw [kind] at filed change
      exact ⟨branch, inside, c, change, Option.some.inj filed⟩
    | unchanged _ => rw [kind] at found; cases found
    | added _ => rw [kind] at found; cases found
    | modified _ _ => rw [kind] at found; cases found
  · rintro ⟨branch, inside, c, change, rfl⟩
    exact ⟨(branch.1, .deleted c), mem_decisionsFor.mpr ⟨⟨branch, inside, rfl, change⟩, rfl⟩, rfl⟩

theorem conflicts_eq_nil : (merge shortHash syntaxCheck base branches language).conflicts = [] ↔
    ∀ chunk ∈ chunkSource shortHash base, Settled (decisionsFor shortHash base branches chunk.hash) := by
  simp only [merge,List.filterMap_map,List.filterMap_eq_nil_iff]
  exact forall₂_congr fun chunk _ => (resolve_spec _ _ _).1

/-- A merge without conflicts is the outcomes of the base's chunks and the additions. -/
theorem merged_of_settled (clean : (merge shortHash syntaxCheck base branches language).conflicts = []) :
    ∃ texts : List String,
      List.Forall₂ (fun chunk text => Outcome chunk (decisionsFor shortHash base branches chunk.hash) text)
        (chunkSource shortHash base) texts ∧
      (merge shortHash syntaxCheck base branches language).merged =
        String.join (texts ++ dedup [] ((allChanges shortHash base branches).filterMap fun d => d.2.addition?)) ∧
      (merge shortHash syntaxCheck base branches language).autoResolved = (chunkSource shortHash base).length := by
  have settled := conflicts_eq_nil.mp clean
  refine ⟨(chunkSource shortHash base).map fun chunk =>
    (resolve branches.length chunk (decisionsFor shortHash base branches chunk.hash)).1, ?_, ?_, ?_⟩
  · rw [List.forall₂_map_right_iff,List.forall₂_same]
    exact fun chunk member => (resolve_spec _ _ _).2 (settled chunk member)
  · simp only [merge,List.map_map]
    rfl
  · simp only [merge,List.countP_map]
    rw [List.countP_eq_length]
    intro chunk member
    exact Option.isNone_iff_eq_none.mpr ((resolve_spec _ _ _).1.mpr (settled chunk member))

end Zaion.Aci.AstMergeResolver
