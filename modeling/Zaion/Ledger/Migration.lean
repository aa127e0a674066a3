import Zaion.Lib.Grouped
import Zaion.Ledger.Schema
import Zaion.Ledger.Tamper

/-! The three walks over the chain columns agree: `rebuild_event_chain_metadata` writes what
`validate_chain_metadata` and `verify_chain` accept, and these two accept the same tables. -/
namespace Zaion.Ledger

open Lib

section

variable {host : Host} {p : String} {rows : List EventRow} {prev active : String} {seq : Int} {verified : Nat}

/-! The validator and the verifier -/

theorem validateRows_iff : validateRows host rows active seq prev = .ok () ↔
    GroupChained EventRow.principalId (chain host) genesisHash active seq prev rows ∧ ∀ row ∈ rows, row.seqNum ≠ i64Max := by
  induction rows generalizing active seq prev with
  | nil => simp [validateRows,GroupChained]
  | cons row rest ih =>
    have position : (if row.principalId ≠ active then ((0 : Int), genesisHash) else (seq, prev)) =
        expected EventRow.principalId genesisHash active seq prev row := by
      simp only [expected,ite_not]
    simp only [validateRows,position,bind_ok_iff,ensure_ok_iff,ih,GroupChained,List.forall_mem_cons,chain]
    constructor
    · rintro ⟨_, ⟨seq_eq, prev_eq⟩, _, inside, linked, later⟩
      exact ⟨⟨seq_eq, prev_eq, linked⟩, seq_eq ▸ inside, later⟩
    · rintro ⟨⟨seq_eq, prev_eq, linked⟩, inside, later⟩
      exact ⟨(), ⟨seq_eq, prev_eq⟩, (), seq_eq ▸ inside, linked, later⟩

theorem verifyRows_iff : (∃ total, verifyRows host p rows prev seq verified = .ok (total, none)) ↔
    (chain host p).Chained prev seq rows ∧ ∀ row ∈ rows, row.seqNum ≠ i64Max := by
  induction rows generalizing prev seq verified with
  | nil => simp [verifyRows,Link.Chained]
  | cons row rest ih =>
    rw [verifyRows,Link.Chained,List.forall_mem_cons]
    simp only [chain]
    split
    · rename_i broken
      constructor
      · rintro ⟨_, stopped⟩
        cases stopped
      · rintro ⟨⟨seq_eq, prev_eq, _⟩, _⟩
        simp [seq_eq,prev_eq] at broken
    · rename_i linked
      obtain ⟨seq_eq, prev_eq⟩ : row.seqNum = seq ∧ row.prevHash = prev := by simpa using linked
      split
      · rename_i last
        simp [seq_eq,last]
      · rename_i inside
        rw [ih]
        simp only [seq_eq,prev_eq,true_and]
        constructor
        · exact fun walked => ⟨walked.1, inside, walked.2⟩
        · exact fun walked => ⟨walked.1, walked.2.2⟩

theorem mem_bySeq {row : EventRow} : row ∈ bySeq (rowsOf p rows) ↔ row ∈ rows ∧ row.principalId = p := by
  simp only [bySeq,List.mem_mergeSort,rowsOf,List.mem_filter,decide_eq_true_eq]

theorem accepted_iff : Accepted host p rows ↔ (chain host p).Chained genesisHash 0 (bySeq (rowsOf p rows)) ∧
    ∀ row ∈ rows, row.principalId = p → row.seqNum ≠ i64Max := by
  have walked := @verifyRows_iff host p (bySeq (rowsOf p rows)) genesisHash 0 0
  simp only [mem_bySeq,and_imp] at walked
  rw [← walked]
  constructor
  · rintro ⟨_, _, ok⟩
    simp only [verifyChain,bind_ok_iff] at ok
    obtain ⟨⟨total, broken⟩, ok, result⟩ := ok
    cases result
    exact ⟨total, ok⟩
  · rintro ⟨total, ok⟩
    exact ⟨(bySeq (rowsOf p rows)).length, total, by rw [verifyChain,ok]; rfl⟩

/-- The rows of a principal in the order of the validator and in that of the verifier. -/
theorem chained_byPrincipal : (chain host p).Chained genesisHash 0 (ofGroup EventRow.principalId p (byPrincipal rows)) ↔
    (chain host p).Chained genesisHash 0 (bySeq (rowsOf p rows)) := by
  have perm : (rowsOf p rows).Perm (ofGroup EventRow.principalId p (byPrincipal rows)) :=
    ((sortBy_perm _ rows).filter _).symm
  constructor
  · intro linked
    rwa [bySeq,mergeSort_of_perm EventRow.seqNum perm ((chain host p).chained_increasing linked)]
  · intro linked
    have sorted : (ofGroup EventRow.principalId p (byPrincipal rows)).Pairwise (fun a b => a.seqNum ≤ b.seqNum) := by
      rw [ofGroup,List.pairwise_filter]
      refine (sortBy_pairwise _ rows).imp ?_
      intro a b below own_a own_b
      have own : a.principalId = b.principalId := (of_decide_eq_true own_a).trans (of_decide_eq_true own_b).symm
      rcases Prod.Lex.toLex_le_toLex.mp below with less | ⟨_, inner⟩
      · exact absurd own less.ne
      · rcases Prod.Lex.toLex_le_toLex.mp inner with less | ⟨same, _⟩
        · exact le_of_lt less
        · exact le_of_eq same
    have same : bySeq (ofGroup EventRow.principalId p (byPrincipal rows)) = ofGroup EventRow.principalId p (byPrincipal rows) :=
      List.mergeSort_of_pairwise (sorted.imp (fun below => decide_eq_true below))
    have ordered := (List.mergeSort_perm (rowsOf p rows) (fun a b => decide (a.seqNum ≤ b.seqNum))).symm
    rw [← same,bySeq,mergeSort_of_perm EventRow.seqNum (perm.symm.trans ordered) ((chain host p).chained_increasing linked)]
    exact linked

theorem validate_iff : validateChainMetadata host rows = .ok () ↔ ∀ p, Accepted host p rows := by
  have sorted : (byPrincipal rows).Pairwise (fun a b => a.principalId ≤ b.principalId) := by
    refine (sortBy_pairwise _ rows).imp ?_
    intro a b below
    exact Prod.Lex.monotone_fst _ _ below
  have members : ∀ row, row ∈ byPrincipal rows ↔ row ∈ rows := fun row => (sortBy_perm _ rows).mem_iff
  rw [validateChainMetadata,validateRows_iff,groupChained_all sorted]
  simp only [chained_byPrincipal,accepted_iff,members]
  constructor
  · exact fun valid p => ⟨valid.1 p, fun row inside _ => valid.2 row inside⟩
  · exact fun all => ⟨fun p => (all p).1, fun row inside => (all row.principalId).2 row inside rfl⟩

/-- A principal without events has nothing to break. -/
theorem accepted_absent (absent : ∀ row ∈ rows, row.principalId ≠ p) : Accepted host p rows := by
  have none : rowsOf p rows = [] := List.filter_eq_nil_iff.mpr fun row inside => by simpa using absent row inside
  rw [accepted_iff,none,show bySeq [] = [] by simp [bySeq]]
  exact ⟨trivial, fun row inside own => absurd own (absent row inside)⟩

end

/-! The rebuild -/

/-- A row without its chain columns. -/
def EventRow.bare (row : EventRow) : EventRow := { row with seqNum := 0, prevHash := genesisHash }

/-- A row at another place of the chain. -/
def placed (row : EventRow × Nat) (seqNum : Int) (prevHash : String) : EventRow × Nat :=
  ({ row.1 with seqNum := seqNum, prevHash := prevHash }, row.2)

def owner (row : EventRow × Nat) : String := row.1.principalId

def rowChain (host : Host) (p : String) : Link (EventRow × Nat) String := (chain host p).comap Prod.fst

section

variable {host : Host} {indexed : Bool} {rows table : List EventRow} {todo : List (EventRow × Nat)} {active prev : String}
  {seq : Int} {row : EventRow} {id : Nat}

theorem placed_bare (row : EventRow × Nat) : (placed row seq prev).1.bare = row.1.bare := rfl

theorem update_ok (single : indexed = true → (table.map EventRow.principalId).Nodup) (found : table[id]? = some row) :
    updateChainColumns indexed table id seq prev = .ok (table.set id (placed (row, id) seq prev).1) := by
  obtain ⟨inside, rfl⟩ := List.getElem?_eq_some_iff.mp found
  have free : indexed = true → ∀ other ∈ table.eraseIdx id,
      ¬ (other.principalId = table[id].principalId ∧ other.seqNum = seq) := by
    rintro unique other member ⟨same, _⟩
    obtain ⟨i, inside_i, apart, rfl⟩ := List.mem_eraseIdx_iff_getElem.mp member
    have distinct := List.pairwise_iff_getElem.mp (List.pairwise_map.mp (single unique))
    rcases lt_or_gt_of_ne apart with less | more
    · exact distinct i id inside_i inside less same
    · exact distinct id i inside inside_i more same.symm
  rw [updateChainColumns,found]
  simp only [ensure_of free,ok_bind]
  rfl

theorem map_set {α β : Type} {f : α → β} {l : List α} {a b : α} (found : l[id]? = some a) (kept : f b = f a) :
    (l.set id b).map f = l.map f := by
  apply List.ext_getElem?
  intro i
  rw [List.getElem?_map,List.getElem?_map]
  by_cases here : id = i
  · subst here
    rw [List.getElem?_set_self (List.getElem?_eq_some_iff.mp found).1,found]
    simp only [Option.map_some,kept]
  · rw [List.getElem?_set_ne here]

/-- The loop gives every row left its place and touches nothing else. -/
theorem rebuildRows_spec (ids : (todo.map Prod.snd).Nodup) (untouched : ∀ r ∈ todo, table[r.2]? = some r.1)
    (single : indexed = true → (table.map EventRow.principalId).Nodup) (start : 0 ≤ seq) (room : seq + todo.length ≤ i64Max) :
    ∃ table', rebuildRows host indexed (todo.map ChainMigrationRow.of) active seq prev table = .ok table' ∧
      table'.map EventRow.bare = table.map EventRow.bare ∧
      (∀ r ∈ renumber owner (rowChain host) genesisHash placed active seq prev todo, table'[r.2]? = some r.1) ∧
      ∀ i ∉ todo.map Prod.snd, table'[i]? = table[i]? := by
  induction todo generalizing active seq prev table with
  | nil => exact ⟨table, rfl, rfl, by simp [renumber], fun _ _ => rfl⟩
  | cons r rest ih =>
    obtain ⟨row, id⟩ := r
    obtain ⟨fresh, ids⟩ := List.nodup_cons.mp ids
    have found : table[id]? = some row := untouched (row, id) (by simp)
    have position : (if (ChainMigrationRow.of (row, id)).principalId ≠ active then ((0 : Int), genesisHash) else (seq, prev)) =
        expected owner genesisHash active seq prev (row, id) := by
      by_cases same : row.principalId = active <;> simp [expected,owner,ChainMigrationRow.of,same]
    generalize at_eq : expected owner genesisHash active seq prev (row, id) = at_ at position
    have bounds : 0 ≤ at_.1 ∧ at_.1 ≤ seq := by
      rw [← at_eq,expected]
      split <;> simp [start]
    simp only [List.length_cons,Nat.cast_add,Nat.cast_one] at room
    have inside : at_.1 ≠ i64Max := by omega
    have later : ∀ r ∈ rest, (table.set id (placed (row, id) at_.1 at_.2).1)[r.2]? = some r.1 := by
      intro r member
      have apart : id ≠ r.2 := fun same => fresh (List.mem_map.mpr ⟨r, member, same.symm⟩)
      rw [List.getElem?_set_ne apart]
      exact untouched r (by simp [member])
    have single' : indexed = true →
        ((table.set id (placed (row, id) at_.1 at_.2).1).map EventRow.principalId).Nodup := by
      have same : (table.set id (placed (row, id) at_.1 at_.2).1).map EventRow.principalId =
          table.map EventRow.principalId := map_set found rfl
      rwa [same]
    obtain ⟨table', ran, bare, written, kept⟩ := @ih _ row.principalId
      (rowHash host row.principalId (placed (row, id) at_.1 at_.2).1) (at_.1 + 1) ids later single' (by omega) (by omega)
    refine ⟨table', ?_, bare.trans (map_set found rfl), ?_, ?_⟩
    · rw [List.map_cons,rebuildRows]
      simp only [position]
      rw [show (ChainMigrationRow.of (row, id)).rowId = id from rfl,update_ok single found]
      simp only [ensure_of inside,ok_bind]
      exact ran
    · intro r member
      rw [renumber] at member
      simp only [at_eq] at member
      rcases List.mem_cons.mp member with rfl | later
      · rw [show (placed (row, id) at_.1 at_.2).2 = id from rfl,kept id fresh]
        exact List.getElem?_set_self (List.getElem?_eq_some_iff.mp found).1
      · exact written r later
    · intro i outside
      simp only [List.map_cons,List.mem_cons,not_or] at outside
      rw [kept i outside.2,List.getElem?_set_ne (Ne.symm outside.1)]

theorem byChain_perm (rows : List EventRow) : (byChain rows).Perm rows.zipIdx := sortBy_perm _ _

theorem byChain_ids (rows : List EventRow) : ((byChain rows).map Prod.snd).Perm (List.range rows.length) := by
  have perm := (byChain_perm rows).map Prod.snd
  rwa [List.zipIdx_map_snd,← List.range_eq_range'] at perm

/-- In the order of groups, and in the order of row ids within one. -/
def Ordered (rows : List (EventRow × Nat)) : Prop :=
  rows.Pairwise (fun a b => owner a ≤ owner b ∧ (owner a = owner b → a.2 < b.2))

theorem byChain_ordered (defaults : chainMetadataIsAllDefaults rows) : Ordered (byChain rows) := by
  have ids : ((byChain rows).map Prod.snd).Nodup := (byChain_ids rows).nodup_iff.mpr List.nodup_range
  have sorted := (sortBy_pairwise (fun row : EventRow × Nat => toLex (row.1.principalId, toLex (row.1.seqNum, row.2)))
    rows.zipIdx).and (List.pairwise_map.mp ids)
  refine sorted.imp_of_mem ?_
  rintro a b inside_a inside_b ⟨below, apart⟩
  have position : ∀ r ∈ byChain rows, r.1.seqNum = 0 := fun r inside =>
    (defaults r.1 (List.fst_mem_of_mem_zipIdx ((byChain_perm rows).mem_iff.mp inside))).1
  refine ⟨Prod.Lex.monotone_fst _ _ below, fun same => ?_⟩
  rcases Prod.Lex.toLex_le_toLex.mp below with less | ⟨_, inner⟩
  · exact absurd same less.ne
  · rcases Prod.Lex.toLex_le_toLex.mp inner with less | ⟨_, ids⟩
    · rw [position a inside_a,position b inside_b] at less
      exact absurd less (lt_irrefl _)
    · exact lt_of_le_of_ne ids apart

theorem zipIdx_ordered (p : String) (table : List EventRow) :
    (ofGroup owner p table.zipIdx).Pairwise (fun a b => a.2 < b.2) := by
  refine List.Pairwise.filter _ (List.pairwise_map.mp ?_)
  rw [List.zipIdx_map_snd,← List.range_eq_range']
  exact List.pairwise_lt_range

theorem ofGroup_zipIdx (p : String) (table : List EventRow) : (ofGroup owner p table.zipIdx).map Prod.fst = rowsOf p table := by
  have back : (table.zipIdx).map Prod.fst = table := List.zipIdx_map_fst _ _
  conv_rhs => rw [← back]
  rw [rowsOf,List.filter_map]
  rfl

/-- The rows with the places the rebuild gives them. -/
def rebuilt (host : Host) (rows : List EventRow) : List (EventRow × Nat) :=
  renumber owner (rowChain host) genesisHash placed "" 0 genesisHash (byChain rows)

theorem rebuilt_ids : ((rebuilt host rows).map Prod.snd).Perm (List.range rows.length) := by
  have ids : (rebuilt host rows).map Prod.snd = (byChain rows).map Prod.snd := renumber_map (fun _ _ _ => rfl)
  rw [ids]
  exact byChain_ids rows

theorem rebuilt_ordered (defaults : chainMetadataIsAllDefaults rows) : Ordered (rebuilt host rows) := by
  have tags : (rebuilt host rows).map (fun r => (owner r, r.2)) = (byChain rows).map (fun r => (owner r, r.2)) :=
    renumber_map (fun _ _ _ => rfl)
  have ordered := byChain_ordered defaults
  let tagged (a b : String × Nat) : Prop := a.1 ≤ b.1 ∧ (a.1 = b.1 → a.2 < b.2)
  have pairs : ((byChain rows).map (fun r => (owner r, r.2))).Pairwise tagged := List.pairwise_map.mpr ordered
  rw [← tags] at pairs
  exact List.pairwise_map.mp pairs

theorem rebuilt_chained (defaults : chainMetadataIsAllDefaults rows) (p : String) :
    (rowChain host p).Chained genesisHash 0 (ofGroup owner p (rebuilt host rows)) :=
  (groupChained_all ((rebuilt_ordered defaults).imp And.left)).mp
    (renumber_chained (fun _ _ _ => rfl) (fun _ _ _ _ => rfl) (fun _ _ _ _ => rfl)) p

/-- A table that holds every rebuilt row at its row id holds, for each principal, its rebuilt rows. -/
theorem rebuilt_rowsOf (defaults : chainMetadataIsAllDefaults rows) (length : table.length = rows.length)
    (written : ∀ r ∈ rebuilt host rows, table[r.2]? = some r.1) (p : String) :
    (ofGroup owner p (rebuilt host rows)).map Prod.fst = rowsOf p table := by
  have ids : ((rebuilt host rows).map Prod.snd).Nodup := rebuilt_ids.nodup_iff.mpr List.nodup_range
  have ids' : (table.zipIdx.map Prod.snd).Nodup := by
    rw [List.zipIdx_map_snd,← List.range_eq_range']
    exact List.nodup_range
  have perm : (rebuilt host rows).Perm table.zipIdx := by
    refine (List.perm_ext_iff_of_nodup ids.of_map ids'.of_map).mpr fun r => ?_
    rw [List.mem_zipIdx_iff_getElem?]
    constructor
    · exact written r
    · intro found
      have inside : r.2 ∈ (rebuilt host rows).map Prod.snd := by
        rw [rebuilt_ids.mem_iff,List.mem_range,← length]
        exact (List.getElem?_eq_some_iff.mp found).1
      obtain ⟨other, member, same⟩ := List.mem_map.mp inside
      have own := written other member
      rw [same,found] at own
      rwa [show r = other from Prod.ext (Option.some.inj own) same.symm]
  have increasing : (ofGroup owner p (rebuilt host rows)).Pairwise (fun a b => a.2 < b.2) := by
    rw [ofGroup,List.pairwise_filter]
    refine (rebuilt_ordered defaults).imp ?_
    intro a b ordered own_a own_b
    exact ordered.2 ((of_decide_eq_true own_a).trans (of_decide_eq_true own_b).symm)
  have same : ofGroup owner p (rebuilt host rows) = ofGroup owner p table.zipIdx :=
    List.Perm.eq_of_pairwise (fun a b _ _ less more => absurd less (lt_asymm more)) increasing (zipIdx_ordered p table)
      (perm.filter _)
  rw [same,ofGroup_zipIdx]

/-- What the rebuild makes of a table without chain metadata: chains in the order of row ids. -/
theorem rebuild_chained (defaults : chainMetadataIsAllDefaults rows) (bounded : rows.length ≤ maxRows)
    (positioned : indexed = true → Positioned rows) :
    ∃ rows', rebuildEventChainMetadata host indexed rows = .ok rows' ∧ rows'.map EventRow.bare = rows.map EventRow.bare ∧
      ∀ p, (chain host p).Chained genesisHash 0 (rowsOf p rows') := by
  have ids : ((byChain rows).map Prod.snd).Nodup := (byChain_ids rows).nodup_iff.mpr List.nodup_range
  have untouched : ∀ r ∈ byChain rows, rows[r.2]? = some r.1 := fun r inside =>
    List.mem_zipIdx_iff_getElem?.mp ((byChain_perm rows).mem_iff.mp inside)
  have single : indexed = true → (rows.map EventRow.principalId).Nodup := by
    intro unique
    refine List.pairwise_map.mpr ((List.pairwise_map.mp (positioned unique)).imp_of_mem ?_)
    intro a b inside_a inside_b apart same
    exact apart (Prod.ext same ((defaults a inside_a).1.trans (defaults b inside_b).1.symm))
  have count : (byChain rows).length = rows.length := (byChain_perm rows).length_eq.trans List.length_zipIdx
  have room : (0 : Int) + (byChain rows).length ≤ i64Max := by
    rw [count]; unfold maxRows at bounded; unfold i64Max; omega
  obtain ⟨rows', ran, bare, written, _⟩ := @rebuildRows_spec host indexed rows (byChain rows) "" genesisHash 0
    ids untouched single (le_refl 0) room
  have length : rows'.length = rows.length := by simpa using congrArg List.length bare
  refine ⟨rows', ran, bare, fun p => ?_⟩
  rw [← rebuilt_rowsOf defaults length written p]
  exact (chain host p).chained_comap.mp (rebuilt_chained defaults p)

end

/-! The second pass -/

/-- A database that a pass has left. -/
structure Settled (host : Host) (db : Database) : Prop where
  base : ∀ name ∈ baseObjects, name ∈ db.objects
  later : ∀ name ∈ laterObjects, name ∈ db.objects
  identity : ∃ id, validatedDatabaseInstanceId db = .ok id
  seqNum : db.events.hasSeqNum = true
  prevHash : db.events.hasPrevHash = true
  parentEventId : db.events.hasParentEventId = true
  valid : validateChainMetadata host db.events.rows = .ok ()
  index : sequenceIndexHasExpectedShape db = true
  fts : migrated db ftsRebuildMigration

section

variable {env : SchemaEnv} {db db' : Database} {objects names : List String} {name id : String} {added : Bool}

theorem mem_createIfNotExists : name ∈ names.foldl createIfNotExists objects ↔ name ∈ objects ∨ name ∈ names := by
  induction names generalizing objects with
  | nil => simp
  | cons first rest ih =>
    rw [List.foldl_cons,ih,createIfNotExists,List.mem_cons]
    split
    · rename_i inside
      constructor
      · tauto
      · rintro (known | rfl | later) <;> tauto
    · simp only [List.mem_append,List.mem_singleton,or_assoc]

theorem createIfNotExists_of_mem (present : ∀ name ∈ names, name ∈ objects) :
    names.foldl createIfNotExists objects = objects := by
  induction names with
  | nil => rfl
  | cons first rest ih =>
    rw [List.foldl_cons,createIfNotExists,if_pos (present first (by simp))]
    exact ih fun name later => present name (by simp [later])

theorem createTablesBase_objects (member : name ∈ baseObjects) : name ∈ (createTablesBase db).objects := by
  simp only [createTablesBase,mem_createIfNotExists]
  exact .inr member

/-- The identity is read from its own objects and row, and from its marker. -/
theorem validated_of_same (validated : validatedDatabaseInstanceId db = .ok id)
    (same_objects : db'.identityObjects = db.identityObjects) (same_rows : db'.identityRows = db.identityRows)
    (kept : migrated db databaseIdentityMigration → migrated db' databaseIdentityMigration) :
    validatedDatabaseInstanceId db' = .ok id := by
  have marker : migrated db databaseIdentityMigration := by
    simp only [validatedDatabaseInstanceId,bind_ok_iff,ensure_ok_iff] at validated
    exact validated.choose_spec.1
  rw [← validated]
  simp only [validatedDatabaseInstanceId,ensure_of marker,ensure_of (kept marker),ok_bind,validateDatabaseSchemaObject,
    databaseSchemaObjectSql,extraTrigger,readDatabaseInstanceId,same_objects,same_rows]

theorem identity_ok (ensured : ensureDatabaseInstanceIdentity env db = .ok db') :
    (∃ id, validatedDatabaseInstanceId db' = .ok id) ∧ db'.objects = db.objects ∧ db'.events = db.events ∧
      db'.sequenceIndex = db.sequenceIndex := by
  simp only [ensureDatabaseInstanceIdentity,bind_ok_iff] at ensured
  obtain ⟨middle, made, id, validated, result⟩ := ensured
  cases result
  refine ⟨⟨id, validated⟩, ?_⟩
  unfold installIdentity at made
  split at made
  · split at made
    · cases made
    · cases made; exact ⟨rfl, rfl, rfl⟩
  · split at made
    · cases made; exact ⟨rfl, rfl, rfl⟩
    · cases made

theorem identity_settled (validated : validatedDatabaseInstanceId db = .ok id) :
    ensureDatabaseInstanceIdentity env db = .ok db := by
  have parts := validated
  simp only [validatedDatabaseInstanceId,bind_ok_iff,ensure_ok_iff] at parts
  obtain ⟨_, marker, ⟨⟩, defined, _⟩ := parts
  have present : identityDefinitions.all (fun d => (databaseSchemaObjectSql db d.1 d.2.1).isSome) = true := by
    refine List.all_eq_true.mpr fun d member => ?_
    have checked := checkAll_ok_iff.mp defined d member
    simp only [validateDatabaseSchemaObject,bind_ok_iff,required_ok_iff] at checked
    obtain ⟨sql, found, _⟩ := checked
    simp [found]
  have installed : installIdentity env db = .ok db := by
    simp only [installIdentity,marker,not_true_eq_false,if_false,present,if_true]
  simp only [ensureDatabaseInstanceIdentity,installed,ok_bind,validated]

/-- The steps behind the columns leave objects, identity, markers and columns alone. -/
structure Kept (db db' : Database) : Prop where
  objects : db'.objects = db.objects
  identityObjects : db'.identityObjects = db.identityObjects
  identityRows : db'.identityRows = db.identityRows
  schemaMigrations : db'.schemaMigrations = db.schemaMigrations
  seqNum : db'.events.hasSeqNum = db.events.hasSeqNum
  prevHash : db'.events.hasPrevHash = db.events.hasPrevHash
  parentEventId : db'.events.hasParentEventId = db.events.hasParentEventId

theorem Kept.refl (db : Database) : Kept db db := ⟨rfl, rfl, rfl, rfl, rfl, rfl, rfl⟩

theorem migrate_ok (ran : migrateOrValidateEventChain env db added = .ok db') :
    validateChainMetadata env.host db'.events.rows = .ok () ∧ Kept db db' := by
  unfold migrateOrValidateEventChain at ran
  split at ran
  · rename_i valid
    cases ran
    exact ⟨valid, .refl db⟩
  · split at ran
    · simp only [bind_ok_iff,recordChainMigration] at ran
      obtain ⟨rows, _, _, valid, _, _, _, _, _, _, result⟩ := ran
      cases result
      exact ⟨valid, ⟨rfl, rfl, rfl, rfl, rfl, rfl, rfl⟩⟩
    · cases ran

theorem createSequenceIndex_ok (ran : createSequenceIndex db = .ok db') :
    sequenceIndexHasExpectedShape db' = true ∧ db'.events = db.events ∧ Kept db db' := by
  unfold createSequenceIndex at ran
  split at ran
  · rename_i shaped
    cases ran
    exact ⟨shaped, rfl, .refl db⟩
  · simp only [bind_ok_iff] at ran
    obtain ⟨_, _, result⟩ := ran
    cases result
    exact ⟨by simp [sequenceIndexHasExpectedShape], rfl, ⟨rfl, rfl, rfl, rfl, rfl, rfl, rfl⟩⟩

theorem rebuildFts_kept : Kept { db with schemaMigrations := (rebuildFts env db).schemaMigrations } (rebuildFts env db) := by
  unfold rebuildFts
  split <;> exact ⟨rfl, rfl, rfl, rfl, rfl, rfl, rfl⟩

theorem rebuildFts_rows : (rebuildFts env db).events = db.events ∧ (rebuildFts env db).sequenceIndex = db.sequenceIndex := by
  unfold rebuildFts
  split <;> exact ⟨rfl, rfl⟩

theorem migrated_rebuildFts {migrationId : String} (marked : migrated db migrationId) : migrated (rebuildFts env db) migrationId := by
  unfold rebuildFts
  split
  · exact marked
  · simp only [migrated,List.map_append,List.mem_append]
    exact .inl marked

theorem fts_rebuildFts : migrated (rebuildFts env db) ftsRebuildMigration := by
  unfold rebuildFts
  split
  · rename_i marked
    exact marked
  · simp [migrated]

/-- A pass that succeeds leaves nothing to do. -/
theorem ensureSchema_settled (ran : ensureSchema env db = .ok db') : Settled env.host db' := by
  simp only [ensureSchema,bind_ok_iff,mapError_ok_iff] at ran
  obtain ⟨identified, ensured, chained, migration, indexed, index, result⟩ := ran
  obtain ⟨⟨id, validated⟩, objects, _⟩ := identity_ok ensured
  obtain ⟨valid, chained_kept⟩ := migrate_ok migration
  obtain ⟨shaped, events, indexed_kept⟩ := createSequenceIndex_ok index
  have fts_kept := @rebuildFts_kept env (createLaterObjects indexed)
  obtain ⟨rows, shape⟩ := @rebuildFts_rows env (createLaterObjects indexed)
  have all : (rebuildFts env (createLaterObjects indexed)).objects = laterObjects.foldl createIfNotExists identified.objects := by
    rw [fts_kept.objects,createLaterObjects]
    simp only [indexed_kept.objects,chained_kept.objects]
  have events_eq : (rebuildFts env (createLaterObjects indexed)).events = chained.events := rows.trans events
  have marked : ∀ m, migrated identified m → migrated (rebuildFts env (createLaterObjects indexed)) m := by
    intro m marker
    refine migrated_rebuildFts ?_
    rw [migrated,createLaterObjects,indexed_kept.schemaMigrations,chained_kept.schemaMigrations]
    exact marker
  cases result
  refine ⟨?_, ?_, ⟨id, validated_of_same validated ?_ ?_ (marked _)⟩, ?_, ?_, ?_, ?_, ?_, fts_rebuildFts⟩
  · intro name member
    have made : name ∈ (createTablesBase db).objects := createTablesBase_objects member
    rw [all,mem_createIfNotExists,objects]
    exact .inl made
  · intro name member
    rw [all,mem_createIfNotExists]
    exact .inr member
  · exact fts_kept.identityObjects.trans (indexed_kept.identityObjects.trans chained_kept.identityObjects)
  · exact fts_kept.identityRows.trans (indexed_kept.identityRows.trans chained_kept.identityRows)
  · rw [events_eq]; exact chained_kept.seqNum
  · rw [events_eq]; exact chained_kept.prevHash
  · rw [events_eq]; exact chained_kept.parentEventId
  · rw [events_eq]; exact valid
  · rw [sequenceIndexHasExpectedShape,shape]
    exact shaped

theorem ensureSchema_of_settled (settled : Settled env.host db) : ensureSchema env db = .ok db := by
  obtain ⟨id, validated⟩ := settled.identity
  have base : createTablesBase db = db := by
    have known : "events" ∈ db.objects := settled.base "events" (by simp [baseObjects])
    simp only [createTablesBase,createIfNotExists_of_mem settled.base,if_pos known]
  have columns : db.events.addColumns = db.events := by
    have seqNum := settled.seqNum
    have prevHash := settled.prevHash
    have parentEventId := settled.parentEventId
    generalize db.events = table at seqNum prevHash parentEventId ⊢
    cases table
    cases seqNum; cases prevHash; cases parentEventId
    simp [EventsTable.addColumns]
  have later : createLaterObjects db = db := by
    simp only [createLaterObjects,createIfNotExists_of_mem settled.later]
  have chained : migrateOrValidateEventChain env db false = .ok db := by
    simp only [migrateOrValidateEventChain,settled.valid]
  have indexed : createSequenceIndex db = .ok db := if_pos settled.index
  have fts : rebuildFts env db = db := if_pos settled.fts
  simp only [ensureSchema,base,identity_settled validated,ok_bind,columns,settled.seqNum,settled.prevHash,Bool.not_true,
    Bool.or_false,chained,Except.mapError,indexed,later,fts]

end

/-- A table without chain columns, or with nothing but their defaults. -/
def Legacy (table : EventsTable) : Prop :=
  (table.hasSeqNum = false ∧ table.hasPrevHash = false) ∨ chainMetadataIsAllDefaults table.rows

section

variable {host : Host} {env : SchemaEnv} {db db' : Database} {table : EventsTable} {rows rows' : List EventRow} {added indexed : Bool}

theorem Legacy.defaults (legacy : Legacy table) : chainMetadataIsAllDefaults table.addColumns.rows := by
  intro row inside
  obtain ⟨old, member, rfl⟩ := List.mem_map.mp inside
  rcases legacy with ⟨seqNum, prevHash⟩ | defaults
  · simp [seqNum,prevHash]
  · have own := defaults old member
    constructor
    · show (if table.hasSeqNum = true then old.seqNum else 0) = 0
      split
      · exact own.1
      · rfl
    · show (if table.hasPrevHash = true then old.prevHash else genesisHash) = genesisHash
      split
      · exact own.2
      · rfl

theorem bare_of_defaults (defaults : chainMetadataIsAllDefaults rows) : rows.map EventRow.bare = rows := by
  have same : rows.map EventRow.bare = rows.map (fun row => row) := by
    refine List.map_congr_left fun row inside => ?_
    obtain ⟨seqNum, prevHash⟩ := defaults row inside
    rw [EventRow.bare,← seqNum,← prevHash]
  rw [same,List.map_id']

/-- Valid defaults are chains of at most one row. -/
theorem length_of_defaults (defaults : chainMetadataIsAllDefaults rows) (valid : validateChainMetadata host rows = .ok ()) (p : String) :
    (rowsOf p rows).length ≤ 1 := by
  have increasing := (chain host p).chained_increasing (accepted_iff.mp (validate_iff.mp valid p)).1
  have members : ∀ row ∈ bySeq (rowsOf p rows), row.seqNum = 0 := fun row inside => (defaults row (mem_bySeq.mp inside).1).1
  rw [← bySeq_length]
  rcases shape : bySeq (rowsOf p rows) with _ | ⟨a, _ | ⟨b, rest⟩⟩
  · simp
  · simp
  · rw [shape] at increasing members
    have less : a.seqNum < b.seqNum := (List.pairwise_cons.mp increasing).1 b (by simp)
    rw [members a (by simp),members b (by simp)] at less
    exact absurd less (lt_irrefl _)

theorem rowsOf_length_bare (bare : rows'.map EventRow.bare = rows.map EventRow.bare) (p : String) :
    (rowsOf p rows').length = (rowsOf p rows).length := by
  have own : ∀ l : List EventRow, (rowsOf p l).length = (rowsOf p (l.map EventRow.bare)).length := by
    intro l
    rw [rowsOf,rowsOf,List.filter_map,List.length_map]
    rfl
  rw [own,own rows,bare]

/-- .. which the rebuild would not touch. -/
theorem rebuild_of_valid (defaults : chainMetadataIsAllDefaults rows) (valid : validateChainMetadata host rows = .ok ())
    (bare : rows'.map EventRow.bare = rows.map EventRow.bare)
    (linked : ∀ p, (chain host p).Chained genesisHash 0 (rowsOf p rows')) : rows' = rows := by
  have defaults' : chainMetadataIsAllDefaults rows' := by
    intro row inside
    have count := rowsOf_length_bare bare row.principalId
    have few := length_of_defaults defaults valid row.principalId
    have member : row ∈ rowsOf row.principalId rows' := by simp [rowsOf,inside]
    have own := linked row.principalId
    rcases shape : rowsOf row.principalId rows' with _ | ⟨a, _ | ⟨b, rest⟩⟩
    · simp [shape] at member
    · rw [shape] at member own
      rw [List.mem_singleton.mp member]
      rw [List.mem_singleton.mp member] at own
      exact ⟨own.1, own.2.1⟩
    · rw [shape] at count
      simp only [List.length_cons] at count
      omega
  rw [← bare_of_defaults defaults',bare,bare_of_defaults defaults]

theorem migrate_legacy (ran : migrateOrValidateEventChain env db added = .ok db')
    (defaults : chainMetadataIsAllDefaults db.events.rows) (bounded : db.events.rows.length ≤ maxRows)
    (positioned : sequenceIndexHasExpectedShape db = true → Positioned db.events.rows) :
    rebuildEventChainMetadata env.host (sequenceIndexHasExpectedShape db) db.events.rows = .ok db'.events.rows := by
  obtain ⟨rows', rebuilt, bare, linked⟩ := @rebuild_chained env.host _ _ defaults bounded positioned
  unfold migrateOrValidateEventChain at ran
  split at ran
  · rename_i valid
    cases ran
    rw [rebuilt,rebuild_of_valid defaults valid bare linked]
  · rw [if_pos (.inr defaults)] at ran
    simp only [bind_ok_iff,recordChainMigration] at ran
    obtain ⟨rows, again, _, _, _, _, _, _, _, _, result⟩ := ran
    cases result
    exact again

/-- Rows chained in the order of row ids pass both checks. -/
theorem checks_of_chained (bounded : rows.length ≤ maxRows) (linked : ∀ p, (chain host p).Chained genesisHash 0 (rowsOf p rows)) :
    validateChainMetadata host rows = .ok () ∧
    ∀ p, verifyChain host rows p = .ok ⟨(rowsOf p rows).length, (rowsOf p rows).length, none⟩ := by
  have verified : ∀ p, verifyChain host rows p = .ok ⟨(rowsOf p rows).length, (rowsOf p rows).length, none⟩ := by
    intro p
    have room : (0 : Int) + (rowsOf p rows).length ≤ i64Max := by
      have fits := (rowsOf_length_le p rows).trans bounded
      unfold maxRows at fits; unfold i64Max; omega
    have sorted : bySeq (rowsOf p rows) = rowsOf p rows := (chain host p).mergeSort_chained (linked p)
    rw [verifyChain,sorted,verifyRows_chained (linked p) room]
    simp
  exact ⟨validate_iff.mpr fun p => ⟨_, _, verified p⟩, verified⟩

theorem ensureSchema_legacy (ran : ensureSchema env db = .ok db') (present : "events" ∈ db.objects)
    (legacy : Legacy db.events) (bounded : db.events.rows.length ≤ maxRows)
    (positioned : sequenceIndexHasExpectedShape db = true → Positioned db.events.addColumns.rows) :
    rebuildEventChainMetadata env.host (sequenceIndexHasExpectedShape db) db.events.addColumns.rows = .ok db'.events.rows := by
  simp only [ensureSchema,bind_ok_iff,mapError_ok_iff] at ran
  obtain ⟨identified, ensured, chained, migration, indexed, index, result⟩ := ran
  obtain ⟨_, _, events, sequence⟩ := identity_ok ensured
  have tables : identified.events = db.events := by
    rw [events]
    simp only [createTablesBase,if_pos present]
  rw [tables] at migration
  have shape : sequenceIndexHasExpectedShape { identified with events := db.events.addColumns } =
      sequenceIndexHasExpectedShape db := by
    simp only [sequenceIndexHasExpectedShape,sequence,createTablesBase]
  have count : db.events.addColumns.rows.length ≤ maxRows := by simpa [EventsTable.addColumns] using bounded
  have rebuilt := migrate_legacy migration legacy.defaults count (by rw [shape]; exact positioned)
  rw [shape] at rebuilt
  cases result
  rw [(rebuildFts_rows).1,show (createLaterObjects indexed).events = indexed.events from rfl,(createSequenceIndex_ok index).2.1]
  exact rebuilt

/-- A valid table can take the unique index. -/
theorem positioned_of_valid (valid : validateChainMetadata host rows = .ok ()) : Positioned rows := by
  refine List.nodup_iff_count_le_one.mpr fun ⟨p, seq⟩ => ?_
  have increasing := (chain host p).chained_increasing (accepted_iff.mp (validate_iff.mp valid p)).1
  have perm : (bySeq (rowsOf p rows)).Perm (rowsOf p rows) := List.mergeSort_perm _ _
  have distinct : ((rowsOf p rows).map EventRow.seqNum).Nodup :=
    (perm.map _).nodup_iff.mp (List.pairwise_map.mpr (increasing.imp fun less => less.ne))
  have once := List.nodup_iff_count_le_one.mp distinct seq
  rw [List.count_eq_countP,List.countP_map] at once ⊢
  rw [rowsOf,List.countP_filter] at once
  refine le_trans (le_of_eq (List.countP_congr fun row _ => ?_)) once
  simp [and_comm]

theorem migrate_legacy_ok (defaults : chainMetadataIsAllDefaults db.events.rows) (bounded : db.events.rows.length ≤ maxRows)
    (positioned : sequenceIndexHasExpectedShape db = true → Positioned db.events.rows) (unrecorded : db.chainMigrations = []) :
    ∃ db', migrateOrValidateEventChain env db added = .ok db' := by
  unfold migrateOrValidateEventChain
  split
  · exact ⟨db, rfl⟩
  · obtain ⟨rows', rebuilt, bare, linked⟩ := @rebuild_chained env.host _ _ defaults bounded positioned
    have length : rows'.length = db.events.rows.length := by simpa using congrArg List.length bare
    have valid := (checks_of_chained (length ▸ bounded) linked).1
    have fits : ((chainMetadataDigest env.host db.events.rows).1 : Int) ≤ i64Max := by
      unfold maxRows at bounded
      simp only [chainMetadataDigest,i64Max]
      omega
    have same : (chainMetadataDigest env.host rows').1 = (chainMetadataDigest env.host db.events.rows).1 := length
    rw [if_pos (.inr defaults)]
    simp only [rebuilt,ok_bind,valid,ensure_of same,recordChainMigration,ensure_of fits,unrecorded]
    exact ⟨_, rfl⟩

/-- A legacy table migrates wherever the identity of the database is sound. -/
theorem ensureSchema_migrates {identified : Database} (present : "events" ∈ db.objects) (legacy : Legacy db.events)
    (bounded : db.events.rows.length ≤ maxRows)
    (positioned : sequenceIndexHasExpectedShape db = true → Positioned db.events.addColumns.rows)
    (identity : ensureDatabaseInstanceIdentity env (createTablesBase db) = .ok identified)
    (unrecorded : identified.chainMigrations = []) : ∃ db', ensureSchema env db = .ok db' := by
  obtain ⟨_, _, events, sequence⟩ := identity_ok identity
  have tables : identified.events = db.events := by
    rw [events]
    simp only [createTablesBase,if_pos present]
  have shape : sequenceIndexHasExpectedShape { identified with events := db.events.addColumns } =
      sequenceIndexHasExpectedShape db := by
    simp only [sequenceIndexHasExpectedShape,sequence,createTablesBase]
  have count : db.events.addColumns.rows.length ≤ maxRows := by simpa [EventsTable.addColumns] using bounded
  obtain ⟨chained, migration⟩ := @migrate_legacy_ok env { identified with events := db.events.addColumns }
    (!db.events.hasSeqNum || !db.events.hasPrevHash) legacy.defaults count (by rw [shape]; exact positioned) unrecorded
  have index : ∃ indexed, createSequenceIndex chained = .ok indexed := by
    unfold createSequenceIndex
    split
    · exact ⟨_, rfl⟩
    · rw [ensure_of (positioned_of_valid (migrate_ok migration).1)]
      exact ⟨_, rfl⟩
  obtain ⟨indexed, index⟩ := index
  refine ⟨rebuildFts env (createLaterObjects indexed), ?_⟩
  simp only [ensureSchema,identity,ok_bind,tables,migration,Except.mapError,index]

end

/-- The first pass over a legacy table leaves what the rebuild makes of it: every principal's events
are numbered from 0 in the order of row ids, both checks pass, and nothing else in the rows has
changed. A second pass changes nothing, and on any table the two checks agree. -/
theorem chain_migration (env : SchemaEnv) (db : Database) (present : "events" ∈ db.objects) (legacy : Legacy db.events)
    (bounded : db.events.rows.length ≤ maxRows)
    (positioned : sequenceIndexHasExpectedShape db = true → Positioned db.events.addColumns.rows) :
    (∃ rows, rebuildEventChainMetadata env.host (sequenceIndexHasExpectedShape db) db.events.addColumns.rows = .ok rows ∧
      validateChainMetadata env.host rows = .ok () ∧
      (∀ p, verifyChain env.host rows p = .ok ⟨(rowsOf p rows).length, (rowsOf p rows).length, none⟩) ∧
      rows.map EventRow.bare = db.events.addColumns.rows.map EventRow.bare ∧
      (∀ p, (rowsOf p rows).map EventRow.seqNum = (List.range (rowsOf p rows).length).map (fun (i : Nat) => (i : Int))) ∧
      ∀ db', ensureSchema env db = .ok db' → db'.events.rows = rows) ∧
    (∀ env' db', env'.host = env.host → ensureSchema env db = .ok db' → ensureSchema env' db' = .ok db') ∧
    ∀ rows, validateChainMetadata env.host rows = .ok () ↔ ∀ row ∈ rows, Accepted env.host row.principalId rows := by
  have count : db.events.addColumns.rows.length ≤ maxRows := by simpa [EventsTable.addColumns] using bounded
  obtain ⟨rows, rebuilt, bare, linked⟩ := @rebuild_chained env.host _ _ legacy.defaults count positioned
  have length : rows.length = db.events.addColumns.rows.length := by simpa using congrArg List.length bare
  obtain ⟨valid, verified⟩ := checks_of_chained (length ▸ count) linked
  refine ⟨⟨rows, rebuilt, valid, verified, bare, fun p => ?_, fun db' ran => ?_⟩, ?_, fun rows => ?_⟩
  · simpa [chain] using (chain env.host p).chained_seqs (linked p)
  · have first := ensureSchema_legacy ran present legacy bounded positioned
    exact Except.ok.inj (first.symm.trans rebuilt)
  · intro env' db' same ran
    exact ensureSchema_of_settled (same ▸ ensureSchema_settled ran)
  · rw [validate_iff]
    constructor
    · exact fun all row _ => all row.principalId
    · intro occurring p
      by_cases occurs : ∃ row ∈ rows, row.principalId = p
      · obtain ⟨row, inside, rfl⟩ := occurs
        exact occurring row inside
      · exact accepted_absent fun row inside own => occurs ⟨row, inside, own⟩

/-- Two events of one principal in a table older than the chain columns. -/
def legacyDatabase : Database where
  objects := ["events"]
  events := ⟨false, false, false, [
    { opening "zaion1alice" "legacy.event" "1" "2026-07-15T12:00:02Z" with eventId := "evt-a-first" },
    { opening "zaion1alice" "legacy.event" "2" "2026-07-15T12:00:01Z" with eventId := "evt-a-second" }]⟩
  sequenceIndex := none
  identityObjects := []
  identityRows := []
  chainMigrations := []
  schemaMigrations := []
  ftsRows := []

def migrationEnv : SchemaEnv where
  host := sampleHost
  storedSql := fun sql => sql
  newUuid := "3fa85f64-5717-4562-b3fc-2c963f66afa6"
  now := "2026-07-15T12:00:00+00:00"

theorem two_events_migrated : ∃ rows,
    rebuildEventChainMetadata sampleHost false legacyDatabase.events.addColumns.rows = .ok rows ∧ rows.length = 2 ∧
      validateChainMetadata sampleHost rows = .ok () := by
  obtain ⟨⟨rows, rebuilt, valid, _, bare, _⟩, _⟩ := chain_migration migrationEnv legacyDatabase (by simp [legacyDatabase])
    (.inl ⟨rfl, rfl⟩) (by simp [legacyDatabase,maxRows]) (by simp [sequenceIndexHasExpectedShape,legacyDatabase])
  exact ⟨rows, rebuilt, by simpa [legacyDatabase,EventsTable.addColumns] using congrArg List.length bare, valid⟩

end Zaion.Ledger
