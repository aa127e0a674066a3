import Zaion.Turn.Sound

/-! `open` accepts every store that the store's own operations produced. -/
namespace Zaion.Turn

open Lib

variable {host : Host} {limits : Limits} {db : Database}

section

variable (sound : TablesSound host limits db)
include sound

theorem TablesSound.mappingComplete : mappingComplete db := by
  constructor
  · intro o member
    obtain ⟨i, position⟩ := List.mem_iff_getElem?.mp member
    exact ⟨_, sound.ordered.order ▸ mem_places.mpr ⟨i, o, position, rfl⟩, rfl⟩
  · intro c member
    obtain ⟨i, o, position, rfl⟩ := mem_places.mp (sound.ordered.order ▸ member)
    exact ⟨o, List.mem_of_getElem? position, rfl⟩

theorem TablesSound.foreignKeysHold : foreignKeysHold db := by
  refine ⟨sound.exclusive.owned, fun o member => sound.outbox_owned member, sound.mappingComplete.2, ?_, ?_⟩
  · intro v member
    obtain ⟨o, inside, of⟩ := sound.delivery.evidence v member
    exact ⟨o, inside, of.key⟩
  · intro q member
    obtain ⟨i, o, position, aside⟩ := sound.delivery.setAside q member
    exact ⟨o, List.mem_of_getElem? position, aside.key.symm⟩

theorem TablesSound.legacyRows : legacyRows db = [] := by
  unfold Turn.legacyRows
  rw [List.map_eq_nil_iff,List.filter_eq_nil_iff]
  rintro ⟨c, o⟩ member
  obtain ⟨i, _, rfl⟩ := sound.ordered.mem_committed.mp member
  simp [place]

theorem TablesSound.ordinals_positive {c : OrderRow} (member : c ∈ db.commitOrder) : 0 < c.commitOrdinal := by
  obtain ⟨i, o, _, rfl⟩ := mem_places.mp (sound.ordered.order ▸ member)
  exact Nat.succ_pos i

/-- No row stands at or before ordinal 0. -/
theorem TablesSound.prefix_empty :
    orderGuardPrefixEvidence host db (some 0) = (0, 0, "sha256:" ++ host.sha256Hex []) := by
  have none : (committed db).filter (fun row => decide (row.1.commitOrdinal ≤ 0)) = [] := by
    rw [List.filter_eq_nil_iff]
    rintro ⟨c, o⟩ member
    obtain ⟨i, _, rfl⟩ := sound.ordered.mem_committed.mp member
    simp [place]
  simp only [orderGuardPrefixEvidence,none]
  rfl

end

theorem ordinalsIncrease_of_pairwise {rows : List (OrderRow × OutboxRow)}
    (increasing : rows.Pairwise (fun a b => a.1.commitOrdinal < b.1.commitOrdinal)) :
    ordinalsIncrease rows = true := by
  induction rows with
  | nil => rfl
  | cons a rows ih =>
    cases rows with
    | nil => rfl
    | cons b rest =>
      rw [List.pairwise_cons] at increasing
      simp [ordinalsIncrease,increasing.1 b List.mem_cons_self,ih increasing.2]

theorem Ordered.committed_increasing (ordered : Ordered db) :
    (committed db).Pairwise (fun a b => a.1.commitOrdinal < b.1.commitOrdinal) := by
  have increasing := range'_pairwise_lt 1 db.outbox.length
  have ordinals : (committed db).map (fun row => row.1.commitOrdinal) = List.range' 1 db.outbox.length := by
    rw [ordered.committed_eq,List.map_map]
    exact (List.map_congr_left (fun _ _ => rfl)).trans (List.zipIdx_map_snd 1 db.outbox)
  rw [← ordinals,List.pairwise_map] at increasing
  exact increasing

section

variable (sound : TablesSound host limits db)
include sound

/-- In commit order a turn's rows are in the order of their revisions. -/
theorem TablesSound.turnCommits_eq {t : TurnRow} (member : t ∈ db.turns) :
    turnCommits db t.tenantId t.turnId =
      (committed db).filter (fun row => row.2.toOutboxEntry.ofTurn t.toTurnCore) ∧
    (turnCommits db t.tenantId t.turnId).map (fun row => row.2.revision) = List.range' 0 (t.revision + 1) := by
  have rows := congrArg (List.filter (fun o => o.toOutboxEntry.ofTurn t.toTurnCore))
    sound.ordered.committed_snd
  have revisions := sound.revisions member
  rw [← rows,List.filter_map,List.map_map] at revisions
  have sorted := range'_pairwise_lt 0 (t.revision + 1)
  rw [← revisions,List.pairwise_map] at sorted
  have same : turnCommits db t.tenantId t.turnId =
      (committed db).filter (fun row => row.2.toOutboxEntry.ofTurn t.toTurnCore) :=
    List.mergeSort_of_pairwise (sorted.imp (fun before => by simpa using Nat.le_of_lt before))
  exact ⟨same, by rw [same]; exact revisions⟩

theorem TablesSound.turnCommits_revisions {t : TurnRow} (member : t ∈ db.turns) :
    (turnCommits db t.tenantId t.turnId).map (fun row => row.2.revision) = List.range' 0 (t.revision + 1) :=
  (sound.turnCommits_eq member).2

theorem TablesSound.turnCommits_increase {t : TurnRow} (member : t ∈ db.turns) :
    ordinalsIncrease (turnCommits db t.tenantId t.turnId) = true := by
  rw [(sound.turnCommits_eq member).1]
  exact ordinalsIncrease_of_pairwise (sound.ordered.committed_increasing.filter _)

theorem TablesSound.historyComplete {t : TurnRow} (member : t ∈ db.turns) : historyComplete db t := by
  have revisions := sound.revisions member
  unfold Turn.historyComplete
  simp only [OutboxEntry.ofTurn] at revisions
  rw [revisions]
  refine ⟨?_, ?_, by simp⟩
  · rw [List.min?_eq_some_iff]
    simp
  · rw [List.max?_eq_some_iff]
    constructor
    · rw [List.mem_range'_1]
      omega
    · intro m inside
      rw [List.mem_range'_1] at inside
      omega

/-- `validate_outbox_order_mapping`, against the marker of a migration that found no row. -/
theorem TablesSound.mapping_ok (orderAt : Int) :
    validateOutboxOrderMapping host db (emptyMarker host .order orderAt) = .ok () := by
  simp only [validateOutboxOrderMapping,bind_ok_iff,ensure_ok_iff,sound.legacyRows,exists_const]
  refine ⟨sound.mappingComplete, sound.foreignKeysHold, by simp [emptyMarker,legacyOutboxOrderDigest], by simp,
    sound.ordered.sequence, ?_, ?_, ?_, ?_, fun t member => sound.historyComplete member⟩
  · intro minimum least
    obtain ⟨c, member, rfl⟩ := List.mem_map.mp (List.min?_mem least)
    exact sound.ordinals_positive member
  · intro o member
    obtain ⟨t, turn, key⟩ := sound.outbox_owned member
    obtain ⟨tenant, id⟩ := Prod.mk.inj key
    rw [← tenant,← id]
    exact sound.turnCommits_increase turn
  · intro first least
    obtain ⟨c, member, rfl⟩ := List.mem_map.mp (List.min?_mem least)
    exact sound.ordinals_positive (List.mem_of_mem_filter member)
  · exact fun o _ => sound.ordered.deliveredHole_false sound.delivery.inOrder o.tenantId

theorem TablesSound.marker_ok (migration : Migration) (appliedAt : Int) :
    validateMarker host db migration (emptyMarker host migration appliedAt) = .ok () := by
  unfold validateMarker
  rw [ensure_ok_iff]
  exact sound.prefix_empty

theorem TablesSound.quarantineRowsMatch : quarantineRowsMatch db := by
  intro q member
  obtain ⟨i, o, position, aside⟩ := sound.delivery.setAside q member
  refine ⟨o, List.mem_of_getElem? position, aside.key.symm, by simp [aside.pending], aside.payloadHash.symm,
    Nat.le_of_eq aside.attempts, ?_, aside.principal⟩
  exact ⟨place (i + 1) o.toOutboxEntry, sound.ordered.order ▸ mem_places.mpr ⟨i, o, position, rfl⟩,
    aside.key.symm, aside.ordinal.symm⟩

theorem TablesSound.evidenceRowsMatch : evidenceRowsMatch db := by
  intro v member
  obtain ⟨o, inside, of⟩ := sound.delivery.evidence v member
  exact ⟨o, inside, of.key, of.delivered, of.event, of.ofInstance⟩

theorem TablesSound.deliveriesVerified (n : Nat) : deliveriesVerified db n := by
  rintro ⟨c, o⟩ member delivered _
  obtain ⟨i, position, _⟩ := sound.ordered.mem_committed.mp member
  exact (sound.delivery.delivered o (List.mem_of_getElem? position) delivered).evidence

end

theorem SchemaObject.name_injective : Function.Injective SchemaObject.name := by
  intro a b same
  cases a <;> cases b <;> first | rfl | simp [SchemaObject.name] at same

/-- A database with these schema objects and these markers of migrations that found no row. -/
structure Carries (host : Host) (db : Database) (objects : List SchemaObject) (markers : List (Migration × Int)) :
    Prop where
  schema : db.schema = objects.map SchemaObject.entry
  migrations : db.migrations = markers.map (fun m => emptyMarker host m.1 m.2)

section

variable {objects : List SchemaObject} {markers : List (Migration × Int)} (carries : Carries host db objects markers)
include carries

theorem Carries.schemaObjectSql (object : SchemaObject) :
    schemaObjectSql db object = if object ∈ objects then some (.constant object) else none := by
  have finds : ∀ l : List SchemaObject,
      ((l.map SchemaObject.entry).find? (fun e => e.kind = object.kind && e.name = object.name)).map
        SchemaEntry.definition = if object ∈ l then some (.constant object) else none := by
    intro l
    induction l with
    | nil => simp
    | cons o l ih =>
      by_cases same : o = object
      · subst same
        simp [SchemaObject.entry]
      · have other : o.entry.name ≠ object.name := fun names => same (SchemaObject.name_injective names)
        rw [List.map_cons,List.find?_cons_of_neg (by simp [other]),ih]
        simp [Ne.symm same]
  unfold Turn.schemaObjectSql
  rw [carries.schema]
  exact finds objects

theorem Carries.schemaObjectExists (object : SchemaObject) :
    schemaObjectExists db object = decide (object ∈ objects) := by
  unfold Turn.schemaObjectExists
  rw [carries.schemaObjectSql]
  by_cases present : object ∈ objects <;> simp [present]

theorem Carries.validateSchemaObjects {wanted : List SchemaObject} (present : wanted ⊆ objects) :
    checkAll (validateSchemaObject db) wanted = .ok () := by
  rw [checkAll_ok_iff]
  intro object member
  simp [validateSchemaObject,carries.schemaObjectSql,present member]

theorem Carries.allowlist : validateOutboxTriggerAllowlist db = .ok () := by
  have allowed : ∀ o : SchemaObject, o.entry.extraTrigger = false := by
    intro o
    cases o <;> simp [SchemaObject.entry,SchemaEntry.extraTrigger,SchemaObject.kind,SchemaObject.name,
      SchemaObject.onTable,allTriggers,orderTriggers,verifiedCommitTriggers,quarantineTriggers]
  have none : db.schema.filter SchemaEntry.extraTrigger = [] := by
    rw [carries.schema,List.filter_eq_nil_iff]
    intro e member
    obtain ⟨o, _, rfl⟩ := List.mem_map.mp member
    simp [allowed o]
  simp [validateOutboxTriggerAllowlist,none]

theorem Carries.loadMarker (migration : Migration) :
    loadMarker db migration = .ok ((markers.find? (fun m => m.1 = migration)).map
      (fun m => emptyMarker host m.1 m.2)) := by
  have ids : ∀ a b : Migration, a.id = b.id ↔ a = b := by
    intro a b
    cases a <;> cases b <;> simp [Migration.id]
  unfold Turn.loadMarker
  rw [carries.migrations,List.find?_map]
  simp only [Function.comp_def,emptyMarker,ids]
  cases found : markers.find? (fun m => m.1 = migration) with
  | none => rfl
  | some m =>
    have own : m.1 = migration := by simpa using List.find?_some found
    simp [own,startsWithText]

theorem Carries.requireMarker {migration : Migration} {appliedAt : Int} (missing : String)
    (found : markers.find? (fun m => m.1 = migration) = some (migration, appliedAt)) :
    requireMarker db migration missing = .ok (emptyMarker host migration appliedAt) := by
  simp [Turn.requireMarker,carries.loadMarker,found]

end

section

variable {objects : List SchemaObject} {markers : List (Migration × Int)} (carries : Carries host db objects markers)
  (sound : TablesSound host limits db)
include carries sound

theorem Carries.commitOrder_ok {orderAt guardAt : Int}
    (present : [.orderTable, .migrationTable, .orderIndex, .revisionIndex, .orderTrigger, .orderUpdateGuard,
      .orderDeleteGuard] ⊆ objects)
    (order : markers.find? (fun m => m.1 = Migration.order) = some (.order, orderAt))
    (orderGuard : markers.find? (fun m => m.1 = Migration.orderGuard) = some (.orderGuard, guardAt)) :
    validateCommitOrderSchema host db = .ok () := by
  have triggers : orderTriggers ⊆ objects := by
    intro o member
    apply present
    revert member
    cases o <;> simp [orderTriggers]
  simp only [validateCommitOrderSchema,carries.validateSchemaObjects present,
    carries.validateSchemaObjects triggers,carries.allowlist,carries.requireMarker _ orderGuard,
    carries.requireMarker _ order,ok_bind,sound.marker_ok,sound.mapping_ok]

theorem Carries.dispatcher_ok {quarantineAt : Int} (present : .quarantineTable :: quarantineTriggers ⊆ objects)
    (quarantine : markers.find? (fun m => m.1 = Migration.quarantine) = some (.quarantine, quarantineAt)) :
    validateDispatcherSchema host db = .ok () := by
  simp only [validateDispatcherSchema,carries.validateSchemaObjects present,
    carries.requireMarker _ quarantine,ok_bind,sound.marker_ok,ensure_of sound.quarantineRowsMatch]

theorem Carries.verifiedCommit_ok {verifiedAt : Int}
    (present : .verifiedCommitTable :: verifiedCommitTriggers ⊆ objects) (triggers : allTriggers ⊆ objects)
    (verified : markers.find? (fun m => m.1 = Migration.verifiedCommit) = some (.verifiedCommit, verifiedAt)) :
    validateVerifiedCommitSchema host db = .ok () := by
  simp only [validateVerifiedCommitSchema,validateNoExtraOutboxTriggers,carries.validateSchemaObjects present,
    carries.validateSchemaObjects triggers,carries.allowlist,carries.requireMarker _ verified,ok_bind,
    sound.marker_ok,ensure_of sound.evidenceRowsMatch,ensure_of (sound.deliveriesVerified _)]

end

/-- A database with schema entries and markers added. -/
def Database.add (host : Host) (objects : List SchemaObject) (markers : List (Migration × Int)) (db : Database) :
    Database :=
  { db with
    schema := db.schema ++ objects.map SchemaObject.entry
    migrations := db.migrations ++ markers.map (fun m => emptyMarker host m.1 m.2) }

theorem Carries.add {objects : List SchemaObject} {markers : List (Migration × Int)}
    (carries : Carries host db objects markers) (more : List SchemaObject) (new : List (Migration × Int)) :
    Carries host (db.add host more new) (objects ++ more) (markers ++ new) where
  schema := by simp [Database.add,carries.schema]
  migrations := by simp [Database.add,carries.migrations]

theorem TablesSound.add (sound : TablesSound host limits db) (objects : List SchemaObject)
    (markers : List (Migration × Int)) : TablesSound host limits (db.add host objects markers) :=
  sound.withSchema _ _

theorem creates_eq (host : Host) (objects : List SchemaObject) :
    objects.foldl (fun db object => create object db) db = db.add host objects [] := by
  induction objects generalizing db with
  | nil => simp [Database.add]
  | cons o objects ih =>
    rw [List.foldl_cons,ih]
    simp [create,Database.add]

theorem install_empty {migration : Migration} {objects : List SchemaObject} {appliedAt : DateTime}
    (empty : db.commitOrder = []) :
    install host migration objects appliedAt db = db.add host objects [(migration, appliedAt.millis)] := by
  have none : orderGuardPrefixEvidence host (db.add host objects []) none =
      (0, 0, "sha256:" ++ host.sha256Hex []) := by
    simp [orderGuardPrefixEvidence,committed,byOrdinal,Database.add,empty]
  simp only [install,creates_eq host,none]
  simp [recordMigration,emptyMarker,Database.add]

theorem installCommitOrder_empty {appliedAt : DateTime} (empty : db.outbox = []) :
    installCommitOrder host appliedAt (create .migrationTable db) =
      db.add host [.migrationTable, .orderTable, .orderIndex, .revisionIndex, .orderTrigger]
        [(.order, appliedAt.millis)] := by
  have none : legacyOutboxOrderRows (create .migrationTable db) = [] := by
    simp [legacyOutboxOrderRows,create,empty]
  simp only [installCommitOrder,none,List.foldl_nil]
  simp [create,recordMigration,emptyMarker,legacyOutboxOrderDigest,Database.add]

theorem ensureMigration_present {migration : Migration} {objects : List SchemaObject} {existed : List Bool}
    {missing : String} {appliedAt : DateTime} {marker : MigrationRow}
    (found : loadMarker db migration = .ok (some marker)) (all : existed.all (·) = true) :
    ensureMigration host migration objects existed missing appliedAt db = .ok db := by
  simp [ensureMigration,found,all]

theorem ensureMigration_new {migration : Migration} {objects : List SchemaObject} {existed : List Bool}
    {missing : String} {appliedAt : DateTime} (none : loadMarker db migration = .ok none)
    (absent : existed.all (!·) = true) (empty : db.commitOrder = []) :
    ensureMigration host migration objects existed missing appliedAt db =
      .ok (db.add host objects [(migration, appliedAt.millis)]) := by
  simp [ensureMigration,none,absent,install_empty empty]

theorem mem_installedObjects (object : SchemaObject) : object ∈ installedObjects := by
  cases object <;> simp [installedObjects,quarantineTriggers,verifiedCommitTriggers]

/-- `open` leaves an installed store as it is. -/
theorem openStore_installed {orderAt quarantineAt verifiedAt : DateTime} (sound : TablesSound host limits db)
    (installed : Installed host db.schema db.migrations) :
    openStore host orderAt quarantineAt verifiedAt db = .ok db := by
  obtain ⟨schema, a, b, c, d, migrations⟩ := installed
  have carries : Carries host db installedObjects
      [(.order, a), (.orderGuard, b), (.quarantine, c), (.verifiedCommit, d)] := ⟨schema, migrations⟩
  have present : ∀ object, schemaObjectExists db object = true := by
    intro object
    rw [carries.schemaObjectExists,decide_eq_true (mem_installedObjects object)]
  have all : ∀ objects : List SchemaObject, (objects.map (schemaObjectExists db)).all (·) = true := by
    simp [present]
  have included : ∀ objects : List SchemaObject, objects ⊆ installedObjects :=
    fun objects o _ => mem_installedObjects o
  have order : ensureOutboxCommitOrderSchema host orderAt db = .ok db := by
    have loaded : loadMarker db .order = .ok (some (emptyMarker host .order a)) := carries.loadMarker .order
    simp only [ensureOutboxCommitOrderSchema,present,if_true,loaded,ok_bind]
    rw [ensure_of (all _),ok_bind,ensureMigration_present (carries.loadMarker .orderGuard) (all _),ok_bind,
      carries.commitOrder_ok sound (included _) rfl rfl,ok_bind]
  have dispatcher : ensureOutboxDispatcherSchema host quarantineAt db = .ok db := by
    simp only [ensureOutboxDispatcherSchema]
    rw [ensureMigration_present (carries.loadMarker .quarantine) (all _),ok_bind,
      carries.dispatcher_ok sound (included _) rfl,ok_bind]
  have verified : ensureOutboxVerifiedCommitSchema host verifiedAt db = .ok db := by
    simp only [ensureOutboxVerifiedCommitSchema]
    rw [ensureMigration_present (carries.loadMarker .verifiedCommit) (all _),ok_bind,
      carries.verifiedCommit_ok sound (included _) (included _) rfl,ok_bind]
  simp only [openStore,order,dispatcher,verified,ok_bind]

def orderObjects : List SchemaObject := [.migrationTable, .orderTable, .orderIndex, .revisionIndex, .orderTrigger]

def orderGuards : List SchemaObject := [.orderUpdateGuard, .orderDeleteGuard]

theorem commitOrderSchema_new {appliedAt : DateTime} (sound : TablesSound host limits db)
    (start : Carries host db [] []) (noRows : db.outbox = []) :
    ensureOutboxCommitOrderSchema host appliedAt db = .ok ((db.add host orderObjects [(.order, appliedAt.millis)]).add
      host orderGuards [(.orderGuard, appliedAt.millis)]) := by
  have absent : ∀ object, schemaObjectExists db object = false := fun object => start.schemaObjectExists object
  have unmarked : loadMarker (create .migrationTable db) .order = .ok none := by
    simp [loadMarker,create,start.migrations]
  have noOrder : (db.add host orderObjects [(.order, appliedAt.millis)]).commitOrder = [] := by
    rw [Database.add,sound.ordered.order,noRows]
    rfl
  have carries := start.add orderObjects [(.order, appliedAt.millis)]
  have guarded := carries.add orderGuards [(.orderGuard, appliedAt.millis)]
  have installs : ensureMigration host .orderGuard orderGuards [false, false]
      "outbox order guard migration marker exists but a guard is missing" appliedAt
      (db.add host orderObjects [(.order, appliedAt.millis)]) = .ok _ :=
    ensureMigration_new (carries.loadMarker .orderGuard) rfl noOrder
  simp only [ensureOutboxCommitOrderSchema,absent,Bool.false_eq_true,if_false,unmarked,ok_bind,List.map_cons,
    List.map_nil,installCommitOrder_empty noRows]
  rw [ensure_of (by rfl),ok_bind]
  change (ensureMigration host .orderGuard orderGuards _ _ _ (db.add host orderObjects _) >>= _) = _
  rw [installs,ok_bind,guarded.commitOrder_ok ((sound.add _ _).add _ _) (by simp [orderObjects,orderGuards]) rfl rfl,ok_bind]

theorem dispatcherSchema_new {objects : List SchemaObject} {markers : List (Migration × Int)}
    (appliedAt : DateTime) (sound : TablesSound host limits db) (carries : Carries host db objects markers)
    (noOrder : db.commitOrder = []) (absent : ∀ o ∈ .quarantineTable :: quarantineTriggers, o ∉ objects)
    (unmarked : markers.find? (fun m => m.1 = Migration.quarantine) = none) :
    ensureOutboxDispatcherSchema host appliedAt db = .ok
      (db.add host (.quarantineTable :: quarantineTriggers) [(.quarantine, appliedAt.millis)]) := by
  have after := carries.add (.quarantineTable :: quarantineTriggers) [(.quarantine, appliedAt.millis)]
  have missing : ((SchemaObject.quarantineTable :: quarantineTriggers).map (schemaObjectExists db)).all (!·) = true := by
    simpa [carries.schemaObjectExists] using absent
  have none : loadMarker db .quarantine = .ok none := by rw [carries.loadMarker,unmarked]; rfl
  have marked : (markers ++ [(Migration.quarantine, appliedAt.millis)]).find? (fun m => m.1 = Migration.quarantine) =
      some (.quarantine, appliedAt.millis) := by simp [List.find?_append,unmarked]
  simp only [ensureOutboxDispatcherSchema]
  rw [ensureMigration_new none missing noOrder,ok_bind,
    after.dispatcher_ok (sound.add _ _) (List.subset_append_right _ _) marked,ok_bind]

theorem verifiedCommitSchema_new {objects : List SchemaObject} {markers : List (Migration × Int)}
    (appliedAt : DateTime) (sound : TablesSound host limits db) (carries : Carries host db objects markers)
    (noOrder : db.commitOrder = []) (absent : ∀ o ∈ .verifiedCommitTable :: verifiedCommitTriggers, o ∉ objects)
    (triggers : allTriggers ⊆ objects ++ .verifiedCommitTable :: verifiedCommitTriggers)
    (unmarked : markers.find? (fun m => m.1 = Migration.verifiedCommit) = none) :
    ensureOutboxVerifiedCommitSchema host appliedAt db = .ok
      (db.add host (.verifiedCommitTable :: verifiedCommitTriggers) [(.verifiedCommit, appliedAt.millis)]) := by
  have after := carries.add (.verifiedCommitTable :: verifiedCommitTriggers) [(.verifiedCommit, appliedAt.millis)]
  have missing : ((SchemaObject.verifiedCommitTable :: verifiedCommitTriggers).map (schemaObjectExists db)).all
      (!·) = true := by
    simpa [carries.schemaObjectExists] using absent
  have none : loadMarker db .verifiedCommit = .ok none := by rw [carries.loadMarker,unmarked]; rfl
  have marked : (markers ++ [(Migration.verifiedCommit, appliedAt.millis)]).find?
      (fun m => m.1 = Migration.verifiedCommit) = some (.verifiedCommit, appliedAt.millis) := by
    simp [List.find?_append,unmarked]
  simp only [ensureOutboxVerifiedCommitSchema]
  rw [ensureMigration_new none missing noOrder,ok_bind,
    after.verifiedCommit_ok (sound.add _ _) (List.subset_append_right _ _) triggers marked,ok_bind]

/-- `open` on an empty file installs everything. -/
theorem openStore_new (orderAt quarantineAt verifiedAt : DateTime) (sound : TablesSound host limits db)
    (start : Carries host db [] []) (noRows : db.outbox = []) :
    ∃ schema migrations, Installed host schema migrations ∧
      openStore host orderAt quarantineAt verifiedAt db = .ok { db with schema, migrations } := by
  have noOrder : db.commitOrder = [] := by rw [sound.ordered.order,noRows]; rfl
  have ordered := (start.add orderObjects [(.order, orderAt.millis)]).add orderGuards
    [(.orderGuard, orderAt.millis)]
  have sound₁ := (sound.add orderObjects [(.order, orderAt.millis)]).add orderGuards
    [(.orderGuard, orderAt.millis)]
  have dispatcher := dispatcherSchema_new quarantineAt sound₁ ordered noOrder
    (by simp [orderObjects,orderGuards,quarantineTriggers]) rfl
  have sound₂ := sound₁.add (.quarantineTable :: quarantineTriggers) [(.quarantine, quarantineAt.millis)]
  have quarantined := ordered.add (.quarantineTable :: quarantineTriggers) [(.quarantine, quarantineAt.millis)]
  have verified := verifiedCommitSchema_new verifiedAt sound₂ quarantined noOrder
    (by simp [orderObjects,orderGuards,quarantineTriggers,verifiedCommitTriggers])
    (fun o _ => mem_installedObjects o) rfl
  have last := quarantined.add (.verifiedCommitTable :: verifiedCommitTriggers)
    [(.verifiedCommit, verifiedAt.millis)]
  refine ⟨_, _, ⟨last.schema, _, _, _, _, last.migrations⟩, ?_⟩
  rw [openStore,commitOrderSchema_new sound start noRows,ok_bind,dispatcher,ok_bind,verified]
  rfl

/-- `open` succeeds on every sound store: it installs its objects or changes nothing. -/
theorem Sound.openStore_ok (sound : Sound host limits db) (orderAt quarantineAt verifiedAt : DateTime) :
    ∃ schema migrations, openStore host orderAt quarantineAt verifiedAt db = .ok { db with schema, migrations } ∧
      QuietSteps host limits db { db with schema, migrations } := by
  rcases sound.schema with ⟨noSchema, noMigrations, noRows⟩ | installed
  · obtain ⟨schema, migrations, installed, opens⟩ :=
      openStore_new orderAt quarantineAt verifiedAt sound.toTablesSound ⟨noSchema, noMigrations⟩ noRows
    exact ⟨schema, migrations, opens, .single ⟨.migrate schema migrations noRows installed, rfl⟩⟩
  · exact ⟨db.schema, db.migrations, openStore_installed sound.toTablesSound installed, .refl⟩

end Zaion.Turn
