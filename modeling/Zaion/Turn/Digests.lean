import Zaion.Lib.Framing
import Zaion.Lib.Numbered
import Zaion.Lib.Size
import Zaion.Sample
import Zaion.Turn.Schema

/-! What the ids of the turn store, the source hash of an envelope and the digests of the
migrations are hashed from. No two inputs give one byte string, whatever the texts contain;
the ids keep 40 of the 64 digits of a hash. -/
namespace Zaion.Turn

open Lib

/-- A text as the program holds it: its length fits a word. -/
abbrev Part := { text : String // (Host.utf8 text).length < 18446744073709551616 }

namespace Part

def bytes (part : Part) : List UInt8 :=
  Host.littleEndian 8 (Host.utf8 part.val).length ++ Host.utf8 part.val ++ [0x1f]

theorem bytes_selfDelimiting : SelfDelimiting bytes := by
  refine .headed (fun part : Part => Host.littleEndian 8 (Host.utf8 part.val).length) (fun part : Part => Host.utf8 part.val)
    ?_ (Host.utf8_injective.comp Subtype.val_injective)
  intro a b x y same
  obtain ⟨word, rest⟩ := List.append_inj same (by simp only [Host.littleEndian_length])
  exact ⟨Host.littleEndian_injective a.property b.property word, rest⟩

theorem bytes_ne_nil (part : Part) : part.bytes ≠ [] := by
  simp [bytes]

end Part

theorem framed_parts (parts : List Part) : Host.framed (parts.map Subtype.val) = parts.flatMap Part.bytes := by
  rw [Host.framed,List.flatMap_map]
  rfl

theorem framed_cut {a b : List Part} {x y : List UInt8} (length : a.length = b.length)
    (same : Host.framed (a.map Subtype.val) ++ x = Host.framed (b.map Subtype.val) ++ y) : a = b ∧ x = y := by
  rw [framed_parts,framed_parts] at same
  exact Part.bytes_selfDelimiting.flatMap_cut length same

theorem hashParts_injective : Function.Injective fun parts : List Part => Host.framed (parts.map Subtype.val) := by
  simp only [framed_parts]
  exact Part.bytes_selfDelimiting.flatMap Part.bytes_ne_nil

/-- Two byte strings with one digest. -/
def Collide (host : Host) (a b : List UInt8) : Prop := a ≠ b ∧ host.sha256Hex a = host.sha256Hex b

/-- Two byte strings whose digests agree in the digits an id keeps. -/
def CollideShort (host : Host) (a b : List UInt8) : Prop :=
  a ≠ b ∧ (host.sha256Hex a).toList.take 40 = (host.sha256Hex b).toList.take 40

variable {α : Type} {host : Host}

theorem digest_eq_iff {bytes : α → List UInt8} (one : Function.Injective bytes) {a b : α} (differ : a ≠ b) :
    host.sha256Hex (bytes a) = host.sha256Hex (bytes b) ↔ Collide host (bytes a) (bytes b) :=
  ⟨fun same => ⟨one.ne differ, same⟩, And.right⟩

theorem shortHash_eq_iff (parts : α → List Part) (one : Function.Injective parts) {a b : α} (differ : a ≠ b) :
    host.shortHash ((parts a).map Subtype.val) = host.shortHash ((parts b).map Subtype.val) ↔
      CollideShort host (Host.framed ((parts a).map Subtype.val)) (Host.framed ((parts b).map Subtype.val)) := by
  rw [Host.shortHash,Host.shortHash,String.ofList_inj]
  exact ⟨fun same => ⟨(hashParts_injective.comp one).ne differ, same⟩, And.right⟩

/-- `compute_source_hash`. -/
def computeSourceHash (host : Host) (source principal channel thread messageId body : String) : String :=
  host.sha256Hex (Host.framed [source, principal, channel, thread, messageId, body])

/-- The arguments of `compute_source_hash`. -/
structure SourceParts where
  source : Part
  principal : Part
  channel : Part
  thread : Part
  messageId : Part
  body : Part
  deriving DecidableEq

namespace SourceParts

def list (e : SourceParts) : List Part := [e.source, e.principal, e.channel, e.thread, e.messageId, e.body]

/-- What `compute_source_hash` feeds the digest. -/
def bytes (e : SourceParts) : List UInt8 := Host.framed (e.list.map Subtype.val)

def hash (host : Host) (e : SourceParts) : String :=
  computeSourceHash host e.source.val e.principal.val e.channel.val e.thread.val e.messageId.val e.body.val

theorem list_injective : Function.Injective list := by
  rintro ⟨_, _, _, _, _, _⟩ ⟨_, _, _, _, _, _⟩ same
  simp only [list,List.cons.injEq] at same
  obtain ⟨rfl, rfl, rfl, rfl, rfl, rfl, -⟩ := same
  rfl

theorem bytes_injective : Function.Injective bytes := hashParts_injective.comp list_injective

end SourceParts

theorem leBytes_eq (n : Int) : leBytes n = Host.littleEndian 8 (n % 18446744073709551616).toNat := by
  have low (m : Nat) : UInt8.ofNat (m % 256) = UInt8.ofNat m := by
    rw [← UInt8.toNat_inj]
    simp
  simp [leBytes,Host.littleEndian,List.range_succ,Nat.shiftRight_eq_div_pow,Nat.div_div_eq_div_mul,low]

theorem leBytes_length (n : Int) : (leBytes n).length = 8 := by
  rw [leBytes_eq,Host.littleEndian_length]

theorem leBytes_int64 : Function.Injective fun n : Int64 => leBytes n.toInt := by
  intro m n same
  simp only [leBytes_eq] at same
  have words := Host.littleEndian_injective (by omega) (by omega) same
  have low := m.le_toInt
  have high := m.toInt_lt
  have low' := n.le_toInt
  have high' := n.toInt_lt
  exact Int64.toInt_inj.mp (by omega)

theorem int64_selfDelimiting : SelfDelimiting fun n : Int64 => leBytes n.toInt :=
  .of_length leBytes_int64 fun n => leBytes_length n.toInt

theorem framed_eq (part : Part) : framed part.val = part.bytes := by
  have word : ((Host.utf8 part.val).length : Int) % 18446744073709551616 = (Host.utf8 part.val).length :=
    Int.emod_eq_of_lt (by omega) (by have := part.property; omega)
  rw [framed,leBytes_eq,word,Int.toNat_natCast]
  rfl

/-- A row of `legacy_outbox_order_rows` as it is read. -/
structure LegacyRow where
  sourceRowid : Int64
  tenantId : Part
  outboxId : Part
  payloadHash : Part
  deriving DecidableEq

theorem utf8_length (text : String) : (Host.utf8 text).length = text.utf8ByteSize := by
  rw [Host.utf8,ByteArray.toList,byteArray_loop]
  simp

theorem rowid_short (n : Int64) : (Host.utf8 (toString n.toInt)).length < 18446744073709551616 := by
  have low := n.le_toInt
  have high := n.toInt_lt
  rw [utf8_length,toString_int]
  split
  · have digits := decimal_size_le (n := n.toInt.toNat) (by decide : 0 < 19) (by omega)
    omega
  · have digits := decimal_size_le (n := (-n.toInt).toNat) (by decide : 0 < 19) (by omega)
    have sign : "-".utf8ByteSize = 1 := rfl
    rw [String.utf8ByteSize_append]
    omega

namespace LegacyRow

def rowid (row : LegacyRow) : Part := ⟨toString row.sourceRowid.toInt, rowid_short row.sourceRowid⟩

def list (row : LegacyRow) : List Part := [row.rowid, row.tenantId, row.outboxId, row.payloadHash]

/-- What `legacy_outbox_order_digest` feeds the digest for a row. -/
def bytes (row : LegacyRow) : List UInt8 := Host.framed (row.list.map Subtype.val)

theorem list_injective : Function.Injective list := by
  rintro ⟨m, _, _, _⟩ ⟨n, _, _, _⟩ same
  simp only [list,rowid,List.cons.injEq,Subtype.mk.injEq] at same
  obtain ⟨number, rfl, rfl, rfl, -⟩ := same
  rw [Int64.toInt_inj.mp (toString_int_injective number)]

theorem bytes_selfDelimiting : SelfDelimiting bytes := by
  intro a b x y same
  unfold bytes at same
  obtain ⟨parts, rest⟩ := framed_cut (by simp only [list,List.length_cons]) same
  exact ⟨list_injective parts, rest⟩

/-- The row among those of the tables, for the rowids that pass the check. -/
def toRow (row : LegacyRow) : LegacyOutboxOrderRow :=
  ⟨row.sourceRowid.toInt.toNat, row.tenantId.val, row.outboxId.val, row.payloadHash.val⟩

/-- What `legacy_outbox_order_digest` feeds the digest. -/
def digestBytes (rows : List LegacyRow) : List UInt8 := rows.flatMap bytes

theorem digestBytes_injective : Function.Injective digestBytes :=
  bytes_selfDelimiting.flatMap fun row => by simp [bytes,list,Host.framed]

/-- `legacy_outbox_order_digest`, of the rows as they are read. -/
def digest (host : Host) (rows : List LegacyRow) : String := "sha256:" ++ host.sha256Hex (digestBytes rows)

theorem legacyOutboxOrderDigest_eq {rows : List LegacyRow} (checked : ∀ row ∈ rows, 0 < row.sourceRowid.toInt) :
    legacyOutboxOrderDigest host (rows.map toRow) = digest host rows := by
  rw [legacyOutboxOrderDigest,digest,digestBytes,List.flatMap_map]
  congr 2
  refine List.flatMap_congr fun row member => ?_
  have number : toString row.sourceRowid.toInt.toNat = row.rowid.val := by
    have := checked row member
    exact ((toString_int _).trans (if_pos (by omega))).symm
  rw [toRow,number]
  simp only [framed_eq,bytes,framed_parts,list]
  simp

end LegacyRow

/-- A row of the commit order joined with its outbox row, as it is read. -/
structure PrefixRow where
  commitOrdinal : Int64
  tenantId : Part
  outboxId : Part
  orderOrigin : Part
  legacySourceRowid : Option Int64
  payloadHash : Part
  /-- The `CHECK` of the table. -/
  positive : ∀ rowid ∈ legacySourceRowid, 0 < rowid.toInt
  deriving DecidableEq

namespace PrefixRow

/-- The word of a row without a rowid is that of no rowid. -/
theorem rowid_injective {a b : Option Int64} (positive : ∀ rowid ∈ a, 0 < rowid.toInt) (positive' : ∀ rowid ∈ b, 0 < rowid.toInt)
    (same : a.getD (-1) = b.getD (-1)) : a = b := by
  have minus : (-1 : Int64).toInt = -1 := rfl
  cases a with
  | none =>
    cases b with
    | none => rfl
    | some n =>
      have := positive' n rfl
      rw [← show (-1 : Int64) = n from same] at this
      omega
  | some m =>
    cases b with
    | none =>
      have := positive m rfl
      rw [show m = (-1 : Int64) from same] at this
      omega
    | some n => exact congrArg some same

def list (row : PrefixRow) : List Part := [row.tenantId, row.outboxId, row.orderOrigin, row.payloadHash]

/-- What `order_guard_prefix_evidence` feeds the digest for a row. -/
def bytes (row : PrefixRow) : List UInt8 :=
  leBytes row.commitOrdinal.toInt ++ leBytes (row.legacySourceRowid.getD (-1)).toInt ++
    Host.framed (row.list.map Subtype.val)

theorem bytes_selfDelimiting : SelfDelimiting bytes := by
  intro a b x y same
  simp only [bytes,List.append_assoc] at same
  obtain ⟨ordinal, same⟩ := int64_selfDelimiting same
  obtain ⟨word, same⟩ := int64_selfDelimiting same
  obtain ⟨parts, rest⟩ := framed_cut (a := a.list) (b := b.list) rfl same
  have rowid := rowid_injective a.positive b.positive word
  obtain ⟨_, _, _, _, _, _, _⟩ := a
  obtain ⟨_, _, _, _, _, _, _⟩ := b
  simp only [list,List.cons.injEq] at parts
  obtain ⟨rfl, rfl, rfl, rfl, -⟩ := parts
  cases ordinal
  cases rowid
  exact ⟨rfl, rest⟩

def digestBytes (rows : List PrefixRow) : List UInt8 := rows.flatMap bytes

theorem digestBytes_injective : Function.Injective digestBytes :=
  bytes_selfDelimiting.flatMap fun row => by simp [bytes,leBytes]

def digest (host : Host) (rows : List PrefixRow) : String := "sha256:" ++ host.sha256Hex (digestBytes rows)

/-- The row as it is read of the tables. -/
structure Reads (row : PrefixRow) (stored : OrderRow × OutboxRow) : Prop where
  ordinal : row.commitOrdinal.toInt = stored.1.commitOrdinal
  tenant : row.tenantId.val = stored.1.tenantId
  outbox : row.outboxId.val = stored.1.outboxId
  origin : row.orderOrigin.val = stored.1.orderOrigin.text
  rowid : row.legacySourceRowid.map Int64.toInt = stored.1.legacySourceRowid.map Nat.cast
  payload : row.payloadHash.val = stored.2.payloadHash

theorem bytes_of_reads {row : PrefixRow} {stored : OrderRow × OutboxRow} (reads : row.Reads stored) :
    prefixBytes stored = row.bytes := by
  have word : (row.legacySourceRowid.getD (-1)).toInt = stored.1.legacySourceRowid.elim (-1) Nat.cast := by
    have same := reads.rowid
    cases read : row.legacySourceRowid with
    | none =>
      rw [read,Option.map_none,eq_comm,Option.map_eq_none_iff] at same
      rw [same]
      rfl
    | some n =>
      rw [read,Option.map_some,eq_comm,Option.map_eq_some_iff] at same
      obtain ⟨m, there, cast⟩ := same
      rw [there]
      exact cast.symm
  have whole : prefixBytes stored = leBytes stored.1.commitOrdinal ++ leBytes (stored.1.legacySourceRowid.elim (-1) Nat.cast) ++
      framed stored.1.tenantId ++ framed stored.1.outboxId ++ framed stored.1.orderOrigin.text ++ framed stored.2.payloadHash := by
    unfold prefixBytes
    cases stored.1.legacySourceRowid <;> rfl
  rw [whole,← word,← reads.ordinal,← reads.tenant,← reads.outbox,← reads.origin,← reads.payload]
  simp only [framed_eq,bytes,framed_parts,list]
  simp

/-- The digest of `order_guard_prefix_evidence`, of the rows as they are read. -/
theorem orderGuardPrefixEvidence_digest {db : Database} {maximumOrdinal : Option Nat} {rows : List PrefixRow}
    (reads : List.Forall₂ Reads rows ((committed db).filter fun row =>
      maximumOrdinal.elim true fun m => decide (row.1.commitOrdinal ≤ m))) :
    (orderGuardPrefixEvidence host db maximumOrdinal).2.2 = digest host rows := by
  have same {rows : List PrefixRow} {stored : List (OrderRow × OutboxRow)} (reads : List.Forall₂ Reads rows stored) :
      stored.flatMap prefixBytes = digestBytes rows := by
    rw [digestBytes]
    induction reads with
    | nil => rfl
    | cons first _ ih => rw [List.flatMap_cons,List.flatMap_cons,bytes_of_reads first,ih]
  rw [digest,← same reads]
  cases maximumOrdinal <;> rfl

end PrefixRow

/-- The arguments of `deterministic_turn_id`. -/
structure TurnParts where
  tenantId : Part
  idempotencyKey : Part
  requestHash : Part
  deriving DecidableEq

namespace TurnParts

def list (t : TurnParts) : List Part := [t.tenantId, t.idempotencyKey, t.requestHash]

def bytes (t : TurnParts) : List UInt8 := Host.framed (t.list.map Subtype.val)

def turnId (host : Host) (t : TurnParts) : String :=
  deterministicTurnId host t.tenantId.val t.idempotencyKey.val t.requestHash.val

theorem list_injective : Function.Injective list := by
  rintro ⟨_, _, _⟩ ⟨_, _, _⟩ same
  simp only [list,List.cons.injEq] at same
  obtain ⟨rfl, rfl, rfl, -⟩ := same
  rfl

end TurnParts

/-- The arguments of `deterministic_outbox_id`. -/
structure OutboxParts where
  tenantId : Part
  turnId : Part
  revision : UInt64
  eventType : Part
  deriving DecidableEq

namespace OutboxParts

theorem revision_short (n : UInt64) : (Host.utf8 (toString n.toNat)).length < 18446744073709551616 := by
  have digits := decimal_size_le (n := n.toNat) (by decide : 0 < 20) (by have := n.toNat_lt; omega)
  rw [utf8_length]
  omega

def list (o : OutboxParts) : List Part :=
  [o.tenantId, o.turnId, ⟨toString o.revision.toNat, revision_short o.revision⟩, o.eventType]

def bytes (o : OutboxParts) : List UInt8 := Host.framed (o.list.map Subtype.val)

def outboxId (host : Host) (o : OutboxParts) : String :=
  deterministicOutboxId host o.tenantId.val o.turnId.val o.revision.toNat o.eventType.val

theorem list_injective : Function.Injective list := by
  rintro ⟨_, _, m, _⟩ ⟨_, _, n, _⟩ same
  simp only [list,List.cons.injEq,Subtype.mk.injEq] at same
  obtain ⟨rfl, rfl, number, rfl, -⟩ := same
  rw [UInt64.toNat_inj.mp (toString_injective number)]

end OutboxParts

/-- The framings are injective. A digest that is kept whole differs for different inputs unless SHA-256
collides; an id differs unless two hashes agree in the digits it keeps. -/
theorem digests_differ (host : Host) :
    (Function.Injective fun parts : List Part => Host.framed (parts.map Subtype.val)) ∧
    Function.Injective SourceParts.bytes ∧
    Function.Injective LegacyRow.digestBytes ∧
    Function.Injective PrefixRow.digestBytes ∧
    (∀ a b : SourceParts, a ≠ b → (a.hash host = b.hash host ↔ Collide host a.bytes b.bytes)) ∧
    (∀ a b : List LegacyRow, a ≠ b → (LegacyRow.digest host a = LegacyRow.digest host b ↔
      Collide host (LegacyRow.digestBytes a) (LegacyRow.digestBytes b))) ∧
    (∀ a b : List PrefixRow, a ≠ b → (PrefixRow.digest host a = PrefixRow.digest host b ↔
      Collide host (PrefixRow.digestBytes a) (PrefixRow.digestBytes b))) ∧
    (∀ a b : List Part, a ≠ b →
      (deterministicActorKey host (a.map Subtype.val) = deterministicActorKey host (b.map Subtype.val) ↔
        CollideShort host (Host.framed (a.map Subtype.val)) (Host.framed (b.map Subtype.val)))) ∧
    (∀ a b : TurnParts, a ≠ b → (a.turnId host = b.turnId host ↔ CollideShort host a.bytes b.bytes)) ∧
    (∀ a b : OutboxParts, a ≠ b → (a.outboxId host = b.outboxId host ↔ CollideShort host a.bytes b.bytes)) := by
  refine ⟨hashParts_injective, SourceParts.bytes_injective, LegacyRow.digestBytes_injective,
    PrefixRow.digestBytes_injective, fun a b differ => ?_, fun a b differ => ?_, fun a b differ => ?_,
    fun a b differ => ?_, fun a b differ => ?_, fun a b differ => ?_⟩
  · exact digest_eq_iff SourceParts.bytes_injective differ
  · rw [LegacyRow.digest,LegacyRow.digest,String.append_right_inj]
    exact digest_eq_iff LegacyRow.digestBytes_injective differ
  · rw [PrefixRow.digest,PrefixRow.digest,String.append_right_inj]
    exact digest_eq_iff PrefixRow.digestBytes_injective differ
  · rw [deterministicActorKey,deterministicActorKey,String.append_right_inj]
    exact shortHash_eq_iff id Function.injective_id differ
  · rw [TurnParts.turnId,TurnParts.turnId,deterministicTurnId,deterministicTurnId,String.append_right_inj]
    exact shortHash_eq_iff _ TurnParts.list_injective differ
  · rw [OutboxParts.outboxId,OutboxParts.outboxId,deterministicOutboxId,deterministicOutboxId,String.append_right_inj]
    exact shortHash_eq_iff _ OutboxParts.list_injective differ

/-- 64 digits, of which only the last one depends on the input. -/
def lateDigest (bytes : List UInt8) : String :=
  String.ofList (List.replicate 63 '0' ++ [if bytes = Host.framed ["a"] then '1' else '2'])

def lateHost : Host := { sampleHost with sha256Hex := lateDigest }

/-- Two hashes that differ behind the digits an id keeps give one actor key. -/
theorem actorKeys_meet : lateHost.sha256Hex (Host.framed ["a"]) ≠ lateHost.sha256Hex (Host.framed ["b"]) ∧
    deterministicActorKey lateHost ["a"] = deterministicActorKey lateHost ["b"] := by
  decide +kernel

end Zaion.Turn
