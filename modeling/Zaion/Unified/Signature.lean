import Mathlib.Data.List.Infix
import Zaion.Host
import Zaion.Lib.Hex
import Zaion.Lib.Sha256
import Zaion.Lib.Text

/-! Turn signatures of the unified runtime: what is signed, what the result of a turn returns of
it, and what a verifier needs. The signed bytes are the texts with one separator byte between
them and no lengths, so a text that contains the separator can be cut in another place. -/
namespace Zaion.Unified

open Lib

/-- SHA-256 and Ed25519, with signatures as values of their own. -/
structure Signer (Key PublicKey Signature : Type) where
  sha256 : List UInt8 → List UInt8
  sign : Key → List UInt8 → Signature
  /-- The signature has the 64 bytes of one. -/
  fits : Signature → Bool
  verifyingKey : Key → PublicKey
  principalId : Key → String
  verify : PublicKey → List UInt8 → Signature → Except String Unit

variable {Key PublicKey Signature : Type} {s : Signer Key PublicKey Signature}

/-- No two byte strings have one digest, and a signature verifies what was signed and nothing else. -/
structure Signer.Ideal (s : Signer Key PublicKey Signature) : Prop where
  collisionFree : Function.Injective s.sha256
  fits : ∀ key bytes, s.fits (s.sign key bytes) = true
  verifies : ∀ key bytes other, s.verify (s.verifyingKey key) other (s.sign key bytes) = .ok () ↔ other = bytes

structure TurnSignature (Signature : Type) where
  scheme : String
  signature : Signature
  signingKeyId : String
  schemaVersion : Nat
  deriving DecidableEq

def separator : Char := '\x1f'

/-- What `canonical_digest` feeds the digest; the time is a `u128`. -/
def canonicalBytes (userMessage response turnId : String) (timestampNs : BitVec 128) : List UInt8 :=
  Host.utf8 userMessage ++ [0x1f] ++ Host.utf8 response ++ [0x1f] ++ Host.utf8 turnId ++ [0x1f] ++
    Host.littleEndian 16 timestampNs.toNat

namespace TurnSignature

def canonicalDigest (s : Signer Key PublicKey Signature) (userMessage response turnId : String)
    (timestampNs : BitVec 128) : List UInt8 :=
  s.sha256 (canonicalBytes userMessage response turnId timestampNs)

def verify (s : Signer Key PublicKey Signature) (ts : TurnSignature Signature) (userMessage response turnId : String)
    (timestampNs : BitVec 128) (verifyingKey : PublicKey) : Except String Unit :=
  if ts.schemaVersion < 2 then .error "legacy schema_version < 2, no real signature"
  else if s.fits ts.signature = false then .error "signature not 64 bytes"
  else match s.verify verifyingKey (canonicalDigest s userMessage response turnId timestampNs) ts.signature with
    | .ok () => .ok ()
    | .error e => .error ("ed25519 verify failed: " ++ e)

end TurnSignature

/-- `turnId` is the fresh UUID and `timestampNs` the clock. -/
def signTurn (s : Signer Key PublicKey Signature) (key : Key) (userMessage response turnId : String)
    (timestampNs : BitVec 128) : TurnSignature Signature where
  scheme := "ed25519-sha256-v1"
  signature := s.sign key (TurnSignature.canonicalDigest s userMessage response turnId timestampNs)
  signingKeyId := s.principalId key
  schemaVersion := 2

def generateProvenanceHash (s : Signer Key PublicKey Signature) (userMessage response principalId : String) : String :=
  hexEncode (s.sha256 (Host.utf8 (userMessage ++ "|" ++ response ++ "|" ++ principalId)))

structure TurnRuntimeMemoryEvidence where
  schema : String
  memoryEnabled : Bool
  memoryContextBytes : Nat
  memoryContextHash : String
  fencedContext : Bool
  evidenceHash : String
  deriving DecidableEq

structure TurnCompressionEvidence where
  schema : String
  compressionRequested : Bool
  wasCompressed : Bool
  originalTurns : Nat
  compressedTurns : Nat
  turnsPruned : Nat
  originalTokens : Nat
  compressedTokens : Nat
  tokenBudget : Nat
  triggerThreshold : Nat
  summaryHash : String
  summaryStrategy : String
  prunedToolOutputs : Nat
  protectedHeadTurns : Nat
  protectedTailTurns : Nat
  protectedTailTokens : Nat
  summaryBudgetTokens : Nat
  evidenceHash : String
  deriving DecidableEq

structure UnifiedAgentResult (Signature : Type) where
  response : String
  wasCompressed : Bool
  turnsCompressed : Nat
  compressionEvidence : TurnCompressionEvidence
  memoryContextSize : Nat
  runtimeMemoryEvidence : Option TurnRuntimeMemoryEvidence
  mcpToolsLoaded : Nat
  executionTimeMs : Nat
  ed25519Signature : TurnSignature Signature
  provenanceHash : String
  deriving DecidableEq

/-- What a turn has found out when it signs: the response, the evidence and the counts. -/
structure Execution where
  response : String
  compressionEvidence : TurnCompressionEvidence
  memoryContextSize : Nat
  runtimeMemoryEvidence : Option TurnRuntimeMemoryEvidence
  mcpToolsLoaded : Nat
  executionTimeMs : Nat

/-- The end of `execute_turn`: provenance, signature and result. -/
def turnResult (s : Signer Key PublicKey Signature) (key : Key) (principalId userMessage : String) (e : Execution)
    (turnId : String) (timestampNs : BitVec 128) : UnifiedAgentResult Signature where
  response := e.response
  wasCompressed := e.compressionEvidence.wasCompressed
  turnsCompressed := e.compressionEvidence.turnsPruned
  compressionEvidence := e.compressionEvidence
  memoryContextSize := e.memoryContextSize
  runtimeMemoryEvidence := e.runtimeMemoryEvidence
  mcpToolsLoaded := e.mcpToolsLoaded
  executionTimeMs := e.executionTimeMs
  ed25519Signature := signTurn s key userMessage e.response turnId timestampNs
  provenanceHash := generateProvenanceHash s userMessage e.response principalId

theorem verify_signTurn (ideal : s.Ideal) (key : Key) (u r t u' r' t' : String) (ts ts' : BitVec 128) :
    (signTurn s key u r t ts).verify s u' r' t' ts' (s.verifyingKey key) = .ok () ↔
      canonicalBytes u' r' t' ts' = canonicalBytes u r t ts := by
  have same := ideal.verifies key (TurnSignature.canonicalDigest s u r t ts) (TurnSignature.canonicalDigest s u' r' t' ts')
  simp only [TurnSignature.verify,signTurn,ideal.fits,Nat.lt_irrefl,if_false,Bool.true_eq_false]
  rw [← ideal.collisionFree.eq_iff]
  rw [← TurnSignature.canonicalDigest,← TurnSignature.canonicalDigest,← same]
  split
  · rename_i verified
    rw [verified]
  · rename_i e refused
    rw [refused]
    simp

/-- The three texts with the separators between them. -/
def joined (userMessage response turnId : List Char) : List Char :=
  userMessage ++ separator :: (response ++ separator :: turnId)

theorem canonicalBytes_eq (u r t : String) (ts : BitVec 128) : canonicalBytes u r t ts =
    Host.utf8 (String.ofList (joined u.toList r.toList t.toList)) ++ (0x1f :: Host.littleEndian 16 ts.toNat) := by
  have one : Host.utf8 (String.singleton separator) = [0x1f] := by decide +kernel
  have text : String.ofList (joined u.toList r.toList t.toList) =
      u ++ (String.singleton separator ++ (r ++ (String.singleton separator ++ t))) := by
    apply String.toList_injective
    simp [joined]
  rw [text]
  simp only [Host.utf8_append,one,canonicalBytes]
  simp

/-- Equal bytes have equal times and equal texts with their separators. -/
theorem canonicalBytes_inj {u r t u' r' t' : String} {ts ts' : BitVec 128} :
    canonicalBytes u' r' t' ts' = canonicalBytes u r t ts ↔
      joined u'.toList r'.toList t'.toList = joined u.toList r.toList t.toList ∧ ts' = ts := by
  rw [canonicalBytes_eq,canonicalBytes_eq]
  constructor
  · intro same
    obtain ⟨texts, times⟩ := List.append_inj' same (by simp [Host.littleEndian_length])
    refine ⟨String.ofList_injective (Host.utf8_injective texts), ?_⟩
    apply BitVec.eq_of_toNat_eq
    exact Host.littleEndian_injective ts'.isLt ts.isLt (List.cons.inj times).2
  · rintro ⟨texts, rfl⟩
    rw [texts]

/-- A text is cut at its first separator in one way. -/
theorem first_cut {a b x y : List Char} (noneA : separator ∉ a) (noneB : separator ∉ b)
    (same : a ++ separator :: x = b ++ separator :: y) : a = b ∧ x = y := by
  rcases List.append_eq_append_iff.mp same with ⟨_ | ⟨c, rest⟩, right, tail⟩ | ⟨_ | ⟨c, rest⟩, left, tail⟩
  · exact ⟨by simpa using right.symm, by simpa using tail⟩
  · obtain rfl : separator = c := (List.cons.inj tail).1
    exact absurd (right ▸ List.mem_append_right _ List.mem_cons_self) noneB
  · exact ⟨by simpa using left, by simpa using tail.symm⟩
  · obtain rfl : separator = c := (List.cons.inj tail).1
    exact absurd (left ▸ List.mem_append_right _ List.mem_cons_self) noneA

/-- A join without other separators is cut in one way only. -/
theorem joined_inj_iff (u r t : List Char) :
    (∀ u' r' t', joined u' r' t' = joined u r t → u' = u ∧ r' = r ∧ t' = t) ↔
      separator ∉ u ∧ separator ∉ r ∧ separator ∉ t := by
  constructor
  · intro only
    refine ⟨?_, ?_, ?_⟩
    · intro inside
      obtain ⟨a, b, rfl⟩ := List.append_of_mem inside
      have := (only a b (r ++ separator :: t) (by simp [joined])).1
      simp at this
    · intro inside
      obtain ⟨a, b, rfl⟩ := List.append_of_mem inside
      have := (only (u ++ separator :: a) b t (by simp [joined])).1
      simp at this
    · intro inside
      obtain ⟨a, b, rfl⟩ := List.append_of_mem inside
      have := (only (u ++ separator :: r) a b (by simp [joined])).1
      simp at this
  · rintro ⟨noneU, noneR, noneT⟩ u' r' t' same
    have counted := congrArg (List.count separator) same
    simp only [joined,List.count_append,List.count_cons_self,List.count_eq_zero.mpr noneU,List.count_eq_zero.mpr noneR,
      List.count_eq_zero.mpr noneT] at counted
    have noneU' : separator ∉ u' := List.count_eq_zero.mp (by omega)
    have noneR' : separator ∉ r' := List.count_eq_zero.mp (by omega)
    obtain ⟨rfl, rest⟩ := first_cut noneU' noneU same
    obtain ⟨rfl, rfl⟩ := first_cut noneR' noneR rest
    exact ⟨rfl, rfl, rfl⟩

/-- The signature of a turn verifies for no other texts and no other time. -/
def Binds (s : Signer Key PublicKey Signature) (key : Key) (u r t : String) (ts : BitVec 128) : Prop :=
  ∀ u' r' t' ts', (signTurn s key u r t ts).verify s u' r' t' ts' (s.verifyingKey key) = .ok () →
    (u', r', t', ts') = (u, r, t, ts)

/-- Runs on one key and user message with equal results, the times they took aside, signed one
turn id and one time, with which the result verifies. -/
def Checkable (s : Signer Key PublicKey Signature) (key : Key) (u : String) : Prop :=
  ∀ principalId principalId' e e' t t' ts ts',
    { turnResult s key principalId u e t ts with executionTimeMs := 0 } =
      { turnResult s key principalId' u e' t' ts' with executionTimeMs := 0 } →
    t = t' ∧ ts = ts' ∧ (turnResult s key principalId u e t ts).ed25519Signature.verify s u
      (turnResult s key principalId u e t ts).response t' ts' (s.verifyingKey key) = .ok ()

theorem binds_iff (ideal : s.Ideal) (key : Key) (u r t : String) (ts : BitVec 128) :
    Binds s key u r t ts ↔ separator ∉ u.toList ∧ separator ∉ r.toList ∧ separator ∉ t.toList := by
  rw [← joined_inj_iff]
  simp only [Binds,verify_signTurn ideal,canonicalBytes_inj]
  constructor
  · intro binds u' r' t' same
    have := binds (String.ofList u') (String.ofList r') (String.ofList t') ts (by simpa using same)
    simp only [Prod.mk.injEq] at this
    obtain ⟨rfl, rfl, rfl, -⟩ := this
    simp
  · rintro only u' r' t' ts' ⟨same, rfl⟩
    obtain ⟨sameU, sameR, sameT⟩ := only _ _ _ same
    rw [String.toList_injective sameU,String.toList_injective sameR,String.toList_injective sameT]

theorem checkable (ideal : s.Ideal) (key : Key) (u : String) : Checkable s key u := by
  intro principalId principalId' e e' t t' ts ts' same
  have response : e.response = e'.response := congrArg UnifiedAgentResult.response same
  have signed : s.sign key (TurnSignature.canonicalDigest s u e.response t ts) =
      s.sign key (TurnSignature.canonicalDigest s u e'.response t' ts') :=
    congrArg (fun result => result.ed25519Signature.signature) same
  have verified := (ideal.verifies key (TurnSignature.canonicalDigest s u e.response t ts) _).mpr rfl
  rw [signed] at verified
  have bytes := ideal.collisionFree ((ideal.verifies key _ _).mp verified)
  obtain ⟨texts, rfl⟩ := canonicalBytes_inj.mp bytes
  obtain rfl : t = t' := by
    rw [response] at texts
    simpa [joined,String.toList_inj] using texts
  refine ⟨rfl, rfl, ?_⟩
  exact (verify_signTurn ideal key u e.response t u e.response t ts ts).mpr rfl

/-- A turn signature binds its turn, and can be checked, exactly when no text contains the
separator. -/
theorem turnSignature_binds_iff (ideal : s.Ideal) (key : Key) (u r t : String) (ts : BitVec 128) :
    (Binds s key u r t ts ∧ Checkable s key u) ↔ separator ∉ u.toList ∧ separator ∉ r.toList ∧ separator ∉ t.toList := by
  rw [binds_iff ideal,and_iff_left (checkable ideal key u)]

def sampleTurnId : String := "67e55044-10b1-426f-9247-bb680e5fe0c8"

def sampleTime : BitVec 128 := 1700000000000000000

/-- SHA-256 of the one turn, and a stand-in without collisions elsewhere; a signature is the
byte string signed. -/
def sampleSigner : Signer Unit Unit (List UInt8) where
  sha256 bytes :=
    if bytes = canonicalBytes "Sign me" "Signed!" sampleTurnId sampleTime then Sha256.digest bytes
    else List.replicate 33 0 ++ bytes
  sign _ bytes := bytes
  fits _ := true
  verifyingKey _ := ()
  principalId _ := "5DkPZ9Xq"
  verify _ bytes signature := if bytes = signature then .ok () else .error "signature error"

theorem sampleSigner_ideal : sampleSigner.Ideal where
  collisionFree := by
    intro a b same
    have lengths := congrArg List.length same
    simp only [sampleSigner] at same lengths
    split at same <;> split at same <;> rename_i left right
    · rw [left,right]
    · simp [left,right,Sha256.digest_length] at lengths
    · simp [left,right,Sha256.digest_length] at lengths
    · exact List.append_cancel_left same
  fits _ _ := rfl
  verifies _ bytes other := by
    simp only [sampleSigner]
    split
    · simpa
    · simpa

theorem signMe_binds : Binds sampleSigner () "Sign me" "Signed!" sampleTurnId sampleTime ∧ Checkable sampleSigner () "Sign me" :=
  (turnSignature_binds_iff sampleSigner_ideal () "Sign me" "Signed!" sampleTurnId sampleTime).mpr (by decide)

/-- One signature for two conversations: the separator is in the message of the one and in the
response of the other. -/
theorem separator_moves : sampleSigner.Ideal ∧
    (signTurn sampleSigner () "pay\x1f10" "ok" sampleTurnId sampleTime).verify sampleSigner "pay" "10\x1fok" sampleTurnId
      sampleTime () = .ok () ∧ ("pay\x1f10", "ok") ≠ ("pay", "10\x1fok") := by
  refine ⟨sampleSigner_ideal, ?_, by decide⟩
  apply (verify_signTurn sampleSigner_ideal () _ _ _ _ _ _ _ _).mpr
  apply canonicalBytes_inj.mpr
  decide

end Zaion.Unified
