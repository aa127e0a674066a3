import Zaion.Lib.Joined
import Zaion.Lib.Text
import Mathlib.Data.List.Basic

/-! Session keys: the identifiers of a conversation, joined by colons. -/
namespace Zaion.Session

open Lib

inductive SessionKeyStrategy where
  | dm
  | groupPerUser
  | groupShared
  deriving DecidableEq, Repr

/-- `SessionStore::generate_session_key`. -/
def generateSessionKey (platform chatId : String) (userId threadId : Option String) : SessionKeyStrategy → String
  | .dm => match threadId with
    | some tid => platform ++ ":dm:" ++ chatId ++ ":" ++ tid
    | none => platform ++ ":dm:" ++ chatId
  | .groupPerUser =>
    let uid := userId.getD "unknown"
    match threadId with
    | some tid => platform ++ ":group:" ++ chatId ++ ":" ++ uid ++ ":" ++ tid
    | none => platform ++ ":group:" ++ chatId ++ ":" ++ uid
  | .groupShared => match threadId with
    | some tid => platform ++ ":group:" ++ chatId ++ ":" ++ tid
    | none => platform ++ ":group:" ++ chatId

/-- A conversation, as the platform names it. -/
structure Conversation where
  chatId : String
  userId : String
  threadId : Option String
  deriving DecidableEq

namespace Conversation

def key (platform : String) (strategy : SessionKeyStrategy) (c : Conversation) : String :=
  generateSessionKey platform c.chatId (some c.userId) c.threadId strategy

/-- What a strategy tells conversations apart by. -/
def identifiers (strategy : SessionKeyStrategy) (c : Conversation) : List String :=
  match strategy with
  | .groupPerUser => c.chatId :: c.userId :: c.threadId.toList
  | .dm | .groupShared => c.chatId :: c.threadId.toList

/-- The identifiers that are always there: all but the thread. -/
def leading (strategy : SessionKeyStrategy) (c : Conversation) : List String :=
  match strategy with
  | .groupPerUser => [c.chatId, c.userId]
  | .dm | .groupShared => [c.chatId]

/-- The identifiers cut at their colons. -/
def pieces (strategy : SessionKeyStrategy) (c : Conversation) : List (List Char) :=
  (c.identifiers strategy).flatMap fun text => text.toList.splitOn ':'

variable {platform : String} {strategy : SessionKeyStrategy} {a b : Conversation}

theorem identifiers_ne_nil : a.identifiers strategy ≠ [] := by cases strategy <;> simp [identifiers]

/-- The kind of chat that stands behind the platform. -/
def kind : SessionKeyStrategy → String
  | .dm => ":dm:"
  | .groupPerUser | .groupShared => ":group:"

theorem key_toList : (a.key platform strategy).toList =
    platform.toList ++ (kind strategy).toList ++ [':'].intercalate ((a.identifiers strategy).map String.toList) := by
  obtain ⟨chatId, userId, threadId⟩ := a
  cases strategy <;> cases threadId <;> simp [key,generateSessionKey,identifiers,kind]

/-- Two conversations share a key just when their identifiers have the same pieces. -/
theorem key_eq_iff : a.key platform strategy = b.key platform strategy ↔ a.pieces strategy = b.pieces strategy := by
  have joins : a.key platform strategy = b.key platform strategy ↔
      [':'].intercalate ((a.identifiers strategy).map String.toList) =
        [':'].intercalate ((b.identifiers strategy).map String.toList) := by
    rw [← String.toList_inj,key_toList,key_toList,List.append_right_inj]
  rw [joins,intercalate_eq_iff (by simpa using identifiers_ne_nil) (by simpa using identifiers_ne_nil)]
  simp only [pieces,List.flatMap_map]

theorem threads_eq (same : a.threadId.toList.flatMap (fun text => text.toList.splitOn ':') =
    b.threadId.toList.flatMap (fun text => text.toList.splitOn ':')) : a.threadId = b.threadId := by
  cases left : a.threadId <;> cases right : b.threadId <;> simp only [left,right] at same
  · rfl
  · simp at same
  · simp at same
  · simp only [Option.toList_some,List.flatMap_cons,List.flatMap_nil,List.append_nil] at same
    rw [String.toList_injective (splitOn_injective ':' same)]

theorem identifiers_eq : a.identifiers strategy = a.leading strategy ++ a.threadId.toList := by
  cases strategy <;> rfl

theorem flatMap_plain {texts : List String} (plain : ∀ text ∈ texts, ':' ∉ text.toList) :
    texts.flatMap (fun text => text.toList.splitOn ':') = texts.map String.toList := by
  induction texts with
  | nil => rfl
  | cons text rest ih =>
    rw [List.flatMap_cons,List.map_cons,ih fun text member => plain text (.tail _ member),
      List.splitOn_eq_singleton (plain text (.head _)),List.singleton_append]

/-- Colons in threads alone never mix up conversations. -/
theorem identifiers_eq_of_pieces (plain_a : ∀ text ∈ a.leading strategy, ':' ∉ text.toList)
    (plain_b : ∀ text ∈ b.leading strategy, ':' ∉ text.toList) (same : a.pieces strategy = b.pieces strategy) :
    a.identifiers strategy = b.identifiers strategy := by
  have count : (a.leading strategy).length = (b.leading strategy).length := by cases strategy <;> rfl
  rw [pieces,pieces,identifiers_eq,identifiers_eq,List.flatMap_append,List.flatMap_append,
    flatMap_plain plain_a,flatMap_plain plain_b] at same
  obtain ⟨leading, threads⟩ := List.append_inj same (by simpa using count)
  have leading := List.map_injective_iff.mpr (fun _ _ texts => String.toList_injective texts) leading
  rw [identifiers_eq,identifiers_eq,threads_eq threads,leading]

end Conversation

open Conversation in
/-- Two conversations that a strategy tells apart have keys of their own just when their identifiers, cut
at the colons, differ; and they do where no chat id, and no user id that counts, holds a colon. -/
theorem session_keys_isolated (platform : String) (strategy : SessionKeyStrategy) (a b : Conversation) :
    ((a.identifiers strategy ≠ b.identifiers strategy → a.key platform strategy ≠ b.key platform strategy) ↔
      (a.identifiers strategy ≠ b.identifiers strategy → a.pieces strategy ≠ b.pieces strategy)) ∧
    ((∀ text ∈ a.leading strategy ++ b.leading strategy, ':' ∉ text.toList) →
      a.identifiers strategy ≠ b.identifiers strategy → a.key platform strategy ≠ b.key platform strategy) := by
  simp only [ne_eq,key_eq_iff,true_and]
  intro plain different same
  exact different (identifiers_eq_of_pieces (fun text member => plain text (List.mem_append_left _ member))
    (fun text member => plain text (List.mem_append_right _ member)) same)

/-- Two users of one group share a key: one's user id reads as the other's user and thread. -/
theorem users_share_key :
    Conversation.key "matrix" .groupPerUser ⟨"room", "bob:host", none⟩ =
      Conversation.key "matrix" .groupPerUser ⟨"room", "bob", some "host"⟩ ∧
    Conversation.key "matrix" .dm ⟨"room:host", "bob", none⟩ = Conversation.key "matrix" .dm ⟨"room", "bob", some "host"⟩ ∧
    Conversation.key "matrix" .groupShared ⟨"room:host", "bob", some "t"⟩ =
      Conversation.key "matrix" .groupShared ⟨"room", "bob", some "host:t"⟩ := by decide

theorem members_keep_apart : Conversation.key "discord" .groupPerUser ⟨"channel-123", "user-456", none⟩ ≠
    Conversation.key "discord" .groupPerUser ⟨"channel-123", "user-457", some "a:b"⟩ :=
  (session_keys_isolated "discord" .groupPerUser ⟨"channel-123", "user-456", none⟩
    ⟨"channel-123", "user-457", some "a:b"⟩).2 (by decide) (by decide)

end Zaion.Session
