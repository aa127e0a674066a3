import Mathlib.Data.List.Basic

/-! JSON values as `serde_json` holds them. Object fields are kept in the order
they were written; every lookup is by name. A float is its IEEE bit pattern, so
that a value is a finite piece of data and equality is decidable. -/
namespace Zaion

inductive JsonNumber where
  | posInt (value : Nat)
  | negInt (value : Int)
  | float (bits : UInt64)
  deriving DecidableEq, Repr

inductive Json where
  | null
  | bool (value : Bool)
  | num (value : JsonNumber)
  | str (value : String)
  | arr (items : List Json)
  | obj (fields : List (String × Json))

namespace Json

mutual

def decEq : (a b : Json) → Decidable (a = b)
  | .null, .null => isTrue rfl
  | .bool a, .bool b => if h : a = b then isTrue (h ▸ rfl) else isFalse (by simpa using h)
  | .num a, .num b => if h : a = b then isTrue (h ▸ rfl) else isFalse (by simpa using h)
  | .str a, .str b => if h : a = b then isTrue (h ▸ rfl) else isFalse (by simpa using h)
  | .arr a, .arr b =>
    match decEqItems a b with
    | isTrue h => isTrue (h ▸ rfl)
    | isFalse h => isFalse (by simpa using h)
  | .obj a, .obj b =>
    match decEqFields a b with
    | isTrue h => isTrue (h ▸ rfl)
    | isFalse h => isFalse (by simpa using h)
  | .null, .bool _ | .null, .num _ | .null, .str _ | .null, .arr _ | .null, .obj _
  | .bool _, .null | .bool _, .num _ | .bool _, .str _ | .bool _, .arr _ | .bool _, .obj _
  | .num _, .null | .num _, .bool _ | .num _, .str _ | .num _, .arr _ | .num _, .obj _
  | .str _, .null | .str _, .bool _ | .str _, .num _ | .str _, .arr _ | .str _, .obj _
  | .arr _, .null | .arr _, .bool _ | .arr _, .num _ | .arr _, .str _ | .arr _, .obj _
  | .obj _, .null | .obj _, .bool _ | .obj _, .num _ | .obj _, .str _ | .obj _, .arr _ =>
    isFalse (by simp)

def decEqItems : (a b : List Json) → Decidable (a = b)
  | [], [] => isTrue rfl
  | [], _ :: _ | _ :: _, [] => isFalse (by simp)
  | a :: as, b :: bs =>
    match decEq a b, decEqItems as bs with
    | isTrue h, isTrue hs => isTrue (h ▸ hs ▸ rfl)
    | isFalse h, _ => isFalse (fun same => h (List.cons.inj same).1)
    | _, isFalse hs => isFalse (fun same => hs (List.cons.inj same).2)

def decEqFields : (a b : List (String × Json)) → Decidable (a = b)
  | [], [] => isTrue rfl
  | [], _ :: _ | _ :: _, [] => isFalse (by simp)
  | (k, a) :: as, (l, b) :: bs =>
    if hk : k = l then
      match decEq a b, decEqFields as bs with
      | isTrue h, isTrue hs => isTrue (hk ▸ h ▸ hs ▸ rfl)
      | isFalse h, _ => isFalse (fun same => h (Prod.mk.inj (List.cons.inj same).1).2)
      | _, isFalse hs => isFalse (fun same => hs (List.cons.inj same).2)
    else isFalse (fun same => hk (Prod.mk.inj (List.cons.inj same).1).1)

end

instance : DecidableEq Json := decEq

def nat (n : Nat) : Json := .num (.posInt n)

/-- `Option` fields are written as `null` when absent. -/
def ofOption (f : α → Json) : Option α → Json
  | none => .null
  | some a => f a

def asStr : Json → Option String
  | .str s => some s
  | _ => none

def asBool : Json → Option Bool
  | .bool b => some b
  | _ => none

def asU64 : Json → Option Nat
  | .num (.posInt n) => some n
  | _ => none

def asArray : Json → Option (List Json)
  | .arr items => some items
  | _ => none

def asObject : Json → Option (List (String × Json))
  | .obj fields => some fields
  | _ => none

def lookup (key : String) : List (String × Json) → Option Json
  | [] => none
  | (k, v) :: rest => if k = key then some v else lookup key rest

def get (key : String) : Json → Option Json
  | .obj fields => lookup key fields
  | _ => none

/-- `Value::pointer`, the path given as its list of object keys. -/
def pointer : List String → Json → Option Json
  | [], v => some v
  | key :: path, v => (v.get key).bind (pointer path)

/-- The text at a path, `None` when the path is absent or holds no string. -/
def textAt (path : List String) (v : Json) : Option String := (v.pointer path).bind asStr

mutual

/-- No float, integers in `u64` or negative in `i64`, the keys of each object distinct:
values that print and parse exactly. -/
def exact : Json → Bool
  | .num (.posInt n) => decide (n < 18446744073709551616)
  | .num (.negInt i) => decide (-9223372036854775808 ≤ i) && decide (i < 0)
  | .num (.float _) => false
  | .arr items => exactItems items
  | .obj fields => exactFields fields && decide (fields.map Prod.fst).Nodup
  | _ => true

def exactItems : List Json → Bool
  | [] => true
  | a :: as => exact a && exactItems as

def exactFields : List (String × Json) → Bool
  | [] => true
  | (_, a) :: as => exact a && exactFields as

end

mutual

/-- Nesting depth of arrays and objects; the parser gives up beyond 127. -/
def depth : Json → Nat
  | .arr items => depthItems items + 1
  | .obj fields => depthFields fields + 1
  | _ => 0

def depthItems : List Json → Nat
  | [] => 0
  | a :: as => max (depth a) (depthItems as)

def depthFields : List (String × Json) → Nat
  | [] => 0
  | (_, a) :: as => max (depth a) (depthFields as)

end

theorem exactItems_iff {items : List Json} : exactItems items = true ↔ ∀ v ∈ items, v.exact = true := by
  induction items with
  | nil => simp [exactItems]
  | cons v items ih => simp [exactItems,ih]

theorem depthItems_le_iff {items : List Json} {n : Nat} : depthItems items ≤ n ↔ ∀ v ∈ items, v.depth ≤ n := by
  induction items with
  | nil => simp [depthItems]
  | cons v items ih => rw [depthItems,Nat.max_le,ih,List.forall_mem_cons]

theorem str_injective : Function.Injective Json.str := fun _ _ same => Json.str.inj same

theorem ofOption_injective {α : Type} {f : α → Json} (injective : Function.Injective f)
    (present : ∀ a, f a ≠ .null) : Function.Injective (Json.ofOption f) := by
  intro a b same
  cases a with
  | none =>
    cases b with
    | none => rfl
    | some b => exact absurd same.symm (present b)
  | some a =>
    cases b with
    | none => exact absurd same (present a)
    | some b => exact congrArg some (injective same)

theorem ofOption_str_plain (text : Option String) :
    (Json.ofOption .str text).exact = true ∧ (Json.ofOption .str text).depth = 0 := by
  cases text <;> simp [Json.ofOption,Json.exact,Json.depth]

/-- Values on which printing and parsing are exact inverses. -/
def plain (v : Json) : Bool := v.exact && decide (v.depth ≤ 127)

end Json

end Zaion
