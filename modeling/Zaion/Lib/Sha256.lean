import Zaion.Lib.Hex

/-! SHA-256 of a list of bytes. Words are naturals below 2³². -/
namespace Zaion.Lib.Sha256

def word (n : Nat) : Nat := n % 4294967296

def rotr (n x : Nat) : Nat := word (x >>> n ||| x <<< (32 - n))

def roundKeys : List Nat := [
  0x428a2f98, 0x71374491, 0xb5c0fbcf, 0xe9b5dba5, 0x3956c25b, 0x59f111f1, 0x923f82a4, 0xab1c5ed5,
  0xd807aa98, 0x12835b01, 0x243185be, 0x550c7dc3, 0x72be5d74, 0x80deb1fe, 0x9bdc06a7, 0xc19bf174,
  0xe49b69c1, 0xefbe4786, 0x0fc19dc6, 0x240ca1cc, 0x2de92c6f, 0x4a7484aa, 0x5cb0a9dc, 0x76f988da,
  0x983e5152, 0xa831c66d, 0xb00327c8, 0xbf597fc7, 0xc6e00bf3, 0xd5a79147, 0x06ca6351, 0x14292967,
  0x27b70a85, 0x2e1b2138, 0x4d2c6dfc, 0x53380d13, 0x650a7354, 0x766a0abb, 0x81c2c92e, 0x92722c85,
  0xa2bfe8a1, 0xa81a664b, 0xc24b8b70, 0xc76c51a3, 0xd192e819, 0xd6990624, 0xf40e3585, 0x106aa070,
  0x19a4c116, 0x1e376c08, 0x2748774c, 0x34b0bcb5, 0x391c0cb3, 0x4ed8aa4a, 0x5b9cca4f, 0x682e6ff3,
  0x748f82ee, 0x78a5636f, 0x84c87814, 0x8cc70208, 0x90befffa, 0xa4506ceb, 0xbef9a3f7, 0xc67178f2]

structure State where
  a : Nat
  b : Nat
  c : Nat
  d : Nat
  e : Nat
  f : Nat
  g : Nat
  h : Nat

def State.initial : State :=
  ⟨0x6a09e667, 0xbb67ae85, 0x3c6ef372, 0xa54ff53a, 0x510e527f, 0x9b05688c, 0x1f83d9ab, 0x5be0cd19⟩

def State.round (s : State) (key w : Nat) : State :=
  let choice := (s.e &&& s.f) ^^^ ((4294967295 ^^^ s.e) &&& s.g)
  let majority := (s.a &&& s.b) ^^^ (s.a &&& s.c) ^^^ (s.b &&& s.c)
  let t := s.h + (rotr 6 s.e ^^^ rotr 11 s.e ^^^ rotr 25 s.e) + choice + key + w
  let u := (rotr 2 s.a ^^^ rotr 13 s.a ^^^ rotr 22 s.a) + majority
  ⟨word (t + u), s.a, s.b, s.c, word (s.d + t), s.e, s.f, s.g⟩

/-- The next word of the schedule, the words so far given last first. -/
def nextWord (words : List Nat) : Nat :=
  let x := words.getD 14 0
  let y := words.getD 1 0
  word ((rotr 17 y ^^^ rotr 19 y ^^^ y >>> 10) + words.getD 6 0 + (rotr 7 x ^^^ rotr 18 x ^^^ x >>> 3) +
    words.getD 15 0)

def extend : Nat → List Nat → List Nat
  | 0, words => words
  | n + 1, words => extend n (nextWord words :: words)

def State.block (s : State) (words : List Nat) : State :=
  let t := (roundKeys.zip (extend 48 words.reverse).reverse).foldl (fun s p => s.round p.1 p.2) s
  ⟨word (s.a + t.a), word (s.b + t.b), word (s.c + t.c), word (s.d + t.d), word (s.e + t.e), word (s.f + t.f),
    word (s.g + t.g), word (s.h + t.h)⟩

def bigEndian : Nat → Nat → List Nat
  | 0, _ => []
  | n + 1, value => bigEndian n (value / 256) ++ [value % 256]

def padded (bytes : List Nat) : List Nat :=
  bytes ++ 128 :: List.replicate ((119 - bytes.length % 64) % 64) 0 ++ bigEndian 8 (bytes.length * 8)

def wordsOf : List Nat → List Nat
  | a :: b :: c :: d :: rest => (((a * 256 + b) * 256 + c) * 256 + d) :: wordsOf rest
  | _ => []

def blocks : Nat → List Nat → State → State
  | 0, _, s => s
  | n + 1, words, s => blocks n (words.drop 16) (s.block (words.take 16))

def digest (bytes : List UInt8) : List UInt8 :=
  let words := wordsOf (padded (bytes.map UInt8.toNat))
  let s := blocks (words.length / 16) words State.initial
  ([s.a, s.b, s.c, s.d, s.e, s.f, s.g, s.h].flatMap (bigEndian 4)).map UInt8.ofNat

theorem bigEndian_length (n value : Nat) : (bigEndian n value).length = n := by
  induction n generalizing value with
  | zero => rfl
  | succ n ih => simp [bigEndian,ih]

theorem digest_length (bytes : List UInt8) : (digest bytes).length = 32 := by
  simp [digest,bigEndian_length]

/-- `hex::encode(Sha256::digest(bytes))`. -/
def hexText (bytes : List UInt8) : String := hexEncode (digest bytes)

theorem hexText_length (bytes : List UInt8) : (hexText bytes).toList.length = 64 := by
  simp [hexText,hexEncode,hexChars_length,digest_length]

theorem hexText_lower {bytes : List UInt8} {c : Char} (member : c ∈ (hexText bytes).toList) :
    isLowerHex c = true := by
  simp only [hexText,hexEncode,String.toList_ofList] at member
  exact hexChars_lower member

/-- The digest the standard gives for `abc`. -/
example : hexText [97, 98, 99] = "ba7816bf8f01cfea414140de5dae2223b00361a396177a9cb410ff61f20015ad" := by
  decide +kernel

end Zaion.Lib.Sha256
