import Mathlib

/-!
# SHA-256

The hash function on byte strings, with words as natural numbers below `2 ^ 32`: padding to blocks
of 64 bytes, the message schedule, 64 rounds for each block, and the digest as 64 lower-case
hexadecimal digits (`length_hexdigest`, `mem_hexdigest`). `hmac` is the keyed hash on top of it.
-/

namespace OpenMemory.Lib.Sha256

/-- Addition of 32-bit words. -/
def add (a b : Nat) : Nat := (a + b) % 2 ^ 32

/-- Rotation of a 32-bit word to the right. -/
def rotr (n x : Nat) : Nat := x >>> n ||| (x <<< (32 - n)) % 2 ^ 32

def complement (x : Nat) : Nat := 2 ^ 32 - 1 - x

def bigSigma0 (x : Nat) : Nat := rotr 2 x ^^^ rotr 13 x ^^^ rotr 22 x

def bigSigma1 (x : Nat) : Nat := rotr 6 x ^^^ rotr 11 x ^^^ rotr 25 x

def smallSigma0 (x : Nat) : Nat := rotr 7 x ^^^ rotr 18 x ^^^ x >>> 3

def smallSigma1 (x : Nat) : Nat := rotr 17 x ^^^ rotr 19 x ^^^ x >>> 10

def choose (x y z : Nat) : Nat := (x &&& y) ^^^ (complement x &&& z)

def majority (x y z : Nat) : Nat := (x &&& y) ^^^ (x &&& z) ^^^ (y &&& z)

/-- The round constants. -/
def constants : List Nat :=
  [0x428a2f98, 0x71374491, 0xb5c0fbcf, 0xe9b5dba5, 0x3956c25b, 0x59f111f1, 0x923f82a4, 0xab1c5ed5,
    0xd807aa98, 0x12835b01, 0x243185be, 0x550c7dc3, 0x72be5d74, 0x80deb1fe, 0x9bdc06a7, 0xc19bf174,
    0xe49b69c1, 0xefbe4786, 0x0fc19dc6, 0x240ca1cc, 0x2de92c6f, 0x4a7484aa, 0x5cb0a9dc, 0x76f988da,
    0x983e5152, 0xa831c66d, 0xb00327c8, 0xbf597fc7, 0xc6e00bf3, 0xd5a79147, 0x06ca6351, 0x14292967,
    0x27b70a85, 0x2e1b2138, 0x4d2c6dfc, 0x53380d13, 0x650a7354, 0x766a0abb, 0x81c2c92e, 0x92722c85,
    0xa2bfe8a1, 0xa81a664b, 0xc24b8b70, 0xc76c51a3, 0xd192e819, 0xd6990624, 0xf40e3585, 0x106aa070,
    0x19a4c116, 0x1e376c08, 0x2748774c, 0x34b0bcb5, 0x391c0cb3, 0x4ed8aa4a, 0x5b9cca4f, 0x682e6ff3,
    0x748f82ee, 0x78a5636f, 0x84c87814, 0x8cc70208, 0x90befffa, 0xa4506ceb, 0xbef9a3f7, 0xc67178f2]

/-- The eight working variables. -/
structure State where
  a : Nat
  b : Nat
  c : Nat
  d : Nat
  e : Nat
  f : Nat
  g : Nat
  h : Nat
  deriving DecidableEq, Repr

def initial : State :=
  ⟨0x6a09e667, 0xbb67ae85, 0x3c6ef372, 0xa54ff53a, 0x510e527f, 0x9b05688c, 0x1f83d9ab, 0x5be0cd19⟩

def State.words (s : State) : List Nat := [s.a, s.b, s.c, s.d, s.e, s.f, s.g, s.h]

/-- One round with its constant and word of the schedule. -/
def State.round (s : State) (k w : Nat) : State :=
  let t₁ := add (add (add (add s.h (bigSigma1 s.e)) (choose s.e s.f s.g)) k) w
  let t₂ := add (bigSigma0 s.a) (majority s.a s.b s.c)
  ⟨add t₁ t₂, s.a, s.b, s.c, add s.d t₁, s.e, s.f, s.g⟩

def State.sum (s t : State) : State :=
  ⟨add s.a t.a, add s.b t.b, add s.c t.c, add s.d t.d, add s.e t.e, add s.f t.f, add s.g t.g,
    add s.h t.h⟩

/-- The rounds of a block. `window` holds the next 16 words of the schedule, and each round
computes the word that follows them. -/
def State.rounds : State → List Nat → List Nat → State
  | s, [], _ => s
  | s, k :: ks, window =>
    let word (i : Nat) : Nat := window.getD i 0
    let next := add (add (add (smallSigma1 (word 14)) (word 9)) (smallSigma0 (word 1))) (word 0)
    (s.round k (word 0)).rounds ks (window.tail ++ [next])

/-- Big-endian words of a byte string. -/
def wordsOf : List Nat → List Nat
  | b₀ :: b₁ :: b₂ :: b₃ :: rest => (((b₀ * 256 + b₁) * 256 + b₂) * 256 + b₃) :: wordsOf rest
  | _ => []

/-- The blocks, one after another. -/
def State.compress : Nat → State → List Nat → State
  | 0, s, _ => s
  | n + 1, s, words =>
    (s.sum (s.rounds constants (words.take 16))).compress n (words.drop 16)

/-- A one bit, zeros, and the length in bits as 8 bytes. -/
def padding (bytes : List Nat) : List Nat :=
  bytes ++ 0x80 :: List.replicate ((119 - bytes.length % 64) % 64) 0 ++
    (List.range 8).map fun i => bytes.length * 8 / 256 ^ (7 - i) % 256

def hash (bytes : List Nat) : State :=
  let words := wordsOf (padding bytes)
  initial.compress (words.length / 16) words

/-- The hexadecimal digits of a word. -/
def hexWord (digit : Nat → Char) (w : Nat) : List Char :=
  (List.range 8).map fun i => digit (w / 16 ^ (7 - i) % 16)

def hexdigest (digit : Nat → Char) (bytes : List Nat) : List Char :=
  (hash bytes).words.flatMap (hexWord digit)

theorem length_hexdigest (digit : Nat → Char) (bytes : List Nat) :
    (hexdigest digit bytes).length = 64 := by
  simp [hexdigest, State.words, hexWord]

theorem mem_hexdigest {digit : Nat → Char} {bytes : List Nat} {c : Char}
    (h : c ∈ hexdigest digit bytes) : ∃ n < 16, c = digit n := by
  obtain ⟨w, -, hc⟩ := List.mem_flatMap.mp h
  obtain ⟨i, -, rfl⟩ := List.mem_map.mp hc
  exact ⟨_, Nat.mod_lt _ (by decide), rfl⟩

-- the digest of `abc`
example : (hash [97, 98, 99]).words = [0xba7816bf, 0x8f01cfea, 0x414140de, 0x5dae2223, 0xb00361a3,
    0x96177a9c, 0xb410ff61, 0xf20015ad] := by decide +kernel

/-! ## HMAC -/

/-- The digest as 32 bytes. -/
def digest (bytes : List Nat) : List Nat :=
  (hash bytes).words.flatMap fun w => (List.range 4).map fun i => w / 256 ^ (3 - i) % 256

/-- The key as one block: a longer one is hashed first. -/
def blockKey (key : List Nat) : List Nat :=
  let short := if 64 < key.length then digest key else key
  short ++ List.replicate (64 - short.length) 0

/-- What the outer hash of HMAC-SHA-256 is taken of. -/
def hmacInput (key message : List Nat) : List Nat :=
  (blockKey key).map (· ^^^ 0x5c) ++ digest ((blockKey key).map (· ^^^ 0x36) ++ message)

def hmacHexdigest (digit : Nat → Char) (key message : List Nat) : List Char :=
  hexdigest digit (hmacInput key message)

-- the second test vector of RFC 4231, key `Jefe`
example : (hash (hmacInput [74, 101, 102, 101] [119, 104, 97, 116, 32, 100, 111, 32, 121, 97, 32, 119,
    97, 110, 116, 32, 102, 111, 114, 32, 110, 111, 116, 104, 105, 110, 103, 63])).words =
    [0x5bdcc146, 0xbf60754e, 0x6a042426, 0x089575c7, 0x5a003f08, 0x9d273983, 0x9dec58b9,
      0x64ec3843] := by decide +kernel

end OpenMemory.Lib.Sha256
