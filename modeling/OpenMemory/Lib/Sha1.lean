import OpenMemory.Lib.Sha256

/-!
# SHA-1

The hash function on byte strings. Blocks, padding and words are those of SHA-256; there are 80
rounds for each block and five working variables, and the digest has 20 bytes.
-/

namespace OpenMemory.Lib.Sha1

open Sha256 (add choose majority padding wordsOf)

/-- Rotation of a 32-bit word to the left. -/
def rotl (n x : Nat) : Nat := (x <<< n) % 2 ^ 32 ||| x >>> (32 - n)

def parity (x y z : Nat) : Nat := x ^^^ y ^^^ z

/-- The five working variables. -/
structure State where
  a : Nat
  b : Nat
  c : Nat
  d : Nat
  e : Nat
  deriving DecidableEq, Repr

def initial : State := ⟨0x67452301, 0xefcdab89, 0x98badcfe, 0x10325476, 0xc3d2e1f0⟩

def State.words (s : State) : List Nat := [s.a, s.b, s.c, s.d, s.e]

/-- What a round adds besides the word of the schedule. -/
def State.mix (s : State) (round : Nat) : Nat :=
  if round < 20 then add (choose s.b s.c s.d) 0x5a827999
  else if round < 40 then add (parity s.b s.c s.d) 0x6ed9eba1
  else if round < 60 then add (majority s.b s.c s.d) 0x8f1bbcdc
  else add (parity s.b s.c s.d) 0xca62c1d6

/-- One round with its word of the schedule. -/
def State.round (s : State) (round w : Nat) : State :=
  ⟨add (add (add (rotl 5 s.a) (s.mix round)) s.e) w, s.a, rotl 30 s.b, s.c, s.d⟩

def State.sum (s t : State) : State :=
  ⟨add s.a t.a, add s.b t.b, add s.c t.c, add s.d t.d, add s.e t.e⟩

/-- The rounds of a block. `window` holds the next 16 words of the schedule. -/
def State.rounds : State → List Nat → List Nat → State
  | s, [], _ => s
  | s, round :: later, window =>
    let word (i : Nat) : Nat := window.getD i 0
    let next := rotl 1 (word 13 ^^^ word 8 ^^^ word 2 ^^^ word 0)
    (s.round round (word 0)).rounds later (window.tail ++ [next])

/-- The blocks, one after another. -/
def State.compress : Nat → State → List Nat → State
  | 0, s, _ => s
  | n + 1, s, words =>
    (s.sum (s.rounds (List.range 80) (words.take 16))).compress n (words.drop 16)

def hash (bytes : List Nat) : State :=
  let words := wordsOf (padding bytes)
  initial.compress (words.length / 16) words

/-- The digest as 20 bytes. -/
def digest (bytes : List Nat) : List Nat :=
  (hash bytes).words.flatMap fun w => (List.range 4).map fun i => w / 256 ^ (3 - i) % 256

-- the digest of `abc`
example : (hash [97, 98, 99]).words = [0xa9993e36, 0x4706816a, 0xba3e2571, 0x7850c26c, 0x9cd0d89d] := by
  decide +kernel

end OpenMemory.Lib.Sha1
