import Mathlib

/-!
# Base64, the alphabet for URLs

`encode` groups three bytes into four characters and pads the last group. `decode` is the lenient
reader: it knows both alphabets, skips every other character, stops at a pad that completes a
group, and fails when a group is left open. `decode_encode` says that it reads back what was
written.
-/

namespace OpenMemory.Lib.Base64

/-! ## Encoding -/

/-- The character of a six-bit value. -/
def symbol (n : Nat) : Char :=
  if n < 26 then Char.ofNat (65 + n)
  else if n < 52 then Char.ofNat (71 + n)
  else if n < 62 then Char.ofNat (n - 4)
  else if n = 62 then '-'
  else '_'

/-- `base64.urlsafe_b64encode`. -/
def encode : List UInt8 → List Char
  | [] => []
  | [a] => [symbol (a.toNat / 4), symbol (a.toNat % 4 * 16), '=', '=']
  | [a, b] =>
    [symbol (a.toNat / 4), symbol (a.toNat % 4 * 16 + b.toNat / 16), symbol (b.toNat % 16 * 4), '=']
  | a :: b :: c :: rest =>
    symbol (a.toNat / 4) :: symbol (a.toNat % 4 * 16 + b.toNat / 16) ::
      symbol (b.toNat % 16 * 4 + c.toNat / 64) :: symbol (c.toNat % 64) :: encode rest

/-! ## Decoding -/

/-- The value of a character of either alphabet. -/
def value (c : Char) : Option Nat :=
  if 65 ≤ c.toNat ∧ c.toNat ≤ 90 then some (c.toNat - 65)
  else if 97 ≤ c.toNat ∧ c.toNat ≤ 122 then some (c.toNat - 71)
  else if 48 ≤ c.toNat ∧ c.toNat ≤ 57 then some (c.toNat + 4)
  else if c = '-' ∨ c = '+' then some 62
  else if c = '_' ∨ c = '/' then some 63
  else none

/-- The reader: position in the group, the bits left over and the pads seen in a row. -/
def read : Nat → Nat → Nat → List Char → Option (List UInt8)
  | position, _, _, [] => if position = 0 then some [] else none
  | position, left, pads, c :: rest =>
    if c = '=' then
      if 2 ≤ position then
        if 4 ≤ position + (pads + 1) then some [] else read position left (pads + 1) rest
      else read position left pads rest
    else
      match value c with
      | none => read position left pads rest
      | some v =>
        if position = 0 then read 1 v 0 rest
        else if position = 1 then
          (read 2 (v % 16) 0 rest).map (UInt8.ofNat (left * 4 + v / 16) :: ·)
        else if position = 2 then
          (read 3 (v % 4) 0 rest).map (UInt8.ofNat (left * 16 + v / 4) :: ·)
        else (read 0 0 0 rest).map (UInt8.ofNat (left * 64 + v) :: ·)

/-- `base64.urlsafe_b64decode`, `none` for an error. -/
def decode (l : List Char) : Option (List UInt8) :=
  if l.all fun c => decide (c.toNat < 128) then read 0 0 0 l else none

/-! ## Round trip -/

/-- A symbol is no pad and stands for its value. -/
theorem value_symbol {n : Nat} (h : n < 64) : symbol n ≠ '=' ∧ value (symbol n) = some n := by
  have hall : ∀ m < 64, symbol m ≠ '=' ∧ value (symbol m) = some m := by decide
  exact hall n h

theorem symbol_ascii (n : Nat) : (symbol n).toNat < 128 := by
  by_cases h : n < 64
  · have hall : ∀ m < 64, (symbol m).toNat < 128 := by decide
    exact hall n h
  · have hlast : symbol n = '_' := by
      unfold symbol
      rw [if_neg (by omega), if_neg (by omega), if_neg (by omega), if_neg (by omega)]
    rw [hlast]
    decide

theorem encode_ascii (bytes : List UInt8) : ∀ c ∈ encode bytes, c.toNat < 128 := by
  induction bytes using encode.induct with
  | case1 => exact fun c hc => absurd hc List.not_mem_nil
  | case2 a => simp [encode, symbol_ascii]
  | case3 a b => simp [encode, symbol_ascii]
  | case4 a b c rest ih =>
    intro ch hch
    simp only [encode, List.mem_cons] at hch
    rcases hch with rfl | rfl | rfl | rfl | hrest
    · exact symbol_ascii _
    · exact symbol_ascii _
    · exact symbol_ascii _
    · exact symbol_ascii _
    · exact ih ch hrest

theorem ofNat_of_toNat {a : UInt8} {n : Nat} (h : n = a.toNat) : UInt8.ofNat n = a := by
  rw [h]
  exact UInt8.ofNat_toNat

section Positions

variable {n : Nat} {a : UInt8} {left pads : Nat} {rest : List Char}

theorem read_first (h : n < 64) : read 0 left pads (symbol n :: rest) = read 1 n 0 rest := by
  obtain ⟨hpad, hvalue⟩ := value_symbol h
  rw [read, if_neg hpad, hvalue]
  rfl

theorem read_second (h : n < 64) (hbyte : left * 4 + n / 16 = a.toNat) :
    read 1 left pads (symbol n :: rest) = (read 2 (n % 16) 0 rest).map (a :: ·) := by
  obtain ⟨hpad, hvalue⟩ := value_symbol h
  rw [read, if_neg hpad, hvalue, ← ofNat_of_toNat hbyte]
  rfl

theorem read_third (h : n < 64) (hbyte : left * 16 + n / 4 = a.toNat) :
    read 2 left pads (symbol n :: rest) = (read 3 (n % 4) 0 rest).map (a :: ·) := by
  obtain ⟨hpad, hvalue⟩ := value_symbol h
  rw [read, if_neg hpad, hvalue, ← ofNat_of_toNat hbyte]
  rfl

theorem read_fourth (h : n < 64) (hbyte : left * 64 + n = a.toNat) :
    read 3 left pads (symbol n :: rest) = (read 0 0 0 rest).map (a :: ·) := by
  obtain ⟨hpad, hvalue⟩ := value_symbol h
  rw [read, if_neg hpad, hvalue, ← ofNat_of_toNat hbyte]
  rfl

end Positions

/-- The reader gets back what was encoded. -/
theorem read_encode (bytes : List UInt8) : read 0 0 0 (encode bytes) = some bytes := by
  induction bytes using encode.induct with
  | case1 => rfl
  | case2 a =>
    have ha : a.toNat < 256 := a.toNat_lt
    rw [encode, read_first (by omega), read_second (by omega) (a := a) (by omega)]
    rfl
  | case3 a b =>
    have ha : a.toNat < 256 := a.toNat_lt
    have hb : b.toNat < 256 := b.toNat_lt
    rw [encode, read_first (by omega), read_second (by omega) (a := a) (by omega),
      read_third (by omega) (a := b) (by omega)]
    rfl
  | case4 a b c rest ih =>
    have ha : a.toNat < 256 := a.toNat_lt
    have hb : b.toNat < 256 := b.toNat_lt
    have hc : c.toNat < 256 := c.toNat_lt
    rw [encode, read_first (by omega), read_second (by omega) (a := a) (by omega),
      read_third (by omega) (a := b) (by omega), read_fourth (by omega) (a := c) (by omega), ih]
    rfl

/-- Decoding inverts encoding. -/
theorem decode_encode (bytes : List UInt8) : decode (encode bytes) = some bytes := by
  unfold decode
  rw [if_pos, read_encode]
  rw [List.all_eq_true]
  intro c hc
  exact decide_eq_true (encode_ascii bytes c hc)

/-- The characters of a text: symbols and pads. -/
theorem mem_encode {bytes : List UInt8} {c : Char} (h : c ∈ encode bytes) :
    c = '=' ∨ ∃ n < 64, c = symbol n := by
  induction bytes using encode.induct with
  | case1 => exact absurd h List.not_mem_nil
  | case2 a =>
    have ha : a.toNat < 256 := a.toNat_lt
    simp only [encode, List.mem_cons, List.not_mem_nil, or_false] at h
    rcases h with rfl | rfl | rfl | rfl
    · exact .inr ⟨_, by omega, rfl⟩
    · exact .inr ⟨_, by omega, rfl⟩
    · exact .inl rfl
    · exact .inl rfl
  | case3 a b =>
    have ha : a.toNat < 256 := a.toNat_lt
    have hb : b.toNat < 256 := b.toNat_lt
    simp only [encode, List.mem_cons, List.not_mem_nil, or_false] at h
    rcases h with rfl | rfl | rfl | rfl
    · exact .inr ⟨_, by omega, rfl⟩
    · exact .inr ⟨_, by omega, rfl⟩
    · exact .inr ⟨_, by omega, rfl⟩
    · exact .inl rfl
  | case4 a b c' rest ih =>
    have ha : a.toNat < 256 := a.toNat_lt
    have hb : b.toNat < 256 := b.toNat_lt
    have hc : c'.toNat < 256 := c'.toNat_lt
    simp only [encode, List.mem_cons] at h
    rcases h with rfl | rfl | rfl | rfl | hrest
    · exact .inr ⟨_, by omega, rfl⟩
    · exact .inr ⟨_, by omega, rfl⟩
    · exact .inr ⟨_, by omega, rfl⟩
    · exact .inr ⟨_, by omega, rfl⟩
    · exact ih hrest

end OpenMemory.Lib.Base64
