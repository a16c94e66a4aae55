/-
  VyomQuant.Lib.Sha256

  SHA-256 over lists of bytes, and the hexadecimal text of a digest.

  Words are natural numbers below `2 ^ 32`.  Collisions exist, so what is used of the
  function is that the text of a digest determines the digest and holds only hexadecimal
  digits; freedom from collisions is a hypothesis on the messages at hand.
-/

import Mathlib.Algebra.Ring.Nat
import Mathlib.Data.List.Basic

namespace Sha256

/-! ## Words -/

def wordSize : ℕ := 2 ^ 32

def add (a b : ℕ) : ℕ := (a + b) % wordSize

def rotr (n x : ℕ) : ℕ := (x >>> n ||| x <<< (32 - n)) % wordSize

def bigSigma0 (x : ℕ) : ℕ := rotr 2 x ^^^ rotr 13 x ^^^ rotr 22 x

def bigSigma1 (x : ℕ) : ℕ := rotr 6 x ^^^ rotr 11 x ^^^ rotr 25 x

def sigma0 (x : ℕ) : ℕ := rotr 7 x ^^^ rotr 18 x ^^^ x >>> 3

def sigma1 (x : ℕ) : ℕ := rotr 17 x ^^^ rotr 19 x ^^^ x >>> 10

def ch (x y z : ℕ) : ℕ := x &&& y ^^^ (wordSize - 1 - x) &&& z

def maj (x y z : ℕ) : ℕ := x &&& y ^^^ x &&& z ^^^ y &&& z

/-! ## Compression -/

def constants : List ℕ :=
  [0x428a2f98, 0x71374491, 0xb5c0fbcf, 0xe9b5dba5, 0x3956c25b, 0x59f111f1,
    0x923f82a4, 0xab1c5ed5, 0xd807aa98, 0x12835b01, 0x243185be, 0x550c7dc3,
    0x72be5d74, 0x80deb1fe, 0x9bdc06a7, 0xc19bf174, 0xe49b69c1, 0xefbe4786,
    0x0fc19dc6, 0x240ca1cc, 0x2de92c6f, 0x4a7484aa, 0x5cb0a9dc, 0x76f988da,
    0x983e5152, 0xa831c66d, 0xb00327c8, 0xbf597fc7, 0xc6e00bf3, 0xd5a79147,
    0x06ca6351, 0x14292967, 0x27b70a85, 0x2e1b2138, 0x4d2c6dfc, 0x53380d13,
    0x650a7354, 0x766a0abb, 0x81c2c92e, 0x92722c85, 0xa2bfe8a1, 0xa81a664b,
    0xc24b8b70, 0xc76c51a3, 0xd192e819, 0xd6990624, 0xf40e3585, 0x106aa070,
    0x19a4c116, 0x1e376c08, 0x2748774c, 0x34b0bcb5, 0x391c0cb3, 0x4ed8aa4a,
    0x5b9cca4f, 0x682e6ff3, 0x748f82ee, 0x78a5636f, 0x84c87814, 0x8cc70208,
    0x90befffa, 0xa4506ceb, 0xbef9a3f7, 0xc67178f2]

/-- The eight working words. -/
structure State where
  a : ℕ
  b : ℕ
  c : ℕ
  d : ℕ
  e : ℕ
  f : ℕ
  g : ℕ
  h : ℕ

def initial : State where
  a := 0x6a09e667
  b := 0xbb67ae85
  c := 0x3c6ef372
  d := 0xa54ff53a
  e := 0x510e527f
  f := 0x9b05688c
  g := 0x1f83d9ab
  h := 0x5be0cd19

def State.add (s t : State) : State where
  a := Sha256.add s.a t.a
  b := Sha256.add s.b t.b
  c := Sha256.add s.c t.c
  d := Sha256.add s.d t.d
  e := Sha256.add s.e t.e
  f := Sha256.add s.f t.f
  g := Sha256.add s.g t.g
  h := Sha256.add s.h t.h

/-- One round with the schedule word `w`. -/
def round (s : State) (constant w : ℕ) : State :=
  let t1 := add (add (add s.h (bigSigma1 s.e)) (add (ch s.e s.f s.g) constant)) w
  let t2 := add (bigSigma0 s.a) (maj s.a s.b s.c)
  { a := add t1 t2, b := s.a, c := s.b, d := s.c, e := add s.d t1, f := s.e, g := s.f, h := s.g }

/-- The schedule word sixteen after the first of the window. -/
def nextWord (window : List ℕ) : ℕ :=
  add (add (sigma1 (window.getD 14 0)) (window.getD 9 0))
    (add (sigma0 (window.getD 1 0)) (window.getD 0 0))

/-- The rounds; the window holds the next sixteen schedule words. -/
def rounds (s : State) (window : List ℕ) : List ℕ → State
  | [] => s
  | constant :: rest =>
    rounds (round s constant (window.getD 0 0)) (window.drop 1 ++ [nextWord window]) rest

/-- Four bytes as a word, the first one highest. -/
def wordsOf : List ℕ → List ℕ
  | b0 :: b1 :: b2 :: b3 :: rest => (((b0 * 256 + b1) * 256 + b2) * 256 + b3) :: wordsOf rest
  | _ => []

def compress (s : State) (block : List ℕ) : State :=
  s.add (rounds s (wordsOf block) constants)

/-! ## Messages -/

/-- The `count` bytes of a number, the first one highest. -/
def bytesOf : ℕ → ℕ → List ℕ
  | 0, _ => []
  | count + 1, n => bytesOf count (n / 256) ++ [n % 256]

/-- The bit `1`, zeros, and the length in bits. -/
def padded (message : List ℕ) : List ℕ :=
  message ++ 0x80 :: List.replicate ((119 - message.length % 64) % 64) 0
    ++ bytesOf 8 (message.length * 8)

/-- Compress `count` blocks. -/
def compressAll (s : State) (bytes : List ℕ) : ℕ → State
  | 0 => s
  | count + 1 => compressAll (compress s (bytes.take 64)) (bytes.drop 64) count

/-- The digest of a message, as 32 bytes. -/
def sha256 (message : List UInt8) : List ℕ :=
  let bytes := padded (message.map UInt8.toNat)
  let s := compressAll initial bytes (bytes.length / 64)
  [s.a, s.b, s.c, s.d, s.e, s.f, s.g, s.h].flatMap (bytesOf 4)

/-! ## The text of a digest -/

/-- `0`..`9` and `a`..`f`. -/
def hexDigit (n : ℕ) : Char :=
  if n < 10 then Char.ofNat (48 + n) else Char.ofNat (87 + n)

def hexDigitVal (c : Char) : ℕ :=
  if c.toNat < 58 then c.toNat - 48 else c.toNat - 87

/-- `encode(digest, 'hex')`. -/
def hex (bytes : List ℕ) : List Char :=
  bytes.flatMap fun byte => [hexDigit (byte / 16), hexDigit (byte % 16)]

theorem hexDigitVal_hexDigit : ∀ n < 16, hexDigitVal (hexDigit n) = n := by decide

theorem hexDigit_ne_brace : ∀ n < 16, hexDigit n ≠ '\x7b' := by decide

theorem hexDigit_inj {m n : ℕ} (h_m : m < 16) (h_n : n < 16) (h : hexDigit m = hexDigit n) :
    m = n := by
  have h_val := congrArg hexDigitVal h
  rwa [hexDigitVal_hexDigit m h_m, hexDigitVal_hexDigit n h_n] at h_val

theorem hex_inj {bytes bytes' : List ℕ} (h_bytes : ∀ byte ∈ bytes, byte < 256)
    (h_bytes' : ∀ byte ∈ bytes', byte < 256) (h : hex bytes = hex bytes') : bytes = bytes' := by
  induction bytes generalizing bytes' with
  | nil =>
    cases bytes' with
    | nil => rfl
    | cons byte rest => simp [hex] at h
  | cons byte rest ih =>
    cases bytes' with
    | nil => simp [hex] at h
    | cons byte' rest' =>
      rw [List.forall_mem_cons] at h_bytes h_bytes'
      simp only [hex, List.flatMap_cons, List.cons_append, List.nil_append,
        List.cons.injEq] at h
      obtain ⟨h_high, h_low, h_rest⟩ := h
      have h_div := hexDigit_inj (by omega) (by omega) h_high
      have h_mod := hexDigit_inj (by omega) (by omega) h_low
      have h_byte : byte = byte' := by omega
      rw [h_byte, ih h_bytes.2 h_bytes'.2 h_rest]

theorem forall_mem_hex (p : Char → Prop) (h_digit : ∀ n < 16, p (hexDigit n)) {bytes : List ℕ}
    (h_bytes : ∀ byte ∈ bytes, byte < 256) {c : Char} (h : c ∈ hex bytes) : p c := by
  obtain ⟨byte, h_byte, h_c⟩ := List.mem_flatMap.mp h
  have h_lt := h_bytes byte h_byte
  rcases List.mem_cons.mp h_c with rfl | h_c
  · exact h_digit _ (by omega)
  · rw [List.mem_singleton] at h_c
    rw [h_c]
    exact h_digit _ (by omega)

theorem mem_hex {bytes : List ℕ} (h_bytes : ∀ byte ∈ bytes, byte < 256) {c : Char}
    (h : c ∈ hex bytes) : c ≠ '\x7b' :=
  forall_mem_hex (fun c => c ≠ '\x7b') hexDigit_ne_brace h_bytes h

theorem length_hex (bytes : List ℕ) : (hex bytes).length = bytes.length * 2 := by
  rw [hex, List.length_flatMap]
  simp

theorem length_bytesOf (count n : ℕ) : (bytesOf count n).length = count := by
  induction count generalizing n with
  | zero => rfl
  | succ count ih => rw [bytesOf, List.length_append, ih, List.length_singleton]

theorem length_sha256 (message : List UInt8) : (sha256 message).length = 32 := by
  unfold sha256
  simp only [List.length_flatMap, length_bytesOf]
  rfl

theorem mem_bytesOf {count n byte : ℕ} (h : byte ∈ bytesOf count n) : byte < 256 := by
  induction count generalizing n with
  | zero => cases h
  | succ count ih =>
    rcases List.mem_append.mp h with h_high | h_low
    · exact ih h_high
    · rw [List.mem_singleton] at h_low
      omega

theorem mem_sha256 {message : List UInt8} {byte : ℕ} (h : byte ∈ sha256 message) : byte < 256 := by
  obtain ⟨_, _, h_byte⟩ := List.mem_flatMap.mp h
  exact mem_bytesOf h_byte

/-- The digest of `abc`. -/
example : hex (sha256 [97, 98, 99])
    = "ba7816bf8f01cfea414140de5dae2223b00361a396177a9cb410ff61f20015ad".toList := by
  decide +kernel

end Sha256
