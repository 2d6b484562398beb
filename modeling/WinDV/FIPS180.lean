import Mathlib.Data.Nat.NthRoot.Defs
import Mathlib.Data.Nat.Prime.Basic
import Mathlib.Data.Nat.Sqrt
import Mathlib.Tactic.Ring

/-! The hash function SHA-256 of FIPS 180-4, on messages of whole bytes. The
constants are computed from the primes, as the standard describes them. -/

namespace FIPS180

abbrev Word := BitVec 32

def ch (x y z : Word) : Word := (x &&& y) ^^^ (~~~x &&& z)

def maj (x y z : Word) : Word := (x &&& y) ^^^ (x &&& z) ^^^ (y &&& z)

def bigSigma0 (x : Word) : Word := x.rotateRight 2 ^^^ x.rotateRight 13 ^^^ x.rotateRight 22

def bigSigma1 (x : Word) : Word := x.rotateRight 6 ^^^ x.rotateRight 11 ^^^ x.rotateRight 25

def smallSigma0 (x : Word) : Word := x.rotateRight 7 ^^^ x.rotateRight 18 ^^^ (x >>> 3)

def smallSigma1 (x : Word) : Word := x.rotateRight 17 ^^^ x.rotateRight 19 ^^^ (x >>> 10)

def primes : List Nat := (List.range 312).filter fun p => Nat.Prime p

/-- The first 32 bits of the fractional part of the cube root of the `t`-th prime. -/
def roundConstant (t : Nat) : Word := BitVec.ofNat 32 (Nat.nthRoot 3 (primes.getD t 0 * 2 ^ 96))

/-- The first 32 bits of the fractional part of the square root of the `i`-th prime. -/
def initialWord (i : Nat) : Word := BitVec.ofNat 32 (Nat.sqrt (primes.getD i 0 * 2 ^ 64))

structure HashValue where
  a : Word
  b : Word
  c : Word
  d : Word
  e : Word
  f : Word
  g : Word
  h : Word
  deriving DecidableEq

def initialHash : HashValue :=
  ⟨initialWord 0, initialWord 1, initialWord 2, initialWord 3, initialWord 4, initialWord 5,
    initialWord 6, initialWord 7⟩

/-- Word `t` of a block, its bytes most significant first. -/
def wordAt (block : List UInt8) (t : Nat) : Word :=
  BitVec.ofNat 32 ((block.getD (4 * t) 0).toNat * 2 ^ 24 + (block.getD (4 * t + 1) 0).toNat * 2 ^ 16 +
    (block.getD (4 * t + 2) 0).toNat * 2 ^ 8 + (block.getD (4 * t + 3) 0).toNat)

/-- The message schedule `W` of a block with words `M`. -/
def schedule (M : Nat → Word) (t : Nat) : Word :=
  if t < 16 then M t
  else smallSigma1 (schedule M (t - 2)) + schedule M (t - 7) +
    smallSigma0 (schedule M (t - 15)) + schedule M (t - 16)

def round (W : Nat → Word) (v : HashValue) (t : Nat) : HashValue :=
  let t1 := v.h + bigSigma1 v.e + ch v.e v.f v.g + roundConstant t + W t
  let t2 := bigSigma0 v.a + maj v.a v.b v.c
  ⟨t1 + t2, v.a, v.b, v.c, v.d + t1, v.e, v.f, v.g⟩

def compress (H : HashValue) (block : List UInt8) : HashValue :=
  let v := (List.range 64).foldl (round (schedule (wordAt block))) H
  ⟨H.a + v.a, H.b + v.b, H.c + v.c, H.d + v.d, H.e + v.e, H.f + v.f, H.g + v.g, H.h + v.h⟩

/-- The number of zero bytes between the byte 0x80 and the length. -/
def zeroPadding (len : Nat) : Nat := (119 - len % 64) % 64

/-- A 64-bit number, most significant byte first. -/
def lengthBytes (bits : Nat) : List UInt8 :=
  (List.range 8).map fun i => UInt8.ofNat (bits / 2 ^ (8 * (7 - i)))

def pad (m : List UInt8) : List UInt8 :=
  m ++ 0x80 :: List.replicate (zeroPadding m.length) 0 ++ lengthBytes (8 * m.length)

def blocks (m : List UInt8) : List (List UInt8) :=
  (List.range (m.length / 64)).map fun i => (m.drop (64 * i)).take 64

def hashBlocks (m : List UInt8) : HashValue := (blocks m).foldl compress initialHash

def wordBytes (w : Word) : List UInt8 :=
  (List.range 4).map fun i => UInt8.ofNat (w.toNat / 2 ^ (8 * (3 - i)))

def HashValue.bytes (v : HashValue) : List UInt8 :=
  [v.a, v.b, v.c, v.d, v.e, v.f, v.g, v.h].flatMap wordBytes

def sha256 (m : List UInt8) : List UInt8 := (hashBlocks (pad m)).bytes

theorem schedule_of_lt (M : Nat → Word) {t : Nat} (ht : t < 16) : schedule M t = M t := by
  rw [schedule, if_pos ht]

theorem schedule_of_ge (M : Nat → Word) {t : Nat} (ht : 16 ≤ t) :
    schedule M t = smallSigma1 (schedule M (t - 2)) + schedule M (t - 7) +
      smallSigma0 (schedule M (t - 15)) + schedule M (t - 16) := by
  rw [schedule, if_neg (by omega)]

theorem blocks_append {m b : List UInt8} (hm : m.length % 64 = 0) (hb : b.length = 64) :
    blocks (m ++ b) = blocks m ++ [b] := by
  have hlen : (m ++ b).length / 64 = m.length / 64 + 1 := by
    simp only [List.length_append, hb]
    omega
  have hmul : 64 * (m.length / 64) = m.length := by omega
  simp only [blocks, hlen, List.range_succ, List.map_append, List.map_singleton]
  congr 1
  · apply List.map_congr_left
    intro i hi
    have hlt := List.mem_range.mp hi
    rw [List.drop_append_of_le_length (by omega), List.take_append_of_le_length]
    simp only [List.length_drop]
    omega
  · rw [hmul, List.drop_left, List.take_of_length_le (by omega)]

theorem hashBlocks_append {m b : List UInt8} (hm : m.length % 64 = 0) (hb : b.length = 64) :
    hashBlocks (m ++ b) = compress (hashBlocks m) b := by
  simp only [hashBlocks, blocks_append hm hb, List.foldl_append, List.foldl_cons, List.foldl_nil]

theorem lengthBytes_length (bits : Nat) : (lengthBytes bits).length = 8 := by simp [lengthBytes]

/-- Padding a message that is whole blocks `p` and a rest `r` leaves `p` alone. -/
theorem pad_append {p r : List UInt8} (hp : p.length % 64 = 0) :
    pad (p ++ r) = p ++ (r ++ 0x80 :: List.replicate (zeroPadding r.length) 0 ++
      lengthBytes (8 * (p ++ r).length)) := by
  have hz : zeroPadding (p ++ r).length = zeroPadding r.length := by
    simp only [zeroPadding, List.length_append]
    congr 2
    omega
  simp only [pad, hz, List.append_assoc]

end FIPS180
