import Mathlib.Algebra.Ring.Nat
import Mathlib.Data.List.Basic

/-! Blocks of bytes, read and written at an offset. An access that leaves the
block faults. Values have a size and an encoding. -/

structure ByteBlock where
  size : Nat
  byte : Nat → UInt8

namespace ByteBlock

variable {b b' : ByteBlock} {pos pos' m n : Nat} {data : List UInt8}

def bytes (b : ByteBlock) (pos n : Nat) : List UInt8 := (List.range n).map fun i => b.byte (pos + i)

/-- `none` is a fault, here and below. -/
def read (b : ByteBlock) (pos n : Nat) : Option (List UInt8) :=
  if pos + n ≤ b.size then some (b.bytes pos n) else none

def write (b : ByteBlock) (pos : Nat) (data : List UInt8) : Option ByteBlock :=
  if pos + data.length ≤ b.size then
    some { b with byte := fun i =>
      if pos ≤ i ∧ i < pos + data.length then data.getD (i - pos) 0 else b.byte i }
  else none

@[simp] theorem bytes_length (b : ByteBlock) (pos n : Nat) : (b.bytes pos n).length = n := by
  simp [bytes]

theorem read_of_le (h : pos + n ≤ b.size) : b.read pos n = some (b.bytes pos n) := if_pos h

theorem bytes_add (b : ByteBlock) (pos m n : Nat) :
    b.bytes pos (m + n) = b.bytes pos m ++ b.bytes (pos + m) n := by
  simp only [bytes, List.range_add, List.map_append, List.map_map, List.append_cancel_left_eq]
  refine List.map_congr_left fun i _ => ?_
  rw [Function.comp_apply, Nat.add_assoc]

theorem write_isSome (h : pos + data.length ≤ b.size) : ∃ b', b.write pos data = some b' :=
  ⟨_, if_pos h⟩

theorem size_of_write (h : b.write pos data = some b') : b'.size = b.size := by
  unfold write at h
  split at h
  · rw [← Option.some.inj h]
  · cases h

/-- What was written is there. -/
theorem bytes_written (h : b.write pos data = some b') : b'.bytes pos data.length = data := by
  unfold write at h
  split at h
  · obtain rfl := Option.some.inj h
    refine List.ext_getElem (by simp) fun i hi hi' => ?_
    simp [bytes, hi']
  · cases h

/-- The rest is as it was. -/
theorem bytes_of_apart (h : b.write pos data = some b')
    (hapart : pos' + n ≤ pos ∨ pos + data.length ≤ pos') : b'.bytes pos' n = b.bytes pos' n := by
  unfold write at h
  split at h
  · obtain rfl := Option.some.inj h
    refine List.map_congr_left fun i hi => ?_
    have hlt := List.mem_range.mp hi
    exact if_neg (by omega)
  · cases h

theorem drop_bytes (b : ByteBlock) (pos : Nat) (h : m ≤ n) :
    (b.bytes pos n).drop m = b.bytes (pos + m) (n - m) := by
  rw [← Nat.add_sub_cancel' h, bytes_add, Nat.add_sub_cancel_left,
    List.drop_left' (bytes_length b pos m)]

theorem take_bytes (b : ByteBlock) (pos : Nat) (h : m ≤ n) : (b.bytes pos n).take m = b.bytes pos m := by
  rw [← Nat.add_sub_cancel' h, bytes_add, List.take_left' (bytes_length b pos m)]

/-- A write into the beginning of a part. -/
theorem bytes_overwritten (h : b.write pos data = some b') (hlen : data.length ≤ n) :
    b'.bytes pos n = data ++ (b.bytes pos n).drop data.length := by
  rw [drop_bytes b pos hlen, ← bytes_of_apart h (.inr (Nat.le_refl _))]
  conv_lhs => rw [← Nat.add_sub_cancel' hlen, bytes_add, bytes_written h]

/-- A value of a fixed size. -/
structure Codec (α : Type) where
  width : Nat
  encode : α → List UInt8
  decode : List UInt8 → α
  length_encode : ∀ v, (encode v).length = width
  decode_encode : ∀ v, decode (encode v) = v

section Values

variable {α : Type} {c : Codec α} {v : α}

def load (b : ByteBlock) (c : Codec α) (pos : Nat) : Option α := (b.read pos c.width).map c.decode

def store (b : ByteBlock) (c : Codec α) (pos : Nat) (v : α) : Option ByteBlock := b.write pos (c.encode v)

/-- The value in a part of the block. -/
def valueAt (b : ByteBlock) (c : Codec α) (pos : Nat) : α := c.decode (b.bytes pos c.width)

theorem load_of_le (h : pos + c.width ≤ b.size) : b.load c pos = some (b.valueAt c pos) := by
  rw [load, read_of_le h]
  rfl

theorem store_isSome (h : pos + c.width ≤ b.size) (v : α) : ∃ b', b.store c pos v = some b' :=
  write_isSome (by rwa [c.length_encode])

theorem size_of_store (h : b.store c pos v = some b') : b'.size = b.size := size_of_write h

theorem valueAt_stored (h : b.store c pos v = some b') : b'.valueAt c pos = v := by
  rw [valueAt, ← c.length_encode v, bytes_written h, c.decode_encode]

theorem valueAt_of_apart (h : b.write pos data = some b')
    (hapart : pos' + c.width ≤ pos ∨ pos + data.length ≤ pos') :
    b'.valueAt c pos' = b.valueAt c pos' := by
  rw [valueAt, valueAt, bytes_of_apart h hapart]

end Values

/-- The last `w` digits of a number to the base 256, the least one first. -/
def leBytes : Nat → Nat → List UInt8
  | 0, _ => []
  | w + 1, n => UInt8.ofNat n :: leBytes w (n / 256)

def leNat : List UInt8 → Nat
  | [] => 0
  | b :: bs => b.toNat + 256 * leNat bs

theorem leBytes_length (w n : Nat) : (leBytes w n).length = w := by
  induction w generalizing n with
  | zero => rfl
  | succ w ih => rw [leBytes, List.length_cons, ih]

theorem leNat_leBytes (w n : Nat) : leNat (leBytes w n) = n % 256 ^ w := by
  induction w generalizing n with
  | zero => rw [leBytes, leNat, Nat.pow_zero, Nat.mod_one]
  | succ w ih =>
    rw [leBytes, leNat, ih, Nat.pow_succ', Nat.mod_mul]
    rfl

def int32 : Codec Int32 where
  width := 4
  encode v := leBytes 4 v.toUInt32.toNat
  decode data := (UInt32.ofNat (leNat data)).toInt32
  length_encode _ := leBytes_length _ _
  decode_encode v := by
    have hlt : v.toUInt32.toNat < 256 ^ 4 := v.toUInt32.toNat_lt
    rw [leNat_leBytes, Nat.mod_eq_of_lt hlt, UInt32.ofNat_toNat]
    rfl

def int64 : Codec Int64 where
  width := 8
  encode v := leBytes 8 v.toUInt64.toNat
  decode data := (UInt64.ofNat (leNat data)).toInt64
  length_encode _ := leBytes_length _ _
  decode_encode v := by
    have hlt : v.toUInt64.toNat < 256 ^ 8 := v.toUInt64.toNat_lt
    rw [leNat_leBytes, Nat.mod_eq_of_lt hlt, UInt64.ofNat_toNat]
    rfl

end ByteBlock
