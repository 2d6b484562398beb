import Mathlib.Data.List.Basic
import Mathlib.Tactic.Ring
import Mathlib.Algebra.BigOperators.Group.List.Basic

/-! RIFF chunks and their bytes: a four-character id, the size of the payload
as a little-endian 32-bit number, the payload, and a padding byte after a
payload of odd size. -/

namespace RIFF

abbrev FourCC := { id : List UInt8 // id.length = 4 }

def le32 (n : Nat) : List UInt8 :=
  [UInt8.ofNat n, UInt8.ofNat (n / 2 ^ 8), UInt8.ofNat (n / 2 ^ 16), UInt8.ofNat (n / 2 ^ 24)]

theorem le32_length (n : Nat) : (le32 n).length = 4 := rfl

structure Chunk where
  id : FourCC
  payload : List UInt8
  deriving DecidableEq

def Chunk.pad (c : Chunk) : List UInt8 := if c.payload.length % 2 = 0 then [] else [0]

def Chunk.encode (c : Chunk) : List UInt8 :=
  c.id.1 ++ le32 c.payload.length ++ c.payload ++ c.pad

def encodeAll (cs : List Chunk) : List UInt8 := cs.flatMap Chunk.encode

theorem Chunk.pad_length (c : Chunk) : c.pad.length = c.payload.length % 2 := by
  unfold Chunk.pad
  by_cases h : c.payload.length % 2 = 0
  · rw [if_pos h, h, List.length_nil]
  · rw [if_neg h, List.length_singleton]
    omega

theorem Chunk.encode_length (c : Chunk) :
    c.encode.length = 8 + c.payload.length + c.payload.length % 2 := by
  rw [Chunk.encode, List.length_append, List.length_append, List.length_append, c.id.2, le32_length,
    c.pad_length]

theorem encodeAll_cons (c : Chunk) (cs : List Chunk) :
    encodeAll (c :: cs) = c.encode ++ encodeAll cs := List.flatMap_cons

theorem length_le_encodeAll (cs : List Chunk) : 8 * cs.length ≤ (encodeAll cs).length := by
  induction cs with
  | nil => exact Nat.le_refl _
  | cons c cs ih =>
    rw [encodeAll_cons, List.length_append, Chunk.encode_length, List.length_cons]
    omega

def placed (pos : Nat) : List Chunk → List (Nat × Chunk)
  | [] => []
  | c :: cs => (pos, c) :: placed (pos + c.encode.length) cs

theorem placed_map_snd (cs : List Chunk) (pos : Nat) : (placed pos cs).map Prod.snd = cs := by
  induction cs generalizing pos with
  | nil => rfl
  | cons c cs ih => rw [placed, List.map_cons, ih]

def At (file : List UInt8) (pos : Nat) (c : Chunk) : Prop :=
  ∃ rest, file.drop pos = c.encode ++ rest

theorem drop_encode {file : List UInt8} {pos : Nat} {bytes rest : List UInt8}
    (h : file.drop pos = bytes ++ rest) : file.drop (pos + bytes.length) = rest := by
  rw [← List.drop_drop, h, List.drop_left]

theorem placed_at {file : List UInt8} (cs : List Chunk) {pos : Nat} {rest : List UInt8}
    (h : file.drop pos = encodeAll cs ++ rest) : ∀ x ∈ placed pos cs, At file x.1 x.2 := by
  induction cs generalizing pos with
  | nil =>
    intro x hx
    exact absurd hx List.not_mem_nil
  | cons c cs ih =>
    rw [encodeAll_cons, List.append_assoc] at h
    intro x hx
    rcases List.mem_cons.mp hx with rfl | hx
    · exact ⟨_, h⟩
    · exact ih (drop_encode h) x hx

theorem At.payload {file : List UInt8} {pos : Nat} {c : Chunk} (h : At file pos c) :
    ∃ rest, file.drop (pos + 8) = c.payload ++ rest := by
  obtain ⟨rest, hrest⟩ := h
  have hhead : (c.id.1 ++ le32 c.payload.length).length = 8 := by
    rw [List.length_append, c.id.2, le32_length]
  refine ⟨c.pad ++ rest, ?_⟩
  rw [← hhead]
  refine drop_encode ?_
  rw [hrest, Chunk.encode]
  simp only [List.append_assoc]

theorem placed_append (cs ds : List Chunk) (pos : Nat) :
    placed pos (cs ++ ds) = placed pos cs ++ placed (pos + (encodeAll cs).length) ds := by
  induction cs generalizing pos with
  | nil => rfl
  | cons c cs ih =>
    rw [List.cons_append, placed, ih, placed, encodeAll_cons, List.length_append, Nat.add_assoc,
      List.cons_append]

theorem mem_of_mem_placed {cs : List Chunk} {pos : Nat} {x : Nat × Chunk} (h : x ∈ placed pos cs) :
    x.2 ∈ cs := by
  rw [← placed_map_snd cs pos]
  exact List.mem_map_of_mem h

theorem exists_mem_placed {cs : List Chunk} (pos : Nat) {c : Chunk} (h : c ∈ cs) :
    ∃ p, (p, c) ∈ placed pos cs := by
  rw [← placed_map_snd cs pos] at h
  obtain ⟨x, hx, rfl⟩ := List.mem_map.mp h
  exact ⟨x.1, hx⟩

theorem encode_length_le {cs : List Chunk} {c : Chunk} (h : c ∈ cs) :
    c.encode.length ≤ (encodeAll cs).length := by
  induction cs with
  | nil => exact absurd h List.not_mem_nil
  | cons d cs ih =>
    rw [encodeAll_cons, List.length_append]
    rcases List.mem_cons.mp h with rfl | h
    · exact Nat.le_add_right _ _
    · exact Nat.le_add_left_of_le (ih h)

end RIFF
