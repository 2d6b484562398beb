import Mathlib.Data.List.Range
import Mathlib.Data.Nat.ModEq
import Mathlib.Logic.Function.Basic

/-! Bounded first-in first-out queues, and the ring of slots that stores one:
`load` elements from slot `head` onward, the indices taken modulo the number
of slots. -/

namespace RingBuffer

variable {α β : Type*}

/-- A first-in first-out queue that never holds more than `cap` items. -/
structure Fifo (α : Type*) (cap : Nat) where
  items : List α
  le_cap : items.length ≤ cap

def Fifo.push {cap : Nat} (q : Fifo α cap) (x : α) : Option (Fifo α cap) :=
  if h : q.items.length < cap then
    some ⟨q.items ++ [x], by simp only [List.length_append, List.length_singleton]; omega⟩
  else none

def Fifo.pop {cap : Nat} (q : Fifo α cap) : Option (α × Fifo α cap) :=
  match hq : q.items with
  | [] => none
  | x :: rest => some (x, ⟨rest, by
      have := q.le_cap
      rw [hq, List.length_cons] at this
      omega⟩)

/-- The elements of a ring of `n` slots, oldest first. -/
def contents (slots : Nat → α) (n head load : Nat) : List α :=
  (List.range load).map fun i => slots ((head + i) % n)

@[simp] theorem contents_length (slots : Nat → α) (n head load : Nat) :
    (contents slots n head load).length = load := by
  simp [contents]

@[simp] theorem contents_zero (slots : Nat → α) (n head : Nat) : contents slots n head 0 = [] := rfl

theorem slot_injective {n head i j : Nat} (hi : i < n) (hj : j < n)
    (h : (head + i) % n = (head + j) % n) : i = j := by
  have hm : Nat.ModEq n i j := Nat.ModEq.add_left_cancel' head h
  exact hm.eq_of_lt_of_lt hi hj

theorem contents_push (slots : Nat → α) {n head load : Nat} (hload : load < n) (x : α) :
    contents (Function.update slots ((head + load) % n) x) n head (load + 1) =
      contents slots n head load ++ [x] := by
  simp only [contents, List.range_succ, List.map_append, List.map_cons, List.map_nil,
    Function.update_self]
  congr 1
  apply List.map_congr_left
  intro i hi
  have hlt : i < load := List.mem_range.mp hi
  have hne : (head + i) % n ≠ (head + load) % n := fun h => by
    have := slot_injective (by omega) hload h
    omega
  exact Function.update_of_ne hne _ _

theorem contents_pop (slots : Nat → α) {n head load : Nat} (hload : 0 < load) (hhead : head < n) :
    contents slots n head load = slots head :: contents slots n ((head + 1) % n) (load - 1) := by
  obtain ⟨k, rfl⟩ : ∃ k, load = k + 1 := ⟨load - 1, by omega⟩
  simp only [contents, List.range_succ_eq_map, List.map_cons, List.map_map, Nat.add_zero,
    Nat.mod_eq_of_lt hhead, Nat.add_sub_cancel]
  congr 1
  apply List.map_congr_left
  intro i _
  simp only [Function.comp_apply]
  rw [Nat.mod_add_mod, Nat.add_right_comm, Nat.add_assoc]

end RingBuffer
