import Mathlib.Data.List.Basic

/-! A store of named entries, whose names are told apart by a key: names with one
key are one entry. -/

namespace Folder

variable {κ ι ν : Type*} [DecidableEq ι] (key : κ → ι)

def lookup (d : List (κ × ν)) (i : ι) : Option ν := (d.find? fun e => key e.1 = i).map Prod.snd

/-- An entry that is there keeps its name. -/
def put (d : List (κ × ν)) (name : κ) (v : ν) : List (κ × ν) :=
  if (lookup key d (key name)).isSome then
    d.map fun e => if key e.1 = key name then (e.1, v) else e
  else d ++ [(name, v)]

def erase (d : List (κ × ν)) (i : ι) : List (κ × ν) := d.filter fun e => key e.1 ≠ i

/-- An entry moves to a name that is free. -/
def rename (d : List (κ × ν)) (old new : κ) : List (κ × ν) :=
  match lookup key d (key old) with
  | none => d
  | some v => if (lookup key d (key new)).isSome then d else erase key d (key old) ++ [(new, v)]

variable {key}

end Folder
