import Mathlib.Data.List.Basic
import Mathlib.Order.Basic

/-!
# Temporary files

The temporary files a program has made, by their names. `mkstemp` chooses a name that is not in use,
so what is then done to the new file leaves the others as they were.
-/

abbrev Temporaries (β : Type) := List (Nat × β)

namespace Temporaries

variable {β : Type} (files : Temporaries β)

/-- The name that `mkstemp` chooses. -/
def fresh : Nat := (files.map Prod.fst).foldr max 0 + 1

/-- The files with a new one. -/
def make (value : β) : Temporaries β := files ++ [(files.fresh, value)]

/-- Write to a file. -/
def modify (name : Nat) (f : β → β) : Temporaries β :=
  files.map fun file => if file.1 = name then (file.1, f file.2) else file

def unlink (name : Nat) : Temporaries β := files.filter fun file => file.1 ≠ name

def read (name : Nat) : Option β := (files.find? fun file => file.1 = name).map Prod.snd

theorem ne_fresh {file : Nat × β} (h : file ∈ files) : file.1 ≠ files.fresh := by
  have hle : ∀ {names : List Nat} {n : Nat}, n ∈ names → n ≤ names.foldr max 0 := by
    intro names n hn
    induction names with
    | nil => simp at hn
    | cons m names ih =>
      rw [List.foldr_cons]
      rcases List.mem_cons.mp hn with rfl | hn
      · omega
      · have := ih hn
        omega
  have hmem := hle (List.mem_map_of_mem (f := Prod.fst) h)
  unfold fresh
  omega

@[simp] theorem modify_make (value : β) (f : β → β) :
    (files.make value).modify files.fresh f = files.make (f value) := by
  have hmap : files.map (fun file => if file.1 = files.fresh then (file.1, f file.2) else file)
      = files := (List.map_congr_left fun _ h => if_neg (files.ne_fresh h)).trans (List.map_id _)
  simp [make, modify, hmap]

@[simp] theorem unlink_fresh : files.unlink files.fresh = files :=
  List.filter_eq_self.mpr fun _ h => decide_eq_true (files.ne_fresh h)

@[simp] theorem unlink_make (value : β) : (files.make value).unlink files.fresh = files := by
  have hunlink := files.unlink_fresh
  unfold unlink at hunlink
  simp only [make, unlink, List.filter_append, hunlink]
  simp

@[simp] theorem read_fresh : files.read files.fresh = none := by
  have hfind : files.find? (fun file => file.1 = files.fresh) = none :=
    List.find?_eq_none.mpr fun _ h => by simpa using files.ne_fresh h
  rw [read, hfind]
  rfl

@[simp] theorem read_make (value : β) : (files.make value).read files.fresh = some value := by
  have hfind : files.find? (fun file => file.1 = files.fresh) = none :=
    List.find?_eq_none.mpr fun _ h => by simpa using files.ne_fresh h
  simp [make, read, List.find?_append, hfind]

end Temporaries
