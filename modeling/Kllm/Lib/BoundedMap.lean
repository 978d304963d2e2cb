import Mathlib

set_option autoImplicit false

namespace BoundedMap

variable {κ ν : Type} [DecidableEq κ]

-- A table with room for so many keys, in the order in which the keys came.
def find (key : κ) : List (κ × ν) → Option ν
  | [] => none
  | (other, value) :: rest => if other = key then some value else find key rest

def replace (key : κ) (value : ν) : List (κ × ν) → List (κ × ν)
  | [] => []
  | (other, old) :: rest => if other = key then (other, value) :: rest else (other, old) :: replace key value rest

-- A key already there gets the new value; a new one is refused by a full table.
def update (bound : Nat) (table : List (κ × ν)) (key : κ) (value : ν) : List (κ × ν) :=
  if (find key table).isSome then replace key value table
  else if table.length ≥ bound then table
  else table ++ [(key, value)]

def erase (key : κ) (table : List (κ × ν)) : List (κ × ν) := table.filter (fun entry => entry.1 ≠ key)

def keys (table : List (κ × ν)) : List κ := table.map Prod.fst

theorem find_isSome_iff (key : κ) (table : List (κ × ν)) : (find key table).isSome ↔ key ∈ keys table := by
  induction table with
  | nil => simp [find, keys]
  | cons entry rest ih =>
      obtain ⟨other, value⟩ := entry
      by_cases same : other = key
      · simp [find, keys, same]
      · have apart : key ≠ other := fun eq => same eq.symm
        rw [find, if_neg same, ih]
        simp [keys, apart]

theorem find_none_iff (key : κ) (table : List (κ × ν)) : find key table = none ↔ key ∉ keys table := by
  rw [← find_isSome_iff, Bool.not_eq_true, Option.isSome_eq_false_iff, Option.isNone_iff_eq_none]

theorem keys_replace (key : κ) (value : ν) (table : List (κ × ν)) : keys (replace key value table) = keys table := by
  induction table with
  | nil => rfl
  | cons entry rest ih =>
      obtain ⟨other, old⟩ := entry
      by_cases same : other = key
      · rw [replace, if_pos same]
        rfl
      · rw [replace, if_neg same]
        exact congrArg (other :: ·) ih

theorem find_replace_same (key : κ) (value : ν) (table : List (κ × ν)) (present : (find key table).isSome) :
    find key (replace key value table) = some value := by
  induction table with
  | nil => cases present
  | cons entry rest ih =>
      obtain ⟨other, old⟩ := entry
      by_cases same : other = key
      · rw [replace, if_pos same, find, if_pos same]
      · rw [find, if_neg same] at present
        rw [replace, if_neg same, find, if_neg same]
        exact ih present

theorem find_replace_other (key wanted : κ) (apart : wanted ≠ key) (value : ν) (table : List (κ × ν)) :
    find wanted (replace key value table) = find wanted table := by
  induction table with
  | nil => rfl
  | cons entry rest ih =>
      obtain ⟨other, old⟩ := entry
      by_cases same : other = key
      · have differs : other ≠ wanted := fun eq => apart (eq.symm.trans same)
        rw [replace, if_pos same, find, if_neg differs, find, if_neg differs]
      · rw [replace, if_neg same, find, find, ih]

theorem find_append_single (key wanted : κ) (value : ν) (table : List (κ × ν)) :
    find wanted (table ++ [(key, value)]) = if (find wanted table).isSome then find wanted table
      else if key = wanted then some value else none := by
  induction table with
  | nil => rfl
  | cons entry rest ih =>
      obtain ⟨other, old⟩ := entry
      by_cases same : other = wanted
      · simp [find, same]
      · rw [List.cons_append, find, if_neg same, find, if_neg same, ih]

theorem find_update_same (bound : Nat) (table : List (κ × ν)) (key : κ) (value : ν)
    (room : (find key table).isSome ∨ table.length < bound) : find key (update bound table key value) = some value := by
  rw [update]
  by_cases present : (find key table).isSome
  · rw [if_pos present]
    exact find_replace_same key value table present
  · have space : ¬ table.length ≥ bound := Nat.not_le.mpr (room.resolve_left present)
    rw [if_neg present, if_neg space, find_append_single, if_neg present, if_pos rfl]

theorem find_update_other (bound : Nat) (table : List (κ × ν)) (key wanted : κ) (apart : wanted ≠ key) (value : ν) :
    find wanted (update bound table key value) = find wanted table := by
  rw [update]
  split
  · exact find_replace_other key wanted apart value table
  · split
    · rfl
    · have differs : ¬ key = wanted := fun same => apart same.symm
      rw [find_append_single, if_neg differs]
      cases find wanted table with
      | none => rfl
      | some old => rfl

theorem find_erase_same (key : κ) (table : List (κ × ν)) : find key (erase key table) = none := by
  rw [find_none_iff]
  simp [keys, erase]

theorem find_erase_other (key wanted : κ) (apart : wanted ≠ key) (table : List (κ × ν)) :
    find wanted (erase key table) = find wanted table := by
  induction table with
  | nil => rfl
  | cons entry rest ih =>
      obtain ⟨other, value⟩ := entry
      by_cases same : other = key
      · have differs : other ≠ wanted := fun eq => apart (eq.symm.trans same)
        have gone : erase key ((other, value) :: rest) = erase key rest :=
          List.filter_cons_of_neg (fun keep => of_decide_eq_true keep same)
        rw [gone, ih, find, if_neg differs]
      · have kept : erase key ((other, value) :: rest) = (other, value) :: erase key rest :=
          List.filter_cons_of_pos (decide_eq_true same)
        rw [kept, find, find, ih]

theorem erase_absent (key : κ) (table : List (κ × ν)) (absent : key ∉ keys table) : erase key table = table := by
  apply List.filter_eq_self.mpr
  intro entry member
  refine decide_eq_true ?_
  intro same
  exact absent (same ▸ List.mem_map_of_mem member)

theorem keys_update (bound : Nat) (table : List (κ × ν)) (asked : List κ) (held : keys table = asked.eraseDups.take bound)
    (key : κ) (value : ν) : keys (update bound table key value) = (asked ++ [key]).eraseDups.take bound := by
  have dedup : (asked ++ [key]).eraseDups = if key ∈ asked then asked.eraseDups else asked.eraseDups ++ [key] := by
    rw [List.eraseDups_append]
    by_cases known : key ∈ asked
    · have removed : [key].removeAll asked = [] := by simp [List.removeAll, known]
      rw [if_pos known, removed, List.eraseDups_nil, List.append_nil]
    · have kept : [key].removeAll asked = [key] := by simp [List.removeAll, known]
      rw [if_neg known, kept]
      rfl
  have size := congrArg List.length held
  rw [keys, List.length_map, List.length_take] at size
  rw [dedup, update]
  by_cases present : (find key table).isSome
  · have member := (find_isSome_iff key table).mp present
    rw [held] at member
    have known : key ∈ asked := List.mem_eraseDups.mp (List.mem_of_mem_take member)
    rw [if_pos present, if_pos known, keys_replace, held]
  · have absent : key ∉ keys table := fun member => present ((find_isSome_iff key table).mpr member)
    rw [if_neg present]
    by_cases full : table.length ≥ bound
    · have all : asked.eraseDups.length ≥ bound := by omega
      rw [if_pos full, held]
      split
      · rfl
      · rw [List.take_append_of_le_length all]
    · have unknown : key ∉ asked := by
        intro known
        have inside : key ∈ asked.eraseDups.take bound := by
          rw [List.take_of_length_le (by omega)]
          exact List.mem_eraseDups.mpr known
        exact absent (held ▸ inside)
      have short : (asked.eraseDups ++ [key]).length ≤ bound := by
        rw [List.length_append, List.length_singleton]
        omega
      rw [if_neg full, if_neg unknown, List.take_of_length_le short, keys, List.map_append, ← keys, held,
        List.take_of_length_le (by omega)]
      rfl

end BoundedMap
