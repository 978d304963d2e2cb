import Mathlib

set_option autoImplicit false

namespace Delimited

variable {α : Type}

def terminated (d : α) (segments : List (List α)) : List α := segments.flatMap (fun segment => segment ++ [d])

theorem terminated_cons (d : α) (segment : List α) (rest : List (List α)) :
    terminated d (segment :: rest) = segment ++ d :: terminated d rest := by
  rw [terminated, List.flatMap_cons, List.append_assoc, List.singleton_append, terminated]

variable [BEq α] [LawfulBEq α]

theorem split_free (d : α) (segment : List α) (free : d ∉ segment) : segment.splitOn d = [segment] := by
  have round : ([d].intercalate [segment]).splitOn d = [segment] :=
    List.splitOn_intercalate d (by simpa using free) (by simp)
  rwa [List.intercalate_singleton] at round

theorem split_terminated (d : α) (segments : List (List α)) (free : ∀ segment ∈ segments, d ∉ segment) :
    (terminated d segments).splitOn d = segments ++ [[]] := by
  induction segments with
  | nil => exact List.splitOn_nil d
  | cons segment rest ih =>
      rw [terminated_cons, List.splitOn_append_cons_self, split_free d segment (free segment List.mem_cons_self),
        ih (fun other member => free other (List.mem_cons_of_mem segment member)), List.singleton_append, List.cons_append]

theorem split_cut (d : α) (segments : List (List α)) (free : ∀ segment ∈ segments, d ∉ segment) (xs : List α)
    (cut : xs <+: terminated d segments) : (xs.splitOn d).dropLast <+: segments := by
  induction segments generalizing xs with
  | nil =>
      rw [List.prefix_nil.mp cut, List.splitOn_nil]
      exact List.nil_prefix
  | cons segment rest ih =>
      have own := free segment List.mem_cons_self
      rw [terminated_cons] at cut
      have short : ∀ ys, ys <+: segment → (ys.splitOn d).dropLast <+: segment :: rest := by
        intro ys inside
        rw [split_free d ys (fun member => own (inside.mem member))]
        exact List.nil_prefix
      cases List.prefix_or_prefix_of_prefix cut (List.prefix_append segment _) with
      | inl inside => exact short xs inside
      | inr past =>
          obtain ⟨more, rfl⟩ := past
          rw [List.prefix_append_right_inj] at cut
          cases List.prefix_cons_iff.mp cut with
          | inl none_ =>
              rw [none_, List.append_nil]
              exact short segment (List.prefix_refl segment)
          | inr next =>
              obtain ⟨ys, rfl, later⟩ := next
              rw [List.splitOn_append_cons_self, split_free d segment own,
                List.dropLast_append_of_ne_nil (List.splitOn_ne_nil d ys), List.singleton_append, List.prefix_cons_inj]
              exact ih (fun other member => free other (List.mem_cons_of_mem segment member)) ys later

end Delimited
