import Mathlib

set_option autoImplicit false

namespace TopK

section
variable {α : Type} (ahead : α → α → Prop) [DecidableRel ahead]

/-- Each element goes in front of the first one that it is ahead of, and behind all others.
-/
def insertAll (l entries : List α) : List α := entries.foldl (fun l x => l.orderedInsert ahead x) l

theorem take_insert (k : Nat) (x : α) (l : List α) :
    ((l.take k).orderedInsert ahead x).take k = (l.orderedInsert ahead x).take k := by
  induction l generalizing k with
  | nil => rw [List.take_nil]
  | cons y rest ih =>
      cases k with
      | zero => rw [List.take_zero, List.take_zero]
      | succ k =>
          rw [List.take_succ_cons, List.orderedInsert_cons, List.orderedInsert_cons]
          by_cases here : ahead x y
          · rw [if_pos here, if_pos here, List.take_succ_cons, List.take_succ_cons]
            congr 1
            cases k with
            | zero => rw [List.take_zero, List.take_zero]
            | succ k => rw [List.take_succ_cons, List.take_succ_cons, List.take_take, Nat.min_eq_left (Nat.le_succ k)]
          · rw [if_neg here, if_neg here, List.take_succ_cons, List.take_succ_cons, ih]

theorem take_insert_all (k : Nat) (entries l : List α) :
    entries.foldl (fun top x => (top.orderedInsert ahead x).take k) (l.take k) = (insertAll ahead l entries).take k := by
  induction entries generalizing l with
  | nil => rfl
  | cons x rest ih =>
      rw [List.foldl_cons, take_insert, ih]
      rfl

variable {ahead}

theorem insert_last {x : α} {l : List α} (behind : ∀ y ∈ l, ¬ ahead x y) : l.orderedInsert ahead x = l ++ [x] := by
  induction l with
  | nil => rfl
  | cons y rest ih =>
      rw [List.orderedInsert_cons, if_neg (behind y List.mem_cons_self),
        ih (fun z member => behind z (List.mem_cons_of_mem y member)), List.cons_append]

theorem insert_front {x y : α} (here : ahead x y) (l rest : List α) :
    (l ++ y :: rest).orderedInsert ahead x = l.orderedInsert ahead x ++ y :: rest := by
  induction l with
  | nil => rw [List.nil_append, List.orderedInsert_cons, if_pos here, List.orderedInsert_nil, List.singleton_append]
  | cons z l ih =>
      rw [List.cons_append, List.orderedInsert_cons, List.orderedInsert_cons, ih]
      split
      · rfl
      · rfl

theorem insert_pairwise {order : α → α → Prop} (trans : ∀ a b c, order a b → order b c → order a c) {x : α} {l : List α}
    (front : ∀ y ∈ l, ahead x y → order x y) (behind : ∀ y ∈ l, ¬ ahead x y → order y x) (sorted : l.Pairwise order) :
    (l.orderedInsert ahead x).Pairwise order := by
  induction l with
  | nil => exact List.pairwise_singleton order x
  | cons y rest ih =>
      obtain ⟨first, later⟩ := List.pairwise_cons.mp sorted
      rw [List.orderedInsert_cons]
      by_cases here : ahead x y
      · rw [if_pos here, List.pairwise_cons]
        refine ⟨?_, sorted⟩
        have next := front y List.mem_cons_self here
        intro z member
        cases List.mem_cons.mp member with
        | inl same => exact same ▸ next
        | inr below => exact trans x y z next (first z below)
      · rw [if_neg here, List.pairwise_cons]
        constructor
        · intro z member
          cases (List.mem_orderedInsert ahead).mp member with
          | inl same => exact same ▸ behind y List.mem_cons_self here
          | inr below => exact first z below
        · exact ih (fun z member => front z (List.mem_cons_of_mem y member))
            (fun z member => behind z (List.mem_cons_of_mem y member)) later

theorem insert_all_perm (l entries : List α) : (insertAll ahead l entries).Perm (entries ++ l) := by
  induction entries generalizing l with
  | nil => exact List.Perm.refl l
  | cons x rest ih =>
      refine (ih _).trans ?_
      exact (List.Perm.append_left rest (List.perm_orderedInsert ahead x l)).trans List.perm_middle

theorem insert_all_pairwise {order earlier : α → α → Prop} (trans : ∀ a b c, order a b → order b c → order a c)
    (front : ∀ x y, ahead x y → order x y) (behind : ∀ x y, earlier y x → ¬ ahead x y → order y x) (entries l : List α)
    (coming : entries.Pairwise earlier) (prior : ∀ y ∈ l, ∀ x ∈ entries, earlier y x) (sorted : l.Pairwise order) :
    (insertAll ahead l entries).Pairwise order := by
  induction entries generalizing l with
  | nil => exact sorted
  | cons x entries ih =>
      obtain ⟨first, later⟩ := List.pairwise_cons.mp coming
      refine ih (l.orderedInsert ahead x) later ?_ ?_
      · intro y member z next
        cases (List.mem_orderedInsert ahead).mp member with
        | inl same => exact same ▸ first z next
        | inr old => exact prior y old z (List.mem_cons_of_mem x next)
      · exact insert_pairwise trans (fun y _ => front x y) (fun y member => behind x y (prior y member x List.mem_cons_self))
          sorted

theorem insert_all_map {β : Type} {other : β → β → Prop} [DecidableRel other] (f : α → β)
    (same : ∀ a b, ahead a b ↔ other (f a) (f b)) (entries l : List α) :
    (insertAll ahead l entries).map f = insertAll other (l.map f) (entries.map f) := by
  induction entries generalizing l with
  | nil => rfl
  | cons x entries ih =>
      have step := ih (l.orderedInsert ahead x)
      rw [List.map_orderedInsert ahead other f l x (fun a _ => same a x) (fun a _ => same x a)] at step
      exact step

theorem insert_all_low {low : α → Bool} (never : ∀ x y, low x = true → ¬ ahead x y)
    (above : ∀ x y, low x = false → low y = true → ahead x y) (entries l rest : List α) (padding : ∀ y ∈ rest, low y = true) :
    insertAll ahead (l ++ rest) entries =
      insertAll ahead l (entries.filter (fun x => !low x)) ++ (rest ++ entries.filter low) := by
  induction entries generalizing l rest with
  | nil => rw [List.filter_nil, List.filter_nil, List.append_nil]; rfl
  | cons x entries ih =>
      have step : insertAll ahead (l ++ rest) (x :: entries) = insertAll ahead ((l ++ rest).orderedInsert ahead x) entries := rfl
      rw [step]
      cases class_ : low x with
      | true =>
          have more : ∀ y ∈ rest ++ [x], low y = true := by
            intro y member
            cases List.mem_append.mp member with
            | inl before => exact padding y before
            | inr last => exact List.mem_singleton.mp last ▸ class_
          rw [insert_last (fun y _ => never x y class_), List.append_assoc, ih l (rest ++ [x]) more,
            List.filter_cons_of_neg (by rw [class_]; decide), List.filter_cons_of_pos class_, List.append_assoc,
            List.singleton_append]
      | false =>
          have kept : (l ++ rest).orderedInsert ahead x = l.orderedInsert ahead x ++ rest := by
            cases rest with
            | nil => rw [List.append_nil, List.append_nil]
            | cons y rest => exact insert_front (above x y class_ (padding y List.mem_cons_self)) l rest
          rw [kept, ih _ rest padding, List.filter_cons_of_pos (by rw [class_]; rfl),
            List.filter_cons_of_neg (by rw [class_]; decide)]
          rfl

theorem take_insert_all_padded {low : α → Bool} (never : ∀ x y, low x = true → ¬ ahead x y)
    (above : ∀ x y, low x = false → low y = true → ahead x y) (entries pads : List α) (padding : ∀ y ∈ pads, low y = true)
    {k : Nat} (enough : k ≤ (entries.filter (fun x => !low x)).length) :
    (insertAll ahead pads entries).take k = (insertAll ahead [] entries).take k := by
  have length : (insertAll ahead [] (entries.filter (fun x => !low x))).length = (entries.filter (fun x => !low x)).length := by
    rw [(insert_all_perm _ _).length_eq, List.append_nil]
  have padded := insert_all_low never above entries [] pads padding
  have bare := insert_all_low never above entries [] [] (fun y member => absurd member List.not_mem_nil)
  rw [List.nil_append] at padded bare
  rw [padded, bare, List.take_append_of_le_length (by omega), List.take_append_of_le_length (by omega)]

end

end TopK
