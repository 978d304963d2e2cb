import Mathlib

set_option autoImplicit false

namespace Ledger

inductive Event (R : Type) where
  | acquire (r : R)
  | release (r : R)
deriving DecidableEq, Repr

variable {R : Type} [DecidableEq R]

-- What is held after the event; none when a resource is handed out while it is
-- held, or given back while it is not.
def step (held : Finset R) : Event R → Option (Finset R)
  | .acquire r => if r ∈ held then none else some (insert r held)
  | .release r => if r ∈ held then some (held.erase r) else none

def settle (held : Finset R) (events : List (Event R)) : Option (Finset R) := events.foldlM step held

/-- Every resource is given back once, and only after it was got. -/
def Cleared (events : List (Event R)) : Prop := settle ∅ events = some ∅

instance (events : List (Event R)) : Decidable (Cleared events) := inferInstanceAs (Decidable (_ = _))

theorem settle_append (held : Finset R) (before after : List (Event R)) :
    settle held (before ++ after) = (settle held before).bind (fun next => settle next after) :=
  List.foldlM_append

theorem settle_cons (held : Finset R) (event : Event R) (rest : List (Event R)) :
    settle held (event :: rest) = (step held event).bind (fun next => settle next rest) :=
  List.foldlM_cons

theorem settle_acquires {rs : List R} {held : Finset R} (distinct : rs.Nodup) (fresh : ∀ r ∈ rs, r ∉ held) :
    settle held (rs.map .acquire) = some (held ∪ rs.toFinset) := by
  induction rs generalizing held with
  | nil =>
      rw [List.toFinset_nil, Finset.union_empty]
      rfl
  | cons r rest ih =>
      have apart := List.nodup_cons.mp distinct
      have later : ∀ s ∈ rest, s ∉ insert r held := by
        intro s member
        rw [Finset.mem_insert]
        rintro (same | earlier)
        · exact apart.1 (same ▸ member)
        · exact fresh s (List.mem_cons_of_mem r member) earlier
      have first : step held (.acquire r) = some (insert r held) := if_neg (fresh r List.mem_cons_self)
      rw [List.map_cons, settle_cons, first, Option.bind_some, ih apart.2 later, List.toFinset_cons,
        Finset.insert_union, Finset.union_insert]

theorem settle_releases {rs : List R} {held : Finset R} (distinct : rs.Nodup) (owned : ∀ r ∈ rs, r ∈ held) :
    settle held (rs.map .release) = some (held \ rs.toFinset) := by
  induction rs generalizing held with
  | nil =>
      rw [List.toFinset_nil, Finset.sdiff_empty]
      rfl
  | cons r rest ih =>
      have apart := List.nodup_cons.mp distinct
      have later : ∀ s ∈ rest, s ∈ held.erase r := by
        intro s member
        exact Finset.mem_erase.mpr ⟨fun same => apart.1 (same ▸ member), owned s (List.mem_cons_of_mem r member)⟩
      have first : step held (.release r) = some (held.erase r) := if_pos (owned r List.mem_cons_self)
      rw [List.map_cons, settle_cons, first, Option.bind_some, ih apart.2 later, List.toFinset_cons,
        Finset.erase_sdiff_comm, Finset.sdiff_insert]

theorem settle_kept (passes : R → Bool) (got given : List R) (distinct : got.Nodup) (once : given.Nodup)
    (same : ∀ r, r ∈ given ↔ r ∈ got) :
    settle ∅ (got.map .acquire ++ (given.filter passes).map .release) = some (got.toFinset.filter (fun r => passes r = false)) := by
  have owned : ∀ r ∈ given.filter passes, r ∈ ∅ ∪ got.toFinset := by
    intro r member
    simpa [same] using List.mem_of_mem_filter member
  have rest : got.toFinset \ (given.filter passes).toFinset = got.toFinset.filter (fun r => passes r = false) := by
    ext r
    simp only [Finset.mem_sdiff, List.mem_toFinset, List.mem_filter, same, Finset.mem_filter, not_and, Bool.not_eq_true]
    exact ⟨fun held => ⟨held.1, held.2 held.1⟩, fun held => ⟨held.1, fun _ => held.2⟩⟩
  rw [settle_append, settle_acquires distinct (by simp), Option.bind_some, settle_releases (once.filter passes) owned,
    Finset.empty_union, rest]

theorem cleared_reverse (rs : List R) (distinct : rs.Nodup) : Cleared (rs.map .acquire ++ rs.reverse.map .release) := by
  have kept := settle_kept (fun _ => true) rs rs.reverse distinct (List.nodup_reverse.mpr distinct) (fun _ => List.mem_reverse)
  rw [Cleared]
  simpa using kept

theorem cleared_append_iff {before : List (Event R)} (cleared : Cleared before) (after : List (Event R)) :
    Cleared (before ++ after) ↔ Cleared after := by
  rw [Cleared, settle_append, cleared, Option.bind_some, Cleared]

theorem settle_gone {held : Finset R} {r : R} (middle rest : List (Event R)) (gone : r ∉ held)
    (never : Event.acquire r ∉ middle) : settle held (middle ++ .release r :: rest) = none := by
  induction middle generalizing held with
  | nil =>
      have refused : step held (.release r) = none := if_neg gone
      rw [List.nil_append, settle_cons, refused, Option.bind_none]
  | cons event more ih =>
      rw [List.mem_cons, not_or] at never
      rw [List.cons_append, settle_cons]
      cases taken : step held event with
      | none => rfl
      | some next =>
          refine ih ?_ never.2
          cases event with
          | acquire other =>
              have apart : r ≠ other := fun same => never.1 (same ▸ rfl)
              rw [step] at taken
              split at taken
              · cases taken
              · cases taken
                simp [apart, gone]
          | release other =>
              rw [step] at taken
              split at taken
              · cases taken
                exact fun member => gone (Finset.mem_of_mem_erase member)
              · cases taken

theorem settle_twice (held : Finset R) {r : R} (before middle rest : List (Event R)) (never : Event.acquire r ∉ middle) :
    settle held (before ++ .release r :: (middle ++ .release r :: rest)) = none := by
  rw [settle_append]
  cases settle held before with
  | none => rfl
  | some next =>
      rw [Option.bind_some, settle_cons, step]
      split
      · exact settle_gone middle rest (Finset.notMem_erase r next) never
      · rfl

end Ledger
