import Mathlib

set_option autoImplicit false

namespace Warp

open Finset

-- The indices of the loop for (d = start; d < bound; d += width).
def stridedFrom (width bound : Nat) : Nat → Nat → List Nat
  | 0, _ => []
  | fuel + 1, d => if d < bound then d :: stridedFrom width bound fuel (d + width) else []

def strided (width bound lane : Nat) : List Nat := stridedFrom width bound bound lane

theorem mem_strided_from (width bound fuel d start : Nat) (wide : 0 < width) (enough : bound ≤ start + fuel) :
    d ∈ stridedFrom width bound fuel start ↔ start ≤ d ∧ d < bound ∧ d % width = start % width := by
  induction fuel generalizing start with
  | zero =>
      simp only [stridedFrom, List.not_mem_nil, false_iff]
      omega
  | succ fuel ih =>
      by_cases inside : start < bound
      · rw [stridedFrom, if_pos inside, List.mem_cons, ih (start + width) (by omega), Nat.add_mod_right]
        constructor
        · rintro (here | ⟨after, below, same⟩)
          · rw [here]
            exact ⟨Nat.le_refl _, inside, rfl⟩
          · exact ⟨by omega, below, same⟩
        · rintro ⟨after, below, same⟩
          by_cases here : d = start
          · exact Or.inl here
          · have multiple : width ∣ d - start := (Nat.modEq_iff_dvd' after).mp same.symm
            have := Nat.le_of_dvd (by omega) multiple
            exact Or.inr ⟨by omega, below, same⟩
      · rw [stridedFrom, if_neg inside]
        simp only [List.not_mem_nil, false_iff]
        omega

theorem nodup_strided_from (width bound fuel start : Nat) (wide : 0 < width) (enough : bound ≤ start + fuel) :
    (stridedFrom width bound fuel start).Nodup := by
  induction fuel generalizing start with
  | zero => exact List.nodup_nil
  | succ fuel ih =>
      by_cases inside : start < bound
      · rw [stridedFrom, if_pos inside, List.nodup_cons]
        refine ⟨?_, ih (start + width) (by omega)⟩
        rw [mem_strided_from width bound fuel start _ wide (by omega)]
        omega
      · rw [stridedFrom, if_neg inside]
        exact List.nodup_nil

theorem mem_strided (width bound lane d : Nat) (inside : lane < width) :
    d ∈ strided width bound lane ↔ d < bound ∧ d % width = lane := by
  rw [strided, mem_strided_from width bound bound d lane (by omega) (by omega), Nat.mod_eq_of_lt inside]
  constructor
  · rintro ⟨_, below, same⟩
    exact ⟨below, same⟩
  · rintro ⟨below, same⟩
    exact ⟨same ▸ Nat.mod_le d width, below, same⟩

theorem nodup_strided (width bound lane : Nat) (inside : lane < width) : (strided width bound lane).Nodup :=
  nodup_strided_from width bound bound lane (by omega) (by omega)

def laneMajor (width bound : Nat) : List Nat := (List.range width).flatMap (strided width bound)

theorem mem_lane_major (width bound d : Nat) (wide : 0 < width) : d ∈ laneMajor width bound ↔ d < bound := by
  rw [laneMajor, List.mem_flatMap]
  constructor
  · rintro ⟨lane, inside, member⟩
    exact ((mem_strided width bound lane d (List.mem_range.mp inside)).mp member).1
  · intro below
    have inside := Nat.mod_lt d wide
    exact ⟨d % width, List.mem_range.mpr inside, (mem_strided width bound _ d inside).mpr ⟨below, rfl⟩⟩

theorem nodup_lane_major (width bound : Nat) : (laneMajor width bound).Nodup := by
  rw [laneMajor, List.nodup_flatMap]
  refine ⟨fun lane inside => nodup_strided width bound lane (List.mem_range.mp inside), ?_⟩
  have apart : (List.range width).Pairwise (fun lane other => lane ≠ other ∧ lane < width ∧ other < width) := by
    rw [List.pairwise_iff_getElem]
    intro i j inside within before
    rw [List.length_range] at inside within
    simp only [List.getElem_range]
    omega
  refine apart.imp ?_
  rintro lane other ⟨different, inside, within⟩ d here there
  have first := ((mem_strided width bound lane d inside).mp here).2
  have second := ((mem_strided width bound other d within).mp there).2
  exact different (first.symm.trans second)

section
variable {M : Type} [AddCommMonoid M]

def laneSum (width bound : Nat) (f : Nat → M) (lane : Nat) : M :=
  (strided width bound lane).foldl (fun sum d => sum + f d) 0

theorem foldl_add_list (f : Nat → M) (dims : List Nat) (sum : M) :
    dims.foldl (fun sum d => sum + f d) sum = sum + (dims.map f).sum := by
  induction dims generalizing sum with
  | nil => rw [List.foldl_nil, List.map_nil, List.sum_nil, add_zero]
  | cons d dims ih => rw [List.foldl_cons, ih, List.map_cons, List.sum_cons, add_assoc]

theorem lane_sum_eq (width bound : Nat) (f : Nat → M) (lane : Nat) (inside : lane < width) :
    laneSum width bound f lane = ∑ d ∈ (range bound).filter (fun d => d % width = lane), f d := by
  have members : (strided width bound lane).toFinset = (range bound).filter (fun d => d % width = lane) := by
    ext d
    rw [List.mem_toFinset, mem_strided width bound lane d inside, mem_filter, mem_range]
  rw [laneSum, foldl_add_list, zero_add, ← members, List.sum_toFinset f (nodup_strided width bound lane inside)]

theorem lane_sums_list (stride bound lanes : Nat) (f : Nat → M) :
    ∑ lane ∈ range lanes, laneSum stride bound f lane = (((List.range lanes).flatMap (strided stride bound)).map f).sum := by
  induction lanes with
  | zero => rfl
  | succ lanes ih =>
      rw [sum_range_succ, ih, List.range_succ, List.flatMap_append, List.flatMap_singleton, List.map_append, List.sum_append,
        laneSum, foldl_add_list, zero_add]

theorem lane_sums (width bound : Nat) (f : Nat → M) (wide : 0 < width) :
    ∑ lane ∈ range width, laneSum width bound f lane = ∑ d ∈ range bound, f d := by
  have owner : ∀ d ∈ range bound, d % width ∈ range width := fun d _ => mem_range.mpr (Nat.mod_lt d wide)
  rw [← sum_fiberwise_of_maps_to owner f]
  apply sum_congr rfl
  intro lane inside
  exact lane_sum_eq width bound f lane (mem_range.mp inside)

/-- Shuffle down: a lane reads the lane offset above it, or itself past the end. -/
def shflDown (width offset : Nat) (v : Nat → M) (lane : Nat) : M := if lane + offset < width then v (lane + offset) else v lane

-- The loop for (offset = ...; offset > 0; offset >>= 1) v += shflDown(v, offset).
def reduceFrom (width : Nat) : Nat → Nat → (Nat → M) → Nat → M
  | 0, _, v => v
  | fuel + 1, offset, v =>
      if offset > 0 then reduceFrom width fuel (offset / 2) (fun lane => v lane + shflDown width offset v lane) else v

def reduce (width : Nat) (v : Nat → M) : Nat → M := reduceFrom width width (width / 2) v

-- Only lane 0 ends up with the whole sum; the lanes above it read past the end.
theorem reduce_from_lane_zero (width k fuel : Nat) (v : Nat → M) (enough : k ≤ fuel) (fits : 2 ^ k ≤ width) :
    reduceFrom width fuel (2 ^ k / 2) v 0 = ∑ lane ∈ range (2 ^ k), v lane := by
  induction k generalizing fuel v with
  | zero =>
      cases fuel with
      | zero => simp [reduceFrom]
      | succ fuel => simp [reduceFrom]
  | succ k ih =>
      cases fuel with
      | zero => omega
      | succ fuel =>
          have half : 2 ^ (k + 1) / 2 = 2 ^ k := by rw [pow_succ, Nat.mul_div_cancel _ (by omega)]
          have double : 2 ^ (k + 1) = 2 ^ k + 2 ^ k := by rw [pow_succ, mul_two]
          have positive : 2 ^ k > 0 := Nat.two_pow_pos k
          rw [half, reduceFrom, if_pos positive, ih fuel _ (by omega) (by omega), sum_add_distrib, double,
            sum_range_add]
          congr 1
          apply sum_congr rfl
          intro lane inside
          rw [mem_range] at inside
          rw [shflDown, if_pos (by omega), Nat.add_comm]

theorem reduce_lane_zero (width : Nat) (power : ∃ k, width = 2 ^ k) (v : Nat → M) :
    reduce width v 0 = ∑ lane ∈ range width, v lane := by
  obtain ⟨k, rfl⟩ := power
  exact reduce_from_lane_zero (2 ^ k) k (2 ^ k) v Nat.lt_two_pow_self.le (Nat.le_refl _)

end

section
variable {α : Type}

theorem foldl_update_at (cell : Nat → Nat) (change : Nat → α → α) (dims : List Nat)
    (distinct : ∀ d ∈ dims, ∀ e ∈ dims, cell d = cell e → d = e) (once : dims.Nodup) (store : Nat → α) (d : Nat)
    (member : d ∈ dims) :
    dims.foldl (fun store d => Function.update store (cell d) (change d (store (cell d)))) store (cell d) =
      change d (store (cell d)) := by
  induction dims generalizing store with
  | nil => simp at member
  | cons first dims ih =>
      rw [List.nodup_cons] at once
      rw [List.foldl_cons]
      by_cases here : d = first
      · have untouched : ∀ (rest : List Nat) (store : Nat → α), (∀ e ∈ rest, cell e ≠ cell d) →
            rest.foldl (fun store d => Function.update store (cell d) (change d (store (cell d)))) store (cell d) =
              store (cell d) := by
          intro rest
          induction rest with
          | nil =>
              intro store _
              rfl
          | cons e rest ih =>
              intro store apart
              rw [List.foldl_cons, ih _ (fun e member => apart e (List.mem_cons_of_mem _ member)),
                Function.update_of_ne (apart e List.mem_cons_self).symm]
        rw [untouched, ← here, Function.update_self]
        intro e later same
        have equal := distinct e (List.mem_cons_of_mem _ later) d member same
        rw [equal, here] at later
        exact once.1 later
      · have later : d ∈ dims := (List.mem_cons.mp member).resolve_left here
        have apart : cell d ≠ cell first := fun same => here (distinct d member first List.mem_cons_self same)
        rw [ih (fun d inside e other => distinct d (List.mem_cons_of_mem _ inside) e (List.mem_cons_of_mem _ other))
          once.2 _ later, Function.update_of_ne apart]

theorem foldl_blocks (size total : Nat) (positive : 0 < size) (step : α → Nat → α) (init : α) :
    (List.range ((total + size - 1) / size)).foldl
      (fun state block => (List.range (min size (total - block * size))).foldl
        (fun state item => step state (block * size + item)) state) init =
      (List.range total).foldl step init := by
  have count : ∀ blocks, (List.range blocks).foldl
      (fun state block => (List.range (min size (total - block * size))).foldl
        (fun state item => step state (block * size + item)) state) init =
      (List.range (min total (blocks * size))).foldl step init := by
    intro blocks
    induction blocks with
    | zero => simp
    | succ blocks ih =>
        have next : min total ((blocks + 1) * size) =
            min total (blocks * size) + min size (total - blocks * size) := by
          rw [Nat.succ_mul]
          omega
        rw [List.range_succ, List.foldl_append, List.foldl_cons, List.foldl_nil, ih, next, List.range_add,
          List.foldl_append, List.foldl_map]
        by_cases more : blocks * size ≤ total
        · rw [Nat.min_eq_right more]
        · have none_ : min size (total - blocks * size) = 0 := by omega
          rw [none_]
          rfl
  have covered : min total ((total + size - 1) / size * size) = total := by
    have round := Nat.div_add_mod (total + size - 1) size
    have rest := Nat.mod_lt (total + size - 1) positive
    rw [Nat.mul_comm] at round
    omega
  rw [count, covered]

theorem foldl_blocks_where (size total : Nat) (positive : 0 < size) (kept : Nat → Bool) (step : α → Nat → α) (init : α) :
    (List.range ((total + size - 1) / size)).foldl
      (fun state block => if kept block then (List.range (min size (total - block * size))).foldl
        (fun state item => step state (block * size + item)) state else state) init =
      ((List.range total).filter (fun item => kept (item / size))).foldl step init := by
  rw [List.foldl_filter, ← foldl_blocks size total positive]
  apply List.foldl_ext
  intro state block _
  have inBlock : ∀ item ∈ List.range (min size (total - block * size)), (block * size + item) / size = block := by
    intro item inside
    have small : item < size := by
      have := List.mem_range.mp inside
      omega
    rw [Nat.mul_comm, Nat.mul_add_div positive, Nat.div_eq_of_lt small, Nat.add_zero]
  by_cases keep : kept block = true
  · rw [if_pos keep]
    apply List.foldl_ext
    intro state item inside
    rw [inBlock item inside, if_pos keep]
  · rw [if_neg keep]
    have still : ∀ items : List Nat, (∀ item ∈ items, (block * size + item) / size = block) →
        items.foldl (fun state item => if kept ((block * size + item) / size) then step state (block * size + item) else state)
          state = state := by
      intro items
      induction items with
      | nil => exact fun _ => rfl
      | cons item rest ih =>
          intro within
          rw [List.foldl_cons, within item List.mem_cons_self, if_neg keep]
          exact ih (fun later member => within later (List.mem_cons_of_mem _ member))
    exact (still _ inBlock).symm

theorem range_map_getD (list : List α) (default : α) : (List.range list.length).map (fun i => list.getD i default) = list := by
  apply List.ext_getElem
  · rw [List.length_map, List.length_range]
  · intro i _ inside
    rw [List.getElem_map, List.getElem_range, List.getD_eq_getElem _ _ inside]

end

section
variable {ι A α : Type} [DecidableEq A] (cell : ι → A) (value : ι → α)

-- A loop whose body is one store, of a value that does not depend on the memory.
def stores (items : List ι) (memory : A → α) : A → α :=
  items.foldl (fun memory item => Function.update memory (cell item) (value item)) memory

theorem stores_cons (item : ι) (items : List ι) (memory : A → α) :
    stores cell value (item :: items) memory = stores cell value items (Function.update memory (cell item) (value item)) := rfl

theorem stores_other {items : List ι} {address : A} (missed : ∀ item ∈ items, cell item ≠ address) (memory : A → α) :
    stores cell value items memory address = memory address := by
  induction items generalizing memory with
  | nil => rfl
  | cons item items ih =>
      rw [stores_cons, ih (fun later member => missed later (List.mem_cons_of_mem _ member)),
        Function.update_of_ne (missed item List.mem_cons_self).symm]

theorem stores_at {items : List ι} {address : A} {stored : α} (written : ∃ item ∈ items, cell item = address)
    (agree : ∀ item ∈ items, cell item = address → value item = stored) (memory : A → α) :
    stores cell value items memory address = stored := by
  induction items generalizing memory with
  | nil =>
      obtain ⟨item, member, _⟩ := written
      exact absurd member List.not_mem_nil
  | cons first rest ih =>
      rw [stores_cons]
      by_cases later : ∃ item ∈ rest, cell item = address
      · exact ih later (fun item inside => agree item (List.mem_cons_of_mem _ inside)) _
      · have missed : ∀ item ∈ rest, cell item ≠ address := fun item inside same => later ⟨item, inside, same⟩
        have here : cell first = address := by
          obtain ⟨item, member, same⟩ := written
          rcases List.mem_cons.mp member with equal | inside
          · rw [← equal]
            exact same
          · exact absurd same (missed item inside)
        rw [stores_other cell value missed, ← here, Function.update_self]
        exact agree first List.mem_cons_self here

end

end Warp
