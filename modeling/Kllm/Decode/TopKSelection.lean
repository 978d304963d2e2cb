import Mathlib
import Kllm.Lib.TopK
import Kllm.Decode.Samplers

set_option autoImplicit false

namespace Kllm.Decode

open TopK

section
variable {F : Type} [LinearOrder F]

def Larger {ι : Type} (a b : F × ι) : Prop := b.1 < a.1

instance {ι : Type} : DecidableRel (Larger (F := F) (ι := ι)) := fun a b => inferInstanceAs (Decidable (b.1 < a.1))

def rankedBefore (a b : F × Nat) : Bool := decide (b.1 < a.1 ∨ a.1 = b.1 ∧ a.2 ≤ b.2)

def ranking (logits : List F) : List (F × Nat) := logits.zipIdx.mergeSort rankedBefore

theorem ranked_before_trans (a b c : F × Nat) (first : rankedBefore a b = true) (second : rankedBefore b c = true) :
    rankedBefore a c = true := by
  rw [rankedBefore, decide_eq_true_iff] at *
  rcases first with more | ⟨same, lower⟩
  · rcases second with more' | ⟨same', _⟩
    · exact Or.inl (more'.trans more)
    · exact Or.inl (same' ▸ more)
  · rcases second with more' | ⟨same', lower'⟩
    · exact Or.inl (same ▸ more')
    · exact Or.inr ⟨same.trans same', lower.trans lower'⟩

theorem ranked_before_total (a b : F × Nat) : (rankedBefore a b || rankedBefore b a) = true := by
  rw [Bool.or_eq_true, rankedBefore, rankedBefore, decide_eq_true_iff, decide_eq_true_iff]
  rcases lt_trichotomy a.1 b.1 with less | same | more
  · exact Or.inr (Or.inl less)
  · rcases Nat.le_total a.2 b.2 with lower | higher
    · exact Or.inl (Or.inr ⟨same, lower⟩)
    · exact Or.inr (Or.inr ⟨same.symm, higher⟩)
  · exact Or.inl (Or.inl more)

theorem ranked_before_antisymm (a b : F × Nat) (first : rankedBefore a b = true) (second : rankedBefore b a = true) : a = b := by
  rw [rankedBefore, decide_eq_true_iff] at *
  rcases first with more | ⟨same, lower⟩
  · rcases second with less | ⟨same, _⟩
    · exact absurd less more.asymm
    · exact absurd more (same ▸ lt_irrefl _)
  · rcases second with less | ⟨_, higher⟩
    · exact absurd less (same ▸ lt_irrefl _)
    · exact Prod.ext same (Nat.le_antisymm lower higher)

omit [LinearOrder F] in
theorem zip_indices_increase (logits : List F) (start : Nat) :
    (logits.zipIdx start).Pairwise (fun a b => a.2 < b.2) := by
  induction logits generalizing start with
  | nil => exact List.Pairwise.nil
  | cons logit rest ih =>
      rw [List.zipIdx_cons, List.pairwise_cons]
      refine ⟨?_, ih (start + 1)⟩
      intro entry member
      have later := List.le_snd_of_mem_zipIdx member
      exact later

theorem insert_all_ranking (logits : List F) : insertAll Larger [] logits.zipIdx = ranking logits := by
  have sorted : (insertAll Larger [] logits.zipIdx).Pairwise (fun a b => rankedBefore a b = true) := by
    refine insert_all_pairwise ranked_before_trans ?_ ?_ logits.zipIdx [] (zip_indices_increase logits 0) ?_ List.Pairwise.nil
    · intro x y larger
      exact decide_eq_true (Or.inl larger)
    · intro x y earlier not
      rcases lt_or_eq_of_le (not_lt.mp not) with less | same
      · exact decide_eq_true (Or.inl less)
      · exact decide_eq_true (Or.inr ⟨same.symm, earlier.le⟩)
    · intro y member
      exact absurd member List.not_mem_nil
  have perm : (insertAll Larger [] logits.zipIdx).Perm (ranking logits) := by
    have inserted : (insertAll Larger [] logits.zipIdx).Perm (logits.zipIdx ++ []) := insert_all_perm [] logits.zipIdx
    rw [List.append_nil] at inserted
    exact inserted.trans (List.mergeSort_perm _ _).symm
  exact List.Perm.eq_of_pairwise (fun a b _ _ => ranked_before_antisymm a b) sorted
    (List.pairwise_mergeSort ranked_before_trans ranked_before_total _) perm

def numbered (entry : F × Nat) : F × UInt32 := (entry.1, UInt32.ofNat entry.2)

def Descending (top : List (F × UInt32)) : Prop := top.Pairwise (fun a b => b.1 ≤ a.1)

theorem insert_descending (x : F × UInt32) {top : List (F × UInt32)} (sorted : Descending top) :
    Descending (top.orderedInsert Larger x) :=
  insert_pairwise (fun _ _ _ first second => second.trans first) (fun _ _ larger => larger.le)
    (fun _ _ not => not_lt.mp not) sorted

theorem last_smallest {front : List (F × UInt32)} {last x : F × UInt32} (sorted : Descending (front ++ [last]))
    (not : ¬ x.1 > last.1) : ∀ z ∈ front ++ [last], ¬ Larger x z := by
  intro z member
  cases List.mem_append.mp member with
  | inl before =>
      have order := (List.pairwise_append.mp sorted).2.2 z before last (List.mem_singleton.mpr rfl)
      exact not_lt.mpr ((not_lt.mp not).trans order)
  | inr here => exact List.mem_singleton.mp here ▸ not

variable [OrderBot F]

theorem swap_up_at (front rest : List (F × UInt32)) (y x : F × UInt32) :
    swapUp (front ++ y :: x :: rest) front.length = if x.1 > y.1 then front ++ x :: y :: rest else front ++ y :: x :: rest := by
  have upper : (front ++ y :: x :: rest).getD front.length (⊥, 0) = y := by simp [List.getD]
  have lower : (front ++ y :: x :: rest).getD (front.length + 1) (⊥, 0) = x := by
    simp [List.getD]
  rw [swapUp, upper, lower]
  split
  · rw [List.set_append_right _ _ (Nat.le_refl _), List.set_append_right _ _ (Nat.le_add_right _ 1), Nat.sub_self,
      Nat.add_sub_cancel_left]
    rfl
  · rfl

theorem swap_up_sorted {front : List (F × UInt32)} (sorted : Descending front) (rest : List (F × UInt32)) {j : Nat}
    (inside : j + 1 < front.length) : swapUp (front ++ rest) j = front ++ rest := by
  have order := List.pairwise_iff_getElem.mp sorted j (j + 1) (by omega) inside (Nat.lt_succ_self j)
  have upper : (front ++ rest).getD j (⊥, 0) = front[j] := by
    simp [List.getD, List.getElem?_append_left, show j < front.length by omega]
  have lower : (front ++ rest).getD (j + 1) (⊥, 0) = front[j + 1] := by
    simp [List.getD, List.getElem?_append_left, inside]
  rw [swapUp, upper, lower, if_neg (not_lt.mpr order)]

theorem bubble_up_sorted {front : List (F × UInt32)} (sorted : Descending front) (rest : List (F × UInt32)) {passes : Nat}
    (inside : passes < front.length) : bubbleUp passes (front ++ rest) = front ++ rest := by
  induction passes with
  | zero => rfl
  | succ j ih =>
      rw [bubbleUp, swap_up_sorted sorted rest inside]
      exact ih (by omega)

theorem bubble_up_inserts (x : F × UInt32) {front : List (F × UInt32)} (sorted : Descending front) (rest : List (F × UInt32)) :
    bubbleUp front.length (front ++ x :: rest) = front.orderedInsert Larger x ++ rest := by
  induction front using List.reverseRecOn generalizing rest with
  | nil => rfl
  | append_singleton front y ih =>
      rw [List.length_append, List.length_singleton, bubbleUp, List.append_assoc, List.singleton_append, swap_up_at]
      have shorter : Descending front := (List.pairwise_append.mp sorted).1
      by_cases larger : x.1 > y.1
      · have ahead : Larger x y := larger
        rw [if_pos larger, ih shorter, insert_front ahead, List.append_assoc, List.singleton_append]
      · have whole : front ++ y :: x :: rest = (front ++ [y]) ++ x :: rest := by
          rw [List.append_assoc, List.singleton_append]
        rw [if_neg larger, whole, bubble_up_sorted sorted _ (by rw [List.length_append]; exact Nat.lt_succ_self _),
          insert_last (last_smallest sorted larger), List.append_assoc, List.append_assoc, List.append_assoc]
        rfl

section
variable {k : UInt32} (some_ : 1 ≤ k.toNat) (half : k.toNat < 2 ^ 31)
include some_ half

theorem bubble_passes_eq : bubblePasses k = k.toNat - 1 := by
  have two : (2 : UInt32).toNat = 2 := rfl
  have wrapped : (k - 2).toNat = (2 ^ 32 - 2 + k.toNat) % 2 ^ 32 := by rw [UInt32.toNat_sub, two]
  rw [bubblePasses, wrapped]
  split
  · omega
  · omega

theorem insert_top_inserts {top : List (F × UInt32)} (full : top.length = k.toNat) (sorted : Descending top) (entry : F × Nat) :
    insertTop k top entry = (top.orderedInsert Larger (entry.1, UInt32.ofNat entry.2)).take k.toNat := by
  obtain ⟨front, last, rfl⟩ : ∃ front last, top = front ++ [last] := by
    have nonempty : top ≠ [] := by
      intro empty
      rw [empty] at full
      exact absurd full.symm (by rw [List.length_nil]; omega)
    exact ⟨top.dropLast, top.getLast nonempty, (List.dropLast_append_getLast nonempty).symm⟩
  have size : k.toNat - 1 = front.length := by
    rw [List.length_append, List.length_singleton] at full
    omega
  have shorter : Descending front := (List.pairwise_append.mp sorted).1
  have lastGet : (front ++ [last]).getD front.length (⊥, 0) = last := by simp [List.getD]
  rw [insertTop, bubble_passes_eq some_ half, size, lastGet]
  by_cases larger : entry.1 > last.1
  · have placed : (front ++ [last]).set front.length (entry.1, UInt32.ofNat entry.2) =
        front ++ (entry.1, UInt32.ofNat entry.2) :: [] := by
      rw [List.set_append_right _ _ (Nat.le_refl _), Nat.sub_self]
      rfl
    have longer : (front.orderedInsert Larger (entry.1, UInt32.ofNat entry.2)).length = k.toNat := by
      rw [List.orderedInsert_length]
      omega
    have ahead : Larger (entry.1, UInt32.ofNat entry.2) last := larger
    rw [if_pos larger, placed, bubble_up_inserts _ shorter, insert_front ahead, List.append_nil, ← longer,
      List.take_left]
  · have behind : ∀ z ∈ front ++ [last], ¬ Larger (entry.1, UInt32.ofNat entry.2) z := last_smallest sorted larger
    rw [if_neg larger, insert_last behind, ← full, List.take_left]

theorem fold_insert_top (entries : List (F × Nat)) {top : List (F × UInt32)} (full : top.length = k.toNat)
    (sorted : Descending top) :
    entries.foldl (insertTop k) top =
      (entries.map numbered).foldl (fun top x => (top.orderedInsert Larger x).take k.toNat) top := by
  induction entries generalizing top with
  | nil => rfl
  | cons entry rest ih =>
      rw [List.foldl_cons, List.map_cons, List.foldl_cons, insert_top_inserts some_ half full sorted entry]
      apply ih
      · rw [List.length_take, List.orderedInsert_length, full]
        omega
      · exact (insert_descending _ sorted).sublist (List.take_sublist _ _)

theorem select_top_ranking {logits : List F} (enough : k.toNat ≤ logits.countP (fun logit => decide (⊥ < logit))) :
    selectTop k logits = ((ranking logits).take k.toNat).map numbered := by
  have pads : ∀ entry ∈ List.replicate k.toNat ((⊥ : F), (0 : UInt32)), decide (entry.1 = ⊥) = true := by
    intro entry member
    rw [List.eq_of_mem_replicate member]
    exact decide_eq_true rfl
  have flat : Descending (List.replicate k.toNat ((⊥ : F), (0 : UInt32))) :=
    List.pairwise_replicate.mpr (Or.inr le_rfl)
  have length : (List.replicate k.toNat ((⊥ : F), (0 : UInt32))).length = k.toNat := List.length_replicate
  have counted : ((logits.zipIdx.map numbered).filter (fun entry => !decide (entry.1 = ⊥))).length =
      logits.countP (fun logit => decide (⊥ < logit)) := by
    rw [← List.countP_eq_length_filter, List.countP_map]
    have values : logits.countP (fun logit => decide (⊥ < logit)) =
        (logits.zipIdx.map Prod.fst).countP (fun logit => decide (⊥ < logit)) := by rw [List.zipIdx_map_fst]
    rw [values, List.countP_map]
    apply List.countP_congr
    intro entry _
    simp only [Function.comp_apply, numbered, Bool.not_eq_true', decide_eq_true_iff, bot_lt_iff_ne_bot, ne_eq]
    exact decide_eq_false_iff_not
  have whole : selectTop k logits =
      (insertAll Larger (List.replicate k.toNat (⊥, 0)) (logits.zipIdx.map numbered)).take k.toNat := by
    rw [selectTop, fold_insert_top some_ half _ length flat, ← take_insert_all, List.take_of_length_le length.le]
  have bare : (insertAll Larger (List.replicate k.toNat ((⊥ : F), (0 : UInt32))) (logits.zipIdx.map numbered)).take k.toNat =
      (insertAll Larger [] (logits.zipIdx.map numbered)).take k.toNat := by
    refine take_insert_all_padded ?_ ?_ _ _ pads (counted ▸ enough)
    · intro x y low
      rw [Larger, of_decide_eq_true low]
      exact not_lt_bot
    · intro x y high low
      rw [Larger, of_decide_eq_true low]
      exact bot_lt_iff_ne_bot.mpr (of_decide_eq_false high)
  have same : ∀ a b : F × Nat, Larger a b ↔ Larger (numbered a) (numbered b) := fun _ _ => Iff.rfl
  have mapped : (insertAll Larger [] logits.zipIdx).map numbered = insertAll Larger [] (logits.zipIdx.map numbered) :=
    insert_all_map numbered same logits.zipIdx []
  rw [whole, bare, ← mapped, insert_all_ranking, List.map_take]

end

theorem argmax_from_select (logits : List F) (i : Nat) (top : F) (best : Nat) :
    ((logits.zipIdx i).foldl (insertTop 1) [(top, UInt32.ofNat best)]).map Prod.snd =
      [UInt32.ofNat (argmaxFrom logits i top best)] := by
  induction logits generalizing i top best with
  | nil => rfl
  | cons logit rest ih =>
      have step : insertTop 1 [(top, UInt32.ofNat best)] (logit, i) =
          if logit > top then [(logit, UInt32.ofNat i)] else [(top, UInt32.ofNat best)] := rfl
      rw [List.zipIdx_cons, List.foldl_cons, step, argmaxFrom]
      split
      · exact ih (i + 1) logit i
      · exact ih (i + 1) top best

theorem sample_greedy_first {logits : List F} (some_ : 1 ≤ logits.countP (fun logit => decide (⊥ < logit))) :
    ((ranking logits).take 1).map (fun entry => UInt32.ofNat entry.2) = [sampleGreedy logits] := by
  have selected := argmax_from_select logits 0 ⊥ 0
  have one : (1 : UInt32).toNat = 1 := rfl
  have top := select_top_ranking (k := 1) (by decide) (by decide) (by rw [one]; exact some_)
  have start : selectTop 1 logits = logits.zipIdx.foldl (insertTop 1) [(⊥, UInt32.ofNat 0)] := rfl
  rw [← start, top, one, List.map_map] at selected
  exact selected

theorem sample_greedy_heads {logits : List F} {k : Nat} (positive : 1 ≤ k)
    (some_ : 1 ≤ logits.countP (fun logit => decide (⊥ < logit))) :
    ∃ best rest, (ranking logits).take k = best :: rest ∧ sampleGreedy logits = UInt32.ofNat best.2 := by
  have first := sample_greedy_first some_
  cases shape : ranking logits with
  | nil =>
      rw [shape] at first
      cases first
  | cons best rest =>
      rw [shape] at first
      refine ⟨best, rest.take (k - 1), ?_, (List.cons.inj first).1.symm⟩
      rw [← List.take_succ_cons, Nat.sub_add_cancel positive]

omit [OrderBot F] in
theorem argmax_from_kept (logits : List F) (i : Nat) {top : F} (best : Nat) (below : ∀ logit ∈ logits, logit ≤ top) :
    argmaxFrom logits i top best = best := by
  induction logits generalizing i with
  | nil => rfl
  | cons logit rest ih =>
      rw [argmaxFrom, if_neg (not_lt.mpr (below logit List.mem_cons_self))]
      exact ih (i + 1) (fun other member => below other (List.mem_cons_of_mem logit member))

theorem sample_greedy_descending {vals : List F} (sorted : vals.Pairwise (fun a b => b ≤ a)) : sampleGreedy vals = 0 := by
  cases vals with
  | nil => rfl
  | cons first rest =>
      obtain ⟨below, _⟩ := List.pairwise_cons.mp sorted
      rw [sampleGreedy, argmaxFrom]
      split
      · rw [argmax_from_kept rest 1 0 below]
        rfl
      · rename_i not
        rw [argmax_from_kept rest 1 0 (fun logit member => (below logit member).trans (not_lt.mp not))]
        rfl

section
variable {logits : List F} (small : logits.length < 2 ^ 32)
include small

omit [OrderBot F] in
theorem ranking_indices_distinct (k : Nat) : (((ranking logits).take k).map (fun entry => UInt32.ofNat entry.2)).Nodup := by
  have perm : (ranking logits).Perm logits.zipIdx := List.mergeSort_perm _ _
  have indices : ((ranking logits).map Prod.snd).Nodup := by
    refine (perm.map Prod.snd).nodup_iff.mpr ?_
    rw [List.nodup_iff_pairwise_ne, List.pairwise_map]
    exact (zip_indices_increase logits 0).imp (fun less => Nat.ne_of_lt less)
  have whole : ((ranking logits).map (fun entry => UInt32.ofNat entry.2)).Nodup := by
    have apart : (ranking logits).map (fun entry => UInt32.ofNat entry.2) = ((ranking logits).map Prod.snd).map UInt32.ofNat := by
      rw [List.map_map]
      rfl
    rw [apart]
    refine List.Nodup.map_on ?_ indices
    have bound : ∀ i ∈ (ranking logits).map Prod.snd, i < 2 ^ 32 := by
      intro i member
      obtain ⟨entry, inside, rfl⟩ := List.mem_map.mp member
      have index := List.snd_lt_of_mem_zipIdx (perm.mem_iff.mp inside)
      omega
    intro i first j second same
    have equal := congrArg UInt32.toNat same
    rw [UInt32.toNat_ofNat_of_lt' (bound i first), UInt32.toNat_ofNat_of_lt' (bound j second)] at equal
    exact equal
  rw [List.map_take]
  exact whole.sublist (List.take_sublist _ _)

end

omit [OrderBot F] in
theorem ranking_descending (logits : List F) (k : Nat) :
    (((ranking logits).take k).map (fun entry => entry.1)).Pairwise (fun a b => b ≤ a) := by
  have sorted : (ranking logits).Pairwise (fun a b => rankedBefore a b = true) :=
    List.pairwise_mergeSort ranked_before_trans ranked_before_total _
  rw [List.pairwise_map]
  refine (sorted.sublist (List.take_sublist _ _)).imp ?_
  intro a b before
  rcases of_decide_eq_true before with more | same
  · exact more.le
  · exact same.1.ge

theorem sample_top_k_cases {logits : List F} {k : UInt32} (small : logits.length < 2 ^ 32) (some_ : 1 ≤ k.toNat)
    (short : k.toNat < logits.length) (sorted : ((selectTop k logits).map (fun entry => entry.1)).Pairwise (fun a b => b ≤ a))
    (arith : SampleArith F) (draw : SampleDraw F) (temperature : F) :
    sampleTopK arith draw logits k temperature = sampleGreedy logits ∨
      ∃ j < k.toNat, sampleTopK arith draw logits k temperature = ((selectTop k logits).getD j (⊥, 0)).2 ∧
        (arith.le temperature arith.zero = true → j = 0) := by
  have bounds : ¬ (k = 0 ∨ UInt32.ofNat logits.length ≤ k) := by
    rintro (zero | long)
    · rw [zero] at some_
      exact absurd some_ (by decide)
    · rw [UInt32.le_iff_toNat_le, UInt32.toNat_ofNat_of_lt' small] at long
      omega
  rw [sampleTopK, if_neg bounds]
  split
  · exact Or.inl rfl
  · right
    refine ⟨_, ?_, rfl, ?_⟩
    · split
      · rename_i below
        exact UInt32.lt_iff_toNat_lt.mp below
      · exact some_
    · intro none_
      rw [sampleTemperature, if_pos none_, sample_greedy_descending sorted]
      exact ite_self _

theorem top_k_selects {logits : List F} {k : UInt32} (small : logits.length < 2 ^ 32) (some_ : 1 ≤ k.toNat)
    (short : k.toNat < logits.length) (half : k.toNat < 2 ^ 31)
    (enough : k.toNat ≤ logits.countP (fun logit => decide (⊥ < logit))) :
    selectTop k logits = ((ranking logits).take k.toNat).map (fun entry => (entry.1, UInt32.ofNat entry.2)) ∧
    ((selectTop k logits).map (fun entry => entry.2)).Nodup ∧
    ∀ (arith : SampleArith F) (draw : SampleDraw F) (temperature : F),
      (∃ entry ∈ (ranking logits).take k.toNat, sampleTopK arith draw logits k temperature = UInt32.ofNat entry.2) ∧
      (arith.le temperature arith.zero = true → sampleTopK arith draw logits k temperature = sampleGreedy logits) := by
  have selected : selectTop k logits = ((ranking logits).take k.toNat).map (fun entry => (entry.1, UInt32.ofNat entry.2)) :=
    select_top_ranking some_ half enough
  obtain ⟨best, rest, found, greedy⟩ := sample_greedy_heads some_ (some_.trans enough)
  have length : ((ranking logits).take k.toNat).length = k.toNat := by
    have perm : (ranking logits).Perm logits.zipIdx := List.mergeSort_perm _ _
    rw [List.length_take, perm.length_eq, List.length_zipIdx]
    omega
  refine ⟨selected, ?_, ?_⟩
  · rw [selected, List.map_map]
    exact ranking_indices_distinct small k.toNat
  · intro arith draw temperature
    have sorted : ((selectTop k logits).map (fun entry => entry.1)).Pairwise (fun a b => b ≤ a) := by
      rw [selected, List.map_map]
      exact ranking_descending logits k.toNat
    have kept : ∀ j (inside : j < k.toNat), ((selectTop k logits).getD j (⊥, 0)).2 =
        UInt32.ofNat (((ranking logits).take k.toNat).get ⟨j, length.symm ▸ inside⟩).2 := by
      intro j inside
      rw [selected, List.getD_eq_getElem _ _ (by rw [List.length_map, length]; exact inside), List.getElem_map]
      rfl
    rcases sample_top_k_cases small some_ short sorted arith draw temperature with failed | ⟨j, inside, drawn, zero⟩
    · refine ⟨⟨best, by rw [found]; exact List.mem_cons_self, failed.trans greedy⟩, fun _ => failed⟩
    · rw [kept j inside] at drawn
      refine ⟨⟨_, List.get_mem _ _, drawn⟩, ?_⟩
      intro none_
      rw [drawn, greedy]
      have start := zero none_
      subst start
      simp only [found, List.get_eq_getElem, List.getElem_cons_zero]

end

theorem top_k_selects_tie :
    selectTop 2 [3, 0, 5, 5, 1] = [(5, 2), (5, 3)] ∧
    selectTop 2 [3, 0, 5, 5, 1] = ((ranking [3, 0, 5, 5, 1]).take 2).map (fun entry => (entry.1, UInt32.ofNat entry.2)) ∧
      ((selectTop 2 [3, 0, 5, 5, 1]).map (fun entry => entry.2)).Nodup := by
  have small : [3, 0, 5, 5, 1].length < 2 ^ 32 := by decide
  have some_ : 1 ≤ (2 : UInt32).toNat := by decide
  have found := top_k_selects small some_ (by decide) (by decide) (by decide)
  exact ⟨by decide, found.1, found.2.1⟩

end Kllm.Decode
