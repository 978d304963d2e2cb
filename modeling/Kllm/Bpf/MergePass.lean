import Mathlib
import Kllm.Lib.PairMerge
import Kllm.Bpf.Tokenizer

set_option autoImplicit false

namespace Kllm.Bpf

open Chardev PairMerge

-- The pairs a pass can choose: its best priority starts at the largest word,
-- and only a smaller one replaces it.
def usable (mergeTable : UInt32 → UInt32 → Option MergeVal) : Rules UInt32 Nat := fun left right =>
  match mergeTable left right with
  | none => none
  | some val => if val.priority < 0xffffffff then some (val.mergedId, val.priority.toNat) else none

section
variable {mergeTable : UInt32 → UInt32 → Option MergeVal} {seq : TokenSeq}

theorem usable_some_iff (left right merged : UInt32) (rank : Nat) :
    usable mergeTable left right = some (merged, rank) ↔
      ∃ val, mergeTable left right = some val ∧ val.priority < 0xffffffff ∧ val.mergedId = merged ∧ val.priority.toNat = rank := by
  unfold usable
  cases found : mergeTable left right with
  | none => simp
  | some val =>
      by_cases low : val.priority < 0xffffffff
      · simp [low]
      · simp [low]

theorem usable_none_iff (left right : UInt32) :
    usable mergeTable left right = none ↔ ∀ val, mergeTable left right = some val → val.priority = 0xffffffff := by
  unfold usable
  cases found : mergeTable left right with
  | none => simp
  | some val =>
      have largest : val.priority ≤ 0xffffffff := by
        rw [UInt32.le_iff_toNat_le]
        have small := val.priority.toNat_lt
        exact Nat.le_of_lt_succ small
      by_cases low : val.priority < 0xffffffff
      · simp [low, UInt32.ne_of_lt low]
      · simp [UInt32.le_antisymm largest (UInt32.not_lt.mp low)]

theorem token_list_length (seq : TokenSeq) : (tokenList seq).length = seq.len := by
  rw [tokenList, List.length_map, List.length_range]

theorem token_list_get (seq : TokenSeq) (i : Nat) : (tokenList seq)[i]? = if i < seq.len then some (seq.tokens i) else none := by
  by_cases inside : i < seq.len
  · rw [tokenList, List.getElem?_map, List.getElem?_range inside, if_pos inside, Option.map_some]
  · rw [List.getElem?_eq_none (by rw [token_list_length]; omega), if_neg inside]

theorem token_list_pair (seq : TokenSeq) (i : Nat) (a b : UInt32) :
    PairAt (tokenList seq) i a b ↔ i + 1 < seq.len ∧ seq.tokens i = a ∧ seq.tokens (i + 1) = b := by
  by_cases inside : i + 1 < seq.len
  · simp [PairAt, token_list_get, inside, Nat.lt_of_succ_lt inside]
  · simp [PairAt, token_list_get, inside]

structure Scanned (mergeTable : UInt32 → UInt32 → Option MergeVal) (seq : TokenSeq) (n : Nat) (best : BestMerge) : Prop where
  least : ∀ j < n, ∀ val, mergeTable (seq.tokens j) (seq.tokens (j + 1)) = some val → best.priority ≤ val.priority
  missed : best.found = false → best.priority = 0xffffffff
  chosen : best.found = true → best.pos < n ∧ best.priority < 0xffffffff ∧
    mergeTable (seq.tokens best.pos) (seq.tokens (best.pos + 1)) = some ⟨best.merged, best.priority⟩ ∧
    ∀ j < best.pos, ∀ val, mergeTable (seq.tokens j) (seq.tokens (j + 1)) = some val → best.priority < val.priority

theorem scanned_start : Scanned mergeTable seq 0 noBest := by
  refine ⟨?_, fun _ => rfl, ?_⟩
  · intro j before
    omega
  · intro found
    cases found

theorem scanned_keeps {n : Nat} {best : BestMerge} (scanned : Scanned mergeTable seq n best)
    (worse : ∀ val, mergeTable (seq.tokens n) (seq.tokens (n + 1)) = some val → best.priority ≤ val.priority) :
    Scanned mergeTable seq (n + 1) best := by
  refine ⟨?_, scanned.missed, ?_⟩
  · intro j before val known
    by_cases last : j = n
    · subst last
      exact worse val known
    · exact scanned.least j (by omega) val known
  · intro found
    obtain ⟨inside, rest⟩ := scanned.chosen found
    exact ⟨by omega, rest⟩

theorem scanned_replaces {n : Nat} {best : BestMerge} (scanned : Scanned mergeTable seq n best) {val : MergeVal}
    (lookup : mergeTable (seq.tokens n) (seq.tokens (n + 1)) = some val) (better : val.priority < best.priority) :
    Scanned mergeTable seq (n + 1) ⟨n, val.priority, val.mergedId, true⟩ := by
  have below : val.priority < 0xffffffff := by
    cases found : best.found with
    | false => rwa [scanned.missed found] at better
    | true => exact UInt32.lt_trans better (scanned.chosen found).2.1
  refine ⟨?_, nofun, ?_⟩
  · intro j before other known
    by_cases last : j = n
    · subst last
      rw [lookup] at known
      cases known
      exact UInt32.le_refl _
    · exact UInt32.le_of_lt (UInt32.lt_of_lt_of_le better (scanned.least j (by omega) other known))
  · intro _
    refine ⟨by simp, below, lookup, ?_⟩
    intro j before other known
    exact UInt32.lt_of_lt_of_le better (scanned.least j before other known)

theorem scanned_step {n : Nat} {best : BestMerge} (scanned : Scanned mergeTable seq n best) :
    Scanned mergeTable seq (n + 1) (considerPair mergeTable seq best n) := by
  cases lookup : mergeTable (seq.tokens n) (seq.tokens (n + 1)) with
  | none =>
      simp only [considerPair, lookup]
      apply scanned_keeps scanned
      intro val known
      rw [lookup] at known
      cases known
  | some val =>
      by_cases better : val.priority < best.priority
      · simp only [considerPair, lookup, if_pos better]
        exact scanned_replaces scanned lookup better
      · simp only [considerPair, lookup, if_neg better]
        apply scanned_keeps scanned
        intro other known
        rw [lookup] at known
        cases known
        exact UInt32.not_lt.mp better

theorem scan_pairs_scanned (mergeTable : UInt32 → UInt32 → Option MergeVal) (seq : TokenSeq) :
    Scanned mergeTable seq (passBound seq) (scanPairs mergeTable seq) := by
  unfold scanPairs
  induction passBound seq with
  | zero => exact scanned_start
  | succ n ih =>
      rw [List.range_succ, List.foldl_append, List.foldl_cons, List.foldl_nil]
      exact scanned_step ih

theorem shift_fold (tokens : Nat → UInt32) (first count i : Nat) :
    ((List.range' first count).foldl shiftOne tokens) i =
      if first ≤ i ∧ i < first + count then tokens (i + 1) else tokens i := by
  induction count generalizing first tokens with
  | zero => rw [List.range'_zero, List.foldl_nil, if_neg (by omega)]
  | succ count ih =>
      rw [List.range'_succ, List.foldl_cons, ih]
      by_cases inside : first ≤ i ∧ i < first + (count + 1)
      · rw [if_pos inside]
        by_cases here : i = first
        · rw [if_neg (by omega), here, shiftOne, Function.update_self]
        · rw [if_pos (by omega), shiftOne, Function.update_of_ne (by omega)]
      · rw [if_neg inside, if_neg (by omega), shiftOne, Function.update_of_ne (by omega)]

theorem apply_merge_tokens (best : BestMerge) (index : Nat) :
    (applyMerge seq best).tokens index =
      if best.pos + 1 ≤ index ∧ index < best.pos + 1 + (passBound seq - (best.pos + 1)) then seq.tokens (index + 1)
      else if index = best.pos then best.merged else seq.tokens index := by
  simp only [applyMerge, shift_fold]
  by_cases moved : best.pos + 1 ≤ index ∧ index < best.pos + 1 + (passBound seq - (best.pos + 1))
  · rw [if_pos moved, if_pos moved, Function.update_of_ne (by omega)]
  · rw [if_neg moved, if_neg moved, Function.update_apply]

theorem apply_merge_list (fits : seq.len ≤ maxSeqLen) (best : BestMerge) (inside : best.pos + 1 < seq.len) :
    tokenList (applyMerge seq best) = mergeAt (tokenList seq) best.pos best.merged := by
  have bound : passBound seq = seq.len - 1 := by
    rw [passBound, maxSeqLen] at *
    omega
  apply List.ext_getElem?
  intro i
  rw [merge_at_get (by rw [token_list_length]; exact inside), token_list_get, token_list_get, token_list_get]
  have size : (applyMerge seq best).len = seq.len - 1 := rfl
  rw [apply_merge_tokens, bound, size]
  by_cases before : i < best.pos
  · have live : i < seq.len - 1 := by omega
    have old : i < seq.len := by omega
    rw [if_pos live, if_pos before, if_pos old, if_neg (by omega), if_neg (by omega)]
  · by_cases here : i = best.pos
    · have live : i < seq.len - 1 := by omega
      rw [if_pos live, if_neg before, if_pos here, if_neg (by omega), if_pos here]
    · by_cases live : i < seq.len - 1
      · have old : i + 1 < seq.len := by omega
        rw [if_pos live, if_pos (by omega), if_neg before, if_neg here, if_pos old]
      · have past : ¬ i + 1 < seq.len := by omega
        rw [if_neg live, if_neg before, if_neg here, if_neg past]

theorem do_merge_pass_cases (mergeTable : UInt32 → UInt32 → Option MergeVal) (fits : seq.len ≤ maxSeqLen) :
    (doMergePass mergeTable seq = none ∧ Merged (usable mergeTable) (tokenList seq)) ∨
    ∃ next, doMergePass mergeTable seq = some next ∧ next.len + 1 = seq.len ∧
      GreedyStep (usable mergeTable) (tokenList seq) (tokenList next) := by
  by_cases short : seq.len < 2
  · refine Or.inl ⟨by rw [doMergePass, if_pos short], ?_⟩
    intro i a b pair
    have inside := ((token_list_pair seq i a b).mp pair).1
    omega
  · have bound : passBound seq = seq.len - 1 := by
      rw [passBound, maxSeqLen] at *
      omega
    have scanned := scan_pairs_scanned mergeTable seq
    rw [bound] at scanned
    cases found : (scanPairs mergeTable seq).found with
    | false =>
        refine Or.inl ⟨by simp [doMergePass, short, found], ?_⟩
        intro i a b pair
        obtain ⟨inside, rfl, rfl⟩ := (token_list_pair seq i a b).mp pair
        rw [usable_none_iff]
        intro val known
        have high := scanned.least i (by omega) val known
        rw [scanned.missed found] at high
        have small := val.priority.toNat_lt
        rw [UInt32.le_iff_toNat_le] at high
        apply UInt32.toNat_inj.mp
        exact Nat.le_antisymm (Nat.le_of_lt_succ small) high
    | true =>
        obtain ⟨inside, below, known, earlier⟩ := scanned.chosen found
        refine Or.inr ⟨applyMerge seq (scanPairs mergeTable seq), by simp [doMergePass, short, found], ?_, ?_⟩
        · simp only [applyMerge]
          omega
        · refine ⟨_, _, (scanPairs mergeTable seq).priority.toNat, ⟨?_, ?_, ?_⟩, apply_merge_list fits _ (by omega)⟩
          · refine ⟨_, _, (token_list_pair seq _ _ _).mpr ⟨by omega, rfl, rfl⟩, ?_⟩
            exact (usable_some_iff _ _ _ _).mpr ⟨_, known, below, rfl, rfl⟩
          · intro j a b u q pair rule
            obtain ⟨within, rfl, rfl⟩ := (token_list_pair seq j a b).mp pair
            obtain ⟨val, lookup, _, _, rfl⟩ := (usable_some_iff _ _ _ _).mp rule
            exact UInt32.le_iff_toNat_le.mp (scanned.least j (by omega) val lookup)
          · intro j before a b u q pair rule
            obtain ⟨within, rfl, rfl⟩ := (token_list_pair seq j a b).mp pair
            obtain ⟨val, lookup, _, _, rfl⟩ := (usable_some_iff _ _ _ _).mp rule
            exact UInt32.lt_iff_toNat_lt.mp (earlier j before val lookup)

end

theorem bpf_loop_steps (mergeTable : UInt32 → UInt32 → Option MergeVal) (n : Nat) (seq : TokenSeq)
    (fits : seq.len ≤ maxSeqLen) :
    ∃ k ≤ n, Steps (usable mergeTable) k (tokenList seq) (tokenList (bpfLoop mergeTable n seq)) ∧
      (k = n ∨ Merged (usable mergeTable) (tokenList (bpfLoop mergeTable n seq))) := by
  induction n generalizing seq with
  | zero => exact ⟨0, Nat.le_refl 0, .done _, Or.inl rfl⟩
  | succ n ih =>
      rcases do_merge_pass_cases mergeTable fits with ⟨stop, merged⟩ | ⟨next, pass, shorter, step⟩
      · have same : bpfLoop mergeTable (n + 1) seq = seq := by rw [bpfLoop, stop]
        rw [same]
        exact ⟨0, Nat.zero_le _, .done _, Or.inr merged⟩
      · have same : bpfLoop mergeTable (n + 1) seq = bpfLoop mergeTable n next := by rw [bpfLoop, pass]
        obtain ⟨k, within, steps, ends⟩ := ih next (by omega)
        rw [same]
        exact ⟨k + 1, by omega, steps_cons step steps, ends.imp (fun all => by omega) id⟩

end Kllm.Bpf
