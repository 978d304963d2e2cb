import Mathlib
import Kllm.Lib.PairMerge
import Kllm.Chardev.TokenRing
import Kllm.Bpf.Tokenizer
import Kllm.Bpf.MergePass

set_option autoImplicit false

namespace Kllm.Bpf

open Chardev PairMerge

-- The elements of seq->tokens that a pass reads or writes, in the order of its
-- two loops.
def scanAccesses (seq : TokenSeq) : List Nat := (List.range (passBound seq)).flatMap (fun i => [i, i + 1])

def mergeAccesses (seq : TokenSeq) (best : BestMerge) : List Nat :=
  best.pos :: (List.range' (best.pos + 1) (passBound seq - (best.pos + 1))).flatMap (fun i => [i + 1, i])

def passAccesses (mergeTable : UInt32 → UInt32 → Option MergeVal) (seq : TokenSeq) : List Nat :=
  if seq.len < 2 then []
  else if (scanPairs mergeTable seq).found then scanAccesses seq ++ mergeAccesses seq (scanPairs mergeTable seq)
  else scanAccesses seq

def passTimes (mergeTable : UInt32 → UInt32 → Option MergeVal) : Nat → TokenSeq → Option TokenSeq
  | 0, seq => some seq
  | n + 1, seq =>
      match doMergePass mergeTable seq with
      | none => none
      | some next => passTimes mergeTable n next

-- How many passes bpf_loop applies when it may make n.
def appliedPasses (mergeTable : UInt32 → UInt32 → Option MergeVal) : Nat → TokenSeq → Nat
  | 0, _ => 0
  | n + 1, seq =>
      match doMergePass mergeTable seq with
      | none => 0
      | some next => appliedPasses mergeTable n next + 1

section
variable {mergeTable : UInt32 → UInt32 → Option MergeVal} {seq : TokenSeq}

theorem scan_accesses_mem (index : Nat) : index ∈ scanAccesses seq ↔ 0 < passBound seq ∧ index ≤ passBound seq := by
  simp only [scanAccesses, List.mem_flatMap, List.mem_range, List.mem_cons, List.not_mem_nil, or_false]
  constructor
  · rintro ⟨i, inside, here | next⟩
    · omega
    · omega
  · rintro ⟨positive, within⟩
    by_cases last : index = passBound seq
    · exact ⟨passBound seq - 1, by omega, Or.inr (by omega)⟩
    · exact ⟨index, by omega, Or.inl rfl⟩

theorem best_inside (found : (scanPairs mergeTable seq).found = true) :
    (scanPairs mergeTable seq).pos < passBound seq :=
  ((scan_pairs_scanned mergeTable seq).chosen found).1

theorem merge_accesses_scanned (found : (scanPairs mergeTable seq).found = true) (index : Nat)
    (member : index ∈ mergeAccesses seq (scanPairs mergeTable seq)) : index ∈ scanAccesses seq := by
  have inside := best_inside found
  rw [scan_accesses_mem]
  simp only [mergeAccesses, List.mem_cons, List.mem_flatMap, List.mem_range'_1, List.not_mem_nil, or_false] at member
  rcases member with here | ⟨i, within, next | same⟩
  · omega
  · omega
  · omega

theorem pass_accesses_scanned (long : ¬ seq.len < 2) (index : Nat) :
    index ∈ passAccesses mergeTable seq ↔ index ∈ scanAccesses seq := by
  unfold passAccesses
  rw [if_neg long]
  split
  · rename_i found
    rw [List.mem_append]
    exact or_iff_left_of_imp (merge_accesses_scanned found index)
  · exact Iff.rfl

theorem pass_accesses_bound (index : Nat) (member : index ∈ passAccesses mergeTable seq) : index < maxSeqLen := by
  by_cases short : seq.len < 2
  · rw [passAccesses, if_pos short] at member
    cases member
  · have within := ((scan_accesses_mem index).mp ((pass_accesses_scanned short index).mp member)).2
    rw [passBound, maxSeqLen] at within
    rw [maxSeqLen]
    omega

theorem merge_pass_writes_only {next : TokenSeq} (pass : doMergePass mergeTable seq = some next) (index : Nat)
    (outside : index ∉ passAccesses mergeTable seq) : next.tokens index = seq.tokens index := by
  by_cases short : seq.len < 2
  · rw [doMergePass, if_pos short] at pass
    cases pass
  · rw [doMergePass, if_neg short] at pass
    by_cases found : (scanPairs mergeTable seq).found = true
    · rw [if_pos found] at pass
      cases pass
      have inside := best_inside found
      rw [pass_accesses_scanned short, scan_accesses_mem] at outside
      rw [apply_merge_tokens, if_neg (by omega), if_neg (by omega)]
    · rw [if_neg found] at pass
      cases pass

theorem merge_pass_reads_only {other : TokenSeq} (length : other.len = seq.len)
    (same : ∀ index ∈ passAccesses mergeTable seq, other.tokens index = seq.tokens index) :
    (doMergePass mergeTable other = none ∧ doMergePass mergeTable seq = none) ∨
      ∃ one two, doMergePass mergeTable other = some one ∧ doMergePass mergeTable seq = some two ∧ one.len = two.len ∧
        ∀ index ∈ passAccesses mergeTable seq, one.tokens index = two.tokens index := by
  by_cases short : seq.len < 2
  · have alike : other.len < 2 := by omega
    exact Or.inl ⟨by rw [doMergePass, if_pos alike], by rw [doMergePass, if_pos short]⟩
  · have long : ¬ other.len < 2 := by omega
    have bound : passBound other = passBound seq := by rw [passBound, passBound, length]
    have read : ∀ index, 0 < passBound seq → index ≤ passBound seq → other.tokens index = seq.tokens index :=
      fun index positive within =>
        same index ((pass_accesses_scanned short index).mpr ((scan_accesses_mem index).mpr ⟨positive, within⟩))
    have scan : scanPairs mergeTable other = scanPairs mergeTable seq := by
      rw [scanPairs, scanPairs, bound]
      apply List.foldl_ext
      intro best i member
      have inside := List.mem_range.mp member
      rw [considerPair, considerPair, read i (by omega) (by omega), read (i + 1) (by omega) (by omega)]
    rw [doMergePass, doMergePass, if_neg short, if_neg long, scan]
    by_cases found : (scanPairs mergeTable seq).found = true
    · rw [if_pos found, if_pos found]
      refine Or.inr ⟨_, _, rfl, rfl, by simp only [applyMerge, length], ?_⟩
      intro index member
      have inside := best_inside found
      have within := ((scan_accesses_mem index).mp ((pass_accesses_scanned short index).mp member)).2
      rw [apply_merge_tokens, apply_merge_tokens, bound, read index (by omega) within]
      split
      · exact read (index + 1) (by omega) (by omega)
      · rfl
    · rw [if_neg found, if_neg found]
      exact Or.inl ⟨rfl, rfl⟩

theorem do_merge_pass_greedy (mergeTable : UInt32 → UInt32 → Option MergeVal) (fits : seq.len ≤ maxSeqLen) :
    greedyNext (usable mergeTable) (tokenList seq) = (doMergePass mergeTable seq).map tokenList := by
  rcases do_merge_pass_cases mergeTable fits with ⟨stop, merged⟩ | ⟨next, pass, _, step⟩
  · rw [stop, Option.map_none, greedy_next_none_iff]
    exact merged
  · rw [pass, Option.map_some, greedy_next_some_iff]
    exact step

theorem pass_shortens {next : TokenSeq} (fits : seq.len ≤ maxSeqLen) (pass : doMergePass mergeTable seq = some next) :
    next.len + 1 = seq.len := by
  rcases do_merge_pass_cases mergeTable fits with ⟨stop, _⟩ | ⟨other, found, shorter, _⟩
  · rw [stop] at pass
    cases pass
  · rw [found] at pass
    cases pass
    exact shorter

end

section
variable {mergeTable : UInt32 → UInt32 → Option MergeVal}

theorem pass_times_greedy (n : Nat) {seq : TokenSeq} (fits : seq.len ≤ maxSeqLen) :
    greedyTimes (usable mergeTable) n (tokenList seq) = (passTimes mergeTable n seq).map tokenList := by
  induction n generalizing seq with
  | zero => rfl
  | succ n ih =>
      rw [greedyTimes, passTimes, do_merge_pass_greedy mergeTable fits]
      cases pass : doMergePass mergeTable seq with
      | none => rfl
      | some next =>
          have shorter := pass_shortens fits pass
          exact ih (by omega)

theorem pass_times_length (n : Nat) {seq last : TokenSeq} (fits : seq.len ≤ maxSeqLen)
    (passes : passTimes mergeTable n seq = some last) : last.len + n = seq.len := by
  induction n generalizing seq with
  | zero =>
      cases passes
      rfl
  | succ n ih =>
      cases pass : doMergePass mergeTable seq with
      | none =>
          rw [passTimes, pass] at passes
          cases passes
      | some next =>
          rw [passTimes, pass] at passes
          have shorter := pass_shortens fits pass
          have rest := ih (by omega) passes
          omega

theorem applied_passes_le (n : Nat) (seq : TokenSeq) : appliedPasses mergeTable n seq ≤ n := by
  induction n generalizing seq with
  | zero => exact Nat.le_refl 0
  | succ n ih =>
      rw [appliedPasses]
      split
      · exact Nat.zero_le _
      · exact Nat.succ_le_succ (ih _)

theorem applied_passes_reached (n : Nat) (seq : TokenSeq) (j : Nat) (within : j ≤ appliedPasses mergeTable n seq) :
    ∃ s, passTimes mergeTable j seq = some s ∧ bpfLoop mergeTable (n - j) s = bpfLoop mergeTable n seq := by
  induction j generalizing n seq with
  | zero => exact ⟨seq, rfl, rfl⟩
  | succ j ih =>
      cases n with
      | zero => cases within
      | succ n =>
          cases pass : doMergePass mergeTable seq with
          | none =>
              rw [appliedPasses, pass] at within
              cases within
          | some next =>
              rw [appliedPasses, pass] at within
              obtain ⟨s, passes, loop⟩ := ih n next (Nat.le_of_succ_le_succ within)
              refine ⟨s, by rw [passTimes, pass]; exact passes, ?_⟩
              rw [Nat.succ_sub_succ, loop, bpfLoop, pass]

theorem applied_passes_last (n : Nat) (seq : TokenSeq) :
    passTimes mergeTable (appliedPasses mergeTable n seq) seq = some (bpfLoop mergeTable n seq) := by
  induction n generalizing seq with
  | zero => rfl
  | succ n ih =>
      cases pass : doMergePass mergeTable seq with
      | none =>
          rw [appliedPasses, bpfLoop, pass]
          rfl
      | some next =>
          rw [appliedPasses, bpfLoop, pass]
          simp only [passTimes, pass, ih]

theorem applied_passes_lt_iff (n : Nat) (seq : TokenSeq) :
    appliedPasses mergeTable n seq < n ↔
      ∃ j < n, ∃ s, passTimes mergeTable j seq = some s ∧ doMergePass mergeTable s = none := by
  induction n generalizing seq with
  | zero =>
      simp only [Nat.not_lt_zero, false_and, exists_false]
  | succ n ih =>
      cases pass : doMergePass mergeTable seq with
      | none =>
          rw [appliedPasses, pass]
          exact iff_of_true (Nat.succ_pos n) ⟨0, Nat.succ_pos n, seq, rfl, pass⟩
      | some next =>
          rw [appliedPasses, pass]
          simp only [Nat.add_lt_add_iff_right]
          rw [ih next]
          constructor
          · rintro ⟨j, before, s, passes, stop⟩
            exact ⟨j + 1, by omega, s, by rw [passTimes, pass]; exact passes, stop⟩
          · rintro ⟨j, before, s, passes, stop⟩
            cases j with
            | zero =>
                cases passes
                rw [pass] at stop
                cases stop
            | succ j =>
                rw [passTimes, pass] at passes
                exact ⟨j, by omega, s, passes, stop⟩

theorem applied_passes_stop (n : Nat) (seq : TokenSeq) (early : appliedPasses mergeTable n seq < n) :
    doMergePass mergeTable (bpfLoop mergeTable n seq) = none := by
  induction n generalizing seq with
  | zero => cases early
  | succ n ih =>
      cases pass : doMergePass mergeTable seq with
      | none => simp only [bpfLoop, pass]
      | some next =>
          rw [appliedPasses, pass] at early
          simp only [bpfLoop, pass]
          exact ih next (by simpa using early)

theorem applied_passes_merged (n : Nat) {seq : TokenSeq} (fits : seq.len ≤ maxSeqLen) (early : appliedPasses mergeTable n seq < n) :
    Merged (usable mergeTable) (tokenList (bpfLoop mergeTable n seq)) := by
  have last : passTimes mergeTable (appliedPasses mergeTable n seq) seq = some (bpfLoop mergeTable n seq) :=
    applied_passes_last n seq
  have length := pass_times_length _ fits last
  rw [← greedy_next_none_iff, do_merge_pass_greedy mergeTable (by omega), applied_passes_stop n seq early, Option.map_none]

end

theorem merge_loop_refines (mergeTable : UInt32 → UInt32 → Option MergeVal) (seq : TokenSeq) (fits : seq.len ≤ maxSeqLen) :
    appliedPasses mergeTable maxMergePasses seq ≤ 128 ∧
      greedyTimes (usable mergeTable) (appliedPasses mergeTable maxMergePasses seq) (tokenList seq) =
        some (tokenList (bpfLoop mergeTable maxMergePasses seq)) ∧
      (appliedPasses mergeTable maxMergePasses seq < 128 ↔ ∃ j < 128, ∃ tokens,
        greedyTimes (usable mergeTable) j (tokenList seq) = some tokens ∧ Merged (usable mergeTable) tokens) ∧
      (appliedPasses mergeTable maxMergePasses seq < 128 →
        Merged (usable mergeTable) (tokenList (bpfLoop mergeTable maxMergePasses seq))) ∧
      ∀ j ≤ appliedPasses mergeTable maxMergePasses seq, ∃ s, passTimes mergeTable j seq = some s ∧
        greedyTimes (usable mergeTable) j (tokenList seq) = some (tokenList s) ∧ s.len + j = seq.len ∧
        ∀ index ∈ passAccesses mergeTable s, index < 2048 := by
  have stops : ∀ (j : Nat) (s : TokenSeq), passTimes mergeTable j seq = some s →
      (doMergePass mergeTable s = none ↔ Merged (usable mergeTable) (tokenList s)) := by
    intro j s passes
    have length := pass_times_length j fits passes
    rw [← greedy_next_none_iff, do_merge_pass_greedy mergeTable (by omega), Option.map_eq_none_iff]
  have last : passTimes mergeTable (appliedPasses mergeTable maxMergePasses seq) seq =
      some (bpfLoop mergeTable maxMergePasses seq) := applied_passes_last maxMergePasses seq
  refine ⟨applied_passes_le maxMergePasses seq, ?_, ?_, ?_, ?_⟩
  · rw [pass_times_greedy _ fits, last, Option.map_some]
  · refine (applied_passes_lt_iff maxMergePasses seq).trans ?_
    constructor
    · rintro ⟨j, before, s, passes, stop⟩
      refine ⟨j, before, tokenList s, ?_, (stops j s passes).mp stop⟩
      rw [pass_times_greedy j fits, passes, Option.map_some]
    · rintro ⟨j, before, tokens, reached, merged⟩
      rw [pass_times_greedy j fits, Option.map_eq_some_iff] at reached
      obtain ⟨s, passes, rfl⟩ := reached
      exact ⟨j, before, s, passes, (stops j s passes).mpr merged⟩
  · exact applied_passes_merged maxMergePasses fits
  · intro j within
    obtain ⟨s, passes, _⟩ := applied_passes_reached maxMergePasses seq j within
    refine ⟨s, passes, ?_, pass_times_length j fits passes, fun index member => pass_accesses_bound index member⟩
    rw [pass_times_greedy j fits, passes, Option.map_some]

def onesRule : UInt32 → UInt32 → Option MergeVal := fun left right => if left = 1 ∧ right = 1 then some ⟨2, 0⟩ else none

theorem merge_loop_refines_ones : appliedPasses onesRule maxMergePasses ⟨fun _ => 1, 3⟩ = 1 ∧
    greedyTimes (usable onesRule) 1 [1, 1, 1] = some (tokenList (bpfLoop onesRule maxMergePasses ⟨fun _ => 1, 3⟩)) ∧
    Merged (usable onesRule) (tokenList (bpfLoop onesRule maxMergePasses ⟨fun _ => 1, 3⟩)) := by
  have passes : appliedPasses onesRule maxMergePasses ⟨fun _ => 1, 3⟩ = 1 := by decide +kernel
  obtain ⟨_, same, _, ended, _⟩ := merge_loop_refines onesRule ⟨fun _ => 1, 3⟩ (by decide)
  rw [passes] at same ended
  exact ⟨passes, same, ended (by decide)⟩

end Kllm.Bpf
