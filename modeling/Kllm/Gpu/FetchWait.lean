import Mathlib
import Kllm.Gpu.FetchBlocks

set_option autoImplicit false

namespace Kllm.Gpu

open KvCache

-- What successive calls of kllm_wavefront_poll hand over: none is an empty poll.
abbrev Polls := List (Option KllmWfCompletion)

-- The wait loop on these polls. none means that they are used up and the loop
-- polls on; otherwise the polls it did not need are returned.
def waitLoop (submitted completed : UInt32) : Polls → Option Polls
  | [] => if completed < submitted then none else some []
  | poll :: rest =>
      if completed < submitted then
        match poll with
        | none => waitLoop submitted completed rest
        | some comp => waitLoop submitted (completed + comp.blocksCompleted) rest
      else some (poll :: rest)

def fetchKvBlocks (sha256 : List UInt32 → Hash) (ctx : KllmInferGpuCtx) (tokenIds : List UInt32) (accepts : Nat → Bool)
    (polls : Polls) : Option Int :=
  match submitKvBlocks accepts (kvDescs sha256 ctx tokenIds) with
  | .error _ => some (-1)
  | .ok build => (waitLoop build.submitted 0 polls).map (fun _ => 0)

def completedBlocks (polls : Polls) : Nat := ((polls.filterMap id).map (fun comp => comp.blocksCompleted.toNat)).sum

def failedBlocks (polls : Polls) : Nat := ((polls.filterMap id).map (fun comp => comp.blocksFailed.toNat)).sum

section
variable {submitted : UInt32}

theorem wait_loop_poll (completed : UInt32) (waiting : completed < submitted) (poll : Option KllmWfCompletion) (rest : Polls) :
    waitLoop submitted completed (poll :: rest) =
      waitLoop submitted (completed + (poll.map KllmWfCompletion.blocksCompleted).getD 0) rest := by
  cases poll with
  | none => simp only [waitLoop, if_pos waiting, Option.map_none, Option.getD_none, UInt32.add_zero]
  | some comp => simp only [waitLoop, if_pos waiting, Option.map_some, Option.getD_some]

theorem completed_blocks_cons (poll : Option KllmWfCompletion) (rest : Polls) : completedBlocks (poll :: rest) =
    ((poll.map KllmWfCompletion.blocksCompleted).getD 0).toNat + completedBlocks rest := by
  cases poll with
  | none => simp [completedBlocks]
  | some comp => simp [completedBlocks]

theorem completed_blocks_append (polls more : Polls) : completedBlocks (polls ++ more) = completedBlocks polls + completedBlocks more := by
  simp [completedBlocks]

theorem wait_loop_short (polls : Polls) (completed : UInt32) (short : completed.toNat + completedBlocks polls < submitted.toNat) :
    waitLoop submitted completed polls = none := by
  have small := submitted.toNat_lt
  induction polls generalizing completed with
  | nil =>
      have waiting : completed < submitted := UInt32.lt_iff_toNat_lt.mpr (by omega)
      simp only [waitLoop, if_pos waiting]
  | cons poll rest ih =>
      rw [completed_blocks_cons] at short
      have waiting : completed < submitted := UInt32.lt_iff_toNat_lt.mpr (by omega)
      rw [wait_loop_poll completed waiting]
      apply ih
      rw [UInt32.toNat_add, Nat.mod_eq_of_lt (by omega)]
      omega

theorem wait_loop_enough (polls : Polls) (completed : UInt32) (enough : completed.toNat + completedBlocks polls = submitted.toNat) :
    ∃ left_, waitLoop submitted completed polls = some left_ := by
  have small := submitted.toNat_lt
  induction polls generalizing completed with
  | nil =>
      have done : ¬ completed < submitted := by
        rw [UInt32.lt_iff_toNat_lt]
        simp only [completedBlocks, List.filterMap_nil, List.map_nil, List.sum_nil] at enough
        omega
      exact ⟨[], by simp only [waitLoop, if_neg done]⟩
  | cons poll rest ih =>
      by_cases waiting : completed < submitted
      · rw [completed_blocks_cons] at enough
        rw [wait_loop_poll completed waiting]
        apply ih
        rw [UInt32.toNat_add, Nat.mod_eq_of_lt (by omega)]
        omega
      · exact ⟨poll :: rest, by simp only [waitLoop, if_neg waiting]⟩

theorem wait_run_polls {first s : WaitState} (run : WaitRun submitted first s) :
    ∃ polls, ∀ rest, waitLoop submitted first.completed (polls ++ rest) = waitLoop submitted s.completed rest := by
  induction run with
  | start => exact ⟨[], fun rest => rfl⟩
  | poll s next previous waiting step ih =>
      obtain ⟨polls, same⟩ := ih
      cases step with
      | nothing =>
          refine ⟨polls ++ [none], fun rest => ?_⟩
          rw [List.append_assoc, same, List.singleton_append, wait_loop_poll s.completed waiting]
          simp
      | own before after wf comp out report =>
          refine ⟨polls ++ [some comp], fun rest => ?_⟩
          rw [List.append_assoc, same, List.singleton_append, wait_loop_poll s.completed waiting]
          rfl
      | other before after wf comp out report =>
          refine ⟨polls ++ [some comp], fun rest => ?_⟩
          rw [List.append_assoc, same, List.singleton_append, wait_loop_poll s.completed waiting]
          rfl

end

theorem fetch_kv_blocks_polls {sha256 : List UInt32 → Hash} {ctx : KllmInferGpuCtx} {tokenIds : List UInt32} {accepts : Nat → Bool}
    {others : List KllmWavefront} {ret : Int} {s : WaitState} (returned : FetchKvBlocks sha256 ctx tokenIds accepts others ret s) :
    ∃ polls, fetchKvBlocks sha256 ctx tokenIds accepts polls = some ret := by
  cases returned with
  | rejected build failed => exact ⟨[], by simp only [fetchKvBlocks, failed]⟩
  | done build _ sent run enough =>
      obtain ⟨polls, same⟩ := wait_run_polls run
      refine ⟨polls, ?_⟩
      have finished : waitLoop build.submitted 0 polls = some [] := by
        have whole : waitLoop build.submitted 0 (polls ++ []) = _ := same []
        rw [List.append_nil] at whole
        rw [whole]
        simp only [waitLoop, if_neg enough]
      simp only [fetchKvBlocks, sent, finished, Option.map_some]

theorem fetch_returns_iff (sha256 : List UInt32 → Hash) (ctx : KllmInferGpuCtx) (tokenIds : List UInt32) (accepts : Nat → Bool)
    (build : FetchBuild) (sent : submitKvBlocks accepts (kvDescs sha256 ctx tokenIds) = .ok build) (polls : Polls)
    (accounts : completedBlocks polls + failedBlocks polls = blockSum build.sent) :
    (fetchKvBlocks sha256 ctx tokenIds accepts polls = some (if failedBlocks polls = 0 then 0 else -1) ↔ failedBlocks polls = 0) ∧
    (failedBlocks polls ≠ 0 → ∀ n, fetchKvBlocks sha256 ctx tokenIds accepts (polls ++ List.replicate n none) = none) := by
  obtain ⟨whole, _, count⟩ := submit_kv_blocks_gathered _ (kv_descs_length_lt sha256 ctx tokenIds) sent
  rw [block_sum_length, whole, ← count] at accounts
  have zero : (0 : UInt32).toNat = 0 := rfl
  have stuck : failedBlocks polls ≠ 0 → ∀ n, fetchKvBlocks sha256 ctx tokenIds accepts (polls ++ List.replicate n none) = none := by
    intro failed n
    have empty : completedBlocks (List.replicate n none) = 0 := by
      simp [completedBlocks]
    have waits : waitLoop build.submitted 0 (polls ++ List.replicate n none) = none :=
      wait_loop_short _ 0 (by rw [completed_blocks_append, empty, zero]; omega)
    simp only [fetchKvBlocks, sent, waits, Option.map_none]
  refine ⟨⟨?_, ?_⟩, stuck⟩
  · intro returned
    by_contra failed
    have waits := stuck failed 0
    rw [List.replicate_zero, List.append_nil, returned] at waits
    cases waits
  · intro clean
    obtain ⟨left_, done⟩ : ∃ left_, waitLoop build.submitted 0 polls = some left_ :=
      wait_loop_enough polls 0 (by rw [zero]; omega)
    simp only [fetchKvBlocks, sent, done, Option.map_some, clean, if_true]

theorem fetch_returns_iff_clean :
    fetchKvBlocks (fun _ => Vector.replicate 32 0) oneBlockCtx [7] (fun _ => true) [none, some ⟨0, 1, 0⟩] = some 0 :=
  (fetch_returns_iff (fun _ => Vector.replicate 32 0) oneBlockCtx [7] (fun _ => true) _ rfl [none, some ⟨0, 1, 0⟩] rfl).1.mpr rfl

theorem failed_block_never_returns :
    (∃ build, submitKvBlocks (fun _ => true) (kvDescs (fun _ => Vector.replicate 32 0) oneBlockCtx [7]) = .ok build ∧
      blockSum build.sent = 1) ∧
    completedBlocks [some ⟨0, 0, 1⟩] = 0 ∧ failedBlocks [some ⟨0, 0, 1⟩] = 1 ∧
    ∀ n, fetchKvBlocks (fun _ => Vector.replicate 32 0) oneBlockCtx [7] (fun _ => true)
      ([some ⟨0, 0, 1⟩] ++ List.replicate n none) = none := by
  refine ⟨⟨_, rfl, rfl⟩, rfl, rfl, ?_⟩
  intro n
  have waits : waitLoop 1 0 ([some ⟨0, 0, 1⟩] ++ List.replicate n none) = none :=
    wait_loop_short _ 0 (by simp [completedBlocks])
  have count : fetchKvBlocks (fun _ => Vector.replicate 32 0) oneBlockCtx [7] (fun _ => true)
      ([some ⟨0, 0, 1⟩] ++ List.replicate n none) = (waitLoop 1 0 ([some ⟨0, 0, 1⟩] ++ List.replicate n none)).map (fun _ => 0) := rfl
  rw [count, waits, Option.map_none]

end Kllm.Gpu
