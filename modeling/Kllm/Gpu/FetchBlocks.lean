import Mathlib
import Kllm.KvCache.BlockFormat
import Kllm.KvCache.CacheIndex
import Kllm.Gpu.BlockTable

set_option autoImplicit false

namespace Kllm.Gpu

open KvCache

def kllmWavefrontMaxBlocks : Nat := 64

structure KllmWfBlockDesc where
  objKey : Hash
  vramDestAddr : UInt64
  blockSize : UInt32
  layerStart : UInt32
  layerCount : UInt32
  deriving DecidableEq

-- The used part of the block array; num_blocks is its length.
structure KllmWavefront where
  flags : UInt32
  sequenceId : UInt64
  blocks : List KllmWfBlockDesc
  fits : blocks.length ≤ kllmWavefrontMaxBlocks

structure KllmWfCompletion where
  sequenceId : UInt64
  blocksCompleted : UInt32
  blocksFailed : UInt32
  deriving DecidableEq, Repr

def kllmWfFlagKvFetch : UInt32 := 2

def kvBlockCount (model : KllmModelConfig) (seqLen : UInt32) : UInt32 :=
  (seqLen + model.tokensPerBlock - 1) / model.tokensPerBlock

def prefixLen (model : KllmModelConfig) (seqLen : UInt32) (b : Nat) : UInt32 :=
  if (UInt32.ofNat b + 1) * model.tokensPerBlock > seqLen then seqLen else (UInt32.ofNat b + 1) * model.tokensPerBlock

def kvDesc (sha256 : List UInt32 → Hash) (ctx : KllmInferGpuCtx) (tokenIds : List UInt32) (b : Nat) : KllmWfBlockDesc where
  objKey := sha256 (tokenIds.take (prefixLen ctx.model (UInt32.ofNat tokenIds.length) b).toNat)
  vramDestAddr := ctx.blockTable b
  blockSize := (kllmBlockTotalBytes ctx.model).toUInt32
  layerStart := 0
  layerCount := ctx.model.numLayers

def kvDescs (sha256 : List UInt32 → Hash) (ctx : KllmInferGpuCtx) (tokenIds : List UInt32) : List KllmWfBlockDesc :=
  (List.range (kvBlockCount ctx.model (UInt32.ofNat tokenIds.length)).toNat).map (kvDesc sha256 ctx tokenIds)

theorem kv_descs_length (sha256 : List UInt32 → Hash) (ctx : KllmInferGpuCtx) (tokenIds : List UInt32) :
    (kvDescs sha256 ctx tokenIds).length = (kvBlockCount ctx.model (UInt32.ofNat tokenIds.length)).toNat := by
  rw [kvDescs, List.length_map, List.length_range]

theorem kv_descs_length_lt (sha256 : List UInt32 → Hash) (ctx : KllmInferGpuCtx) (tokenIds : List UInt32) :
    (kvDescs sha256 ctx tokenIds).length < 2 ^ 32 := by
  rw [kv_descs_length]
  exact UInt32.toNat_lt _

structure FetchBuild where
  blocks : List KllmWfBlockDesc
  room : blocks.length < kllmWavefrontMaxBlocks
  submitted : UInt32
  sent : List KllmWavefront

def startBuild : FetchBuild := ⟨[], by decide, 0, []⟩

-- accepts says which submits succeed. The sequence id stays zero.
def submitBlocks (accepts : Nat → Bool) (s : FetchBuild) (blocks : List KllmWfBlockDesc)
    (fits : blocks.length ≤ kllmWavefrontMaxBlocks) : Except FetchBuild FetchBuild :=
  if accepts s.sent.length then
    .ok ⟨[], by decide, s.submitted + UInt32.ofNat blocks.length, s.sent ++ [⟨kllmWfFlagKvFetch, 0, blocks, fits⟩]⟩
  else .error s

def addBlock (accepts : Nat → Bool) (s : FetchBuild) (desc : KllmWfBlockDesc) : Except FetchBuild FetchBuild :=
  if full : (s.blocks ++ [desc]).length < kllmWavefrontMaxBlocks then .ok ⟨s.blocks ++ [desc], full, s.submitted, s.sent⟩
  else submitBlocks accepts s (s.blocks ++ [desc]) (by rw [List.length_append, List.length_singleton]; exact s.room)

def addBlocks (accepts : Nat → Bool) (s : FetchBuild) : List KllmWfBlockDesc → Except FetchBuild FetchBuild
  | [] => .ok s
  | desc :: rest =>
      match addBlock accepts s desc with
      | .error failed => .error failed
      | .ok next => addBlocks accepts next rest

def submitKvBlocks (accepts : Nat → Bool) (descs : List KllmWfBlockDesc) : Except FetchBuild FetchBuild :=
  match addBlocks accepts startBuild descs with
  | .error failed => .error failed
  | .ok s => if s.blocks.length > 0 then submitBlocks accepts s s.blocks (Nat.le_of_lt s.room) else .ok s

/-- The wait loop's view: what is still out, this call's and everybody else's, this call's
completions, and the 32-bit count. -/
structure WaitState where
  own : List KllmWavefront
  others : List KllmWavefront
  finished : List (KllmWavefront × KllmWfCompletion)
  completed : UInt32

def Reports (wf : KllmWavefront) (comp : KllmWfCompletion) : Prop :=
  comp.sequenceId = wf.sequenceId ∧ comp.blocksCompleted.toNat + comp.blocksFailed.toNat = wf.blocks.length

-- A poll finds nothing or hands back any one outstanding wavefront. The loop
-- adds up its blocks without asking whose they are.
inductive PollStep (s : WaitState) : WaitState → Prop where
  | nothing : PollStep s s
  | own (before after : List KllmWavefront) (wf : KllmWavefront) (comp : KllmWfCompletion) (out : s.own = before ++ wf :: after)
      (report : Reports wf comp) : PollStep s { s with
        own := before ++ after, finished := s.finished ++ [(wf, comp)], completed := s.completed + comp.blocksCompleted }
  | other (before after : List KllmWavefront) (wf : KllmWavefront) (comp : KllmWfCompletion)
      (out : s.others = before ++ wf :: after) (report : Reports wf comp) : PollStep s { s with
        others := before ++ after, completed := s.completed + comp.blocksCompleted }

inductive WaitRun (submitted : UInt32) (first : WaitState) : WaitState → Prop where
  | start : WaitRun submitted first first
  | poll (s next : WaitState) (previous : WaitRun submitted first s) (waiting : s.completed < submitted)
      (step : PollStep s next) : WaitRun submitted first next

def startWait (sent others : List KllmWavefront) : WaitState := ⟨sent, others, [], 0⟩

inductive FetchKvBlocks (sha256 : List UInt32 → Hash) (ctx : KllmInferGpuCtx) (tokenIds : List UInt32) (accepts : Nat → Bool)
    (others : List KllmWavefront) : Int → WaitState → Prop where
  | rejected (build : FetchBuild) (failed : submitKvBlocks accepts (kvDescs sha256 ctx tokenIds) = .error build) :
      FetchKvBlocks sha256 ctx tokenIds accepts others (-1) (startWait build.sent others)
  | done (build : FetchBuild) (s : WaitState) (sent : submitKvBlocks accepts (kvDescs sha256 ctx tokenIds) = .ok build)
      (run : WaitRun build.submitted (startWait build.sent others) s) (enough : ¬ s.completed < build.submitted) :
      FetchKvBlocks sha256 ctx tokenIds accepts others 0 s

def OwnDone (s : WaitState) : Prop := s.own = [] ∧ ∀ done ∈ s.finished, done.2.blocksFailed = 0

structure Gathered (seen : List KllmWfBlockDesc) (s : FetchBuild) : Prop where
  blocks : s.sent.flatMap KllmWavefront.blocks ++ s.blocks = seen
  some_ : ∀ wf ∈ s.sent, wf.blocks ≠ []
  count : s.submitted.toNat = (s.sent.flatMap KllmWavefront.blocks).length

section
variable {accepts : Nat → Bool} {s next : FetchBuild} {seen : List KllmWfBlockDesc}

theorem submit_blocks_gathered (gathered : Gathered seen s) (added : List KllmWfBlockDesc) (blocks : List KllmWfBlockDesc)
    (fits : blocks.length ≤ kllmWavefrontMaxBlocks) (same : blocks = s.blocks ++ added) (filled : blocks ≠ [])
    (small : (seen ++ added).length < 2 ^ 32) (ok : submitBlocks accepts s blocks fits = .ok next) :
    Gathered (seen ++ added) next ∧ next.blocks = [] := by
  by_cases taken : accepts s.sent.length
  · rw [submitBlocks, if_pos taken] at ok
    cases ok
    have whole : s.sent.flatMap KllmWavefront.blocks ++ blocks = seen ++ added := by
      rw [same, ← List.append_assoc, gathered.blocks]
    refine ⟨⟨?_, ?_, ?_⟩, rfl⟩
    · simpa using whole
    · intro wf member
      rcases List.mem_append.mp member with earlier | now
      · exact gathered.some_ wf earlier
      · rw [List.mem_singleton.mp now]
        exact filled
    · have size := congrArg List.length whole
      rw [List.length_append] at size
      have wide : (UInt32.ofNat blocks.length).toNat = blocks.length := by
        rw [UInt32.toNat_ofNat']
        exact Nat.mod_eq_of_lt (by omega)
      simp only [List.flatMap_append, List.flatMap_cons, List.flatMap_nil, List.append_nil, List.length_append]
      rw [UInt32.toNat_add, wide, gathered.count]
      exact Nat.mod_eq_of_lt (by omega)
  · rw [submitBlocks, if_neg taken] at ok
    cases ok

theorem add_block_gathered (gathered : Gathered seen s) (desc : KllmWfBlockDesc) (small : (seen ++ [desc]).length < 2 ^ 32)
    (ok : addBlock accepts s desc = .ok next) : Gathered (seen ++ [desc]) next := by
  by_cases room : (s.blocks ++ [desc]).length < kllmWavefrontMaxBlocks
  · rw [addBlock, dif_pos room] at ok
    cases ok
    refine ⟨?_, gathered.some_, gathered.count⟩
    rw [← List.append_assoc, gathered.blocks]
  · rw [addBlock, dif_neg room] at ok
    exact (submit_blocks_gathered gathered [desc] _ _ rfl (by simp) small ok).1

theorem add_blocks_gathered (gathered : Gathered seen s) (descs : List KllmWfBlockDesc) (small : (seen ++ descs).length < 2 ^ 32)
    (ok : addBlocks accepts s descs = .ok next) : Gathered (seen ++ descs) next := by
  induction descs generalizing s seen with
  | nil =>
      cases ok
      rwa [List.append_nil]
  | cons desc rest ih =>
      cases added : addBlock accepts s desc with
      | error failed =>
          rw [addBlocks, added] at ok
          cases ok
      | ok middle =>
          rw [addBlocks, added] at ok
          have split : seen ++ desc :: rest = (seen ++ [desc]) ++ rest := by simp
          rw [split] at small ⊢
          have first := add_block_gathered gathered desc (by simp at small ⊢; omega) added
          exact ih first small ok

theorem submit_kv_blocks_gathered (descs : List KllmWfBlockDesc) (small : descs.length < 2 ^ 32)
    (ok : submitKvBlocks accepts descs = .ok next) : next.sent.flatMap KllmWavefront.blocks = descs ∧
      (∀ wf ∈ next.sent, wf.blocks ≠ []) ∧ next.submitted.toNat = descs.length := by
  cases added : addBlocks accepts startBuild descs with
  | error failed =>
      rw [submitKvBlocks, added] at ok
      cases ok
  | ok built =>
      have fresh : Gathered [] startBuild := ⟨rfl, by simp [startBuild], rfl⟩
      have gathered := add_blocks_gathered fresh descs (by simpa using small) added
      rw [List.nil_append] at gathered
      by_cases rest : built.blocks.length > 0
      · simp only [submitKvBlocks, added, if_pos rest] at ok
        obtain ⟨whole, empty⟩ := submit_blocks_gathered gathered [] _ _ (by simp) (List.ne_nil_of_length_pos rest)
          (by simpa using small) ok
        have blocks := whole.blocks
        rw [empty, List.append_nil, List.append_nil] at blocks
        exact ⟨blocks, whole.some_, by rw [whole.count, blocks]⟩
      · have empty : built.blocks = [] := List.length_eq_zero_iff.mp (by omega)
        have blocks := gathered.blocks
        rw [empty, List.append_nil] at blocks
        simp only [submitKvBlocks, added, if_neg rest] at ok
        cases ok
        exact ⟨blocks, gathered.some_, by rw [gathered.count, blocks]⟩

theorem add_blocks_accepted (s : FetchBuild) (descs : List KllmWfBlockDesc) : ∃ built, addBlocks (fun _ => true) s descs = .ok built := by
  induction descs generalizing s with
  | nil => exact ⟨s, rfl⟩
  | cons desc rest ih =>
      by_cases room : (s.blocks ++ [desc]).length < kllmWavefrontMaxBlocks
      · simp only [addBlocks, addBlock, dif_pos room]
        exact ih _
      · simp only [addBlocks, addBlock, dif_neg room, submitBlocks, if_true]
        exact ih _

theorem submit_kv_blocks_accepted (descs : List KllmWfBlockDesc) : ∃ built, submitKvBlocks (fun _ => true) descs = .ok built := by
  obtain ⟨built, added⟩ := add_blocks_accepted startBuild descs
  by_cases rest : built.blocks.length > 0
  · exact ⟨_, by simp only [submitKvBlocks, added, if_pos rest, submitBlocks, if_true]; rfl⟩
  · exact ⟨built, by simp only [submitKvBlocks, added, if_neg rest]⟩

end

def blockSum (wfs : List KllmWavefront) : Nat := (wfs.map (fun wf => wf.blocks.length)).sum

theorem block_sum_cons (wf : KllmWavefront) (wfs : List KllmWavefront) : blockSum (wf :: wfs) = wf.blocks.length + blockSum wfs := by
  rw [blockSum, List.map_cons, List.sum_cons, ← blockSum]

theorem block_sum_append (front back : List KllmWavefront) : blockSum (front ++ back) = blockSum front + blockSum back := by
  rw [blockSum, List.map_append, List.sum_append, ← blockSum, ← blockSum]

theorem block_sum_length (wfs : List KllmWavefront) : blockSum wfs = (wfs.flatMap KllmWavefront.blocks).length := by
  rw [blockSum, List.length_flatMap]

def completedSum (done : List (KllmWavefront × KllmWfCompletion)) : Nat := (done.map (fun d => d.2.blocksCompleted.toNat)).sum

def failedSum (done : List (KllmWavefront × KllmWfCompletion)) : Nat := (done.map (fun d => d.2.blocksFailed.toNat)).sum

structure Tallied (total : Nat) (s : WaitState) : Prop where
  some_ : ∀ wf ∈ s.own, wf.blocks ≠ []
  others : ∀ wf ∈ s.others, wf.blocks = []
  count : s.completed.toNat = completedSum s.finished
  whole : blockSum s.own + completedSum s.finished + failedSum s.finished = total

theorem tallied_step {total : Nat} (small : total < 2 ^ 32) {s next : WaitState} (tallied : Tallied total s)
    (step : PollStep s next) : Tallied total next := by
  have whole := tallied.whole
  cases step with
  | nothing => exact tallied
  | own before after wf comp out report =>
      have mine := report.2
      rw [out] at whole
      rw [block_sum_append, block_sum_cons] at whole
      refine ⟨?_, tallied.others, ?_, ?_⟩
      · intro rest member
        apply tallied.some_ rest
        rw [out]
        rcases List.mem_append.mp member with early | late
        · exact List.mem_append_left _ early
        · exact List.mem_append_right _ (List.mem_cons_of_mem wf late)
      · simp only [completedSum, List.map_append, List.map_singleton, List.sum_append, List.sum_singleton]
        rw [UInt32.toNat_add, tallied.count, completedSum]
        rw [completedSum] at whole
        exact Nat.mod_eq_of_lt (by omega)
      · rw [block_sum_append]
        simp only [completedSum, failedSum, List.map_append, List.map_singleton, List.sum_append, List.sum_singleton] at whole ⊢
        omega
  | other before after wf comp out report =>
      have empty : wf.blocks = [] := tallied.others wf (by rw [out]; simp)
      have none_ : comp.blocksCompleted.toNat = 0 := by
        have reported := report.2
        rw [empty, List.length_nil] at reported
        omega
      have zero : comp.blocksCompleted = 0 := UInt32.toNat_inj.mp none_
      refine ⟨tallied.some_, ?_, ?_, whole⟩
      · intro rest member
        apply tallied.others rest
        rw [out]
        rcases List.mem_append.mp member with early | late
        · exact List.mem_append_left _ early
        · exact List.mem_append_right _ (List.mem_cons_of_mem wf late)
      · rw [zero, UInt32.add_zero]
        exact tallied.count

theorem tallied_run {total : Nat} (small : total < 2 ^ 32) {submitted : UInt32} {first s : WaitState}
    (start : Tallied total first) (run : WaitRun submitted first s) : Tallied total s := by
  induction run with
  | start => exact start
  | poll s next previous waiting step ih => exact tallied_step small ih step

theorem tallied_done {s : WaitState} {submitted : UInt32} (tallied : Tallied submitted.toNat s)
    (enough : ¬ s.completed < submitted) : OwnDone s := by
  have reached : submitted.toNat ≤ s.completed.toNat := UInt32.le_iff_toNat_le.mp (UInt32.not_lt.mp enough)
  have whole := tallied.whole
  rw [tallied.count] at reached
  have nothing : blockSum s.own = 0 := by omega
  have noFailure : failedSum s.finished = 0 := by omega
  refine ⟨?_, ?_⟩
  · cases own : s.own with
    | nil => rfl
    | cons wf rest =>
        have filled := List.length_pos_of_ne_nil (tallied.some_ wf (by rw [own]; simp))
        rw [own, block_sum_cons] at nothing
        omega
  · intro done member
    have zero := List.sum_eq_zero_iff.mp noFailure _ (List.mem_map_of_mem member)
    exact UInt32.toNat_inj.mp zero

theorem block_count_small (wf : KllmWavefront) (n : Nat) (within : n ≤ wf.blocks.length) : (UInt32.ofNat n).toNat = n := by
  have fits := wf.fits
  rw [kllmWavefrontMaxBlocks] at fits
  rw [UInt32.toNat_ofNat']
  exact Nat.mod_eq_of_lt (by omega)

theorem drain_own {submitted : UInt32} {first : WaitState} (front rest : List KllmWavefront) (s : WaitState)
    (run : WaitRun submitted first s) (out : s.own = front ++ rest) (some_ : ∀ wf ∈ front, wf.blocks ≠ [])
    (under : s.completed.toNat + blockSum front ≤ submitted.toNat) :
    ∃ t, WaitRun submitted first t ∧ t.own = rest ∧ t.completed.toNat = s.completed.toNat + blockSum front := by
  induction front generalizing s with
  | nil => exact ⟨s, run, out, rfl⟩
  | cons wf front ih =>
      have filled := List.length_pos_of_ne_nil (some_ wf List.mem_cons_self)
      have count := block_count_small wf wf.blocks.length (Nat.le_refl _)
      have small := submitted.toNat_lt
      rw [block_sum_cons] at under
      have waiting : s.completed < submitted := UInt32.lt_iff_toNat_lt.mpr (by omega)
      have added : (s.completed + UInt32.ofNat wf.blocks.length).toNat = s.completed.toNat + wf.blocks.length := by
        rw [UInt32.toNat_add, count]
        exact Nat.mod_eq_of_lt (by omega)
      have step := PollStep.own [] (front ++ rest) wf ⟨wf.sequenceId, UInt32.ofNat wf.blocks.length, 0⟩ out
        ⟨rfl, by rw [count]; rfl⟩
      obtain ⟨t, later, left_, total⟩ := ih _ (.poll _ _ run waiting step) rfl
        (fun other member => some_ other (List.mem_cons_of_mem wf member)) (by simp only [added]; omega)
      refine ⟨t, later, left_, ?_⟩
      rw [total, block_sum_cons]
      simp only [added]
      omega

theorem foreign_block_unsound {submitted : UInt32} {sent others : List KllmWavefront} (some_ : ∀ wf ∈ sent, wf.blocks ≠ [])
    (total : blockSum sent = submitted.toNat) (positive : 0 < submitted.toNat) {wf : KllmWavefront} (member : wf ∈ others)
    (foreign : wf.blocks ≠ []) :
    ∃ s, WaitRun submitted (startWait sent others) s ∧ ¬ s.completed < submitted ∧ ¬ OwnDone s := by
  obtain ⟨before, after, split⟩ := List.append_of_mem member
  have filled := List.length_pos_of_ne_nil foreign
  have small := submitted.toNat_lt
  have failures := block_count_small wf (wf.blocks.length - 1) (Nat.sub_le _ _)
  have counted := PollStep.other before after wf ⟨wf.sequenceId, 1, UInt32.ofNat (wf.blocks.length - 1)⟩
    (show (startWait sent others).others = before ++ wf :: after from split)
    ⟨rfl, by rw [failures, UInt32.toNat_one]; omega⟩
  have waiting : (startWait sent others).completed < submitted := UInt32.lt_iff_toNat_lt.mpr positive
  cases back : sent.getLast? with
  | none =>
      rw [List.getLast?_eq_none_iff.mp back] at total
      rw [← total] at positive
      exact absurd positive (Nat.lt_irrefl 0)
  | some last =>
      obtain ⟨front, sentSplit⟩ := List.getLast?_eq_some_iff.mp back
      have lastFilled := List.length_pos_of_ne_nil (some_ last (by rw [sentSplit]; simp))
      rw [sentSplit, block_sum_append, block_sum_cons] at total
      have one : (startWait sent others).completed + 1 = 1 := rfl
      obtain ⟨t, run, own, completed⟩ := drain_own front [last] _ (.poll _ _ .start waiting counted) sentSplit
        (fun other inside => some_ other (by rw [sentSplit]; exact List.mem_append_left _ inside))
        (by simp only [one, UInt32.toNat_one]; omega)
      simp only [one, UInt32.toNat_one] at completed
      have empty : blockSum [] = 0 := rfl
      by_cases single : last.blocks.length = 1
      · refine ⟨t, run, ?_, ?_⟩
        · rw [UInt32.lt_iff_toNat_lt]
          omega
        · intro done
          exact absurd (own.symm.trans done.1) (by simp)
      · have count := block_count_small last (last.blocks.length - 1) (Nat.sub_le _ _)
        have step := PollStep.own [] [] last ⟨last.sequenceId, UInt32.ofNat (last.blocks.length - 1), 1⟩ own
          ⟨rfl, by rw [count, UInt32.toNat_one]; omega⟩
        refine ⟨_, .poll _ _ run (UInt32.lt_iff_toNat_lt.mpr (by omega)) step, ?_, ?_⟩
        · rw [UInt32.lt_iff_toNat_lt, UInt32.toNat_add, count, Nat.mod_eq_of_lt (by omega)]
          omega
        · intro done
          have clean : (1 : UInt32) = 0 := done.2 _ (List.mem_append_right _ (List.mem_singleton_self _))
          exact absurd clean (by decide)

theorem fetch_kv_blocks_sound_iff (sha256 : List UInt32 → Hash) (ctx : KllmInferGpuCtx) (tokenIds : List UInt32)
    (others : List KllmWavefront) :
    (∀ accepts s, FetchKvBlocks sha256 ctx tokenIds accepts others 0 s → OwnDone s) ↔
      kvBlockCount ctx.model (UInt32.ofNat tokenIds.length) = 0 ∨ ∀ wf ∈ others, wf.blocks = [] := by
  have size := kv_descs_length sha256 ctx tokenIds
  have small := kv_descs_length_lt sha256 ctx tokenIds
  constructor
  · intro sound
    by_contra both
    obtain ⟨blocks, foreign⟩ := not_or.mp both
    simp only [not_forall] at foreign
    obtain ⟨wf, member, filled⟩ := foreign
    obtain ⟨build, sent⟩ := submit_kv_blocks_accepted (kvDescs sha256 ctx tokenIds)
    obtain ⟨whole, some_, count⟩ := submit_kv_blocks_gathered _ small sent
    have positive : 0 < build.submitted.toNat := by
      rw [count, size]
      exact UInt32.lt_iff_toNat_lt.mp (UInt32.pos_iff_ne_zero.mpr blocks)
    obtain ⟨s, run, enough, undone⟩ := foreign_block_unsound some_ (by rw [block_sum_length, whole, count]) positive member filled
    exact undone (sound _ s (.done build s sent run enough))
  · intro safe accepts s returned
    cases returned with
    | done build _ sent run enough =>
        obtain ⟨whole, some_, count⟩ := submit_kv_blocks_gathered _ small sent
        rcases safe with none_ | alone
        · rw [size, none_] at count
          have nothing : build.sent = [] := by
            cases first : build.sent with
            | nil => rfl
            | cons wf rest =>
                have blocks := congrArg List.length whole
                rw [first, List.flatMap_cons, List.length_append, size, none_] at blocks
                have filled := List.length_pos_of_ne_nil (some_ wf (by rw [first]; simp))
                have zero : (0 : UInt32).toNat = 0 := rfl
                omega
          cases run with
          | start => exact ⟨nothing, by simp [startWait]⟩
          | poll before _ previous waiting step =>
              have below := UInt32.lt_iff_toNat_lt.mp waiting
              rw [count] at below
              exact absurd below (Nat.not_lt_zero _)
        · refine tallied_done (tallied_run (UInt32.toNat_lt _) ⟨some_, alone, rfl, ?_⟩ run) enough
          rw [count, ← whole, ← block_sum_length]
          rfl

-- As load_one_component submits it.
def weightLoad : KllmWavefront := ⟨1, 0, [⟨Vector.replicate 32 1, 4096, 64, 0, 1⟩], by decide⟩

-- The weight load completes, and the call returns with its own block still out.
theorem weight_load_counted : ∃ s, FetchKvBlocks (fun _ => Vector.replicate 32 0) oneBlockCtx [7] (fun _ => true) [weightLoad] 0 s ∧
    s.own ≠ [] ∧ s.finished = [] ∧ ¬ OwnDone s := by
  have counted := PollStep.other [] [] weightLoad ⟨0, 1, 0⟩
    (show (startWait [⟨kllmWfFlagKvFetch, 0, kvDescs (fun _ => Vector.replicate 32 0) oneBlockCtx [7], by decide⟩]
      [weightLoad]).others = [] ++ weightLoad :: [] from rfl) ⟨rfl, rfl⟩
  refine ⟨_, .done ⟨[], by decide, 1, [⟨kllmWfFlagKvFetch, 0, kvDescs (fun _ => Vector.replicate 32 0) oneBlockCtx [7], by decide⟩]⟩ _
    rfl (.poll _ _ .start (by decide) counted) (by decide), by simp [startWait], rfl, ?_⟩
  intro done
  exact absurd done.1 (by simp [startWait])

end Kllm.Gpu
