import Mathlib
import Kllm.Gpu.PagedAttention

set_option autoImplicit false

namespace Kllm.Gpu

open Warp OnlineSoftmax

structure WarpWidth (width : Nat) : Prop where
  power : ∃ k, width = 2 ^ k
  covers : headDimMax / width * width = headDimMax

theorem width_cuda : WarpWidth 32 := ⟨⟨5, rfl⟩, rfl⟩

theorem width_hip : WarpWidth 64 := ⟨⟨6, rfl⟩, rfl⟩

theorem width_positive {width : Nat} (w : WarpWidth width) : 0 < width := by
  obtain ⟨k, size⟩ := w.power
  rw [size]
  exact Nat.two_pow_pos k

theorem acc_index_inside {width : Nat} (w : WarpWidth width) (d : Nat) (small : d < headDimMax) :
    d / width < headDimMax / width := by
  rw [Nat.div_lt_iff_lt_mul (width_positive w), w.covers]
  exact small

theorem same_lane_index (width d e : Nat) (lane : d % width = e % width) (index : d / width = e / width) : d = e := by
  rw [← Nat.div_add_mod d width, ← Nat.div_add_mod e width, lane, index]

section
variable {F : Type} [Field F]

theorem lane_zero_score {width : Nat} (w : WarpWidth width) (headDim : Nat) (scale : F) (q k : Nat → F) :
    laneScores width headDim scale q k 0 = scale * ∑ d ∈ Finset.range headDim, q d * k d := by
  rw [laneScores, reduce_lane_zero width w.power, lane_sums width headDim _ (width_positive w), mul_comm]

theorem accumulate_at {width headDim : Nat} (w : WarpWidth width) (fits : headDim ≤ headDimMax) (weight : F) (v : Nat → F)
    (acc : Nat → F) (d : Nat) (inside : d < headDim) :
    accumulate width headDim weight v (d % width) acc (d / width) = acc (d / width) + weight * v d := by
  have lane := Nat.mod_lt d (width_positive w)
  have all : accumulate width headDim weight v (d % width) acc =
      (strided width headDim (d % width)).foldl (fun acc e =>
        Function.update acc (e / width) (acc (e / width) + weight * v e)) acc := by
    apply List.foldl_ext
    intro acc e member
    have small := ((mem_strided width headDim _ e lane).mp member).1
    rw [if_pos (acc_index_inside w e (by omega))]
  rw [all]
  apply foldl_update_at (fun e => e / width) (fun e x => x + weight * v e)
  · intro e member other there index
    have first := ((mem_strided width headDim _ e lane).mp member).2
    have second := ((mem_strided width headDim _ other lane).mp there).2
    exact same_lane_index width e other (first.trans second.symm) index
  · exact nodup_strided width headDim _ lane
  · exact (mem_strided width headDim _ d lane).mpr ⟨inside, rfl⟩

end

section
variable {F : Type} [Field F] [LinearOrder F]

-- The registers after n tokens. Only lane 0 rescales what it has accumulated.
structure AfterTokens (E : F → F) (width headDim : Nat) (score : Nat → F) (value : Nat → Nat → F) (n : Nat)
    (s : WarpState F) : Prop where
  maxScore : ∀ lane, s.maxScore lane = runningMax initialMax score n
  expSum : s.expSum 0 = rescaled E initialMax score (fun _ => 1) n
  laneZero : ∀ d < headDim, d % width = 0 →
    s.acc (d % width) (d / width) = rescaled E initialMax score (fun t => value t d) n
  others : ∀ d < headDim, d % width ≠ 0 →
    s.acc (d % width) (d / width) = unrescaled E initialMax score (fun t => value t d) n

theorem attend_token_after {E : F → F} {width headDim : Nat} (w : WarpWidth width) (fits : headDim ≤ headDimMax)
    {scale : F} {q : Nat → F} {key value : Nat → Nat → F} {score : Nat → F} (n : Nat) (s : WarpState F)
    (here : score n = scale * ∑ d ∈ Finset.range headDim, q d * key n d)
    (before : AfterTokens E width headDim score value n s) :
    AfterTokens E width headDim score value (n + 1) (attendToken E width headDim scale q (key n) (value n) s) := by
  have zero : laneScores width headDim scale q (key n) 0 = score n := by rw [lane_zero_score w, here]
  have risen : max (s.maxScore 0) (score n) = runningMax initialMax score (n + 1) := by rw [before.maxScore, runningMax]
  refine ⟨?_, ?_, ?_, ?_⟩
  · intro lane
    simp only [attendToken, broadcast, updateLaneZero, Function.update_self, zero]
    exact risen
  · simp only [attendToken, updateLaneZero, Function.update_self, zero]
    rw [risen, before.maxScore, before.expSum, rescaled, mul_one]
  · intro d inside lane
    have index := acc_index_inside w d (by omega)
    have old := before.laneZero d inside lane
    have added : ∀ (weight : F) (acc : Nat → F),
        accumulate width headDim weight (value n) 0 acc (d / width) = acc (d / width) + weight * value n d :=
      fun weight acc => lane ▸ accumulate_at w fits weight (value n) acc d inside
    rw [lane] at old ⊢
    simp only [attendToken, broadcast, updateLaneZero, Function.update_self, zero, added, if_pos index]
    rw [old, risen, before.maxScore, rescaled]
  · intro d inside lane
    simp only [attendToken, broadcast, updateLaneZero, Function.update_self, zero, Function.update_of_ne lane]
    rw [accumulate_at w fits _ _ _ d inside, before.others d inside lane, risen, unrescaled]

theorem attend_tokens_after {E : F → F} {width headDim : Nat} (w : WarpWidth width) (fits : headDim ≤ headDimMax)
    (scale : F) (q : Nat → F) (key value : Nat → Nat → F) (score : Nat → F)
    (scores : ∀ t, score t = scale * ∑ d ∈ Finset.range headDim, q d * key t d) (n : Nat) :
    AfterTokens E width headDim score value n
      ((List.range n).foldl (fun s t => attendToken E width headDim scale q (key t) (value t) s) initialState) := by
  induction n with
  | zero => exact ⟨fun _ => rfl, rfl, fun _ _ _ => rfl, fun _ _ _ => rfl⟩
  | succ n ih =>
      rw [List.range_succ, List.foldl_append, List.foldl_cons, List.foldl_nil]
      exact attend_token_after w fits n _ (scores n) ih

-- The sizes at which no offset of the kernels wraps.
structure IntsFit (args : KernelArgs F) (seqIdx headIdx : Nat) : Prop where
  row : (seqIdx * args.numHeads + headIdx) * args.headDim < 2 ^ 31
  table : seqIdx * args.maxBlocksPerSeq + (args.seqLens seqIdx - 1) / blockSize < 2 ^ 31
  block : kvHeadIdx args headIdx * blockSize * args.headDim < 2 ^ 31
  length : args.seqLens seqIdx + blockSize - 1 < 2 ^ 31

omit [Field F] [LinearOrder F] in
theorem row_element_injective {args : KernelArgs F} {seqIdx headIdx d e : Nat}
    (same : rowElement args seqIdx headIdx d = rowElement args seqIdx headIdx e) : d = e :=
  Nat.add_left_cancel (Int.ofNat_inj.mp same)

section
variable {args : KernelArgs F} {seqIdx headIdx : Nat} (ints : IntsFit args seqIdx headIdx)
include ints

omit [Field F] [LinearOrder F] in
theorem head_base_fits (d : Nat) : headBase args seqIdx headIdx + d = rowElement args seqIdx headIdx d := by
  rw [headBase, wrap_int_fits ints.row, rowElement, Nat.cast_add]

omit [Field F] [LinearOrder F] in
theorem query_vec_fits : queryVec args seqIdx headIdx = queryAt args seqIdx headIdx := by
  funext d
  rw [queryVec, head_base_fits ints, queryAt]

omit [Field F] [LinearOrder F] in
theorem num_blocks_fits : numBlocks args seqIdx = (args.seqLens seqIdx + blockSize - 1) / blockSize := by
  rw [numBlocks, wrap_int_fits ints.length, ← Int.ofNat_tdiv, Int.toNat_natCast]

omit [Field F] [LinearOrder F] in
theorem table_entry_fits {block : Nat} (inside : block < (args.seqLens seqIdx + blockSize - 1) / blockSize) :
    tableEntry args seqIdx block = blockEntry args seqIdx block := by
  have last : block ≤ (args.seqLens seqIdx - 1) / blockSize := by
    rw [blockSize] at inside ⊢
    omega
  have table := ints.table
  rw [tableEntry, wrap_int_fits (by omega), blockEntry]

omit [Field F] [LinearOrder F] in
theorem block_offset_fits (fits : args.headDim ≤ headDimMax) {t : Nat} (small : t < blockSize) (d : Nat) :
    blockOffset args headIdx t d = blockElement args headIdx t d := by
  have token : t * args.headDim < 2 ^ 31 := (Nat.mul_le_mul small.le fits).trans_lt (by decide)
  rw [blockOffset, kernel_element_fits ints.block token, blockElement]

end

def usable (args : KernelArgs F) (seqIdx block : Nat) : Bool :=
  (blockEntry args seqIdx block).valid && (blockEntry args seqIdx block).kPtr.isSome

def usableTokens (args : KernelArgs F) (seqIdx : Nat) : List Nat :=
  (List.range (args.seqLens seqIdx)).filter (fun t => usable args seqIdx (t / blockSize))

def usableToken (args : KernelArgs F) (seqIdx n : Nat) : Nat := (usableTokens args seqIdx).getD n 0

omit [LinearOrder F] in
theorem block_step_usable {S : Type} {args : KernelArgs F} {seqIdx headIdx : Nat} (ints : IntsFit args seqIdx headIdx)
    (fits : args.headDim ≤ headDimMax) {block : Nat} (inside : block < (args.seqLens seqIdx + blockSize - 1) / blockSize)
    (token : S → (Nat → F) → (Nat → F) → S) (s : S) :
    attendBlock args seqIdx headIdx token s block =
      if usable args seqIdx block then
        (List.range (min blockSize (args.seqLens seqIdx - block * blockSize))).foldl (fun s t =>
          token s (keyAt args seqIdx headIdx (block * blockSize + t)) (valueAt args seqIdx headIdx (block * blockSize + t))) s
      else s := by
  rw [attendBlock, table_entry_fits ints inside]
  cases present : (blockEntry args seqIdx block).valid with
  | false => simp [usable, present]
  | true =>
      cases pointer : (blockEntry args seqIdx block).kPtr with
      | none => simp [usable, pointer]
      | some kMem =>
          have use : usable args seqIdx block = true := by simp [usable, present, pointer]
          rw [if_pos use]
          apply List.foldl_ext
          intro s t member
          have small : t < blockSize := by
            have := List.mem_range.mp member
            omega
          have blockOf : (block * blockSize + t) / blockSize = block := by
            rw [Nat.mul_comm, Nat.mul_add_div (by decide), Nat.div_eq_of_lt small, Nat.add_zero]
          have tokenOf : (block * blockSize + t) % blockSize = t := by
            rw [Nat.mul_comm, Nat.mul_add_mod, Nat.mod_eq_of_lt small]
          congr 1
          · funext d
            simp only [keyAt, blockOf, tokenOf, pointer, block_offset_fits ints fits small]
          · funext d
            simp only [valueAt, blockOf, tokenOf, block_offset_fits ints fits small]

omit [LinearOrder F] in
theorem attend_blocks_usable {S : Type} {args : KernelArgs F} {seqIdx headIdx : Nat} (ints : IntsFit args seqIdx headIdx)
    (fits : args.headDim ≤ headDimMax) (token : S → (Nat → F) → (Nat → F) → S) (start : S) :
    attendBlocks args seqIdx headIdx token start =
      (List.range (usableTokens args seqIdx).length).foldl (fun s n =>
        token s (keyAt args seqIdx headIdx (usableToken args seqIdx n)) (valueAt args seqIdx headIdx (usableToken args seqIdx n)))
        start := by
  have tokens : (usableTokens args seqIdx).foldl (fun s t =>
      token s (keyAt args seqIdx headIdx t) (valueAt args seqIdx headIdx t)) start =
      (List.range (usableTokens args seqIdx).length).foldl (fun s n =>
        token s (keyAt args seqIdx headIdx (usableToken args seqIdx n)) (valueAt args seqIdx headIdx (usableToken args seqIdx n)))
        start := by
    conv_lhs => rw [← range_map_getD (usableTokens args seqIdx) 0, List.foldl_map]
    rfl
  rw [← tokens, usableTokens, ← foldl_blocks_where blockSize (args.seqLens seqIdx) (by decide) (usable args seqIdx), attendBlocks,
    num_blocks_fits ints]
  apply List.foldl_ext
  intro s block member
  exact block_step_usable ints fits (List.mem_range.mp member) token s

theorem kernel_stores {width : Nat} (E : F → F) {args : KernelArgs F} {seqIdx headIdx : Nat}
    (ints : IntsFit args seqIdx headIdx) (launched : seqIdx < args.numSeqs) (output : Int → F) :
    pagedAttentionKernel E width args seqIdx headIdx output =
      stores (fun e => (rowElement args seqIdx headIdx e : Int))
        (fun e => normalized width (attendSequence E width args seqIdx headIdx) (e % width) e) (laneMajor width args.headDim)
        output := by
  rw [pagedAttentionKernel, if_neg (by omega), stores, laneMajor, List.foldl_flatMap]
  apply List.foldl_ext
  intro output lane member
  apply List.foldl_ext
  intro output e there
  rw [((mem_strided width args.headDim lane e (List.mem_range.mp member)).mp there).2, head_base_fits ints]

theorem kernel_output {width : Nat} (w : WarpWidth width) (E : F → F) {args : KernelArgs F} (fits : args.headDim ≤ headDimMax)
    {seqIdx headIdx : Nat} (ints : IntsFit args seqIdx headIdx) (launched : seqIdx < args.numSeqs) (output : Int → F)
    {d : Nat} (inside : d < args.headDim) :
    pagedAttentionKernel E width args seqIdx headIdx output (rowElement args seqIdx headIdx d) =
      (attendSequence E width args seqIdx headIdx).acc (d % width) (d / width) *
        (if (attendSequence E width args seqIdx headIdx).expSum 0 > 0 then
          1 / (attendSequence E width args seqIdx headIdx).expSum 0 else 0) := by
  rw [kernel_stores E ints launched]
  apply stores_at
  · exact ⟨d, (mem_lane_major width args.headDim d (width_positive w)).mpr inside, rfl⟩
  · intro e _ same
    rw [row_element_injective same, normalized, if_pos (acc_index_inside w d (by omega)), broadcast]

-- Softmax attention of the tokens in usable blocks, as if there were no others;
-- zero where there are none.
def usableAttention (E : F → F) (args : KernelArgs F) (score : Nat → F) (seqIdx headIdx d : Nat) : F :=
  (∑ t ∈ (usableTokens args seqIdx).toFinset, E (score t) * valueAt args seqIdx headIdx t d) /
    ∑ t ∈ (usableTokens args seqIdx).toFinset, E (score t)

def usableError (E : F → F) (args : KernelArgs F) (seqIdx headIdx d : Nat) : F :=
  ∑ n ∈ Finset.range (usableTokens args seqIdx).length,
    E (scoreAt args seqIdx headIdx (usableToken args seqIdx n)) *
      (E (runningMax initialMax (fun i => scoreAt args seqIdx headIdx (usableToken args seqIdx i))
          (usableTokens args seqIdx).length -
        runningMax initialMax (fun i => scoreAt args seqIdx headIdx (usableToken args seqIdx i)) (n + 1)) - 1) *
      valueAt args seqIdx headIdx (usableToken args seqIdx n) d

omit [LinearOrder F] in
theorem usable_token_sum (args : KernelArgs F) (seqIdx : Nat) (f : Nat → F) :
    ∑ n ∈ Finset.range (usableTokens args seqIdx).length, f (usableToken args seqIdx n) =
      ∑ t ∈ (usableTokens args seqIdx).toFinset, f t := by
  have nodup : (usableTokens args seqIdx).Nodup := List.nodup_range.filter _
  rw [List.sum_toFinset f nodup, ← List.toFinset_range, List.sum_toFinset _ List.nodup_range]
  conv_rhs => rw [← range_map_getD (usableTokens args seqIdx) 0, List.map_map]
  rfl

omit [LinearOrder F] in
theorem usable_mean (E : F → F) (args : KernelArgs F) (score : Nat → F) (seqIdx headIdx d : Nat) :
    softmaxMean E (fun n => score (usableToken args seqIdx n))
      (fun n => valueAt args seqIdx headIdx (usableToken args seqIdx n) d) (usableTokens args seqIdx).length =
      usableAttention E args score seqIdx headIdx d := by
  rw [softmaxMean, usableAttention, usable_token_sum args seqIdx (fun t => E (score t) * valueAt args seqIdx headIdx t d),
    usable_token_sum args seqIdx (fun t => E (score t))]

theorem kernel_usable_iff [IsStrictOrderedRing F] {width : Nat} (w : WarpWidth width) {E : F → F} (law : Exponential E)
    {args : KernelArgs F} (fits : args.headDim ≤ headDimMax) {seqIdx headIdx : Nat} (ints : IntsFit args seqIdx headIdx)
    (launched : seqIdx < args.numSeqs) (output : Int → F) {d : Nat} (inside : d < args.headDim) :
    pagedAttentionKernel E width args seqIdx headIdx output (rowElement args seqIdx headIdx d) =
        usableAttention E args (scoreAt args seqIdx headIdx) seqIdx headIdx d ↔
      d % width = 0 ∨ usableError E args seqIdx headIdx d = 0 := by
  have after := attend_tokens_after (E := E) w fits args.scale (queryAt args seqIdx headIdx)
    (fun n => keyAt args seqIdx headIdx (usableToken args seqIdx n))
    (fun n => valueAt args seqIdx headIdx (usableToken args seqIdx n))
    (fun n => scoreAt args seqIdx headIdx (usableToken args seqIdx n)) (fun _ => rfl) (usableTokens args seqIdx).length
  have sequence : attendSequence E width args seqIdx headIdx =
      (List.range (usableTokens args seqIdx).length).foldl (fun s n =>
        attendToken E width args.headDim args.scale (queryAt args seqIdx headIdx)
          (keyAt args seqIdx headIdx (usableToken args seqIdx n)) (valueAt args seqIdx headIdx (usableToken args seqIdx n)) s)
        initialState := by
    rw [attendSequence, query_vec_fits ints, attend_blocks_usable ints fits]
  rw [← sequence] at after
  rw [kernel_output w E fits ints launched output inside, ← usable_mean]
  rcases Nat.eq_zero_or_pos (usableTokens args seqIdx).length with none_ | some_
  · have error : usableError E args seqIdx headIdx d = 0 := by rw [usableError, none_, Finset.sum_range_zero]
    have sum : (attendSequence E width args seqIdx headIdx).expSum 0 = 0 := by rw [after.expSum, none_, rescaled]
    rw [sum, if_neg (lt_irrefl 0), mul_zero, none_, softmaxMean, Finset.sum_range_zero, zero_div]
    exact iff_of_true rfl (Or.inr error)
  · have total := total_positive law initialMax (fun n => scoreAt args seqIdx headIdx (usableToken args seqIdx n))
      (usableTokens args seqIdx).length some_
    rw [after.expSum, if_pos total, mul_one_div]
    by_cases lane : d % width = 0
    · rw [after.laneZero d inside lane]
      exact iff_of_true (rescaled_ratio law _ _ _ _) (Or.inl lane)
    · rw [after.others d inside lane, unrescaled_ratio_iff law _ some_, or_iff_right lane]
      rfl

def EntriesValid (args : KernelArgs F) (seqIdx : Nat) : Prop :=
  ∀ t < args.seqLens seqIdx, (blockEntry args seqIdx (t / blockSize)).valid = true ∧
    (blockEntry args seqIdx (t / blockSize)).kPtr ≠ none

def rescaleError (E : F → F) (args : KernelArgs F) (seqIdx headIdx d : Nat) : F :=
  ∑ t ∈ Finset.range (args.seqLens seqIdx),
    E (scoreAt args seqIdx headIdx t) *
      (E (maxScoreAt args seqIdx headIdx (args.seqLens seqIdx) - maxScoreAt args seqIdx headIdx (t + 1)) - 1) *
      valueAt args seqIdx headIdx t d

omit [Field F] [LinearOrder F] in
theorem valid_tokens {args : KernelArgs F} {seqIdx : Nat} (valid : EntriesValid args seqIdx) :
    usableTokens args seqIdx = List.range (args.seqLens seqIdx) := by
  refine List.filter_eq_self.mpr (fun t member => ?_)
  obtain ⟨present, pointer⟩ := valid t (List.mem_range.mp member)
  rw [usable, present, Bool.true_and, Option.isSome_iff_ne_none]
  exact pointer

omit [Field F] [LinearOrder F] in
theorem valid_token {args : KernelArgs F} {seqIdx : Nat} (valid : EntriesValid args seqIdx) {n : Nat}
    (inside : n < args.seqLens seqIdx) : usableToken args seqIdx n = n := by
  rw [usableToken, valid_tokens valid, List.getD_eq_getElem?_getD, List.getElem?_range inside, Option.getD_some]

omit [LinearOrder F] in
theorem valid_attention (E : F → F) {args : KernelArgs F} {seqIdx : Nat} (valid : EntriesValid args seqIdx) (headIdx d : Nat) :
    usableAttention E args (scoreAt args seqIdx headIdx) seqIdx headIdx d = attentionValue E args seqIdx headIdx d := by
  rw [usableAttention, valid_tokens valid, List.toFinset_range, attentionValue, softmaxMean]

omit [Field F] in
theorem running_max_congr {init : F} {score other : Nat → F} {n : Nat} (same : ∀ t < n, score t = other t) :
    runningMax init score n = runningMax init other n := by
  induction n with
  | zero => rfl
  | succ n ih => rw [runningMax, runningMax, ih (fun t inside => same t (Nat.lt_succ_of_lt inside)), same n (Nat.lt_succ_self n)]

theorem valid_error (E : F → F) {args : KernelArgs F} {seqIdx : Nat} (valid : EntriesValid args seqIdx) (headIdx d : Nat) :
    usableError E args seqIdx headIdx d = rescaleError E args seqIdx headIdx d := by
  have length : (usableTokens args seqIdx).length = args.seqLens seqIdx := by rw [valid_tokens valid, List.length_range]
  have maxima : ∀ n ≤ args.seqLens seqIdx,
      runningMax initialMax (fun i => scoreAt args seqIdx headIdx (usableToken args seqIdx i)) n = maxScoreAt args seqIdx headIdx n :=
    fun n within => running_max_congr (fun t inside => by rw [valid_token valid (by omega)])
  rw [usableError, rescaleError, length]
  apply Finset.sum_congr rfl
  intro t member
  have inside := Finset.mem_range.mp member
  rw [valid_token valid inside, maxima _ le_rfl, maxima (t + 1) inside]

theorem paged_attention_softmax_iff [IsStrictOrderedRing F] (E : F → F) (law : Exponential E) (args : KernelArgs F)
    (fits : args.headDim ≤ headDimMax) (seqIdx headIdx : Nat) (ints : IntsFit args seqIdx headIdx)
    (launched : seqIdx < args.numSeqs) (valid : EntriesValid args seqIdx) (output : Int → F) (d : Nat)
    (inside : d < args.headDim) :
    (pagedAttentionKernelCuda E args seqIdx headIdx output (rowElement args seqIdx headIdx d) =
        attentionValue E args seqIdx headIdx d ↔ d % 32 = 0 ∨ rescaleError E args seqIdx headIdx d = 0) ∧
      (pagedAttentionV2Kernel E args seqIdx headIdx output (rowElement args seqIdx headIdx d) =
        attentionValue E args seqIdx headIdx d ↔ d % 64 = 0 ∨ rescaleError E args seqIdx headIdx d = 0) := by
  rw [← valid_attention E valid, ← valid_error E valid]
  exact ⟨kernel_usable_iff width_cuda law fits ints launched output inside,
    kernel_usable_iff width_hip law fits ints launched output inside⟩

end

-- Two tokens, the second with the larger score; the first has value (0, 1).
noncomputable def risingArgs : KernelArgs ℝ where
  query := fun d => if d = 0 then 1 else 0
  blockTables := fun _ => ⟨some (fun i => if i = 2 then 1 else 0), fun i => if i = 1 then 1 else 0, true⟩
  seqLens := fun _ => 2
  numSeqs := 1
  numHeads := 1
  numKvHeads := 1
  headDim := 2
  maxBlocksPerSeq := 1
  scale := 1

theorem rising_valid : EntriesValid risingArgs 0 := fun _ _ => ⟨rfl, by simp [blockEntry, risingArgs]⟩

theorem rising_fits : IntsFit risingArgs 0 0 := ⟨by decide, by decide, by decide, by decide⟩

theorem rising_score_first : scoreAt risingArgs 0 0 0 = 0 := by
  simp [scoreAt, risingArgs, queryAt, rowElement, keyAt, blockEntry, blockElement, kvHeadIdx, Finset.sum_range_succ]

theorem rising_score_second : scoreAt risingArgs 0 0 1 = 1 := by
  simp [scoreAt, risingArgs, queryAt, rowElement, keyAt, blockEntry, blockElement, kvHeadIdx, blockSize]

theorem rising_error : rescaleError Real.exp risingArgs 0 0 1 = Real.exp 1 - 1 := by
  have below : max (initialMax : ℝ) 0 = 0 := max_eq_right (by norm_num [initialMax])
  have first : maxScoreAt risingArgs 0 0 1 = 0 := by
    simp only [maxScoreAt, runningMax, rising_score_first]
    exact below
  have second : maxScoreAt risingArgs 0 0 2 = 1 := by
    simp only [maxScoreAt, runningMax, rising_score_first, rising_score_second, below]
    norm_num
  have values : valueAt risingArgs 0 0 0 1 = 1 ∧ valueAt risingArgs 0 0 1 1 = 0 := by
    simp [valueAt, risingArgs, blockEntry, blockElement, kvHeadIdx, blockSize]
  have length : risingArgs.seqLens 0 = 2 := rfl
  rw [rescaleError, length, Finset.sum_range_succ, Finset.sum_range_succ, Finset.sum_range_zero]
  rw [rising_score_first, first, second, values.1, values.2, Real.exp_zero, sub_zero]
  ring

theorem paged_attention_softmax_lane_zero :
    pagedAttentionKernelCuda Real.exp risingArgs 0 0 (fun _ => 0) (rowElement risingArgs 0 0 0) =
      attentionValue Real.exp risingArgs 0 0 0 :=
  (paged_attention_softmax_iff Real.exp real_exponential risingArgs (by decide) 0 0 rising_fits (by decide) rising_valid
    (fun _ => 0) 0 (by decide)).1.mpr (Or.inl rfl)

-- Dimension 1 belongs to lane 1, which never rescales: both kernels get it wrong.
theorem rising_score_wrong :
    Exponential Real.exp ∧ EntriesValid risingArgs 0 ∧ (∀ t < 2, initialMax < scoreAt risingArgs 0 0 t) ∧
    pagedAttentionKernelCuda Real.exp risingArgs 0 0 (fun _ => 0) (rowElement risingArgs 0 0 1) ≠
      attentionValue Real.exp risingArgs 0 0 1 ∧
    pagedAttentionV2Kernel Real.exp risingArgs 0 0 (fun _ => 0) (rowElement risingArgs 0 0 1) ≠
      attentionValue Real.exp risingArgs 0 0 1 := by
  have off : rescaleError Real.exp risingArgs 0 0 1 ≠ 0 := by
    rw [rising_error, sub_ne_zero]
    exact (Real.one_lt_exp_iff.mpr one_pos).ne'
  refine ⟨real_exponential, rising_valid, ?_, ?_, ?_⟩
  · intro t inside
    interval_cases t
    · rw [rising_score_first]
      norm_num [initialMax]
    · rw [rising_score_second]
      norm_num [initialMax]
  · intro same
    rw [← valid_attention Real.exp rising_valid] at same
    have owned := (kernel_usable_iff width_cuda real_exponential (by decide) rising_fits (by decide) _ (by decide)).mp same
    rw [valid_error Real.exp rising_valid] at owned
    exact owned.elim (by decide) off
  · intro same
    rw [← valid_attention Real.exp rising_valid] at same
    have owned := (kernel_usable_iff width_hip real_exponential (by decide) rising_fits (by decide) _ (by decide)).mp same
    rw [valid_error Real.exp rising_valid] at owned
    exact owned.elim (by decide) off

end Kllm.Gpu
