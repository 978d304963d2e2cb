import Mathlib
import Kllm.Lib.InverseCdf
import Kllm.Lib.OnlineSoftmax
import Kllm.Decode.TopKSelection

set_option autoImplicit false

namespace Kllm.Decode

open InverseCdf Finset
open OnlineSoftmax (Exponential real_exponential)

section
variable {K : Type} [Field K] [LinearOrder K]

-- Exact arithmetic with -INFINITY below it, where expf is zero.
def exactArith (E : K → K) : SampleArith (WithBot K) where
  zero := ((0 : K) : WithBot K)
  add := WithBot.map₂ (· + ·)
  sub := WithBot.map₂ (· - ·)
  div := WithBot.map₂ (· / ·)
  exp logit := ((logit.map E).unbotD 0 : K)
  le a b := decide (a ≤ b)

def drawOf (randMax number : Nat) : SampleDraw (WithBot K) := ⟨((number / randMax : K) : WithBot K), true, true, true⟩

def drawsOf (sampler : SampleDraw (WithBot K) → UInt32) (randMax : Nat) (token : UInt32) : Finset Nat :=
  (range (randMax + 1)).filter (fun number => sampler (drawOf randMax number) = token)

def logitWeight (E : K → K) (temperature : K) (logit : WithBot K) : K :=
  (logit.map (fun value => E (value / temperature))).unbotD 0

def softmaxShares (E : K → K) (temperature : K) (logits : List (WithBot K)) : List K :=
  logits.map (fun logit => logitWeight E temperature logit / (logits.map (logitWeight E temperature)).sum)

variable {E : K → K} {temperature : K} {logits : List (WithBot K)}

omit [Field K] in
theorem fold_max_found (top : WithBot K) (found : ⊥ < top ∨ ∃ logit ∈ logits, ⊥ < logit) :
    ∃ value : K, logits.foldl (fun top logit => if logit > top then logit else top) top = value := by
  induction logits generalizing top with
  | nil =>
      have some_ : ⊥ < top := by simpa using found
      exact ⟨top.unbot some_.ne', (WithBot.coe_unbot top some_.ne').symm⟩
  | cons logit rest ih =>
      rw [List.foldl_cons]
      refine ih _ ?_
      by_cases here : logit > top
      · rw [if_pos here]
        exact .inl (lt_of_le_of_lt bot_le here)
      · rw [if_neg here]
        rcases found with already | ⟨other, member, some_⟩
        · exact .inl already
        · rcases List.mem_cons.mp member with rfl | later
          · exact .inl (some_.trans_le (not_lt.mp here))
          · exact .inr ⟨other, later, some_⟩

theorem fold_add_exact (start : K) (values : List K) :
    (values.map WithBot.some).foldl (exactArith E).add start = ((start + values.sum : K) : WithBot K) := by
  induction values generalizing start with
  | nil => simp
  | cons value rest ih =>
      rw [List.map_cons, List.foldl_cons, List.sum_cons, ← add_assoc]
      exact ih (start + value)

theorem pick_from_exact (draw sum : K) (probs : List K) (i : Nat) :
    pickFrom (exactArith E) draw (probs.map WithBot.some) i sum = pick draw probs i sum := by
  induction probs generalizing i sum with
  | nil => rfl
  | cons prob rest ih =>
      have next : (exactArith E).add (sum : WithBot K) prob = ((sum + prob : K) : WithBot K) := rfl
      have compared : (exactArith E).le (draw : WithBot K) ((sum + prob : K) : WithBot K) = decide (draw ≤ sum + prob) :=
        decide_eq_decide.mpr WithBot.coe_le_coe
      rw [List.map_cons, pickFrom, pick, next, compared, ih]
      simp only [decide_eq_true_eq]

theorem logit_weight_nonneg (law : Exponential E) (logit : WithBot K) : 0 ≤ logitWeight E temperature logit := by
  cases logit with
  | bot => exact le_rfl
  | coe value => exact (law.positive _).le

theorem logit_weight_pos (law : Exponential E) {logit : WithBot K} (some_ : ⊥ < logit) : 0 < logitWeight E temperature logit := by
  cases logit with
  | bot => exact absurd some_ (lt_irrefl _)
  | coe value => exact law.positive _

variable [IsStrictOrderedRing K]

theorem exp_shifted (law : Exponential E) (top : K) (logit : WithBot K) :
    (exactArith E).exp ((exactArith E).div ((exactArith E).sub logit top) temperature) =
      ((logitWeight E temperature logit * E (-(top / temperature)) : K) : WithBot K) := by
  cases logit with
  | bot =>
      have zero : logitWeight E temperature (⊥ : WithBot K) * E (-(top / temperature)) = 0 := zero_mul _
      rw [zero]
      rfl
  | coe value =>
      have split_ : (value - top) / temperature = value / temperature + -(top / temperature) := by ring
      have shifted : E ((value - top) / temperature) = E (value / temperature) * E (-(top / temperature)) := by
        rw [split_, law.additive]
      exact congrArg _ shifted

theorem weights_sum_pos (law : Exponential E) (found : ∃ logit ∈ logits, ⊥ < logit) :
    0 < (logits.map (logitWeight E temperature)).sum := by
  obtain ⟨logit, member, some_⟩ := found
  refine lt_of_lt_of_le (logit_weight_pos law some_) (List.single_le_sum ?_ _ (List.mem_map_of_mem member))
  intro weight inside
  obtain ⟨other, _, rfl⟩ := List.mem_map.mp inside
  exact logit_weight_nonneg law other

theorem tempered_probs_exact (law : Exponential E) (found : ∃ logit ∈ logits, ⊥ < logit) :
    temperedProbs (exactArith E) logits temperature =
      (softmaxShares E temperature logits).map WithBot.some := by
  obtain ⟨top, maxLogit⟩ := fold_max_found ⊥ (.inr found)
  have factor : E (-(top / temperature)) ≠ 0 := (law.positive _).ne'
  have exps : logits.map (fun logit => (exactArith E).exp ((exactArith E).div ((exactArith E).sub logit top) temperature)) =
      (logits.map (fun logit => logitWeight E temperature logit * E (-(top / temperature)))).map WithBot.some := by
    rw [List.map_map]
    exact List.map_congr_left (fun logit _ => exp_shifted law top logit)
  have sum : (logits.map (fun logit => logitWeight E temperature logit * E (-(top / temperature)))).sum =
      (logits.map (logitWeight E temperature)).sum * E (-(top / temperature)) := List.sum_map_mul_right ..
  have total := fold_add_exact (E := E) 0 (logits.map (fun logit => logitWeight E temperature logit * E (-(top / temperature))))
  rw [zero_add, sum] at total
  simp only [temperedProbs]
  rw [maxLogit, exps]
  have zero : (exactArith E).zero = ((0 : K) : WithBot K) := rfl
  rw [zero, total, softmaxShares, List.map_map, List.map_map, List.map_map]
  refine List.map_congr_left (fun logit _ => ?_)
  exact congrArg WithBot.some (mul_div_mul_right _ _ factor)

theorem shares_nonneg (law : Exponential E) : ∀ share ∈ softmaxShares E temperature logits, 0 ≤ share := by
  intro share member
  obtain ⟨logit, _, rfl⟩ := List.mem_map.mp member
  refine div_nonneg (logit_weight_nonneg law logit) (List.sum_nonneg ?_)
  intro weight inside
  obtain ⟨other, _, rfl⟩ := List.mem_map.mp inside
  exact logit_weight_nonneg law other

theorem shares_sum (law : Exponential E) (found : ∃ logit ∈ logits, ⊥ < logit) :
    (softmaxShares E temperature logits).sum = 1 := by
  simp only [softmaxShares, div_eq_mul_inv]
  rw [List.sum_map_mul_right, mul_inv_cancel₀ (weights_sum_pos law found).ne']

-- In exact arithmetic the last branch of the sampler is never taken.
theorem sample_temperature_pick (law : Exponential E) (found : ∃ logit ∈ logits, ⊥ < logit) (warm : 0 < temperature)
    (small : logits.length < 2 ^ 32) {randMax number : Nat} (within : number ≤ randMax) {n : Nat} (inside : n < logits.length) :
    sampleTemperature (exactArith E) (drawOf randMax number) logits temperature = UInt32.ofNat n ↔
      pick (number / randMax : K) (softmaxShares E temperature logits) 0 0 = some n := by
  have length : (softmaxShares E temperature logits).length = logits.length := List.length_map _
  have bounded : (number / randMax : K) ≤ 0 + (softmaxShares E temperature logits).sum := by
    rw [zero_add, shares_sum law found]
    exact div_le_one_of_le₀ (Nat.cast_le.mpr within) (Nat.cast_nonneg randMax)
  have some' : softmaxShares E temperature logits ≠ [] := by
    rw [← List.length_pos_iff, length]
    omega
  obtain ⟨picked, drawn⟩ := pick_reached some' bounded 0
  have cold : (exactArith E).le (temperature : WithBot K) (exactArith E).zero = false :=
    decide_eq_false (fun le => absurd (WithBot.coe_le_coe.mp le) (not_le.mpr warm))
  have below : picked < logits.length := by
    obtain ⟨m, limit, same, _⟩ := (pick_iff (shares_nonneg law) _ _ _ _).mp drawn
    rw [length] at limit
    omega
  have chosen : pickFrom (exactArith E) (drawOf (K := K) randMax number).random
      (temperedProbs (exactArith E) logits temperature) 0 (exactArith E).zero = some picked := by
    rw [tempered_probs_exact law found]
    exact (pick_from_exact _ _ _ _).trans drawn
  rw [drawn, sampleTemperature, cold, if_neg Bool.false_ne_true, if_neg (by simp [drawOf]), chosen, Option.some_inj]
  constructor
  · intro same
    have equal := congrArg UInt32.toNat same
    rwa [UInt32.toNat_ofNat_of_lt' (by rw [UInt32.size]; omega), UInt32.toNat_ofNat_of_lt' (by rw [UInt32.size]; omega)] at equal
  · rintro rfl
    rfl

variable [FloorRing K]

theorem temperature_draws (law : Exponential E) (found : ∃ logit ∈ logits, ⊥ < logit) (warm : 0 < temperature)
    (small : logits.length < 2 ^ 32) {randMax : Nat} (some_ : 0 < randMax) {n : Nat} (inside : n < logits.length) :
    |((drawsOf (fun draw => sampleTemperature (exactArith E) draw logits temperature) randMax (UInt32.ofNat n)).card : K) -
      randMax * (softmaxShares E temperature logits).getD n 0| ≤ 1 := by
  have length : (softmaxShares E temperature logits).length = logits.length := List.length_map _
  have same : drawsOf (fun draw => sampleTemperature (exactArith E) draw logits temperature) randMax (UInt32.ofNat n) =
      (range (randMax + 1)).filter
        (fun number : Nat => pick ((number : K) / randMax) (softmaxShares E temperature logits) 0 0 = some n) := by
    refine filter_congr (fun number member => ?_)
    exact sample_temperature_pick law found warm small (Nat.lt_succ_iff.mp (mem_range.mp member)) inside
  rw [same, List.getD_eq_getElem _ _ (length.symm ▸ inside)]
  exact card_picks (shares_nonneg law) (shares_sum law found) some_ (length.symm ▸ inside)

def topValues (k : UInt32) (logits : List (WithBot K)) : List (WithBot K) :=
  ((ranking logits).take k.toNat).map (fun entry => entry.1)

omit [Field K] [IsStrictOrderedRing K] [FloorRing K] in
theorem top_values_length {k : UInt32} (short : k.toNat < logits.length) : (topValues k logits).length = k.toNat := by
  have perm : (ranking logits).Perm logits.zipIdx := List.mergeSort_perm _ _
  rw [topValues, List.length_map, List.length_take, perm.length_eq, List.length_zipIdx]
  omega

omit [Field K] [IsStrictOrderedRing K] [FloorRing K] in
theorem top_values_found {k : UInt32} (some_ : 1 ≤ k.toNat) (enough : k.toNat ≤ logits.countP (fun logit => decide (⊥ < logit))) :
    ∃ logit ∈ topValues k logits, ⊥ < logit := by
  obtain ⟨logit, member, above⟩ := List.countP_pos_iff.mp (some_.trans enough)
  have perm : ((ranking logits).map (fun entry => entry.1)).Perm logits := by
    have sorted : (ranking logits).Perm logits.zipIdx := List.mergeSort_perm _ _
    have values := sorted.map (fun entry => entry.1)
    rwa [List.zipIdx_map_fst] at values
  have descending := ranking_descending logits (ranking logits).length
  rw [List.take_length] at descending
  have ranked := perm.mem_iff.mpr member
  rw [topValues]
  cases found : ranking logits with
  | nil =>
      rw [found] at ranked
      cases ranked
  | cons best rest =>
      rw [found, List.map_cons] at ranked descending
      refine ⟨best.1, ?_, ?_⟩
      · obtain ⟨m, size⟩ := Nat.exists_eq_add_of_le' some_
        rw [size, List.take_succ_cons]
        exact List.mem_cons_self
      · have largest : logit ≤ best.1 := by
          rcases List.mem_cons.mp ranked with same | later
          · exact same.le
          · exact (List.pairwise_cons.mp descending).1 logit later
        exact (of_decide_eq_true above).trans_le largest

omit [Field K] [IsStrictOrderedRing K] [FloorRing K] in
theorem select_top_token {k : UInt32} (some_ : 1 ≤ k.toNat) (short : k.toNat < logits.length) (half : k.toNat < 2 ^ 31)
    (enough : k.toNat ≤ logits.countP (fun logit => decide (⊥ < logit))) {n : Nat} (inside : n < k.toNat) :
    ((selectTop k logits).getD n (⊥, 0)).2 = UInt32.ofNat ((ranking logits).getD n (⊥, 0)).2 := by
  have length := top_values_length short
  rw [topValues, List.length_map] at length
  have within : n < (ranking logits).length := lt_of_lt_of_le (length.symm ▸ inside) (List.length_take_le' _ _)
  rw [select_top_ranking some_ half enough, List.getD_eq_getElem _ _ (by rw [List.length_map, length]; exact inside),
    List.getElem_map, List.getElem_take, List.getD_eq_getElem _ _ within]
  rfl

omit [Field K] [IsStrictOrderedRing K] [FloorRing K] in
theorem rank_tokens_inj {k : UInt32} (small : logits.length < 2 ^ 32) (short : k.toNat < logits.length) {m n : Nat}
    (first : m < k.toNat) (second : n < k.toNat)
    (same : UInt32.ofNat ((ranking logits).getD m (⊥, 0)).2 = UInt32.ofNat ((ranking logits).getD n (⊥, 0)).2) : m = n := by
  have distinct := ranking_indices_distinct small k.toNat
  have length := top_values_length short
  rw [topValues, List.length_map] at length
  have token : ∀ j (inside : j < (((ranking logits).take k.toNat).map (fun entry => UInt32.ofNat entry.2)).length),
      (((ranking logits).take k.toNat).map (fun entry => UInt32.ofNat entry.2))[j] =
        UInt32.ofNat ((ranking logits).getD j (⊥, 0)).2 := by
    intro j inside
    rw [List.length_map] at inside
    have within := lt_of_lt_of_le inside (List.length_take_le' _ _)
    rw [List.getElem_map, List.getElem_take, List.getD_eq_getElem _ _ within]
  have mBound : m < (((ranking logits).take k.toNat).map (fun entry => UInt32.ofNat entry.2)).length := by
    rwa [List.length_map, length]
  have nBound : n < (((ranking logits).take k.toNat).map (fun entry => UInt32.ofNat entry.2)).length := by
    rwa [List.length_map, length]
  rw [← token m mBound, ← token n nBound] at same
  exact (distinct.getElem_inj_iff).mp same

omit [Field K] [IsStrictOrderedRing K] [FloorRing K] in
theorem sample_top_k_rank {k : UInt32} (small : logits.length < 2 ^ 32) (some_ : 1 ≤ k.toNat) (short : k.toNat < logits.length)
    (half : k.toNat < 2 ^ 31) (enough : k.toNat ≤ logits.countP (fun logit => decide (⊥ < logit)))
    (arith : SampleArith (WithBot K)) (draw : SampleDraw (WithBot K)) (mallocs : draw.topValsFound = true ∧ draw.topIdxsFound = true)
    (temperature : WithBot K) {n : Nat} (inside : n < k.toNat) :
    sampleTopK arith draw logits k temperature = UInt32.ofNat ((ranking logits).getD n (⊥, 0)).2 ↔
      sampleTemperature arith draw (topValues k logits) temperature = UInt32.ofNat n := by
  have bounds : ¬ (k = 0 ∨ UInt32.ofNat logits.length ≤ k) := by
    rintro (zero | long)
    · rw [zero] at some_
      exact absurd some_ (by decide)
    · rw [UInt32.le_iff_toNat_le, UInt32.toNat_ofNat_of_lt' small] at long
      omega
  have values : (selectTop k logits).map (fun entry => entry.1) = topValues k logits := by
    rw [select_top_ranking some_ half enough, List.map_map]
    rfl
  have length := top_values_length short
  have kept : 0 < (topValues k logits).length := by omega
  have below := sample_temperature_bound kept (by omega) arith draw temperature
  rw [length] at below
  simp only [sampleTopK]
  rw [if_neg bounds, if_neg (by simp [mallocs.1, mallocs.2]), values, if_pos (UInt32.lt_iff_toNat_lt.mpr below),
    select_top_token some_ short half enough below]
  constructor
  · intro same
    rw [← rank_tokens_inj small short below inside same, UInt32.ofNat_toNat]
  · intro same
    rw [same, UInt32.toNat_ofNat_of_lt' (by rw [UInt32.size]; omega)]

theorem sample_token_draws (params : SamplingParams (WithBot K)) (law : Exponential E)
    (method : params.sampling = .temperature ∨ params.sampling = .topP ∨
      params.sampling = .topK ∧ (params.topK = 0 ∨ logits.length ≤ params.topK.toNat))
    (warm : 0 < temperature) (tempered : params.temperature = temperature) (found : ∃ logit ∈ logits, ⊥ < logit)
    (small : logits.length < 2 ^ 32) (randMax : Nat) (numbers : 0 < randMax) (n : Nat) (inside : n < logits.length) :
    |((drawsOf (fun draw => sampleToken (exactArith E) params draw logits) randMax (UInt32.ofNat n)).card : K) -
      randMax * (softmaxShares E temperature logits).getD n 0| ≤ 1 := by
  have plain : ∀ draw, sampleToken (exactArith E) params draw logits =
      sampleTemperature (exactArith E) draw logits temperature := by
    intro draw
    rw [← tempered]
    rcases method with temper | topP | ⟨topK, whole⟩
    · rw [sampleToken, temper]
    · rw [sampleToken, topP, sampleTopP]
    · have all : params.topK = 0 ∨ UInt32.ofNat logits.length ≤ params.topK := by
        rwa [UInt32.le_iff_toNat_le, UInt32.toNat_ofNat_of_lt' small]
      rw [sampleToken, topK, sampleTopK, if_pos all]
  simp only [plain]
  exact temperature_draws law found warm small numbers inside

theorem sample_top_k_draws (params : SamplingParams (WithBot K)) (law : Exponential E) (method : params.sampling = .topK)
    (warm : 0 < temperature) (tempered : params.temperature = temperature) (small : logits.length < 2 ^ 32)
    (some_ : 1 ≤ params.topK.toNat) (short : params.topK.toNat < logits.length) (half : params.topK.toNat < 2 ^ 31)
    (enough : params.topK.toNat ≤ logits.countP (fun logit => decide (⊥ < logit))) (randMax : Nat) (numbers : 0 < randMax)
    (n : Nat) (inside : n < params.topK.toNat) :
    |((drawsOf (fun draw => sampleToken (exactArith E) params draw logits) randMax
        (UInt32.ofNat ((ranking logits).getD n (⊥, 0)).2)).card : K) -
      randMax * (softmaxShares E temperature (topValues params.topK logits)).getD n 0| ≤ 1 := by
  have length := top_values_length short
  have ranked : drawsOf (fun draw => sampleToken (exactArith E) params draw logits) randMax
        (UInt32.ofNat ((ranking logits).getD n (⊥, 0)).2) =
      drawsOf (fun draw => sampleTemperature (exactArith E) draw (topValues params.topK logits) temperature) randMax
        (UInt32.ofNat n) := by
    refine filter_congr (fun number _ => ?_)
    have chosen : sampleToken (exactArith E) params (drawOf randMax number) logits =
        sampleTopK (exactArith E) (drawOf randMax number) logits params.topK temperature := by
      rw [sampleToken, method, tempered]
    beta_reduce
    rw [chosen]
    exact sample_top_k_rank small some_ short half enough _ (drawOf randMax number) ⟨rfl, rfl⟩ _ inside
  rw [ranked]
  exact temperature_draws law (top_values_found some_ enough) warm (by omega) numbers (length.symm ▸ inside)

end

noncomputable def maskedLogits : List (WithBot ℝ) := [⊥, ((0 : ℝ) : WithBot ℝ), ((1 : ℝ) : WithBot ℝ)]

noncomputable def warmParams (method : KllmSamplingMethod) (k : UInt32) : SamplingParams (WithBot ℝ) :=
  ⟨method, ((1 : ℝ) : WithBot ℝ), k, ((1 : ℝ) : WithBot ℝ)⟩

def randMax : Nat := 2147483647

theorem sample_token_draws_masked :
    (∃ logit ∈ maskedLogits, ⊥ < logit) ∧
      |((drawsOf (fun draw => sampleToken (exactArith Real.exp) (warmParams .topP 0) draw maskedLogits) randMax
          (UInt32.ofNat 0)).card : ℝ) - randMax * (softmaxShares Real.exp 1 maskedLogits).getD 0 0| ≤ 1 := by
  have found : ∃ logit ∈ maskedLogits, ⊥ < logit := ⟨((1 : ℝ) : WithBot ℝ), by simp [maskedLogits], WithBot.bot_lt_coe 1⟩
  exact ⟨found, sample_token_draws (warmParams .topP 0) real_exponential (.inr (.inl rfl)) one_pos rfl found
    (by simp [maskedLogits]) randMax (by decide) 0 (by simp [maskedLogits])⟩

theorem sample_top_k_draws_masked :
    1 ≤ maskedLogits.countP (fun logit => decide (⊥ < logit)) ∧
      |((drawsOf (fun draw => sampleToken (exactArith Real.exp) (warmParams .topK 1) draw maskedLogits) randMax
          (UInt32.ofNat ((ranking maskedLogits).getD 0 (⊥, 0)).2)).card : ℝ) -
        randMax * (softmaxShares Real.exp 1 (topValues 1 maskedLogits)).getD 0 0| ≤ 1 := by
  have enough : 1 ≤ maskedLogits.countP (fun logit => decide (⊥ < logit)) := by simp [maskedLogits]
  exact ⟨enough, sample_top_k_draws (warmParams .topK 1) real_exponential rfl one_pos rfl (by simp [maskedLogits]) (by decide)
    (by simp [maskedLogits, warmParams]) (by decide) enough randMax (by decide) 0 (by decide)⟩

end Kllm.Decode
