import Mathlib
import Kllm.Decode.DecodeLoop

set_option autoImplicit false

namespace Kllm.Decode

-- The float operations of the samplers, left open: any rounding will do.
structure SampleArith (F : Type) where
  zero : F
  add : F → F → F
  sub : F → F → F
  div : F → F → F
  exp : F → F
  le : F → F → Bool

-- rand() over RAND_MAX, and which of the mallocs succeed.
structure SampleDraw (F : Type) where
  random : F
  probsFound : Bool
  topValsFound : Bool
  topIdxsFound : Bool

-- other is a value outside the enumeration.
inductive KllmSamplingMethod where
  | greedy
  | topK
  | topP
  | temperature
  | other
  deriving DecidableEq, Repr

structure SamplingParams (F : Type) where
  sampling : KllmSamplingMethod
  temperature : F
  topK : UInt32
  topP : F

section
variable {F : Type}

def pickFrom (arith : SampleArith F) (r : F) : List F → Nat → F → Option Nat
  | [], _, _ => none
  | prob :: rest, i, cumsum =>
      if arith.le r (arith.add cumsum prob) then some i else pickFrom arith r rest (i + 1) (arith.add cumsum prob)

variable [LT F] [DecidableLT F] [Bot F]

def temperedProbs (arith : SampleArith F) (logits : List F) (temperature : F) : List F :=
  let maxLogit := logits.foldl (fun top logit => if logit > top then logit else top) ⊥
  let exps := logits.map (fun logit => arith.exp (arith.div (arith.sub logit maxLogit) temperature))
  let sum := exps.foldl arith.add arith.zero
  exps.map (fun prob => arith.div prob sum)

-- vocab_size is the number of logits.
def sampleTemperature (arith : SampleArith F) (draw : SampleDraw F) (logits : List F) (temperature : F) : UInt32 :=
  if arith.le temperature arith.zero then sampleGreedy logits
  else if draw.probsFound = false then sampleGreedy logits
  else
    match pickFrom arith draw.random (temperedProbs arith logits temperature) 0 arith.zero with
    | some i => UInt32.ofNat i
    | none => UInt32.ofNat logits.length - 1

def swapUp (top : List (F × UInt32)) (j : Nat) : List (F × UInt32) :=
  let upper := top.getD j (⊥, 0)
  let lower := top.getD (j + 1) (⊥, 0)
  if lower.1 > upper.1 then (top.set j lower).set (j + 1) upper else top

-- The passes of the loop with j from count - 1 down to 0.
def bubbleUp : Nat → List (F × UInt32) → List (F × UInt32)
  | 0, top => top
  | j + 1, top => bubbleUp j (swapUp top j)

-- int j = k - 2 is negative for k = 1, and again for k above 2^31 + 1.
def bubblePasses (k : UInt32) : Nat := if (k - 2).toNat < 2 ^ 31 then (k - 2).toNat + 1 else 0

def insertTop (k : UInt32) (top : List (F × UInt32)) (entry : F × Nat) : List (F × UInt32) :=
  if entry.1 > (top.getD (k.toNat - 1) (⊥, 0)).1 then
    bubbleUp (bubblePasses k) (top.set (k.toNat - 1) (entry.1, UInt32.ofNat entry.2))
  else top

def selectTop (k : UInt32) (logits : List F) : List (F × UInt32) :=
  logits.zipIdx.foldl (insertTop k) (List.replicate k.toNat (⊥, 0))

def sampleTopK (arith : SampleArith F) (draw : SampleDraw F) (logits : List F) (k : UInt32) (temperature : F) : UInt32 :=
  if k = 0 ∨ UInt32.ofNat logits.length ≤ k then sampleTemperature arith draw logits temperature
  else if draw.topValsFound = false ∨ draw.topIdxsFound = false then sampleGreedy logits
  else
    let top := selectTop k logits
    let result := sampleTemperature arith draw (top.map (fun entry => entry.1)) temperature
    (top.getD (if result < k then result.toNat else 0) (⊥, 0)).2

-- p is not used.
def sampleTopP (arith : SampleArith F) (draw : SampleDraw F) (logits : List F) (_p temperature : F) : UInt32 :=
  sampleTemperature arith draw logits temperature

def sampleToken (arith : SampleArith F) (params : SamplingParams F) (draw : SampleDraw F) (logits : List F) : UInt32 :=
  match params.sampling with
  | .greedy => sampleGreedy logits
  | .temperature => sampleTemperature arith draw logits params.temperature
  | .topK => sampleTopK arith draw logits params.topK params.temperature
  | .topP => sampleTopP arith draw logits params.topP params.temperature
  | .other => sampleGreedy logits

omit [Bot F] in
theorem argmax_from_bound (n : Nat) (logits : List F) (i : Nat) (top : F) (best : Nat) (inside : best < n)
    (room : i + logits.length ≤ n) : argmaxFrom logits i top best < n := by
  induction logits generalizing i top best with
  | nil => exact inside
  | cons logit rest ih =>
      rw [List.length_cons] at room
      rw [argmaxFrom]
      split
      · exact ih (i + 1) logit i (by omega) (by omega)
      · exact ih (i + 1) top best inside (by omega)

omit [LT F] [DecidableLT F] [Bot F] in
theorem pick_from_bound (arith : SampleArith F) (r : F) (probs : List F) (i : Nat) (cumsum : F) (picked : Nat)
    (found : pickFrom arith r probs i cumsum = some picked) : picked < i + probs.length := by
  induction probs generalizing i cumsum with
  | nil => cases found
  | cons prob rest ih =>
      rw [pickFrom] at found
      rw [List.length_cons]
      split at found
      · cases found
        omega
      · have later := ih (i + 1) _ found
        omega

section
variable {logits : List F} (some_ : 0 < logits.length) (small : logits.length < 2 ^ 32)
include some_ small

theorem sample_greedy_bound : (sampleGreedy logits).toNat < logits.length := by
  have bound := argmax_from_bound logits.length logits 0 ⊥ 0 some_ (by omega)
  rw [sampleGreedy, UInt32.toNat_ofNat_of_lt' (by rw [UInt32.size]; omega)]
  exact bound

theorem sample_temperature_bound (arith : SampleArith F) (draw : SampleDraw F) (temperature : F) :
    (sampleTemperature arith draw logits temperature).toNat < logits.length := by
  rw [sampleTemperature]
  split
  · exact sample_greedy_bound some_ small
  · split
    · exact sample_greedy_bound some_ small
    · split
      · rename_i picked found
        have bound := pick_from_bound arith _ _ 0 _ picked found
        simp only [temperedProbs, List.length_map, Nat.zero_add] at bound
        rw [UInt32.toNat_ofNat_of_lt' (by rw [UInt32.size]; omega)]
        exact bound
      · have length : (UInt32.ofNat logits.length).toNat = logits.length := UInt32.toNat_ofNat_of_lt' small
        have one : (1 : UInt32).toNat = 1 := rfl
        rw [UInt32.toNat_sub_of_le _ _ (by rw [UInt32.le_iff_toNat_le, length, one]; exact some_), length, one]
        omega

end

def IndicesBelow (n : Nat) (top : List (F × UInt32)) : Prop := ∀ entry ∈ top, entry.2.toNat < n

omit [LT F] [DecidableLT F] in
theorem indices_below_get {n : Nat} {top : List (F × UInt32)} (below : IndicesBelow n top) (some_ : 0 < n) (j : Nat) :
    (top.getD j (⊥, 0)).2.toNat < n := by
  cases found : top[j]? with
  | none => rw [List.getD, found]; exact some_
  | some entry => rw [List.getD, found]; exact below entry (List.mem_of_getElem? found)

omit [LT F] [DecidableLT F] [Bot F] in
theorem indices_below_set {n : Nat} {top : List (F × UInt32)} (below : IndicesBelow n top) (j : Nat) (entry : F × UInt32)
    (inside : entry.2.toNat < n) : IndicesBelow n (top.set j entry) := by
  intro other member
  cases List.mem_or_eq_of_mem_set member with
  | inl kept => exact below other kept
  | inr new => exact new ▸ inside

theorem bubble_up_below {n : Nat} (some_ : 0 < n) (passes : Nat) {top : List (F × UInt32)} (below : IndicesBelow n top) :
    IndicesBelow n (bubbleUp passes top) := by
  induction passes generalizing top with
  | zero => exact below
  | succ j ih =>
      apply ih
      rw [swapUp]
      split
      · exact indices_below_set (indices_below_set below j _ (indices_below_get below some_ (j + 1))) (j + 1) _
          (indices_below_get below some_ j)
      · exact below

theorem insert_top_below {n : Nat} (small : n < 2 ^ 32) (k : UInt32) {top : List (F × UInt32)} (below : IndicesBelow n top)
    (entry : F × Nat) (inside : entry.2 < n) : IndicesBelow n (insertTop k top entry) := by
  rw [insertTop]
  split
  · apply bubble_up_below (Nat.zero_lt_of_lt inside)
    refine indices_below_set below _ _ ?_
    rw [UInt32.toNat_ofNat_of_lt' (by rw [UInt32.size]; omega)]
    exact inside
  · exact below

theorem fold_insert_below {n : Nat} (small : n < 2 ^ 32) (k : UInt32) (entries : List (F × Nat))
    (inside : ∀ entry ∈ entries, entry.2 < n) {top : List (F × UInt32)} (below : IndicesBelow n top) :
    IndicesBelow n (entries.foldl (insertTop k) top) := by
  induction entries generalizing top with
  | nil => exact below
  | cons entry rest ih =>
      have first := insert_top_below small k below entry (inside entry List.mem_cons_self)
      exact ih (fun other member => inside other (List.mem_cons_of_mem entry member)) first

theorem select_top_below {logits : List F} (some_ : 0 < logits.length) (small : logits.length < 2 ^ 32) (k : UInt32) :
    IndicesBelow logits.length (selectTop k logits) := by
  refine fold_insert_below small k logits.zipIdx ?_ ?_
  · intro entry member
    exact (List.getElem?_eq_some_iff.mp (List.mem_zipIdx_iff_getElem?.mp member)).1
  · intro entry member
    rw [(List.mem_replicate.mp member).2]
    exact some_

theorem sample_token_bound (arith : SampleArith F) (params : SamplingParams F) (draw : SampleDraw F) {logits : List F}
    (some_ : 0 < logits.length) (small : logits.length < 2 ^ 32) :
    (sampleToken arith params draw logits).toNat < logits.length := by
  have greedy := sample_greedy_bound some_ small
  have tempered := sample_temperature_bound some_ small arith draw params.temperature
  rw [sampleToken]
  cases params.sampling with
  | greedy => exact greedy
  | temperature => exact tempered
  | topP => exact tempered
  | other => exact greedy
  | topK =>
      simp only [sampleTopK]
      split
      · exact tempered
      · split
        · exact greedy
        · exact indices_below_get (select_top_below some_ small params.topK) some_ _

end

end Kllm.Decode
