import Mathlib
import Kllm.Lib.BinaryFloat
import Kllm.Lib.WordLoop
import Kllm.Compute.AceAttention
import Kllm.Compute.Bf16Rounding
import Kllm.Compute.MxQuant

set_option autoImplicit false

namespace Kllm.Compute

open BinaryFloat

def F32Nan (bits : UInt32) : Prop := bits.toNat / 2 ^ 23 % 2 ^ 8 = 255 ∧ bits.toNat % 2 ^ 23 ≠ 0

def Bf16Nan (x : UInt16) : Prop := x.toNat / 2 ^ 7 % 2 ^ 8 = 255 ∧ x.toNat % 2 ^ 7 ≠ 0

instance (bits : UInt32) : Decidable (F32Nan bits) := inferInstanceAs (Decidable (_ ∧ _))

instance (x : UInt16) : Decidable (Bf16Nan x) := inferInstanceAs (Decidable (_ ∧ _))

theorem bf16_nan_iff (x : UInt16) : Bf16Nan x ↔ ¬ Bf16Number x := by
  have bound := x.toNat_lt
  rw [Bf16Nan, Bf16Number]
  omega

theorem f32_nan_rest {bits : UInt32} (nan : F32Nan bits) :
    bits.toNat % 2 ^ 31 = 0x7f800000 + bits.toNat % 2 ^ 23 ∧ 0 < bits.toNat % 2 ^ 23 := by
  have bound := bits.toNat_lt
  obtain ⟨exponent, fraction⟩ := nan
  omega

/-- What becomes of a NaN. The half that is added may be lost below the fraction that is
kept, or carry out of it, through the exponent and into the sign. -/
inductive NanFate (bits : UInt32) (x : UInt16) : Prop where
  | infinity (low : bits.toNat % 2 ^ 23 ≤ 0x8000) (infinite : Bf16Infinite x)
      (sign : x.toNat / 2 ^ 15 = bits.toNat / 2 ^ 31)
  | kept (low : 0x8000 < bits.toNat % 2 ^ 23) (high : bits.toNat % 2 ^ 23 < 0x7f8000) (nan : Bf16Nan x)
      (sign : x.toNat / 2 ^ 15 = bits.toNat / 2 ^ 31)
  | zero (high : 0x7f8000 ≤ bits.toNat % 2 ^ 23) (value : x.toNat % 2 ^ 15 = 0)
      (sign : x.toNat / 2 ^ 15 = 1 - bits.toNat / 2 ^ 31)

theorem f32_to_bf16_nan_fate {bits : UInt32} (nan : F32Nan bits) : NanFate bits (f32ToBf16 bits) := by
  have bound := bits.toNat_lt
  obtain ⟨rest, some_⟩ := f32_nan_rest nan
  have pattern := f32_to_bf16_split bits
  have least := rounded_le_iff 0x7f7f (bits.toNat % 2 ^ 31)
  have infinite := rounded_le_iff 0x7f80 (bits.toNat % 2 ^ 31)
  have within := rounded_le_iff 0x7fff (bits.toNat % 2 ^ 31)
  have most := rounded_le_iff 0x8000 (bits.toNat % 2 ^ 31)
  have fraction : bits.toNat % 2 ^ 23 < 2 ^ 23 := Nat.mod_lt _ (by decide)
  rw [rest] at pattern least infinite within most
  by_cases low : bits.toNat % 2 ^ 23 ≤ 0x8000
  · refine .infinity low ?_ ?_
    · rw [Bf16Infinite]
      omega
    · omega
  · by_cases high : bits.toNat % 2 ^ 23 < 0x7f8000
    · refine .kept (by omega) high ?_ ?_
      · rw [bf16_nan_iff, Bf16Number]
        omega
      · omega
    · refine .zero (by omega) ?_ ?_
      · omega
      · omega

theorem nan_fate_kept_iff {bits : UInt32} {x : UInt16} (fate : NanFate bits x) :
    Bf16Nan x ↔ 0x8000 < bits.toNat % 2 ^ 23 ∧ bits.toNat % 2 ^ 23 < 0x7f8000 := by
  rw [bf16_nan_iff, Bf16Number]
  cases fate with
  | infinity low infinite _ =>
      rw [Bf16Infinite] at infinite
      omega
  | kept low high nan _ =>
      rw [bf16_nan_iff, Bf16Number] at nan
      exact iff_of_true nan ⟨low, high⟩
  | zero high value _ => omega

theorem nan_kept_iff (bits : UInt32) (nan : F32Nan bits) :
    Bf16Nan (f32ToBf16 bits) ↔ 0x8000 < bits.toNat % 2 ^ 23 ∧ bits.toNat % 2 ^ 23 < 0x7f8000 :=
  nan_fate_kept_iff (f32_to_bf16_nan_fate nan)

theorem nan_kept_iff_default : F32Nan 0xffc00000 ∧ Bf16Nan (f32ToBf16 0xffc00000) := by
  have nan : F32Nan 0xffc00000 := by decide
  exact ⟨nan, (nan_kept_iff 0xffc00000 nan).mpr (by decide)⟩

theorem nan_kept_iff_not_ends :
    F32Nan 0x7f800001 ∧ f32ToBf16 0x7f800001 = 0x7f80 ∧ ¬ Bf16Nan 0x7f80 ∧
      F32Nan 0x7fffffff ∧ f32ToBf16 0x7fffffff = 0x8000 ∧ ¬ Bf16Nan 0x8000 ∧
      F32Nan 0xffffffff ∧ f32ToBf16 0xffffffff = 0x0000 ∧ ¬ Bf16Nan 0x0000 := by
  decide

def TailClear (bits : UInt32) : Prop := F32Nan bits → bits.toNat % 2 ^ 16 = 0

theorem number_tail_clear {bits : UInt32} (number : ¬ F32Nan bits) : TailClear bits := fun nan => absurd nan number

theorem widened_tail_clear (x : UInt16) : TailClear (bf16ToF32 x) := by
  intro _
  rw [bf16_to_f32_toNat]
  exact Nat.mul_mod_left _ _

theorem tail_clear_kept {bits : UInt32} (clear : TailClear bits) (nan : F32Nan bits) : Bf16Nan (f32ToBf16 bits) := by
  have tail := clear nan
  obtain ⟨_, some_⟩ := f32_nan_rest nan
  have fraction : bits.toNat % 2 ^ 23 < 2 ^ 23 := Nat.mod_lt _ (by decide)
  rw [nan_fate_kept_iff (f32_to_bf16_nan_fate nan)]
  omega

-- An arithmetic whose NaNs have their payloads from its operands.
structure CarriesTails (arith : FloatArith) : Prop where
  add : ∀ x y, TailClear x → TailClear y → TailClear (arith.add x y)
  sub : ∀ x y, TailClear x → TailClear y → TailClear (arith.sub x y)
  mul : ∀ x y, TailClear x → TailClear y → TailClear (arith.mul x y)
  div : ∀ x y, TailClear x → TailClear y → TailClear (arith.div x y)
  exp : ∀ x, TailClear x → TailClear (arith.exp x)

section
variable (arith : FloatArith) (p : KllmAttentionParams)

def weightedSum (v : Nat → UInt16) (weights : List UInt32) (h d : Nat) : UInt32 :=
  (List.range p.seqLen.toNat).foldl (fun acc si =>
    arith.add acc (arith.mul (weights.getD si 0) (bf16ToF32 (v (rowOffset p si h + d))))) 0

def attendedSum (q k v : Nat → UInt16) (h qi d : Nat) : UInt32 :=
  weightedSum arith p v (softmax arith ((List.range p.seqLen.toNat).map (rowScore arith p q k h qi))) h d

def AttendedCell (q k v output : Nat → UInt16) (offset : Nat) (out : Nat → UInt16) : Prop :=
  out offset = output offset ∨
    ∃ h qi d, offset = rowOffset p qi h + d ∧ out offset = f32ToBf16 (attendedSum arith p q k v h qi d)

theorem attended_cell_update {q k v output : Nat → UInt16} {offset : Nat} {out : Nat → UInt16}
    (before : AttendedCell arith p q k v output offset out) (h qi d : Nat) :
    AttendedCell arith p q k v output offset
      (Function.update out (rowOffset p qi h + d) (f32ToBf16 (attendedSum arith p q k v h qi d))) := by
  by_cases here : offset = rowOffset p qi h + d
  · refine .inr ⟨h, qi, d, here, ?_⟩
    rw [here, Function.update_self]
  · rw [AttendedCell, Function.update_of_ne here]
    exact before

theorem attention_scalar_cell (q k v output : Nat → UInt16) (offset : Nat) :
    AttendedCell arith p q k v output offset (attentionScalar arith p q k v output) := by
  refine List.foldlRecOn _ _ (motive := AttendedCell arith p q k v output offset) (.inl rfl) ?_
  intro out before h _
  refine List.foldlRecOn _ _ (motive := AttendedCell arith p q k v output offset) before ?_
  intro out before qi _
  refine List.foldlRecOn _ _ (motive := AttendedCell arith p q k v output offset) before ?_
  intro out before d _
  exact attended_cell_update arith p before h qi d

end

section
variable {arith : FloatArith} (laws : CarriesTails arith) {p : KllmAttentionParams} (scale : TailClear p.scale)
include laws

include scale in
theorem row_score_tail_clear (q k : Nat → UInt16) (h qi si : Nat) : TailClear (rowScore arith p q k h qi si) := by
  apply laws.mul _ _ _ scale
  refine List.foldlRecOn _ _ (motive := TailClear) (number_tail_clear (by decide)) ?_
  intro dot clear d _
  exact laws.add _ _ clear (laws.mul _ _ (widened_tail_clear _) (widened_tail_clear _))

theorem softmax_tail_clear {scores : List UInt32} (clear : ∀ score ∈ scores, TailClear score) :
    ∀ weight ∈ softmax arith scores, TailClear weight := by
  have top : TailClear (scores.foldl (fun top score => if arith.greater score top then score else top) negInfinity) := by
    refine List.foldlRecOn _ _ (motive := TailClear) (number_tail_clear (by decide)) ?_
    intro top kept score member
    split
    · exact clear score member
    · exact kept
  have powers : ∀ power ∈ scores.map (fun score => arith.exp (arith.sub score
      (scores.foldl (fun top score => if arith.greater score top then score else top) negInfinity))), TailClear power := by
    intro power inside
    obtain ⟨score, member, rfl⟩ := List.mem_map.mp inside
    exact laws.exp _ (laws.sub _ _ (clear score member) top)
  intro weight member
  obtain ⟨power, inside, rfl⟩ := List.mem_map.mp member
  apply laws.div _ _ (powers power inside)
  refine List.foldlRecOn _ _ (motive := TailClear) (number_tail_clear (by decide)) ?_
  intro sum kept power inside
  exact laws.add _ _ kept (powers power inside)

theorem weighted_sum_tail_clear {weights : List UInt32} (clear : ∀ weight ∈ weights, TailClear weight) (v : Nat → UInt16)
    (h d : Nat) : TailClear (weightedSum arith p v weights h d) := by
  have none_ : TailClear 0 := number_tail_clear (by decide)
  refine List.foldlRecOn _ _ (motive := TailClear) none_ ?_
  intro acc kept si _
  refine laws.add _ _ kept (laws.mul _ _ ?_ (widened_tail_clear _))
  rw [List.getD_eq_getElem?_getD]
  cases found : weights[si]? with
  | none => exact none_
  | some weight => exact clear weight (List.mem_of_getElem? found)

include scale

theorem attended_sum_tail_clear (q k v : Nat → UInt16) (h qi d : Nat) : TailClear (attendedSum arith p q k v h qi d) := by
  apply weighted_sum_tail_clear laws
  apply softmax_tail_clear laws
  intro score member
  obtain ⟨si, _, rfl⟩ := List.mem_map.mp member
  exact row_score_tail_clear laws scale q k h qi si

theorem attention_keeps_nans (q k v output : Nat → UInt16) (offset : Nat) :
    attentionScalar arith p q k v output offset = output offset ∨ ∃ h qi d, offset = rowOffset p qi h + d ∧
      attentionScalar arith p q k v output offset = f32ToBf16 (attendedSum arith p q k v h qi d) ∧
      (F32Nan (attendedSum arith p q k v h qi d) → Bf16Nan (attentionScalar arith p q k v output offset)) := by
  cases attention_scalar_cell arith p q k v output offset with
  | inl unchanged => exact .inl unchanged
  | inr written =>
      obtain ⟨h, qi, d, place, value⟩ := written
      refine .inr ⟨h, qi, d, place, value, ?_⟩
      rw [value]
      exact tail_clear_kept (attended_sum_tail_clear laws scale q k v h qi d)

end

-- The rule of SSE: a NaN operand is returned with its quiet bit set, the first
-- one of two, and an operation without one gives the default NaN.
def quiet (bits : UInt32) : UInt32 := if bits.toNat / 2 ^ 22 % 2 = 0 then bits + 0x400000 else bits

def quieted (op : UInt32 → UInt32 → UInt32) (x y : UInt32) : UInt32 :=
  if F32Nan x then quiet x
  else if F32Nan y then quiet y
  else if F32Nan (op x y) then 0xffc00000
  else op x y

def quieting (base : FloatArith) : FloatArith where
  add := quieted base.add
  sub := quieted base.sub
  mul := quieted base.mul
  div := quieted base.div
  exp := fun x => quieted (fun x _ => base.exp x) x x
  greater := base.greater

theorem quiet_toNat (bits : UInt32) : (quiet bits).toNat = bits.toNat / 2 ^ 23 * 2 ^ 23 + (2 ^ 22 + bits.toNat % 2 ^ 22) := by
  have bound := bits.toNat_lt
  have bit : (0x400000 : UInt32).toNat = 2 ^ 22 := rfl
  rw [quiet]
  split
  · rw [UInt32.toNat_add, bit]
    omega
  · omega

theorem quiet_tail_clear {bits : UInt32} (clear : TailClear bits) (nan : F32Nan bits) : TailClear (quiet bits) := by
  have tail := clear nan
  intro _
  rw [quiet_toNat]
  omega

theorem quieted_tail_clear (op : UInt32 → UInt32 → UInt32) (x y : UInt32) (first : TailClear x) (second : TailClear y) :
    TailClear (quieted op x y) := by
  rw [quieted]
  split
  · rename_i nan
    exact quiet_tail_clear first nan
  · split
    · rename_i nan
      exact quiet_tail_clear second nan
    · split
      · exact fun _ => rfl
      · rename_i number
        exact number_tail_clear number

theorem quieting_carries_tails (base : FloatArith) : CarriesTails (quieting base) where
  add := quieted_tail_clear base.add
  sub := quieted_tail_clear base.sub
  mul := quieted_tail_clear base.mul
  div := quieted_tail_clear base.div
  exp := fun x clear => quieted_tail_clear _ x x clear clear

-- mx_quant_to_bf16 on the patterns of its floats, with 448.0f and 1.0f; the unary
-- minus changes the sign bit.
def patternBlockMax (arith : FloatArith) (input : Nat → UInt32) (cells : List Nat) : UInt32 :=
  cells.foldl (fun amax i =>
    let av := if arith.greater 0 (input i) then input i ^^^ 0x80000000 else input i
    if arith.greater av amax then av else amax) 0

def patternInvScale (arith : FloatArith) (amax : UInt32) : UInt32 :=
  let scale := if arith.greater amax 0 then arith.div amax 0x43e00000 else 0x3f800000
  arith.div 0x3f800000 scale

def patternQuantBlock (arith : FloatArith) (input : Nat → UInt32) (count : UInt32) (stored : MxStored) (blk : UInt32) :
    MxStored :=
  let cells := blockCells blk count
  let amax := patternBlockMax arith input cells
  let invScale := patternInvScale arith amax
  { scales := Function.update stored.scales (blk / mxBlockSize).toNat (if arith.greater amax 0 then 64 else 0)
    data := cells.foldl (fun data i => Function.update data i (f32ToBf16 (arith.mul (input i) invScale))) stored.data }

def patternQuantToBf16 (arith : FloatArith) (fuel : Nat) (input : Nat → UInt32) (stored : MxStored) (count : UInt32) :
    Option MxStored :=
  (WordLoop.run (fun blk => decide (blk < count)) mxBlockSize (patternQuantBlock arith input count) fuel 0 stored).map
    (fun done => done.1)

def scaledElement (arith : FloatArith) (input : Nat → UInt32) (count : UInt32) (i : Nat) : UInt32 :=
  arith.mul (input i)
    (patternInvScale arith (patternBlockMax arith input (blockCells (WordLoop.counter mxBlockSize 0 (i / 8)) count)))

section
variable (arith : FloatArith) {count : UInt32} (ends : count.toNat ≤ 2 ^ 32 - 8) (input : Nat → UInt32) (stored : MxStored)
include ends

theorem pattern_quant_returns : ∃ done,
    patternQuantToBf16 arith ((count.toNat + 7) / 8 + 1) input stored count = some done ∧
      ∀ i < count.toNat, done.data i = f32ToBf16 (scaledElement arith input count i) := by
  obtain ⟨blk, returned⟩ := block_loop_returns ends (patternQuantBlock arith input count) stored
  refine ⟨_, by rw [patternQuantToBf16, returned]; rfl, ?_⟩
  intro i inside
  exact (store_blocks ends
    (fun blk => if arith.greater (patternBlockMax arith input (blockCells blk count)) 0 then 64 else 0)
    (fun blk i => f32ToBf16 (arith.mul (input i)
      (patternInvScale arith (patternBlockMax arith input (blockCells blk count)))))
    stored _ (fun k less => by omega) inside (by omega)).1

-- With SSE a signalling NaN is quiet before it is rounded; one with the seven
-- highest of the other payload bits set is still stored as a zero.
theorem quant_keeps_nan_iff : ∃ done,
    patternQuantToBf16 (quieting arith) ((count.toNat + 7) / 8 + 1) input stored count = some done ∧
      ∀ i < count.toNat, F32Nan (input i) → (Bf16Nan (done.data i) ↔ (input i).toNat % 2 ^ 22 < 0x3f8000) := by
  obtain ⟨done, returned, cells⟩ := pattern_quant_returns (quieting arith) ends input stored
  refine ⟨done, returned, ?_⟩
  intro i inside nan
  have scaled : scaledElement (quieting arith) input count i = quiet (input i) := if_pos nan
  have pattern := quiet_toNat (input i)
  have still : F32Nan (quiet (input i)) := by
    have bound := (input i).toNat_lt
    have exponent := nan.1
    rw [F32Nan]
    omega
  rw [cells i inside, scaled, nan_fate_kept_iff (f32_to_bf16_nan_fate still)]
  omega

end

end Kllm.Compute
