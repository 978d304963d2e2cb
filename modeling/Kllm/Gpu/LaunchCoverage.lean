import Mathlib
import Kllm.Lib.Warp
import Kllm.Gpu.PagedAttention
import Kllm.Gpu.AttentionRefines

set_option autoImplicit false

namespace Kllm.Gpu

open Warp

inductive GpuBackend where
  | cuda
  | hip
  | xe
  deriving DecidableEq, Repr

-- WARP_SIZE of the two kernels, SUBGROUP_SIZE of the third: the stride of the
-- loops over dimensions.
def laneStride : GpuBackend → Nat
  | .cuda => 32
  | .hip => 64
  | .xe => 16

-- The items of a group: dim3 block(WARP_SIZE), and range<2> local(1, 1).
def localSize : GpuBackend → Nat
  | .cuda => 32
  | .hip => 64
  | .xe => 1 * 1

-- The lanes that run and are reduced together: a warp or wavefront, or a
-- sub-group, which does not reach beyond its work-group.
def laneCount (backend : GpuBackend) : Nat := min (laneStride backend) (localSize backend)

structure LaunchArgs where
  numSeqs : Nat
  numHeads : Nat
  headDim : Nat
  deriving DecidableEq, Repr

section
variable (backend : GpuBackend) (args : LaunchArgs)

-- dim3 grid(num_seqs, num_heads); for Xe the global range with groups of one.
def launchGroups : List (Nat × Nat) := List.product (List.range args.numSeqs) (List.range args.numHeads)

-- The dimensions that the lanes of a group take, lane by lane. One q.k dot
-- product sums these, and the output loop writes them.
def groupDims : List Nat := (List.range (laneCount backend)).flatMap (strided (laneStride backend) args.headDim)

-- (seq_idx * num_heads + head_idx) * head_dim in a 32-bit int that wraps.
def rowBase (seqIdx headIdx : Nat) : Int := Int.bmod ((seqIdx * args.numHeads + headIdx) * args.headDim : Nat) (2 ^ 32)

def groupWrites (group : Nat × Nat) : List Int :=
  if group.1 ≥ args.numSeqs then []
  else (groupDims backend args).map (fun (d : Nat) => rowBase args group.1 group.2 + d)

def launchWrites : List Int := (launchGroups args).flatMap (groupWrites backend args)

def outputElement (seqIdx headIdx d : Nat) : Int := ((seqIdx * args.numHeads + headIdx) * args.headDim + d : Nat)

structure LaunchCovers : Prop where
  writes : ∀ seqIdx < args.numSeqs, ∀ headIdx < args.numHeads, ∀ d < args.headDim,
    (launchWrites backend args).count (outputElement args seqIdx headIdx d) = 1
  sums : ∀ seqIdx < args.numSeqs, ∀ headIdx < args.numHeads, ∀ d < args.headDim, (groupDims backend args).count d = 1

end

theorem group_dims_cuda (args : LaunchArgs) : groupDims .cuda args = laneMajor 32 args.headDim := rfl

theorem group_dims_hip (args : LaunchArgs) : groupDims .hip args = laneMajor 64 args.headDim := rfl

theorem group_dims_xe (args : LaunchArgs) : groupDims .xe args = strided 16 args.headDim 0 := by
  have one : laneCount .xe = 1 := rfl
  rw [groupDims, one, List.range_one, List.flatMap_singleton]
  rfl

theorem group_dims_nodup (backend : GpuBackend) (args : LaunchArgs) : (groupDims backend args).Nodup := by
  cases backend with
  | cuda => exact nodup_lane_major 32 args.headDim
  | hip => exact nodup_lane_major 64 args.headDim
  | xe =>
      rw [group_dims_xe]
      exact nodup_strided 16 args.headDim 0 (by decide)

theorem group_dims_mem (backend : GpuBackend) (args : LaunchArgs) (d : Nat) :
    d ∈ groupDims backend args ↔ d < args.headDim ∧ (backend = .xe → d % 16 = 0) := by
  cases backend with
  | cuda => simp [group_dims_cuda, mem_lane_major]
  | hip => simp [group_dims_hip, mem_lane_major]
  | xe =>
      rw [group_dims_xe, mem_strided 16 args.headDim 0 d (by decide)]
      simp

theorem wrapped_cases (x : Nat) :
    (x < 2 ^ 31 ∧ Int.bmod x (2 ^ 32) = x) ∨ (2 ^ 31 ≤ x ∧ Int.bmod x (2 ^ 32) + 2 ^ 32 ≤ x) := by
  have literal : (x < 2147483648 ∧ Int.bmod x 4294967296 = x) ∨
      (2147483648 ≤ x ∧ Int.bmod x 4294967296 + 4294967296 ≤ x) := by
    rw [Int.bmod_def]
    push_cast
    split
    · omega
    · omega
  norm_num at literal ⊢
  exact literal

theorem row_base_cases (args : LaunchArgs) (seqIdx headIdx : Nat) :
    ((seqIdx * args.numHeads + headIdx) * args.headDim < 2 ^ 31 ∧
      rowBase args seqIdx headIdx = ((seqIdx * args.numHeads + headIdx) * args.headDim : Nat)) ∨
    (2 ^ 31 ≤ (seqIdx * args.numHeads + headIdx) * args.headDim ∧
      rowBase args seqIdx headIdx + 2 ^ 32 ≤ ((seqIdx * args.numHeads + headIdx) * args.headDim : Nat)) :=
  wrapped_cases _

theorem group_dims_sum {M : Type} [AddCommMonoid M] (backend : GpuBackend) (args : LaunchArgs) (f : Nat → M) :
    ∑ lane ∈ Finset.range (laneCount backend), laneSum (laneStride backend) args.headDim f lane =
      ((groupDims backend args).map f).sum :=
  lane_sums_list (laneStride backend) args.headDim (laneCount backend) f

section
variable {backend : GpuBackend} {args : LaunchArgs}

theorem row_number_lt {seqIdx headIdx : Nat} (seq : seqIdx < args.numSeqs) (head : headIdx < args.numHeads) :
    seqIdx * args.numHeads + headIdx < args.numSeqs * args.numHeads := by
  have more := Nat.mul_le_mul_right args.numHeads (Nat.succ_le_of_lt seq)
  rw [Nat.succ_mul] at more
  omega

theorem row_number_inj {seqIdx headIdx seqIdx' headIdx' : Nat} (head : headIdx < args.numHeads) (head' : headIdx' < args.numHeads)
    (same : seqIdx * args.numHeads + headIdx = seqIdx' * args.numHeads + headIdx') : seqIdx = seqIdx' ∧ headIdx = headIdx' := by
  have high := congrArg (· / args.numHeads) same
  have low := congrArg (· % args.numHeads) same
  simp only [Nat.mul_comm _ args.numHeads, Nat.mul_add_mod, Nat.mul_add_div (Nat.zero_lt_of_lt head), Nat.mod_eq_of_lt head,
    Nat.mod_eq_of_lt head', Nat.div_eq_of_lt head, Nat.div_eq_of_lt head', Nat.add_zero] at high low
  exact ⟨high, low⟩

theorem element_row {row row' d d' size : Nat} (inside : d < size) (inside' : d' < size)
    (same : row * size + d = row' * size + d') : row = row' := by
  have high := congrArg (· / size) same
  simpa only [Nat.mul_comm _ size, Nat.mul_add_div (Nat.zero_lt_of_lt inside), Nat.div_eq_of_lt inside, Nat.div_eq_of_lt inside',
    Nat.add_zero] using high

theorem launch_writes_mem (element : Int) :
    element ∈ launchWrites backend args ↔ ∃ seqIdx < args.numSeqs, ∃ headIdx < args.numHeads,
      ∃ d ∈ groupDims backend args, element = rowBase args seqIdx headIdx + (d : Int) := by
  rw [launchWrites, List.mem_flatMap]
  constructor
  · rintro ⟨⟨seqIdx, headIdx⟩, group, written⟩
    obtain ⟨seq, head⟩ := List.mem_product.mp group
    rw [List.mem_range] at seq head
    rw [groupWrites, if_neg (Nat.not_le.mpr seq)] at written
    obtain ⟨d, dim, same⟩ := List.mem_map.mp written
    exact ⟨seqIdx, seq, headIdx, head, d, dim, same.symm⟩
  · rintro ⟨seqIdx, seq, headIdx, head, d, dim, same⟩
    refine ⟨(seqIdx, headIdx), List.mem_product.mpr ⟨List.mem_range.mpr seq, List.mem_range.mpr head⟩, ?_⟩
    rw [groupWrites, if_neg (Nat.not_le.mpr seq)]
    exact List.mem_map.mpr ⟨d, dim, same.symm⟩

theorem group_writes_head_base {F : Type} (kernel : KernelArgs F) (alike : args = ⟨kernel.numSeqs, kernel.numHeads, kernel.headDim⟩)
    {seqIdx headIdx : Nat} (seq : seqIdx < args.numSeqs) :
    groupWrites backend args (seqIdx, headIdx) =
      (groupDims backend args).map (fun (d : Nat) => headBase kernel seqIdx headIdx + d) := by
  rw [groupWrites, if_neg (Nat.not_le.mpr seq), alike]
  rfl

section
variable (fits : (args.numSeqs * args.numHeads - 1) * args.headDim < 2 ^ 31)
include fits

theorem row_base_fits {seqIdx headIdx : Nat} (seq : seqIdx < args.numSeqs) (head : headIdx < args.numHeads) :
    rowBase args seqIdx headIdx = ((seqIdx * args.numHeads + headIdx) * args.headDim : Nat) := by
  have row := row_number_lt seq head
  have last : (seqIdx * args.numHeads + headIdx) * args.headDim ≤ (args.numSeqs * args.numHeads - 1) * args.headDim :=
    Nat.mul_le_mul_right _ (by omega)
  rcases row_base_cases args seqIdx headIdx with exact_ | wrapped
  · exact exact_.2
  · omega

theorem launch_writes_nodup : (launchWrites backend args).Nodup := by
  rw [launchWrites, List.nodup_flatMap]
  constructor
  · rintro ⟨seqIdx, headIdx⟩ _
    rw [groupWrites]
    split
    · exact List.nodup_nil
    · exact (group_dims_nodup backend args).map (fun d d' same => by simpa using same)
  · have groups : (launchGroups args).Nodup := List.Nodup.product List.nodup_range List.nodup_range
    refine groups.pairwise_of_forall_ne ?_
    rintro ⟨seqIdx, headIdx⟩ group ⟨seqIdx', headIdx'⟩ group' different element written written'
    obtain ⟨seq, head⟩ := List.mem_product.mp group
    obtain ⟨seq', head'⟩ := List.mem_product.mp group'
    rw [List.mem_range] at seq head seq' head'
    rw [groupWrites, if_neg (Nat.not_le.mpr seq), row_base_fits fits seq head] at written
    rw [groupWrites, if_neg (Nat.not_le.mpr seq'), row_base_fits fits seq' head'] at written'
    obtain ⟨d, dim, first⟩ := List.mem_map.mp written
    obtain ⟨d', dim', second⟩ := List.mem_map.mp written'
    have inside := ((group_dims_mem backend args d).mp dim).1
    have inside' := ((group_dims_mem backend args d').mp dim').1
    have same : (seqIdx * args.numHeads + headIdx) * args.headDim + d =
        (seqIdx' * args.numHeads + headIdx') * args.headDim + d' := by
      have equal := first.trans second.symm
      omega
    obtain ⟨sameSeq, sameHead⟩ := row_number_inj head head' (element_row inside inside' same)
    exact different (Prod.ext sameSeq sameHead)

end

theorem launch_covers (fits : (args.numSeqs * args.numHeads - 1) * args.headDim < 2 ^ 31)
    (strided_ : backend = .xe → args.headDim ≤ 1) : LaunchCovers backend args := by
  have taken : ∀ d < args.headDim, d ∈ groupDims backend args := by
    intro d inside
    refine (group_dims_mem backend args d).mpr ⟨inside, ?_⟩
    intro xe
    have single := strided_ xe
    omega
  constructor
  · intro seqIdx seq headIdx head d inside
    apply List.count_eq_one_of_mem (launch_writes_nodup fits)
    refine (launch_writes_mem _).mpr ⟨seqIdx, seq, headIdx, head, d, taken d inside, ?_⟩
    rw [row_base_fits fits seq head, outputElement, Nat.cast_add]
  · intro _ _ _ _ d inside
    exact List.count_eq_one_of_mem (group_dims_nodup backend args) (taken d inside)

theorem launch_last_row (small : args.headDim ≤ headDimMax) (covers : LaunchCovers backend args) (seqs : args.numSeqs ≠ 0)
    (heads : args.numHeads ≠ 0) (dims : args.headDim ≠ 0) : (args.numSeqs * args.numHeads - 1) * args.headDim < 2 ^ 31 := by
  by_contra past
  have row : (args.numSeqs - 1) * args.numHeads + (args.numHeads - 1) = args.numSeqs * args.numHeads - 1 := by
    rw [Nat.sub_mul, Nat.one_mul]
    have more := Nat.mul_le_mul_right args.numHeads (Nat.one_le_iff_ne_zero.mpr seqs)
    omega
  have once := covers.writes (args.numSeqs - 1) (by omega) (args.numHeads - 1) (by omega) 0 (by omega)
  have written := List.count_pos_iff.mp (by rw [once]; exact Nat.one_pos)
  obtain ⟨seqIdx, seq, headIdx, head, d, dim, same⟩ := (launch_writes_mem _).mp written
  have inside := ((group_dims_mem backend args d).mp dim).1
  have number := row_number_lt seq head
  have below : (seqIdx * args.numHeads + headIdx) * args.headDim ≤ (args.numSeqs * args.numHeads - 1) * args.headDim :=
    Nat.mul_le_mul_right _ (by omega)
  rw [outputElement, row, Nat.add_zero] at same
  rw [headDimMax] at small
  rcases row_base_cases args seqIdx headIdx with ⟨low, exact_⟩ | ⟨_, wrapped⟩
  · rw [exact_] at same
    have equal : (args.numSeqs * args.numHeads - 1) * args.headDim + 0 =
        (seqIdx * args.numHeads + headIdx) * args.headDim + d := by omega
    have last := element_row (Nat.pos_of_ne_zero dims) inside equal
    rw [last] at past
    exact past low
  · have low := wrapped.trans (Int.ofNat_le.mpr below)
    rw [same, add_le_add_iff_left] at low
    have dims : (d : Int) < 128 := by omega
    norm_num at low
    omega

theorem launch_covers_iff (backend : GpuBackend) (args : LaunchArgs) (small : args.headDim ≤ headDimMax) :
    LaunchCovers backend args ↔
      args.numSeqs = 0 ∨ args.numHeads = 0 ∨ args.headDim = 0 ∨
        ((args.numSeqs * args.numHeads - 1) * args.headDim < 2 ^ 31 ∧ (backend = .xe → args.headDim ≤ 1)) := by
  constructor
  · intro covers
    by_cases seqs : args.numSeqs = 0
    · exact Or.inl seqs
    by_cases heads : args.numHeads = 0
    · exact Or.inr (Or.inl heads)
    by_cases dims : args.headDim = 0
    · exact Or.inr (Or.inr (Or.inl dims))
    refine Or.inr (Or.inr (Or.inr ⟨launch_last_row small covers seqs heads dims, ?_⟩))
    intro xe
    by_contra wide
    have once := covers.sums 0 (by omega) 0 (by omega) 1 (by omega)
    have taken := List.count_pos_iff.mp (by rw [once]; exact Nat.one_pos)
    have multiple := ((group_dims_mem backend args 1).mp taken).2 xe
    omega
  · rintro (seqs | heads | dims | ⟨fits, single⟩)
    · exact ⟨fun _ seq => by omega, fun _ seq => by omega⟩
    · exact ⟨fun _ _ _ head => by omega, fun _ _ _ head => by omega⟩
    · exact ⟨fun _ _ _ _ _ inside => by omega, fun _ _ _ _ _ inside => by omega⟩
    · exact launch_covers fits single

end

theorem launch_covers_iff_cuda : LaunchCovers .cuda ⟨3, 8, 100⟩ :=
  (launch_covers_iff .cuda ⟨3, 8, 100⟩ (by decide)).mpr (by decide)

theorem launch_covers_iff_not_xe : ¬ LaunchCovers .xe ⟨1, 1, 2⟩ := by
  intro covers
  have once := covers.sums 0 (by decide) 0 (by decide) 1 (by decide)
  exact absurd once (by decide)

end Kllm.Gpu
