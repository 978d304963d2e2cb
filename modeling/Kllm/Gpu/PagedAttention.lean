import Mathlib
import Kllm.Lib.Warp
import Kllm.Lib.OnlineSoftmax

set_option autoImplicit false

namespace Kllm.Gpu

open Warp

def blockSize : Nat := 128

def headDimMax : Nat := 128

-- The value of an int expression: 32 bits that wrap.
def wrapInt (n : Nat) : Int := Int.bmod n (2 ^ 32)

theorem wrap_int_fits {n : Nat} (fits : n < 2 ^ 31) : wrapInt n = n := by
  unfold wrapInt
  rw [Int.bmod_def]
  push_cast
  split
  · omega
  · omega

-- Element of a K or V block where the kernels look for (head, token, dimension):
-- heads outermost. Each of the two offsets is an int that is added to a pointer.
def kernelElement (headDim kvHead t d : Nat) : Int := wrapInt (kvHead * blockSize * headDim) + wrapInt (t * headDim) + d

theorem kernel_element_fits {headDim kvHead t : Nat} (block : kvHead * blockSize * headDim < 2 ^ 31)
    (token : t * headDim < 2 ^ 31) (d : Nat) :
    kernelElement headDim kvHead t d = (kvHead * blockSize * headDim + t * headDim + d : Nat) := by
  rw [kernelElement, wrap_int_fits block, wrap_int_fits token, Nat.cast_add, Nat.cast_add]

-- Memory is read as numbers, element by element from a pointer on; k_ptr may be
-- NULL.
structure BlockTableEntry (F : Type) where
  kPtr : Option (Int → F)
  vPtr : Int → F
  valid : Bool

structure KernelArgs (F : Type) where
  query : Int → F
  blockTables : Int → BlockTableEntry F
  seqLens : Nat → Nat
  numSeqs : Nat
  numHeads : Nat
  numKvHeads : Nat
  headDim : Nat
  maxBlocksPerSeq : Nat
  scale : F

-- The registers of one warp, by lane: max_score, exp_sum and the array acc.
structure WarpState (F : Type) where
  maxScore : Nat → F
  expSum : Nat → F
  acc : Nat → Nat → F

section
variable {F : Type} [Field F] [LinearOrder F]

def initialMax : F := -10 ^ 20

def initialState : WarpState F := ⟨fun _ => initialMax, fun _ => 0, fun _ _ => 0⟩

-- Each lane's dot product over its own dimensions, then the shuffle reduction.
-- Above lane 0 the result is not the full sum.
def laneScores (width headDim : Nat) (scale : F) (q k : Nat → F) (lane : Nat) : F :=
  reduce width (laneSum width headDim (fun d => q d * k d)) lane * scale

-- The branch if (tid == 0): the other lanes keep their registers.
def updateLaneZero (E : F → F) (width : Nat) (score : Nat → F) (s : WarpState F) : WarpState F :=
  let oldMax := s.maxScore 0
  let newMax := max oldMax (score 0)
  let correction := E (oldMax - newMax)
  { maxScore := Function.update s.maxScore 0 newMax
    expSum := Function.update s.expSum 0 (s.expSum 0 * correction + E (score 0 - newMax))
    acc := Function.update s.acc 0 (fun i => if i < headDimMax / width then s.acc 0 i * correction else s.acc 0 i) }

def broadcast (v : Nat → F) : Nat → F := fun _ => v 0

def accumulate (width headDim : Nat) (weight : F) (v : Nat → F) (lane : Nat) (acc : Nat → F) : Nat → F :=
  (strided width headDim lane).foldl (fun acc d =>
    if d / width < headDimMax / width then Function.update acc (d / width) (acc (d / width) + weight * v d) else acc) acc

def attendToken (E : F → F) (width headDim : Nat) (scale : F) (q k v : Nat → F) (s : WarpState F) : WarpState F :=
  let score := laneScores width headDim scale q k
  let updated := updateLaneZero E width score s
  let maxScore := broadcast updated.maxScore
  let weight := broadcast (fun lane => E (score lane - maxScore lane))
  { maxScore
    expSum := updated.expSum
    acc := fun lane => accumulate width headDim (weight lane) v lane (updated.acc lane) }

def kvHeadIdx (args : KernelArgs F) (headIdx : Nat) : Nat := headIdx / (args.numHeads / args.numKvHeads)

def blockOffset (args : KernelArgs F) (headIdx t d : Nat) : Int :=
  kernelElement args.headDim (kvHeadIdx args headIdx) t d

def headBase (args : KernelArgs F) (seqIdx headIdx : Nat) : Int := wrapInt ((seqIdx * args.numHeads + headIdx) * args.headDim)

def queryVec (args : KernelArgs F) (seqIdx headIdx d : Nat) : F := args.query (headBase args seqIdx headIdx + d)

def tableEntry (args : KernelArgs F) (seqIdx blockIdx : Nat) : BlockTableEntry F :=
  args.blockTables (wrapInt (seqIdx * args.maxBlocksPerSeq + blockIdx))

-- A sum that wraps is negative: no pass of the loop over blocks.
def numBlocks (args : KernelArgs F) (seqIdx : Nat) : Nat :=
  ((wrapInt (args.seqLens seqIdx + blockSize - 1)).tdiv blockSize).toNat

-- The loop over the tokens of a block, for the step of any kernel. Entries not
-- valid, or without a K pointer, are skipped.
def attendBlock {S : Type} (args : KernelArgs F) (seqIdx headIdx : Nat) (token : S → (Nat → F) → (Nat → F) → S) (s : S)
    (blockIdx : Nat) : S :=
  match (tableEntry args seqIdx blockIdx).valid, (tableEntry args seqIdx blockIdx).kPtr with
  | true, some kMem =>
      (List.range (min blockSize (args.seqLens seqIdx - blockIdx * blockSize))).foldl (fun s t =>
        token s (fun d => kMem (blockOffset args headIdx t d))
          (fun d => (tableEntry args seqIdx blockIdx).vPtr (blockOffset args headIdx t d))) s
  | _, _ => s

def attendBlocks {S : Type} (args : KernelArgs F) (seqIdx headIdx : Nat) (token : S → (Nat → F) → (Nat → F) → S) (start : S) : S :=
  (List.range (numBlocks args seqIdx)).foldl (attendBlock args seqIdx headIdx token) start

def attendSequence (E : F → F) (width : Nat) (args : KernelArgs F) (seqIdx headIdx : Nat) : WarpState F :=
  attendBlocks args seqIdx headIdx
    (fun s k v => attendToken E width args.headDim args.scale (queryVec args seqIdx headIdx) k v s) initialState

def normalized (width : Nat) (s : WarpState F) (lane d : Nat) : F :=
  let expSum := broadcast s.expSum lane
  let invSum := if expSum > 0 then 1 / expSum else 0
  if d / width < headDimMax / width then s.acc lane (d / width) * invSum else 0

def pagedAttentionKernel (E : F → F) (width : Nat) (args : KernelArgs F) (seqIdx headIdx : Nat) (output : Int → F) :
    Int → F :=
  if seqIdx ≥ args.numSeqs then output
  else
    (List.range width).foldl (fun output lane =>
      (strided width args.headDim lane).foldl (fun output (d : Nat) =>
        Function.update output (headBase args seqIdx headIdx + d)
          (normalized width (attendSequence E width args seqIdx headIdx) lane d)) output) output

def pagedAttentionKernelCuda (E : F → F) : KernelArgs F → Nat → Nat → (Int → F) → Int → F := pagedAttentionKernel E 32

def pagedAttentionV2Kernel (E : F → F) : KernelArgs F → Nat → Nat → (Int → F) → Int → F := pagedAttentionKernel E 64

-- The places that the layouts mean, without a wrap: [seq][head][d] of query and
-- output, [seq][block] of the tables, [head][token][d] of a block.
def rowElement (args : KernelArgs F) (seqIdx headIdx d : Nat) : Int := ((seqIdx * args.numHeads + headIdx) * args.headDim + d : Nat)

def blockEntry (args : KernelArgs F) (seqIdx block : Nat) : BlockTableEntry F :=
  args.blockTables (seqIdx * args.maxBlocksPerSeq + block : Nat)

def blockElement (args : KernelArgs F) (headIdx t d : Nat) : Int :=
  (kvHeadIdx args headIdx * blockSize * args.headDim + t * args.headDim + d : Nat)

def queryAt (args : KernelArgs F) (seqIdx headIdx d : Nat) : F := args.query (rowElement args seqIdx headIdx d)

def keyAt (args : KernelArgs F) (seqIdx headIdx t d : Nat) : F :=
  match (blockEntry args seqIdx (t / blockSize)).kPtr with
  | some kMem => kMem (blockElement args headIdx (t % blockSize) d)
  | none => 0

def valueAt (args : KernelArgs F) (seqIdx headIdx t d : Nat) : F :=
  (blockEntry args seqIdx (t / blockSize)).vPtr (blockElement args headIdx (t % blockSize) d)

/-- What the kernel is for: two-pass softmax attention. -/
def scoreAt (args : KernelArgs F) (seqIdx headIdx t : Nat) : F :=
  args.scale * ∑ d ∈ Finset.range args.headDim, queryAt args seqIdx headIdx d * keyAt args seqIdx headIdx t d

def attentionValue (E : F → F) (args : KernelArgs F) (seqIdx headIdx d : Nat) : F :=
  OnlineSoftmax.softmaxMean E (scoreAt args seqIdx headIdx) (fun t => valueAt args seqIdx headIdx t d)
    (args.seqLens seqIdx)

def maxScoreAt (args : KernelArgs F) (seqIdx headIdx n : Nat) : F :=
  OnlineSoftmax.runningMax initialMax (scoreAt args seqIdx headIdx) n

end

end Kllm.Gpu
