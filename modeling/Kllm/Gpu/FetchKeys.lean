import Mathlib
import Kllm.Gpu.FetchBlocks

set_option autoImplicit false

namespace Kllm.Gpu

open KvCache

-- The array of token ids as SHA256 reads it: little endian words.
def wordBytes (token : UInt32) : List UInt8 :=
  [token.toUInt8, (token >>> 8).toUInt8, (token >>> 16).toUInt8, (token >>> 24).toUInt8]

def tokenBytes (tokenIds : List UInt32) : List UInt8 := tokenIds.flatMap wordBytes

theorem word_bytes_injective : Function.Injective wordBytes := by
  intro a b same
  have left := a.toNat_lt
  have right := b.toNat_lt
  simp only [wordBytes, List.cons.injEq, and_true] at same
  obtain ⟨first, second, third, fourth⟩ := same
  have w0 := congrArg UInt8.toNat first
  have w1 := congrArg UInt8.toNat second
  have w2 := congrArg UInt8.toNat third
  have w3 := congrArg UInt8.toNat fourth
  simp only [UInt32.toNat_toUInt8, UInt32.toNat_shiftRight, Nat.shiftRight_eq_div_pow] at w0 w1 w2 w3
  apply UInt32.toNat_inj.mp
  have s8 : (8 : UInt32).toNat % 32 = 8 := rfl
  have s16 : (16 : UInt32).toNat % 32 = 16 := rfl
  have s24 : (24 : UInt32).toNat % 32 = 24 := rfl
  rw [s8] at w1
  rw [s16] at w2
  rw [s24] at w3
  omega

theorem token_bytes_length (tokenIds : List UInt32) : (tokenBytes tokenIds).length = tokenIds.length * 4 := by
  induction tokenIds with
  | nil => rfl
  | cons token rest ih =>
      rw [tokenBytes, List.flatMap_cons, List.length_append, ← tokenBytes, ih, List.length_cons, wordBytes]
      simp only [List.length_cons, List.length_nil]
      omega

theorem token_bytes_injective : Function.Injective tokenBytes := by
  intro s
  induction s with
  | nil =>
      intro u same
      have size := congrArg List.length same
      rw [token_bytes_length, token_bytes_length, List.length_nil] at size
      exact (List.length_eq_zero_iff.mp (by omega)).symm
  | cons token rest ih =>
      intro u same
      cases u with
      | nil =>
          have size := congrArg List.length same
          rw [token_bytes_length, token_bytes_length, List.length_cons, List.length_nil] at size
          omega
      | cons other later =>
          rw [tokenBytes, tokenBytes, List.flatMap_cons, List.flatMap_cons] at same
          obtain ⟨first, following⟩ := List.append_inj same rfl
          rw [word_bytes_injective first, ih following]

-- SHA256 gets prefix_len * sizeof(uint32_t) bytes: the first prefix_len tokens.
theorem token_bytes_take (tokenIds : List UInt32) (n : Nat) : (tokenBytes tokenIds).take (n * 4) = tokenBytes (tokenIds.take n) := by
  induction tokenIds generalizing n with
  | nil => simp [tokenBytes]
  | cons token rest ih =>
      cases n with
      | zero => simp [tokenBytes]
      | succ n =>
          have size : (wordBytes token).length = 4 := rfl
          have split : (n + 1) * 4 = (wordBytes token).length + n * 4 := by omega
          rw [List.take_succ_cons, tokenBytes, List.flatMap_cons, split, List.take_length_add_append, ← tokenBytes, ih]
          rfl

section
variable {model : KllmModelConfig} {seqLen : UInt32}

theorem kv_block_count_exact (block : 0 < model.tokensPerBlock.toNat)
    (fits : seqLen.toNat + model.tokensPerBlock.toNat ≤ 2 ^ 32) :
    (kvBlockCount model seqLen).toNat = (seqLen.toNat + model.tokensPerBlock.toNat - 1) / model.tokensPerBlock.toNat := by
  have one : (1 : UInt32).toNat = 1 := rfl
  rw [kvBlockCount, UInt32.toNat_div, UInt32.toNat_sub, UInt32.toNat_add, one]
  congr 1
  omega

-- Past that the sum wraps, and the sequence has no blocks at all.
theorem kv_block_count_wrapped (wraps : 2 ^ 32 < seqLen.toNat + model.tokensPerBlock.toNat) :
    (kvBlockCount model seqLen).toNat = 0 := by
  have left := seqLen.toNat_lt
  have right := model.tokensPerBlock.toNat_lt
  have one : (1 : UInt32).toNat = 1 := rfl
  rw [kvBlockCount, UInt32.toNat_div, UInt32.toNat_sub, UInt32.toNat_add, one]
  apply Nat.div_eq_of_lt
  omega

theorem kv_block_fits (block : 0 < model.tokensPerBlock.toNat) (b : Nat) (inside : b < (kvBlockCount model seqLen).toNat) :
    b * model.tokensPerBlock.toNat < seqLen.toNat ∧ (b + 1) * model.tokensPerBlock.toNat < 2 ^ 32 := by
  by_cases fits : seqLen.toNat + model.tokensPerBlock.toNat ≤ 2 ^ 32
  · rw [kv_block_count_exact block fits, Nat.lt_div_iff_mul_lt block] at inside
    rw [Nat.succ_mul]
    omega
  · rw [kv_block_count_wrapped (by omega)] at inside
    exact absurd inside (Nat.not_lt_zero b)

theorem prefix_len_exact (block : 0 < model.tokensPerBlock.toNat) (b : Nat) (inside : b < (kvBlockCount model seqLen).toNat) :
    (prefixLen model seqLen b).toNat = min ((b + 1) * model.tokensPerBlock.toNat) seqLen.toNat := by
  obtain ⟨_, small⟩ := kv_block_fits block b inside
  have one : (1 : UInt32).toNat = 1 := rfl
  have early : b + 1 < 2 ^ 32 := Nat.lt_of_le_of_lt (Nat.le_mul_of_pos_right (b + 1) block) small
  have index : (UInt32.ofNat b + 1).toNat = b + 1 := by
    rw [UInt32.toNat_add, UInt32.toNat_ofNat_of_lt' (Nat.lt_of_succ_lt early), one]
    exact Nat.mod_eq_of_lt early
  have product : ((UInt32.ofNat b + 1) * model.tokensPerBlock).toNat = (b + 1) * model.tokensPerBlock.toNat := by
    rw [UInt32.toNat_mul, index]
    exact Nat.mod_eq_of_lt small
  by_cases past : (UInt32.ofNat b + 1) * model.tokensPerBlock > seqLen
  · rw [prefixLen, if_pos past]
    have longer := UInt32.lt_iff_toNat_lt.mp past
    omega
  · rw [prefixLen, if_neg past, product]
    have shorter := UInt32.le_iff_toNat_le.mp (UInt32.not_lt.mp past)
    omega

end

section
variable {sha256 : List UInt32 → Hash} {ctx : KllmInferGpuCtx} {tokenIds : List UInt32}

theorem kv_desc_key (short : tokenIds.length < 2 ^ 32) (block : 0 < ctx.model.tokensPerBlock.toNat) (b : Nat)
    (inside : b < (kvBlockCount ctx.model (UInt32.ofNat tokenIds.length)).toNat) :
    (kvDesc sha256 ctx tokenIds b).objKey =
      sha256 (tokenIds.take (min ((b + 1) * ctx.model.tokensPerBlock.toNat) tokenIds.length)) := by
  have size : (UInt32.ofNat tokenIds.length).toNat = tokenIds.length := UInt32.toNat_ofNat_of_lt' short
  simp only [kvDesc]
  rw [prefix_len_exact block b inside, size]

end

def prefixDesc (sha256 : List UInt32 → Hash) (ctx : KllmInferGpuCtx) (tokenIds : List UInt32) (b : Nat) : KllmWfBlockDesc where
  objKey := sha256 (tokenIds.take (min ((b + 1) * ctx.model.tokensPerBlock.toNat) tokenIds.length))
  vramDestAddr := ctx.blockTable b
  blockSize := (kllmBlockTotalBytes ctx.model).toUInt32
  layerStart := 0
  layerCount := ctx.model.numLayers

def prefixDescs (sha256 : List UInt32 → Hash) (ctx : KllmInferGpuCtx) (tokenIds : List UInt32) : List KllmWfBlockDesc :=
  (List.range ((tokenIds.length + ctx.model.tokensPerBlock.toNat - 1) / ctx.model.tokensPerBlock.toNat)).map
    (prefixDesc sha256 ctx tokenIds)

theorem kv_descs_exact (sha256 : List UInt32 → Hash) (ctx : KllmInferGpuCtx) (tokenIds : List UInt32)
    (block : 0 < ctx.model.tokensPerBlock.toNat) (fits : tokenIds.length + ctx.model.tokensPerBlock.toNat ≤ 2 ^ 32) :
    kvDescs sha256 ctx tokenIds = prefixDescs sha256 ctx tokenIds := by
  have short : tokenIds.length < 2 ^ 32 := by omega
  have size : (UInt32.ofNat tokenIds.length).toNat = tokenIds.length := UInt32.toNat_ofNat_of_lt' short
  have count : (kvBlockCount ctx.model (UInt32.ofNat tokenIds.length)).toNat = _ :=
    kv_block_count_exact block (by rw [size]; exact fits)
  rw [size] at count
  rw [kvDescs, prefixDescs, count]
  apply List.map_congr_left
  intro b member
  have key : (kvDesc sha256 ctx tokenIds b).objKey = _ := kv_desc_key short block b (by rw [count]; exact List.mem_range.mp member)
  rw [prefixDesc, ← key, kvDesc]

section
variable {accepts : Nat → Bool} {s failed : FetchBuild} {seen : List KllmWfBlockDesc}

theorem submit_blocks_rejected {blocks : List KllmWfBlockDesc} {fits : blocks.length ≤ kllmWavefrontMaxBlocks}
    (error : submitBlocks accepts s blocks fits = .error failed) : failed = s := by
  by_cases taken : accepts s.sent.length
  · rw [submitBlocks, if_pos taken] at error
    cases error
  · rw [submitBlocks, if_neg taken] at error
    cases error
    rfl

theorem add_block_rejected {desc : KllmWfBlockDesc} (error : addBlock accepts s desc = .error failed) : failed = s := by
  by_cases room : (s.blocks ++ [desc]).length < kllmWavefrontMaxBlocks
  · rw [addBlock, dif_pos room] at error
    cases error
  · rw [addBlock, dif_neg room] at error
    exact submit_blocks_rejected error

theorem add_blocks_rejected (gathered : Gathered seen s) (descs : List KllmWfBlockDesc) (small : (seen ++ descs).length < 2 ^ 32)
    (error : addBlocks accepts s descs = .error failed) : ∃ front, front <+: descs ∧ Gathered (seen ++ front) failed := by
  induction descs generalizing s seen with
  | nil => cases error
  | cons desc rest ih =>
      have split : seen ++ desc :: rest = (seen ++ [desc]) ++ rest := by simp
      cases added : addBlock accepts s desc with
      | error stopped =>
          rw [addBlocks, added] at error
          cases error
          rw [add_block_rejected added]
          exact ⟨[], List.nil_prefix, by rwa [List.append_nil]⟩
      | ok middle =>
          rw [addBlocks, added] at error
          rw [split] at small
          have first := add_block_gathered gathered desc (by simp at small ⊢; omega) added
          obtain ⟨front, early, gone⟩ := ih first small error
          refine ⟨desc :: front, List.cons_prefix_cons.mpr ⟨rfl, early⟩, ?_⟩
          rwa [List.append_assoc] at gone

theorem sent_front (gathered : Gathered seen s) (descs : List KllmWfBlockDesc) (early : seen <+: descs) :
    s.sent.flatMap KllmWavefront.blocks <+: descs :=
  (List.prefix_append _ s.blocks).trans (gathered.blocks ▸ early)

theorem submit_kv_blocks_rejected (descs : List KllmWfBlockDesc) (small : descs.length < 2 ^ 32)
    (error : submitKvBlocks accepts descs = .error failed) :
    failed.sent.flatMap KllmWavefront.blocks <+: descs ∧ ∀ wf ∈ failed.sent, wf.blocks ≠ [] := by
  have fresh : Gathered [] startBuild := ⟨rfl, by simp [startBuild], rfl⟩
  cases added : addBlocks accepts startBuild descs with
  | error stopped =>
      rw [submitKvBlocks, added] at error
      cases error
      obtain ⟨front, early, gathered⟩ := add_blocks_rejected fresh descs (by simpa using small) added
      exact ⟨sent_front gathered descs early, gathered.some_⟩
  | ok built =>
      have gathered := add_blocks_gathered fresh descs (by simpa using small) added
      by_cases rest : built.blocks.length > 0
      · simp only [submitKvBlocks, added, if_pos rest] at error
        rw [submit_blocks_rejected error]
        exact ⟨sent_front gathered descs (List.prefix_refl _), gathered.some_⟩
      · simp only [submitKvBlocks, added, if_neg rest] at error
        cases error

end

theorem fetch_submits_every_block (sha256 : List UInt32 → Hash) (ctx : KllmInferGpuCtx) (tokenIds : List UInt32)
    (block : 1 ≤ ctx.model.tokensPerBlock.toNat)
    (fits : tokenIds.length + ctx.model.tokensPerBlock.toNat ≤ 2 ^ 32) :
    (∃ build, submitKvBlocks (fun _ => true) (kvDescs sha256 ctx tokenIds) = .ok build) ∧
    (∀ accepts build, submitKvBlocks accepts (kvDescs sha256 ctx tokenIds) = .ok build →
      (∀ wf ∈ build.sent, wf.blocks ≠ [] ∧ wf.blocks.length ≤ kllmWavefrontMaxBlocks) ∧
      build.sent.flatMap KllmWavefront.blocks = prefixDescs sha256 ctx tokenIds ∧
      build.submitted.toNat = (tokenIds.length + ctx.model.tokensPerBlock.toNat - 1) / ctx.model.tokensPerBlock.toNat) ∧
    ∀ accepts build, submitKvBlocks accepts (kvDescs sha256 ctx tokenIds) = .error build →
      (∀ wf ∈ build.sent, wf.blocks ≠ [] ∧ wf.blocks.length ≤ kllmWavefrontMaxBlocks) ∧
      build.sent.flatMap KllmWavefront.blocks <+: prefixDescs sha256 ctx tokenIds := by
  have size : (prefixDescs sha256 ctx tokenIds).length =
      (tokenIds.length + ctx.model.tokensPerBlock.toNat - 1) / ctx.model.tokensPerBlock.toNat := by
    rw [prefixDescs, List.length_map, List.length_range]
  have small := kv_descs_length_lt sha256 ctx tokenIds
  rw [kv_descs_exact sha256 ctx tokenIds block fits] at small ⊢
  refine ⟨submit_kv_blocks_accepted _, ?_, ?_⟩
  · intro accepts build ok
    obtain ⟨whole, filled, count⟩ := submit_kv_blocks_gathered _ small ok
    exact ⟨fun wf member => ⟨filled wf member, wf.fits⟩, whole, count.trans size⟩
  · intro accepts build error
    obtain ⟨early, filled⟩ := submit_kv_blocks_rejected _ small error
    exact ⟨fun wf member => ⟨filled wf member, wf.fits⟩, early⟩

def singleTokenCtx : KllmInferGpuCtx :=
  ⟨⟨1, 1, 1, 1⟩, 65536, 65, fun i => vramBlock ⟨1, 1, 1, 1⟩ 65536 i⟩

theorem fetch_submits_every_block_65 :
    ∃ build, submitKvBlocks (fun _ => true) (kvDescs (fun _ => Vector.replicate 32 0) singleTokenCtx (List.replicate 65 7)) = .ok build ∧
      build.submitted.toNat = 65 := by
  obtain ⟨⟨build, ok⟩, sent, _⟩ := fetch_submits_every_block (fun _ => Vector.replicate 32 0) singleTokenCtx (List.replicate 65 7)
    (by decide) (by decide)
  exact ⟨build, ok, (sent _ build ok).2.2⟩

section
variable {sha : List UInt8 → Hash} {ctx : KllmInferGpuCtx}

theorem fetch_key_bytes (tokenIds : List UInt32) (b : Nat) : (kvDesc (sha ∘ tokenBytes) ctx tokenIds b).objKey =
    sha ((tokenBytes tokenIds).take ((prefixLen ctx.model (UInt32.ofNat tokenIds.length) b).toNat * 4)) := by
  rw [token_bytes_take]
  rfl

theorem covered_lt {model : KllmModelConfig} {seqLen : UInt32} (block : 0 < model.tokensPerBlock.toNat) (i j : Nat) (less : i < j)
    (inside : j < (kvBlockCount model seqLen).toNat) :
    min ((i + 1) * model.tokensPerBlock.toNat) seqLen.toNat < min ((j + 1) * model.tokensPerBlock.toNat) seqLen.toNat := by
  obtain ⟨below, _⟩ := kv_block_fits block j inside
  have early : (i + 1) * model.tokensPerBlock.toNat ≤ j * model.tokensPerBlock.toNat := Nat.mul_le_mul_right _ less
  rw [Nat.succ_mul j]
  omega

end

theorem fetch_keys_equal_iff (sha : List UInt8 → Hash) (ctx : KllmInferGpuCtx) (block : 1 ≤ ctx.model.tokensPerBlock.toNat)
    (s u : List UInt32) (left : s.length < 2 ^ 32) (right : u.length < 2 ^ 32)
    (injective : Set.InjOn sha {bytes | ∃ tokens, (tokens <+: s ∨ tokens <+: u) ∧ tokenBytes tokens = bytes}) :
    (∀ i < (kvBlockCount ctx.model (UInt32.ofNat s.length)).toNat, ∀ j < (kvBlockCount ctx.model (UInt32.ofNat u.length)).toNat,
      ((kvDesc (sha ∘ tokenBytes) ctx s i).objKey = (kvDesc (sha ∘ tokenBytes) ctx u j).objKey ↔
        s.take (min ((i + 1) * ctx.model.tokensPerBlock.toNat) s.length) =
          u.take (min ((j + 1) * ctx.model.tokensPerBlock.toNat) u.length))) ∧
    (∀ m, m ≤ s.length → m ≤ u.length → s.take m = u.take m →
      ∀ i < (kvBlockCount ctx.model (UInt32.ofNat s.length)).toNat, i < (kvBlockCount ctx.model (UInt32.ofNat u.length)).toNat →
        (i + 1) * ctx.model.tokensPerBlock.toNat ≤ m →
          (kvDesc (sha ∘ tokenBytes) ctx s i).objKey = (kvDesc (sha ∘ tokenBytes) ctx u i).objKey) ∧
    ∀ i < (kvBlockCount ctx.model (UInt32.ofNat s.length)).toNat, ∀ j < (kvBlockCount ctx.model (UInt32.ofNat s.length)).toNat,
      i ≠ j → (kvDesc (sha ∘ tokenBytes) ctx s i).objKey ≠ (kvDesc (sha ∘ tokenBytes) ctx s j).objKey := by
  have same : ∀ p q : List UInt32, (p <+: s ∨ p <+: u) → (q <+: s ∨ q <+: u) →
      (sha (tokenBytes p) = sha (tokenBytes q) ↔ p = q) := by
    intro p q first second
    constructor
    · intro equal
      exact token_bytes_injective (injective ⟨p, first, rfl⟩ ⟨q, second, rfl⟩ equal)
    · rintro rfl
      rfl
  refine ⟨?_, ?_, ?_⟩
  · intro i inside j within
    rw [kv_desc_key left block i inside, kv_desc_key right block j within]
    exact same _ _ (Or.inl (List.take_prefix _ s)) (Or.inr (List.take_prefix _ u))
  · intro m shorter bound common i inside within covered
    rw [kv_desc_key left block i inside, kv_desc_key right block i within, Nat.min_eq_left (by omega), Nat.min_eq_left (by omega)]
    have cut := congrArg (List.take ((i + 1) * ctx.model.tokensPerBlock.toNat)) common
    rw [List.take_take, List.take_take, Nat.min_eq_left covered] at cut
    rw [cut]
  · intro i inside j within different equal
    rw [kv_desc_key left block i inside, kv_desc_key left block j within] at equal
    have lengths := congrArg List.length ((same _ _ (Or.inl (List.take_prefix _ s)) (Or.inl (List.take_prefix _ s))).mp equal)
    rw [List.length_take, List.length_take] at lengths
    have size : (UInt32.ofNat s.length).toNat = s.length := UInt32.toNat_ofNat_of_lt' left
    cases Nat.lt_or_gt_of_ne different with
    | inl less =>
        have longer := covered_lt block i j less within
        rw [size] at longer
        omega
    | inr greater =>
        have longer := covered_lt block j i greater inside
        rw [size] at longer
        omega

def lengthHash (bytes : List UInt8) : Hash :=
  Vector.ofFn (fun i => if i.val = 0 then UInt8.ofNat bytes.length else if i.val = 1 then bytes.getD 4 0 else 0)

theorem length_hash_injective :
    Set.InjOn lengthHash {bytes | ∃ tokens, (tokens <+: [7, 8] ∨ tokens <+: [7, 9]) ∧ tokenBytes tokens = bytes} := by
  have apart : ∀ p ∈ [[], [7], [7, 8], [7, 9]], ∀ q ∈ [[], [7], [7, 8], [7, 9]],
      lengthHash (tokenBytes p) = lengthHash (tokenBytes q) → p = q := by decide +kernel
  have listed : ∀ p : List UInt32, (p <+: [7, 8] ∨ p <+: [7, 9]) → p ∈ [[], [7], [7, 8], [7, 9]] := by
    rintro p (first | second)
    · have member := (List.mem_inits p [7, 8]).mpr first
      simp only [List.inits, List.map_cons, List.map_nil, List.mem_cons, List.not_mem_nil, or_false] at member
      rcases member with rfl | rfl | rfl <;> decide
    · have member := (List.mem_inits p [7, 9]).mpr second
      simp only [List.inits, List.map_cons, List.map_nil, List.mem_cons, List.not_mem_nil, or_false] at member
      rcases member with rfl | rfl | rfl <;> decide
  rintro _ ⟨p, first, rfl⟩ _ ⟨q, second, rfl⟩ same
  rw [apart p (listed p first) q (listed q second) same]

theorem fetch_keys_equal_iff_shared :
    (kvDesc (lengthHash ∘ tokenBytes) singleTokenCtx [7, 8] 0).objKey = (kvDesc (lengthHash ∘ tokenBytes) singleTokenCtx [7, 9] 0).objKey ∧
    (kvDesc (lengthHash ∘ tokenBytes) singleTokenCtx [7, 8] 1).objKey ≠ (kvDesc (lengthHash ∘ tokenBytes) singleTokenCtx [7, 9] 1).objKey := by
  obtain ⟨equal, shared, _⟩ := fetch_keys_equal_iff lengthHash singleTokenCtx (by decide) [7, 8] [7, 9] (by decide) (by decide)
    length_hash_injective
  refine ⟨shared 1 (by decide) (by decide) rfl 0 (by decide) (by decide) (by decide), ?_⟩
  intro same
  exact absurd ((equal 1 (by decide) 1 (by decide)).mp same) (by decide)

end Kllm.Gpu
