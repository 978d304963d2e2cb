import Mathlib
import Kllm.KvCache.ArenaRefines

set_option autoImplicit false

namespace Kllm.KvCache

open WordBitmap SlotPool

def emptyPool (total : Nat) : Pool total := ⟨∅, by simp⟩

theorem last_word_bit (remainder j : Nat) (small : remainder < 64) :
    ((1#64 <<< remainder) - 1#64).getLsbD j = decide (j < remainder) := by
  have power : 2 ^ remainder < 2 ^ 64 := Nat.pow_lt_pow_right (by omega) small
  have value : (1#64 <<< remainder) - 1#64 = BitVec.ofNat 64 (2 ^ remainder - 1) := by
    have positive := Nat.two_pow_pos remainder
    apply BitVec.eq_of_toNat_eq
    simp only [BitVec.toNat_sub, BitVec.toNat_shiftLeft, BitVec.toNat_ofNat, Nat.shiftLeft_eq]
    omega
  rw [value, BitVec.getLsbD_ofNat, Nat.testBit_two_pow_sub_one]
  by_cases below : j < remainder
  · simp [below, show j < 64 by omega]
  · simp [below]

theorem full_word_bit (total i : Nat) (inside : i / 64 < (total + 63) / 64) :
    (word (List.replicate ((total + 63) / 64) (~~~0#64)) (i / 64)).getLsbD (i % 64) = true := by
  have low : i % 64 < 64 := Nat.mod_lt i (by omega)
  have value : word (List.replicate ((total + 63) / 64) (~~~0#64)) (i / 64) = ~~~0#64 := by
    simp [word, List.getD_eq_getElem?_getD, inside]
  rw [value, BitVec.getLsbD_not]
  simp [low]

theorem bitmap_init_length (total : Nat) : (bitmapInit total).length = (total + 63) / 64 := by
  unfold bitmapInit
  by_cases tail : 0 < total % 64 <;> simp [tail]

theorem bitmap_init_bit (total i : Nat) : bit (bitmapInit total) i = decide (i < total) := by
  by_cases past : (total + 63) / 64 ≤ i / 64
  · have zero := word_past_end (bitmapInit total) (i / 64) (by rw [bitmap_init_length]; exact past)
    rw [bit_of_zero_word (bitmapInit total) i zero]
    simp only [Bool.false_eq, decide_eq_false_iff_not]
    omega
  · by_cases tail : 0 < total % 64
    · by_cases last : i / 64 = (total + 63) / 64 - 1
      · have inside : (total + 63) / 64 - 1 < (List.replicate ((total + 63) / 64) (~~~0#64)).length := by
          simp only [List.length_replicate]
          omega
        simp only [bit, bitmapInit, if_pos tail, last]
        rw [word_set_here _ _ _ inside, last_word_bit _ _ (Nat.mod_lt total (by omega))]
        congr 1
        simp only [eq_iff_iff]
        omega
      · simp only [bit, bitmapInit, if_pos tail]
        rw [word_set_elsewhere _ _ _ _ last, full_word_bit total i (by omega)]
        simp only [Bool.true_eq, decide_eq_true_eq]
        omega
    · simp only [bit, bitmapInit, if_neg tail]
      rw [full_word_bit total i (by omega)]
      simp only [Bool.true_eq, decide_eq_true_eq]
      omega

theorem kllm_arena_create_rep (cfg : KllmArenaConfig) (region : Option (Mapping cfg.totalBytes.toNat))
    (arena : KllmArena) (created : kllmArenaCreate cfg region = some arena) :
    0 < arena.totalSlots ∧ ArenaRep arena (emptyPool arena.totalSlots) := by
  unfold kllmArenaCreate at created
  by_cases none : cfg.totalBytes / alignUp (kllmBlockTotalBytes cfg.model) 4096 = 0
  · simp [none] at created
  · cases region with
    | none => simp [none] at created
    | some mapping =>
        generalize size : alignUp (kllmBlockTotalBytes cfg.model) 4096 = slotSize at none created
        simp only [none, if_false, Option.some.injEq] at created
        subst arena
        have quotient : (cfg.totalBytes / slotSize).toNat = cfg.totalBytes.toNat / slotSize.toNat := UInt64.toNat_div _ _
        have slots : 0 < (cfg.totalBytes / slotSize).toNat := by
          rw [Nat.pos_iff_ne_zero]
          intro zero
          exact none (UInt64.toNat_inj.mp (by simpa using zero))
        have positive : 0 < slotSize.toNat := by
          rw [Nat.pos_iff_ne_zero]
          intro zero
          simp [quotient, zero] at slots
        have within : (cfg.totalBytes / slotSize).toNat * slotSize.toNat ≤ cfg.totalBytes.toNat := by
          rw [quotient]
          exact Nat.div_mul_le_self _ _
        refine ⟨slots, ?_⟩
        exact
          { size := rfl
            words := bitmap_init_length _
            room := by
              show (cfg.totalBytes / slotSize).toNat ≤ ((cfg.totalBytes / slotSize).toNat + 63) / 64 * 64
              omega
            bits := by
              intro i
              simp [bitmap_init_bit, emptyPool]
            hintZero := by
              intro w below
              exact absurd below (Nat.not_lt_zero w)
            used := by simp [emptyPool]
            balance := by simp
            slotPositive := positive
            baseNonNull := mapping.nonNull
            regionFits := by
              have fits := mapping.fits
              show mapping.base + (cfg.totalBytes / slotSize).toNat * slotSize.toNat ≤ 2 ^ 64
              omega }

-- Sequences of calls from a created arena. live holds the blocks handed out
-- and not freed since; a free is only made with one of them.
inductive ArenaRun (start : KllmArena) : KllmArena → Finset Nat → Prop where
  | start : ArenaRun start start ∅
  | alloc (arena next : KllmArena) (live : Finset Nat) (block : Nat) (previous : ArenaRun start arena live)
      (call : kllmArenaAlloc arena = (next, some block)) : ArenaRun start next (insert block live)
  | allocNull (arena next : KllmArena) (live : Finset Nat) (previous : ArenaRun start arena live)
      (call : kllmArenaAlloc arena = (next, none)) : ArenaRun start next live
  | free (arena : KllmArena) (live : Finset Nat) (block : Nat) (previous : ArenaRun start arena live)
      (member : block ∈ live) : ArenaRun start (kllmArenaFree arena (some block)) (live.erase block)

structure RunRep (start arena : KllmArena) (live : Finset Nat) (pool : Pool start.totalSlots) : Prop where
  rep : ArenaRep arena pool
  layout : SameLayout arena start
  blocks : live = pool.taken.image (slotAddress start)

theorem same_layout_address (a b : KllmArena) (slot : Nat) (same : SameLayout a b) :
    slotAddress a slot = slotAddress b slot := by
  simp only [slotAddress, same.1, same.2.1]

theorem run_address_injective {start arena : KllmArena} {live : Finset Nat} {pool : Pool start.totalSlots}
    (run : RunRep start arena live pool) : Function.Injective (slotAddress start) := by
  intro a b same
  apply slot_address_injective run.rep a b
  simpa only [same_layout_address arena start _ run.layout] using same

theorem run_rep_mem (start arena : KllmArena) (live : Finset Nat) (pool : Pool start.totalSlots)
    (run : RunRep start arena live pool) (slot : Nat) : slotAddress start slot ∈ live ↔ slot ∈ pool.taken := by
  rw [run.blocks, (run_address_injective run).mem_finset_image]

theorem run_rep_alloc (start arena : KllmArena) (live : Finset Nat) (pool : Pool start.totalSlots)
    (run : RunRep start arena live pool) :
    (∃ slot, ∃ least : LeastFree pool slot, (kllmArenaAlloc arena).2 = some (slotAddress start slot) ∧
      RunRep start (kllmArenaAlloc arena).1 (insert (slotAddress start slot) live) (take pool slot least.1)) ∨
    (Full pool ∧ kllmArenaAlloc arena = (arena, none)) := by
  rcases kllm_arena_alloc_refines run.rep with ⟨slot, least, block, rep, layout⟩ | full
  · rw [same_layout_address arena start slot run.layout] at block
    refine Or.inl ⟨slot, least, block, rep, ?_, ?_⟩
    · exact ⟨layout.1.trans run.layout.1, layout.2.1.trans run.layout.2.1, layout.2.2.trans run.layout.2.2⟩
    · simp only [take, Finset.image_insert, run.blocks]
  · exact Or.inr full

theorem run_rep_free (start arena : KllmArena) (live : Finset Nat) (pool : Pool start.totalSlots)
    (run : RunRep start arena live pool) (slot : Nat) (member : slot ∈ pool.taken) :
    RunRep start (kllmArenaFree arena (some (slotAddress start slot))) (live.erase (slotAddress start slot))
      (release pool slot) := by
  refine ⟨?_, ?_, ?_⟩
  · rw [← same_layout_address arena start slot run.layout]
    exact kllm_arena_free_refines run.rep slot member
  · exact run.layout
  · simp only [release, Finset.image_erase (run_address_injective run), run.blocks]

theorem arena_run_rep (start arena : KllmArena) (live : Finset Nat)
    (created : ArenaRep start (emptyPool start.totalSlots)) (run : ArenaRun start arena live) :
    ∃ pool : Pool start.totalSlots, RunRep start arena live pool := by
  induction run with
  | start => exact ⟨emptyPool start.totalSlots, created, ⟨rfl, rfl, rfl⟩, by simp [emptyPool]⟩
  | alloc arena next live block _ call ih =>
      obtain ⟨pool, reached⟩ := ih
      rcases run_rep_alloc start arena live pool reached with ⟨slot, least, result, after⟩ | ⟨_, null⟩
      · simp only [call, Option.some.injEq] at result after
        subst block
        exact ⟨_, after⟩
      · simp [call] at null
  | allocNull arena next live _ call ih =>
      obtain ⟨pool, reached⟩ := ih
      rcases run_rep_alloc start arena live pool reached with ⟨slot, least, result, _⟩ | ⟨_, null⟩
      · simp [call] at result
      · have same : next = arena := by simpa [call] using null
        exact ⟨pool, same ▸ reached⟩
  | free arena live block _ member ih =>
      obtain ⟨pool, reached⟩ := ih
      rw [reached.blocks] at member
      obtain ⟨slot, taken, address⟩ := Finset.mem_image.mp member
      exact ⟨release pool slot, address ▸ run_rep_free start arena live pool reached slot taken⟩

section
variable {start arena : KllmArena} {live : Finset Nat} {pool : Pool start.totalSlots} (reached : RunRep start arena live pool)
include reached

theorem run_live_slot {block : Nat} (inside : block ∈ live) : ∃ slot < start.totalSlots, block = slotAddress start slot := by
  rw [reached.blocks] at inside
  obtain ⟨slot, taken, address⟩ := Finset.mem_image.mp inside
  exact ⟨slot, pool.bounded slot taken, address.symm⟩

theorem run_alloc_lowest {block : Nat} (result : (kllmArenaAlloc arena).2 = some block) : ∃ slot < start.totalSlots,
    block = slotAddress start slot ∧ slotAddress start slot ∉ live ∧ ∀ lower < slot, slotAddress start lower ∈ live := by
  have member := run_rep_mem start arena live pool reached
  rcases run_rep_alloc start arena live pool reached with ⟨slot, least, returned, _⟩ | ⟨_, null⟩
  · have same : slotAddress start slot = block := by simpa [returned] using result
    refine ⟨slot, least.1, same.symm, ?_, ?_⟩
    · rw [member slot]
      exact least.2.1
    · intro lower below
      rw [member lower]
      exact least.2.2 lower below
  · simp [null] at result

theorem run_alloc_null_iff :
    (kllmArenaAlloc arena).2 = none ↔ ∀ slot < start.totalSlots, slotAddress start slot ∈ live := by
  have member := run_rep_mem start arena live pool reached
  rcases run_rep_alloc start arena live pool reached with ⟨slot, least, returned, _⟩ | ⟨full, null⟩
  · refine iff_of_false ?_ ?_
    · intro absent
      simp [returned] at absent
    · intro all
      exact absurd ((member slot).mp (all slot least.1)) least.2.1
  · refine iff_of_true (by rw [null]) ?_
    intro slot inside
    exact (member slot).mpr (full slot inside)

theorem run_used_slots : arena.stats.usedSlots.toNat = live.card := by
  have card : live.card = pool.taken.card := by
    rw [reached.blocks, Finset.card_image_of_injective _ (run_address_injective reached)]
  have below : pool.taken.card < 2 ^ 64 := by
    have fits := reached.rep.regionFits
    have bound := taken_card_le pool
    have base := reached.rep.baseNonNull
    have scaled : start.totalSlots ≤ start.totalSlots * arena.slotSize :=
      Nat.le_mul_of_pos_right _ reached.rep.slotPositive
    omega
  rw [reached.rep.used, card, UInt64.toNat_ofNat_of_lt' below]

theorem run_padding_clear {i : Nat} (past : i ≥ start.totalSlots) : bit arena.bitmap i = false := by
  rw [reached.rep.bits i, decide_eq_false_iff_not]
  omega

end

theorem arena_run_lowest_free (cfg : KllmArenaConfig) (region : Option (Mapping cfg.totalBytes.toNat))
    (start : KllmArena) (created : kllmArenaCreate cfg region = some start)
    (arena : KllmArena) (live : Finset Nat) (run : ArenaRun start arena live) :
    (∀ block ∈ live, ∃ slot < start.totalSlots, block = slotAddress start slot) ∧
    (∀ block, (kllmArenaAlloc arena).2 = some block → ∃ slot < start.totalSlots,
      block = slotAddress start slot ∧ slotAddress start slot ∉ live ∧
      ∀ lower < slot, slotAddress start lower ∈ live) ∧
    ((kllmArenaAlloc arena).2 = none ↔ ∀ slot < start.totalSlots, slotAddress start slot ∈ live) ∧
    (∀ w < arena.hint, word arena.bitmap w = 0#64) ∧
    (∀ i ≥ start.totalSlots, bit arena.bitmap i = false) ∧
    arena.stats.usedSlots.toNat = live.card ∧
    arena.stats.usedSlots = arena.stats.allocCount - arena.stats.freeCount := by
  obtain ⟨pool, reached⟩ := arena_run_rep start arena live (kllm_arena_create_rep cfg region start created).2 run
  refine ⟨?_, ?_, run_alloc_null_iff reached, reached.rep.hintZero, ?_, run_used_slots reached, reached.rep.balance⟩
  · intro block inside
    exact run_live_slot reached inside
  · intro block result
    exact run_alloc_lowest reached result
  · intro i past
    exact run_padding_clear reached past

def smallConfig : KllmArenaConfig := ⟨12288, ⟨1, 1, 1, 1⟩⟩

def smallMapping : Mapping smallConfig.totalBytes.toNat := ⟨4096, by decide, by decide⟩

def smallArena : KllmArena := ⟨4096, 4096, 3, [7#64], 1, 0, ⟨3, 0, 0, 0⟩⟩

theorem small_arena_created : kllmArenaCreate smallConfig (some smallMapping) = some smallArena := by decide

def reusedBlocks : Finset Nat := (insert 8192 (insert 4096 ∅) : Finset Nat).erase 4096

def reusedArena : KllmArena := kllmArenaFree (kllmArenaAlloc (kllmArenaAlloc smallArena).1).1 (some 4096)

theorem reused_arena_run : ArenaRun smallArena reusedArena reusedBlocks :=
  .free _ _ 4096 (.alloc _ (kllmArenaAlloc (kllmArenaAlloc smallArena).1).1 _ 8192
    (.alloc _ (kllmArenaAlloc smallArena).1 _ 4096 .start (by decide +kernel)) (by decide +kernel)) (by decide)

theorem arena_run_lowest_free_reused : (kllmArenaAlloc reusedArena).2 = some 4096 ∧
    ∃ slot < smallArena.totalSlots, 4096 = slotAddress smallArena slot ∧
      slotAddress smallArena slot ∉ reusedBlocks ∧
      ∀ lower < slot, slotAddress smallArena lower ∈ reusedBlocks :=
  ⟨by decide +kernel, (arena_run_lowest_free smallConfig (some smallMapping) smallArena small_arena_created
    reusedArena _ reused_arena_run).2.1 4096 (by decide +kernel)⟩

end Kllm.KvCache
