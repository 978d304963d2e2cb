import Mathlib
import Kllm.Lib.PairMerge
import Kllm.Bpf.Tokenizer
import Kllm.Bpf.MergePass

set_option autoImplicit false

namespace Kllm.Bpf

open Chardev PairMerge

def byteTokens (byteToToken : UInt8 → Option UInt32) (buf : List UInt8) : List UInt32 := buf.filterMap byteToToken

theorem token_list_append (seq : TokenSeq) (tok : UInt32) :
    tokenList ⟨Function.update seq.tokens seq.len tok, seq.len + 1⟩ = tokenList seq ++ [tok] := by
  apply List.ext_getElem?
  intro i
  rw [token_list_get]
  by_cases before : i < seq.len
  · have inside : i < seq.len + 1 := by omega
    rw [List.getElem?_append_left (by rw [token_list_length]; exact before), token_list_get]
    simp only [if_pos before, if_pos inside, Function.update_of_ne (Nat.ne_of_lt before)]
  · rw [List.getElem?_append_right (by rw [token_list_length]; omega), token_list_length]
    by_cases here : i = seq.len
    · simp [here]
    · have past : ¬ i < seq.len + 1 := by omega
      have beyond : i - seq.len ≠ 0 := by omega
      rw [if_neg past, List.getElem?_singleton, if_neg beyond]

theorem bytes_to_tokens_list (byteToToken : UInt8 → Option UInt32) (buf : List UInt8) (seq result : TokenSeq)
    (fits : seq.len ≤ maxSeqLen) (ok : bytesToTokens byteToToken buf seq = some result) :
    tokenList result = tokenList seq ++ byteTokens byteToToken (buf.take (maxSeqLen - seq.len)) ∧
      result.len ≤ maxSeqLen ∧ ∀ byte ∈ buf.take (maxSeqLen - seq.len), ∃ tok, byteToToken byte = some tok := by
  induction buf generalizing seq with
  | nil =>
      cases ok
      simp [byteTokens, fits]
  | cons byte rest ih =>
      cases lookup : byteToToken byte with
      | none =>
          rw [bytesToTokens, lookup] at ok
          cases ok
      | some tok =>
          by_cases full : seq.len ≥ maxSeqLen
          · simp only [bytesToTokens, lookup, if_pos full] at ok
            cases ok
            simp [Nat.sub_eq_zero_of_le full, byteTokens, fits]
          · simp only [bytesToTokens, lookup, if_neg full] at ok
            obtain ⟨tokens, bound, known⟩ := ih _ (by simp only; omega) ok
            have room : maxSeqLen - seq.len = maxSeqLen - (seq.len + 1) + 1 := by omega
            rw [token_list_append] at tokens
            rw [room, List.take_succ_cons]
            refine ⟨?_, bound, ?_⟩
            · rw [tokens, byteTokens, byteTokens, List.filterMap_cons, lookup, List.append_assoc, List.singleton_append]
            · intro other member
              rcases List.mem_cons.mp member with rfl | later
              · exact ⟨tok, lookup⟩
              · exact known other later

theorem bytes_to_tokens_some (byteToToken : UInt8 → Option UInt32) (total : ∀ byte, ∃ tok, byteToToken byte = some tok)
    (buf : List UInt8) (seq : TokenSeq) : ∃ result, bytesToTokens byteToToken buf seq = some result := by
  induction buf generalizing seq with
  | nil => exact ⟨seq, rfl⟩
  | cons byte rest ih =>
      obtain ⟨tok, lookup⟩ := total byte
      by_cases full : seq.len ≥ maxSeqLen
      · exact ⟨seq, by simp only [bytesToTokens, lookup, if_pos full]⟩
      · simp only [bytesToTokens, lookup, if_neg full]
        exact ih _

structure Tokenized (maps : TokenizerMaps) (buf : List UInt8) (seq : TokenSeq) : Prop where
  accepted : 1 ≤ buf.length ∧ buf.length ≤ maxPromptLen
  known : ∀ byte ∈ buf.take maxSeqLen, ∃ tok, maps.byteToToken byte = some tok
  loop : ∃ bytes : TokenSeq, bytes.len ≤ maxSeqLen ∧ seq = bpfLoop maps.mergeTable maxMergePasses bytes ∧
    tokenList bytes = byteTokens maps.byteToToken (buf.take maxSeqLen)

theorem kllm_tokenize_seq (maps : TokenizerMaps) (old start : TokenSeq) (buf : List UInt8) (ring : Option KllmRingHdr)
    (size : 1 ≤ buf.length ∧ buf.length ≤ maxPromptLen)
    (bytes : bytesToTokens maps.byteToToken buf ⟨old.tokens, 0⟩ = some start) :
    (kllmTokenize maps (some old) buf ring).seq = some (bpfLoop maps.mergeTable maxMergePasses start) := by
  have accepted : ¬ (buf.length = 0 ∨ buf.length > maxPromptLen) := by omega
  simp only [kllmTokenize, if_neg accepted, bytes]
  cases ring with
  | none => rfl
  | some hdr =>
      by_cases empty : hdr.slotCount = 0
      · simp only [if_pos empty]
      · simp only [if_neg empty]

theorem kllm_tokenize_cases (maps : TokenizerMaps) (scratch : Option TokenSeq) (buf : List UInt8)
    (ring : Option KllmRingHdr) : kllmTokenize maps scratch buf ring = ⟨none, -1, ring⟩ ∨
      ∃ seq, (kllmTokenize maps scratch buf ring).seq = some seq ∧ Tokenized maps buf seq := by
  by_cases refused : buf.length = 0 ∨ buf.length > maxPromptLen
  · left
    simp only [kllmTokenize, if_pos refused]
  · cases scratch with
    | none =>
        left
        simp only [kllmTokenize, if_neg refused]
    | some old =>
        cases bytes : bytesToTokens maps.byteToToken buf ⟨old.tokens, 0⟩ with
        | none =>
            left
            simp only [kllmTokenize, if_neg refused, bytes]
        | some start =>
            right
            obtain ⟨tokens, bound, known⟩ := bytes_to_tokens_list _ _ _ _ (Nat.zero_le _) bytes
            have size : 1 ≤ buf.length ∧ buf.length ≤ maxPromptLen := by omega
            refine ⟨_, kllm_tokenize_seq maps old start buf ring size bytes, ?_⟩
            exact ⟨size, known, start, bound, rfl, by simpa [tokenList] using tokens⟩

theorem kllm_tokenize_tokenized (maps : TokenizerMaps) (scratch : Option TokenSeq) (buf : List UInt8)
    (ring : Option KllmRingHdr) (seq : TokenSeq) (done : (kllmTokenize maps scratch buf ring).seq = some seq) :
    Tokenized maps buf seq := by
  rcases kllm_tokenize_cases maps scratch buf ring with refused | ⟨other, found, tokenized⟩
  · rw [refused] at done
    cases done
  · rw [found] at done
    cases done
    exact tokenized

theorem kllm_tokenize_accepts (maps : TokenizerMaps) (total : ∀ byte, ∃ tok, maps.byteToToken byte = some tok)
    (old : TokenSeq) (buf : List UInt8) (size : 1 ≤ buf.length ∧ buf.length ≤ maxPromptLen) :
    ∃ seq, kllmTokenize maps (some old) buf none = ⟨some seq, seq.len, none⟩ := by
  have accepted : ¬ (buf.length = 0 ∨ buf.length > maxPromptLen) := by omega
  obtain ⟨start, bytes⟩ := bytes_to_tokens_some maps.byteToToken total buf ⟨old.tokens, 0⟩
  refine ⟨bpfLoop maps.mergeTable maxMergePasses start, ?_⟩
  simp only [kllmTokenize, if_neg accepted, bytes]

section
variable {maps : TokenizerMaps} {buf : List UInt8} {seq : TokenSeq}

theorem tokenized_steps (tokenized : Tokenized maps buf seq) :
    ∃ k ≤ maxMergePasses, Steps (usable maps.mergeTable) k (byteTokens maps.byteToToken (buf.take maxSeqLen)) (tokenList seq) ∧
      (k = maxMergePasses ∨ Merged (usable maps.mergeTable) (tokenList seq)) := by
  obtain ⟨bytes, bound, rfl, tokens⟩ := tokenized.loop
  rw [← tokens]
  exact bpf_loop_steps maps.mergeTable maxMergePasses bytes bound

theorem tokenized_short (tokenized : Tokenized maps buf seq) : (tokenList seq).take maxSeqLen = tokenList seq := by
  obtain ⟨k, _, steps, _⟩ := tokenized_steps tokenized
  have length := steps_length steps
  have bytes : (byteTokens maps.byteToToken (buf.take maxSeqLen)).length ≤ maxSeqLen :=
    (List.length_filterMap_le _ _).trans (List.length_take_le _ _)
  apply List.take_of_length_le
  omega

theorem byte_tokens_expand (expand : UInt32 → List UInt8)
    (single : ∀ byte tok, maps.byteToToken byte = some tok → expand tok = [byte]) (bytes : List UInt8)
    (known : ∀ byte ∈ bytes, ∃ tok, maps.byteToToken byte = some tok) :
    (byteTokens maps.byteToToken bytes).flatMap expand = bytes := by
  induction bytes with
  | nil => rfl
  | cons byte rest ih =>
      obtain ⟨tok, lookup⟩ := known byte List.mem_cons_self
      have later := ih (fun other member => known other (List.mem_cons_of_mem byte member))
      rw [byteTokens] at later ⊢
      rw [List.filterMap_cons, lookup, List.flatMap_cons, single byte tok lookup, later, List.singleton_append]

theorem tokenized_expand (expand : UInt32 → List UInt8)
    (single : ∀ byte tok, maps.byteToToken byte = some tok → expand tok = [byte])
    (joined : ∀ left right val, maps.mergeTable left right = some val → expand val.mergedId = expand left ++ expand right)
    (tokenized : Tokenized maps buf seq) : (tokenList seq).flatMap expand = buf.take maxSeqLen := by
  obtain ⟨k, _, steps, _⟩ := tokenized_steps tokenized
  rw [steps_flat_map expand _ steps, byte_tokens_expand expand single _ tokenized.known]
  intro a b t r rule
  obtain ⟨val, lookup, _, rfl, _⟩ := (usable_some_iff a b t r).mp rule
  exact joined a b val lookup

end

theorem tokenize_lossless_iff (maps : TokenizerMaps) (expand : UInt32 → List UInt8)
    (single : ∀ byte tok, maps.byteToToken byte = some tok → expand tok = [byte])
    (joined : ∀ left right val, maps.mergeTable left right = some val → expand val.mergedId = expand left ++ expand right)
    (scratch : Option TokenSeq) (buf : List UInt8) (ring : Option KllmRingHdr)
    (produced : 0 ≤ (kllmTokenize maps scratch buf ring).ret) :
    ∃ seq, (kllmTokenize maps scratch buf ring).seq = some seq ∧ 1 ≤ buf.length ∧ buf.length ≤ maxPromptLen ∧
      ((tokenList seq).flatMap expand = buf ↔ buf.length ≤ 2048) := by
  rcases kllm_tokenize_cases maps scratch buf ring with refused | ⟨seq, done, tokenized⟩
  · rw [refused] at produced
    contradiction
  · refine ⟨seq, done, tokenized.accepted.1, tokenized.accepted.2, ?_⟩
    rw [tokenized_expand expand single joined tokenized, List.take_eq_self_iff, maxSeqLen]

def letterMaps : TokenizerMaps where
  mergeTable := fun left right => if left = 97 ∧ right = 97 then some ⟨256, 0⟩ else none
  byteToToken := fun byte => some byte.toUInt32

def letterExpand (tok : UInt32) : List UInt8 := if tok = 256 then [97, 97] else [tok.toUInt8]

def emptyScratch : TokenSeq := ⟨fun _ => 0, 0⟩

theorem letter_single (byte : UInt8) (tok : UInt32) (lookup : letterMaps.byteToToken byte = some tok) :
    letterExpand tok = [byte] := by
  cases lookup
  have small : byte.toUInt32 ≠ 256 := by
    intro same
    have wide := congrArg UInt32.toNat same
    have bound := byte.toNat_lt
    simp at wide
    omega
  simp [letterExpand, small]

theorem letter_joined (left right : UInt32) (val : MergeVal) (lookup : letterMaps.mergeTable left right = some val) :
    letterExpand val.mergedId = letterExpand left ++ letterExpand right := by
  by_cases pair : left = 97 ∧ right = 97
  · simp only [letterMaps, if_pos pair] at lookup
    cases lookup
    rw [pair.1, pair.2]
    rfl
  · simp only [letterMaps, if_neg pair, reduceCtorEq] at lookup

theorem letter_total (byte : UInt8) : ∃ tok, letterMaps.byteToToken byte = some tok := ⟨_, rfl⟩

theorem tokenize_lossless_three : ∃ seq, (kllmTokenize letterMaps (some emptyScratch) [97, 97, 98] none).seq = some seq ∧
    (tokenList seq).flatMap letterExpand = [97, 97, 98] := by
  obtain ⟨seq, done, _, _, whole⟩ := tokenize_lossless_iff letterMaps letterExpand letter_single letter_joined
    (some emptyScratch) [97, 97, 98] none (by decide +kernel)
  exact ⟨seq, done, whole.mpr (by decide)⟩

theorem long_prompt_cut : ∃ seq, kllmTokenize letterMaps (some emptyScratch) (List.replicate 2049 98) none =
      ⟨some seq, seq.len, none⟩ ∧
    (∀ byte tok, letterMaps.byteToToken byte = some tok → letterExpand tok = [byte]) ∧
    (∀ left right val, letterMaps.mergeTable left right = some val →
      letterExpand val.mergedId = letterExpand left ++ letterExpand right) ∧
    (tokenList seq).flatMap letterExpand ≠ List.replicate 2049 98 := by
  obtain ⟨seq, call⟩ := kllm_tokenize_accepts letterMaps letter_total emptyScratch (List.replicate 2049 98)
    (by rw [List.length_replicate, maxPromptLen]; omega)
  refine ⟨seq, call, letter_single, letter_joined, ?_⟩
  have tokenized := kllm_tokenize_tokenized letterMaps (some emptyScratch) _ none seq (by rw [call])
  rw [tokenized_expand letterExpand letter_single letter_joined tokenized]
  intro same
  have size := congrArg List.length same
  rw [List.length_take, List.length_replicate, maxSeqLen] at size
  omega

def FullyMerged (mergeTable : UInt32 → UInt32 → Option MergeVal) (tokens : List UInt32) : Prop :=
  ∀ i left right, PairAt tokens i left right → mergeTable left right = none

-- The merging of these tokens is one the program can finish: it takes no more
-- than 128 steps, and where it ends no pair has the priority of no merge.
structure WithinPasses (mergeTable : UInt32 → UInt32 → Option MergeVal) (tokens : List UInt32) : Prop where
  bounded : ∀ n later, Steps (usable mergeTable) n tokens later → n ≤ 128
  ranked : ∀ n later, Steps (usable mergeTable) n tokens later → Merged (usable mergeTable) later →
    ∀ i left right val, PairAt later i left right → mergeTable left right = some val → val.priority ≠ 0xffffffff

section
variable {maps : TokenizerMaps} {buf : List UInt8} {seq : TokenSeq}

theorem fully_merged_usable {mergeTable : UInt32 → UInt32 → Option MergeVal} {tokens : List UInt32}
    (full : FullyMerged mergeTable tokens) : Merged (usable mergeTable) tokens := by
  intro i left right pair
  rw [usable_none_iff]
  intro val known
  rw [full i left right pair] at known
  cases known

theorem bpf_loop_more (mergeTable : UInt32 → UInt32 → Option MergeVal) (n : Nat) (bytes : TokenSeq)
    (fits : bytes.len ≤ maxSeqLen) : Merged (usable mergeTable) (tokenList (bpfLoop mergeTable n bytes)) ∨
      ∃ later, Steps (usable mergeTable) (n + 1) (tokenList bytes) later := by
  induction n generalizing bytes with
  | zero =>
      rcases do_merge_pass_cases mergeTable fits with ⟨_, merged⟩ | ⟨next, _, _, step⟩
      · exact Or.inl merged
      · exact Or.inr ⟨_, .more 0 _ _ _ (.done _) step⟩
  | succ n ih =>
      rcases do_merge_pass_cases mergeTable fits with ⟨stop, merged⟩ | ⟨next, pass, shorter, step⟩
      · left
        simpa only [bpfLoop, stop] using merged
      · simp only [bpfLoop, pass]
        rcases ih next (by omega) with merged | ⟨later, steps⟩
        · exact Or.inl merged
        · exact Or.inr ⟨later, steps_cons step steps⟩

theorem tokenized_merged_iff (tokenized : Tokenized maps buf seq) (fits : buf.length ≤ maxSeqLen) :
    FullyMerged maps.mergeTable (tokenList seq) ↔ WithinPasses maps.mergeTable (byteTokens maps.byteToToken buf) := by
  obtain ⟨k, within, steps, _⟩ := tokenized_steps tokenized
  rw [List.take_of_length_le fits] at steps
  constructor
  · intro full
    have merged := fully_merged_usable full
    refine ⟨fun n later other => Nat.le_trans (merged_last steps merged other) within, ?_⟩
    intro n later other ended i left right val pair known
    have same : n = k := Nat.le_antisymm (merged_last steps merged other) (merged_last other ended steps)
    rw [same] at other
    rw [steps_unique other steps] at pair
    rw [full i left right pair] at known
    cases known
  · intro reach
    have merged : Merged (usable maps.mergeTable) (tokenList seq) := by
      obtain ⟨bytes, bound, rfl, tokens⟩ := tokenized.loop
      rcases bpf_loop_more maps.mergeTable maxMergePasses bytes bound with merged | ⟨later, more⟩
      · exact merged
      · rw [tokens, List.take_of_length_le fits] at more
        exact absurd (reach.bounded _ later more) (by decide)
    intro i left right pair
    cases lookup : maps.mergeTable left right with
    | none => rfl
    | some val =>
        have sentinel := (usable_none_iff left right).mp (merged i left right pair) val lookup
        exact absurd sentinel (reach.ranked k _ steps merged i left right val pair lookup)

end

theorem tokenize_fully_merged_iff (maps : TokenizerMaps) (scratch : Option TokenSeq) (buf : List UInt8)
    (ring : Option KllmRingHdr) (size : 1 ≤ buf.length ∧ buf.length ≤ 2048) (seq : TokenSeq)
    (done : (kllmTokenize maps scratch buf ring).seq = some seq) :
    FullyMerged maps.mergeTable (tokenList seq) ↔ WithinPasses maps.mergeTable (byteTokens maps.byteToToken buf) :=
  tokenized_merged_iff (kllm_tokenize_tokenized maps scratch buf ring seq done) size.2

def letterRun (k m : Nat) : List UInt32 := List.replicate k 256 ++ List.replicate m 97

theorem letter_usable (left right merged : UInt32) (rank : Nat) :
    usable letterMaps.mergeTable left right = some (merged, rank) ↔ (left = 97 ∧ right = 97) ∧ merged = 256 ∧ rank = 0 := by
  rw [usable_some_iff]
  by_cases pair : left = 97 ∧ right = 97
  · simp [letterMaps, pair, eq_comm]
  · simp [letterMaps, pair]

theorem letter_run_step (k m : Nat) : GreedyStep (usable letterMaps.mergeTable) (letterRun k (m + 2)) (letterRun (k + 1) m) := by
  have split : letterRun k (m + 2) = List.replicate k 256 ++ 97 :: 97 :: List.replicate m 97 := rfl
  have size : (List.replicate k (256 : UInt32)).length = k := List.length_replicate
  have pair := pair_at_append (List.replicate k 256) (List.replicate m 97) (97 : UInt32) 97
  rw [size, ← split] at pair
  refine ⟨k, 256, 0, ⟨⟨97, 97, pair, (letter_usable _ _ _ _).mpr ⟨⟨rfl, rfl⟩, rfl, rfl⟩⟩, ?_, ?_⟩, ?_⟩
  · intro _ _ _ _ rank _ _
    exact Nat.zero_le rank
  · intro j before left right merged rank other rule
    obtain ⟨⟨rfl, _⟩, _⟩ := (letter_usable _ _ _ _).mp rule
    have first := other.1
    rw [letterRun, List.getElem?_append_left (by rw [size]; exact before), List.getElem?_replicate, if_pos before] at first
    cases first
  · rw [mergeAt, split, List.take_left' size, List.drop_append, size, letterRun, List.replicate_succ', List.append_assoc]
    simp

theorem letter_run_steps (k m : Nat) : Steps (usable letterMaps.mergeTable) k (letterRun 0 (2 * k + m)) (letterRun k m) := by
  induction k generalizing m with
  | zero =>
      rw [Nat.mul_zero, Nat.zero_add]
      exact .done _
  | succ k ih =>
      have earlier := ih (m + 2)
      have total : 2 * k + (m + 2) = 2 * (k + 1) + m := by omega
      rw [total] at earlier
      exact .more k _ _ _ earlier (letter_run_step k m)

theorem tokenize_fully_merged_three : ∃ seq, (kllmTokenize letterMaps (some emptyScratch) [97, 97, 98] none).seq = some seq ∧
    FullyMerged letterMaps.mergeTable (tokenList seq) := by
  obtain ⟨seq, call⟩ := kllm_tokenize_accepts letterMaps letter_total emptyScratch [97, 97, 98] (by decide)
  refine ⟨seq, by rw [call], ?_⟩
  apply (tokenize_fully_merged_iff letterMaps (some emptyScratch) [97, 97, 98] none (by decide) seq (by rw [call])).mpr
  refine ⟨?_, ?_⟩
  · intro n later steps
    have size : later.length + n = 3 := steps_length steps
    omega
  · intro n later steps ended i left right val pair known
    by_cases letters : left = 97 ∧ right = 97
    · simp only [letterMaps, if_pos letters] at known
      cases known
      decide
    · simp only [letterMaps, if_neg letters, reduceCtorEq] at known

-- 258 letters need 129 merges: the program stops one short of the last pair.
theorem long_run_unmerged : ∃ seq, kllmTokenize letterMaps (some emptyScratch) (List.replicate 258 97) none =
      ⟨some seq, seq.len, none⟩ ∧ ¬ FullyMerged letterMaps.mergeTable (tokenList seq) := by
  obtain ⟨seq, call⟩ := kllm_tokenize_accepts letterMaps letter_total emptyScratch (List.replicate 258 97)
    (by rw [List.length_replicate, maxPromptLen]; omega)
  refine ⟨seq, call, ?_⟩
  have tokenized := kllm_tokenize_tokenized letterMaps (some emptyScratch) _ none seq (by rw [call])
  obtain ⟨k, within, steps, _⟩ := tokenized_steps tokenized
  have count : 2 * k + (256 - 2 * k + 2) = 258 := by
    rw [maxMergePasses] at within
    omega
  have start : byteTokens letterMaps.byteToToken ((List.replicate 258 97).take maxSeqLen) =
      letterRun 0 (2 * k + (256 - 2 * k + 2)) := by
    have letter : letterMaps.byteToToken 97 = some 97 := rfl
    rw [count, List.take_replicate, byteTokens, List.filterMap_replicate_of_some letter, letterRun, List.replicate_zero,
      List.nil_append, maxSeqLen, Nat.min_eq_right (by omega)]
  rw [start] at steps
  rw [steps_unique steps (letter_run_steps k _)]
  intro full
  have pair := pair_at_append (List.replicate k 256) (List.replicate (256 - 2 * k) 97) (97 : UInt32) 97
  have none_ := full _ _ _ pair
  cases none_

end Kllm.Bpf
