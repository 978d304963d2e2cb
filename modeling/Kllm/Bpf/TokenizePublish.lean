import Mathlib
import Kllm.Lib.PairMerge
import Kllm.Lib.CircularBuffer
import Kllm.Chardev.TokenRing
import Kllm.Chardev.TokenRingRuns
import Kllm.Bpf.Tokenizer
import Kllm.Bpf.MergePass
import Kllm.Bpf.TokenizeResult

set_option autoImplicit false

namespace Kllm.Bpf

open Chardev PairMerge CircularBuffer

structure Appended (hdr next : KllmRingHdr) (tokens : List UInt32) : Prop where
  contents : ringContents next = ringContents hdr ++ tokens
  head : next.head = (hdr.head + UInt32.ofNat tokens.length) &&& kllmRingMask hdr
  seqId : next.seqId = hdr.seqId + 1

def AllOrNothing (hdr : KllmRingHdr) (call : TokenizeCall) : Prop :=
  (∃ seq next, call.seq = some seq ∧ call.ring = some next ∧ Appended hdr next (tokenList seq) ∧ call.ret = seq.len) ∨
    (call.ret < 0 ∧ ∃ next, call.ring = some next ∧ next.head = hdr.head ∧ next.seqId = hdr.seqId)

-- A byte is looked up before the room is checked, so one byte more than the
-- scratch array holds is looked at.
def Refused (maps : TokenizerMaps) (scratch : Option TokenSeq) (buf : List UInt8) : Prop :=
  buf.length = 0 ∨ buf.length > maxPromptLen ∨ scratch = none ∨ ∃ byte ∈ buf.take (maxSeqLen + 1), maps.byteToToken byte = none

def PromptFits (maps : TokenizerMaps) (buf : List UInt8) (hdr : KllmRingHdr) : Prop :=
  ∀ k tokens, Steps (usable maps.mergeTable) k (byteTokens maps.byteToToken (buf.take maxSeqLen)) tokens →
    (k = maxMergePasses ∨ k ≤ maxMergePasses ∧ Merged (usable maps.mergeTable) tokens) → tokens.length ≤ (kllmRingFree hdr).toNat

structure Writing (hdr : KllmRingHdr) (published consumed written : List UInt32) (state : KllmRingHdr × UInt32) : Prop where
  rep : RingRep state.1 written published consumed
  place : state.2.toNat = (published.length + written.length) % state.1.slotCount.toNat
  slotCount : state.1.slotCount = hdr.slotCount
  seqId : state.1.seqId = hdr.seqId

section
variable {hdr : KllmRingHdr} {published consumed written : List UInt32}

theorem writing_write {state : KllmRingHdr × UInt32} (writing : Writing hdr published consumed written state) (token : UInt32)
    (room : ringNext state.1 state.2 ≠ state.1.tail) :
    Writing hdr published consumed (written ++ [token]) (writeSlot state.1 state.2 token, ringNext state.1 state.2) := by
  have spare := writing.rep.spare
  have ahead : published.length + written.length + 1 < consumed.length + state.1.slotCount.toNat :=
    masked_room writing.rep.power state.2 state.1.tail _ _ writing.place writing.rep.tail spare room
  refine ⟨write_slot_rep writing.rep state.2 token writing.place ahead, ?_, writing.slotCount, writing.seqId⟩
  have next := masked_forward writing.rep.power state.2 1 _ writing.place
  rw [List.length_append, List.length_singleton]
  exact next

theorem writing_full {state : KllmRingHdr × UInt32} (writing : Writing hdr published consumed written state)
    (full : ringNext state.1 state.2 = state.1.tail) :
    published.length + written.length + 1 = consumed.length + hdr.slotCount.toNat := by
  have spare := writing.rep.spare
  have order := rep_order writing.rep
  have next := masked_forward writing.rep.power state.2 1 _ writing.place
  have meet := congrArg UInt32.toNat full
  have one : (1 : UInt32).toNat = 1 := rfl
  rw [ringNext, kllmRingMask, next, writing.rep.tail, one] at meet
  rw [writing.slotCount] at spare meet
  by_contra differ
  exact residue_apart consumed.length (published.length + written.length + 1) (by omega) (by omega) meet.symm

theorem write_slots_writing (tokens : List UInt32) (state : KllmRingHdr × UInt32)
    (writing : Writing hdr published consumed written state) :
    Writing hdr published consumed
      (written ++ tokens.take (consumed.length + hdr.slotCount.toNat - 1 - (published.length + written.length)))
      (writeSlots state.1 state.2 tokens) := by
  induction tokens generalizing state written with
  | nil => simpa [writeSlots] using writing
  | cons token rest ih =>
      by_cases full : ringNext state.1 state.2 = state.1.tail
      · have last := writing_full writing full
        have none_ : consumed.length + hdr.slotCount.toNat - 1 - (published.length + written.length) = 0 := by omega
        rw [writeSlots, if_pos full, none_, List.take_zero, List.append_nil]
        exact writing
      · have next := writing_write writing token full
        have later := ih _ next
        have spare := next.rep.spare
        rw [List.length_append, List.length_singleton] at later spare
        have count : (writeSlot state.1 state.2 token).slotCount = hdr.slotCount := next.slotCount
        simp only [count] at spare
        have room : consumed.length + hdr.slotCount.toNat - 1 - (published.length + written.length) =
            consumed.length + hdr.slotCount.toNat - 1 - (published.length + (written.length + 1)) + 1 := by omega
        rw [writeSlots, if_neg full, room, List.take_succ_cons, ← List.singleton_append, ← List.append_assoc]
        exact later

end

section
variable {hdr : KllmRingHdr}

theorem publish_tokens_appended (power : ∃ k, hdr.slotCount.toNat = 2 ^ k) (headIn : hdr.head < hdr.slotCount)
    (tailIn : hdr.tail < hdr.slotCount) (tokens : List UInt32) :
    Appended hdr (publishTokens hdr tokens) ((tokens.take maxSeqLen).take (kllmRingFree hdr).toNat) := by
  have rest := ring_rep_at_rest hdr power headIn tailIn
  have spare := rest.spare
  have order := rep_order rest
  have start : Writing hdr _ _ [] (hdr, hdr.head) := ⟨rest, rest.head, rfl, rfl⟩
  have room : (List.replicate hdr.tail.toNat (0 : UInt32)).length + hdr.slotCount.toNat - 1 -
      ((List.replicate hdr.tail.toNat (0 : UInt32) ++ ringContents hdr).length + ([] : List UInt32).length) =
      (kllmRingFree hdr).toNat := by
    rw [ring_free rest, List.length_nil]
    omega
  have written := write_slots_writing (tokens.take maxSeqLen) _ start
  rw [room, List.nil_append] at written
  generalize (tokens.take maxSeqLen).take (kllmRingFree hdr).toNat = taken at written
  have rep := publish_head_rep written.rep _ written.place
  have contents := ring_contents rep
  rw [List.append_assoc] at contents
  refine ⟨(List.append_cancel_left contents).symm, ?_, ?_⟩
  · have small : taken.length < 2 ^ 32 := by
      have filled := written.rep.spare
      have below := hdr.slotCount.toNat_lt
      rw [written.slotCount] at filled
      omega
    have forward := masked_forward power hdr.head (UInt32.ofNat taken.length) _ rest.head
    rw [UInt32.toNat_ofNat_of_lt' small] at forward
    apply UInt32.toNat_inj.mp
    rw [kllmRingMask, forward]
    have place := written.place
    rw [written.slotCount] at place
    exact place
  · simp only [publishTokens, written.seqId]

theorem appended_length {next : KllmRingHdr} {tokens more : List UInt32} (part : Appended hdr next tokens)
    (whole : Appended hdr next more) : tokens = more :=
  List.append_cancel_left (part.contents.symm.trans whole.contents)

end

theorem bytes_to_tokens_none (byteToToken : UInt8 → Option UInt32) (buf : List UInt8) (seq : TokenSeq)
    (fits : seq.len ≤ maxSeqLen) : bytesToTokens byteToToken buf seq = none ↔
      ∃ byte ∈ buf.take (maxSeqLen - seq.len + 1), byteToToken byte = none := by
  induction buf generalizing seq with
  | nil => simp [bytesToTokens]
  | cons byte rest ih =>
      cases lookup : byteToToken byte with
      | none => simp [bytesToTokens, lookup]
      | some tok =>
          by_cases full : seq.len ≥ maxSeqLen
          · have none_ : maxSeqLen - seq.len = 0 := by omega
            simp [bytesToTokens, lookup, full, none_]
          · have room : maxSeqLen - seq.len = maxSeqLen - (seq.len + 1) + 1 := by omega
            have later := ih ⟨Function.update seq.tokens seq.len tok, seq.len + 1⟩ (by simp only; omega)
            simp [bytesToTokens, lookup, full, room, later]

section
variable {maps : TokenizerMaps} {scratch : Option TokenSeq} {buf : List UInt8} {hdr : KllmRingHdr}

theorem kllm_tokenize_refused (ring : Option KllmRingHdr) (refused : Refused maps scratch buf) :
    kllmTokenize maps scratch buf ring = ⟨none, -1, ring⟩ := by
  by_cases out : buf.length = 0 ∨ buf.length > maxPromptLen
  · simp only [kllmTokenize, if_pos out]
  · cases scratch with
    | none => simp only [kllmTokenize, if_neg out]
    | some old =>
        have unknown : ∃ byte ∈ buf.take (maxSeqLen + 1), maps.byteToToken byte = none := by
          rcases refused with empty | long | missing | unknown
          · exact absurd (Or.inl empty) out
          · exact absurd (Or.inr long) out
          · cases missing
          · exact unknown
        have bytes := (bytes_to_tokens_none maps.byteToToken buf ⟨old.tokens, 0⟩ (Nat.zero_le _)).mpr unknown
        simp only [kllmTokenize, if_neg out, bytes]

theorem kllm_tokenize_published (some_ : hdr.slotCount ≠ 0) (accepted : ¬ Refused maps scratch buf) :
    ∃ seq, kllmTokenize maps scratch buf (some hdr) = ⟨some seq, seq.len, some (publishTokens hdr (tokenList seq))⟩ := by
  simp only [Refused, not_or] at accepted
  obtain ⟨nonempty, short, present, known⟩ := accepted
  have inside : ¬ (buf.length = 0 ∨ buf.length > maxPromptLen) := fun out => out.elim nonempty short
  cases scratch with
  | none => exact absurd rfl present
  | some old =>
      cases bytes : bytesToTokens maps.byteToToken buf ⟨old.tokens, 0⟩ with
      | none => exact absurd ((bytes_to_tokens_none maps.byteToToken buf ⟨old.tokens, 0⟩ (Nat.zero_le _)).mp bytes) known
      | some start =>
          refine ⟨bpfLoop maps.mergeTable maxMergePasses start, ?_⟩
          simp only [kllmTokenize, if_neg inside, bytes, if_neg some_]

theorem prompt_fits_iff {seq : TokenSeq} (tokenized : Tokenized maps buf seq) :
    PromptFits maps buf hdr ↔ (tokenList seq).length ≤ (kllmRingFree hdr).toNat := by
  obtain ⟨k, within, steps, ends⟩ := tokenized_steps tokenized
  refine ⟨fun fits => fits k _ steps (ends.imp id (fun merged => ⟨within, merged⟩)), ?_⟩
  intro fits n tokens other stops
  have same : n = k := by
    rcases stops with all | ⟨few, merged⟩
    · rcases ends with whole | ended
      · rw [all, whole]
      · exact Nat.le_antisymm (merged_last steps ended other) (all ▸ within)
    · rcases ends with whole | ended
      · exact Nat.le_antisymm (whole ▸ few) (merged_last other merged steps)
      · exact Nat.le_antisymm (merged_last steps ended other) (merged_last other merged steps)
  rw [same] at other
  rw [steps_unique other steps]
  exact fits

end

theorem slot_count_nonzero {hdr : KllmRingHdr} (power : ∃ k, hdr.slotCount.toNat = 2 ^ k) : hdr.slotCount ≠ 0 := by
  intro zero
  have positive := count_positive power
  rw [zero] at positive
  exact absurd positive (by decide)

theorem tokenize_all_or_nothing_iff (maps : TokenizerMaps) (scratch : Option TokenSeq) (buf : List UInt8) (hdr : KllmRingHdr)
    (power : ∃ k, hdr.slotCount.toNat = 2 ^ k) (headIn : hdr.head < hdr.slotCount) (tailIn : hdr.tail < hdr.slotCount) :
    AllOrNothing hdr (kllmTokenize maps scratch buf (some hdr)) ↔ Refused maps scratch buf ∨ PromptFits maps buf hdr := by
  by_cases refused : Refused maps scratch buf
  · rw [kllm_tokenize_refused (some hdr) refused]
    simp only [refused, true_or, iff_true]
    exact Or.inr ⟨Int.negSucc_lt_zero 0, hdr, rfl, rfl, rfl⟩
  · obtain ⟨seq, call⟩ := kllm_tokenize_published (slot_count_nonzero power) refused
    have tokenized := kllm_tokenize_tokenized maps scratch buf (some hdr) seq (by rw [call])
    have published := publish_tokens_appended power headIn tailIn (tokenList seq)
    rw [tokenized_short tokenized] at published
    rw [call]
    simp only [refused, false_or]
    rw [prompt_fits_iff tokenized]
    refine ⟨?_, ?_⟩
    · intro whole
      rcases whole with ⟨all, next, same, ring, appended, _⟩ | ⟨negative, _⟩
      · cases same
        cases ring
        rw [← appended_length published appended]
        exact List.length_take_le _ _
      · exact absurd negative (Int.not_lt.mpr (Int.natCast_nonneg _))
    · intro fits
      rw [List.take_of_length_le fits] at published
      exact Or.inl ⟨seq, _, rfl, rfl, published, rfl⟩

theorem short_prompt_published : (createdRing 4).head < (createdRing 4).slotCount ∧
    AllOrNothing (createdRing 4) (kllmTokenize letterMaps (some emptyScratch) [97, 97, 98] (some (createdRing 4))) := by
  have fits : PromptFits letterMaps [97, 97, 98] (createdRing 4) := by
    intro k tokens steps _
    have length := steps_length steps
    have bytes : (byteTokens letterMaps.byteToToken ([97, 97, 98].take maxSeqLen)).length = 3 := by decide
    have free : (kllmRingFree (createdRing 4)).toNat = 3 := by decide
    omega
  exact ⟨by decide, (tokenize_all_or_nothing_iff letterMaps (some emptyScratch) [97, 97, 98] (createdRing 4) ⟨2, rfl⟩
    (by decide) (by decide)).mpr (Or.inr fits)⟩

theorem full_ring_takes_part :
    (kllmTokenize letterMaps (some emptyScratch) [98, 99] (some (createdRing 2))).ret = 2 ∧
    (kllmTokenize letterMaps (some emptyScratch) [98, 99] (some (createdRing 2))).ring.map ringContents = some [98] ∧
    (kllmTokenize letterMaps (some emptyScratch) [98, 99] (some (createdRing 2))).ring.map KllmRingHdr.head = some 1 ∧
    (kllmTokenize letterMaps (some emptyScratch) [98, 99] (some (createdRing 2))).ring.map KllmRingHdr.seqId = some 1 ∧
    ¬ AllOrNothing (createdRing 2) (kllmTokenize letterMaps (some emptyScratch) [98, 99] (some (createdRing 2))) := by
  have ret : (kllmTokenize letterMaps (some emptyScratch) [98, 99] (some (createdRing 2))).ret = 2 := by decide +kernel
  have contents : (kllmTokenize letterMaps (some emptyScratch) [98, 99] (some (createdRing 2))).ring.map ringContents =
      some [98] := by decide +kernel
  refine ⟨ret, contents, by decide +kernel, by decide +kernel, ?_⟩
  intro whole
  rcases whole with ⟨seq, next, _, ring, appended, count⟩ | ⟨negative, _⟩
  · rw [ring, Option.map_some, appended.contents] at contents
    have length := congrArg List.length (Option.some.inj contents)
    rw [List.length_append, token_list_length] at length
    rw [ret] at count
    simp at length
    omega
  · rw [ret] at negative
    exact absurd negative (by decide)

end Kllm.Bpf
