import Mathlib
import Kllm.Lib.PairMerge
import Kllm.Chardev.TokenRing
import Kllm.Chardev.RingCalls
import Kllm.Bpf.Tokenizer
import Kllm.Bpf.MergePass
import Kllm.Bpf.TokenizeResult
import Kllm.Bpf.TokenizePublish

set_option autoImplicit false

namespace Kllm.Bpf

open Chardev PairMerge

theorem write_slots_produce (hdr : KllmRingHdr) (head : UInt32) (tokens : List UInt32) :
    produceInTurn { hdr with head := head } tokens =
      { (writeSlots hdr head tokens).1 with head := (writeSlots hdr head tokens).2 } := by
  induction tokens generalizing hdr head with
  | nil => rfl
  | cons token rest ih =>
      by_cases full : ringNext hdr head = hdr.tail
      · have stop : kllmRingProduce { hdr with head := head } token = none := if_pos full
        rw [produceInTurn, stop, writeSlots, if_pos full]
      · have next : kllmRingProduce { hdr with head := head } token =
            some { writeSlot hdr head token with head := ringNext hdr head } := if_neg full
        rw [produceInTurn, next, writeSlots, if_neg full]
        exact ih (writeSlot hdr head token) (ringNext hdr head)

theorem publish_tokens_produce (hdr : KllmRingHdr) (tokens : List UInt32) :
    publishTokens hdr tokens =
      { produceInTurn hdr (tokens.take maxSeqLen) with seqId := (publishTokens hdr tokens).seqId } := by
  have singly := write_slots_produce hdr hdr.head (tokens.take maxSeqLen)
  have same : { hdr with head := hdr.head } = hdr := rfl
  rw [same] at singly
  rw [singly]
  rfl

theorem tokenize_ring_published {maps : TokenizerMaps} {scratch : Option TokenSeq} {buf : List UInt8} {hdr : KllmRingHdr}
    (some_ : hdr.slotCount ≠ 0) {seq : TokenSeq} (done : (kllmTokenize maps scratch buf (some hdr)).seq = some seq) :
    (kllmTokenize maps scratch buf (some hdr)).ring = some (publishTokens hdr (tokenList seq)) := by
  by_cases refused : Refused maps scratch buf
  · rw [kllm_tokenize_refused (some hdr) refused] at done
    cases done
  · obtain ⟨other, call⟩ := kllm_tokenize_published some_ refused
    rw [call] at done ⊢
    cases done
    rfl

theorem ring_batches_singly (hdr : KllmRingHdr) (power : ∃ k, hdr.slotCount.toNat = 2 ^ k) (tailIn : hdr.tail < hdr.slotCount) :
    (∀ maxTokens, kllmRingConsumeBatch hdr maxTokens =
      ⟨(consumeTimes (min (kllmRingAvailable hdr).toNat maxTokens.toNat) hdr).1,
        (consumeTimes (min (kllmRingAvailable hdr).toNat maxTokens.toNat) hdr).2,
        UInt32.ofNat (min (kllmRingAvailable hdr).toNat maxTokens.toNat)⟩) ∧
      (∀ tokens, (publishTokens hdr tokens).slots = (produceInTurn hdr (tokens.take maxSeqLen)).slots ∧
        (publishTokens hdr tokens).head = (produceInTurn hdr (tokens.take maxSeqLen)).head) ∧
      ∀ maps scratch buf seq, (kllmTokenize maps scratch buf (some hdr)).seq = some seq →
        ∃ next, (kllmTokenize maps scratch buf (some hdr)).ring = some next ∧
          next.slots = (produceInTurn hdr (tokenList seq)).slots ∧ next.head = (produceInTurn hdr (tokenList seq)).head := by
  have published : ∀ tokens, (publishTokens hdr tokens).slots = (produceInTurn hdr (tokens.take maxSeqLen)).slots ∧
      (publishTokens hdr tokens).head = (produceInTurn hdr (tokens.take maxSeqLen)).head := by
    intro tokens
    rw [publish_tokens_produce hdr tokens]
    exact ⟨rfl, rfl⟩
  refine ⟨consume_batch_singly power tailIn, published, ?_⟩
  intro maps scratch buf seq done
  have short := tokenized_short (kllm_tokenize_tokenized maps scratch buf (some hdr) seq done)
  have here := published (tokenList seq)
  rw [short] at here
  exact ⟨_, tokenize_ring_published (slot_count_nonzero power) done, here⟩

def wrappedRing : KllmRingHdr := ⟨4, 1, 3, 0, fun i => UInt32.ofNat (10 + i)⟩

theorem ring_batches_singly_wrapped : (kllmRingConsumeBatch wrappedRing 5).out = [13, 10] ∧
    (consumeTimes 2 wrappedRing).2 = [13, 10] ∧ (kllmRingConsumeBatch wrappedRing 5).hdr = (consumeTimes 2 wrappedRing).1 ∧
    (publishTokens wrappedRing [7, 8]).head = 2 ∧ (publishTokens wrappedRing [7, 8]).slots = (produceInTurn wrappedRing [7, 8]).slots := by
  have singly := ring_batches_singly wrappedRing ⟨2, rfl⟩ (by decide)
  have batch := singly.1 5
  have count : min (kllmRingAvailable wrappedRing).toNat (5 : UInt32).toNat = 2 := by decide
  rw [count] at batch
  refine ⟨by decide, by decide, by rw [batch], by decide, ?_⟩
  exact (singly.2.1 [7, 8]).1

end Kllm.Bpf
