import Mathlib
import Kllm.Lib.CircularBuffer
import Kllm.Chardev.ResponseRing

set_option autoImplicit false

namespace Kllm.Chardev

open CircularBuffer

theorem ring_power : ∃ k, (4096 : UInt32).toNat = 2 ^ k := ⟨12, rfl⟩

-- The indices of a ring that took hi tokens and released lo of them. One slot
-- stays empty.
structure RingAt (dev : KllmDevice) (hi lo : Nat) : Prop where
  mask : dev.respMask = 4095
  head : dev.respHead.toNat = hi % 4096
  tail : dev.respTail.toNat = lo % 4096
  order : lo ≤ hi
  spare : hi < lo + 4096

section
variable {dev : KllmDevice} {hi lo : Nat}

theorem ring_size (ring : RingAt dev hi lo) : dev.respMask + 1 = 4096 := by
  rw [ring.mask]
  rfl

theorem ring_count (ring : RingAt dev hi lo) : (respRingCount dev).toNat = hi - lo := by
  rw [respRingCount, circCnt, ring_size ring]
  exact masked_distance ring_power _ _ _ _ ring.head ring.tail ring.order ring.spare

theorem ring_space (ring : RingAt dev hi lo) : (respRingSpace dev).toNat = 4095 - (hi - lo) := by
  have regroup : dev.respTail - (dev.respHead + 1) = dev.respTail - dev.respHead - 1 := by grind
  rw [respRingSpace, circSpace, circCnt, ring_size ring, regroup]
  exact masked_space ring_power _ _ _ _ ring.head ring.tail ring.order ring.spare

theorem ring_room (ring : RingAt dev hi lo) (space : respRingSpace dev > 0) : hi + 1 < lo + 4096 := by
  have count := ring_space ring
  have some_ : 0 < (respRingSpace dev).toNat := UInt32.lt_iff_toNat_lt.mp space
  have order := ring.order
  omega

theorem ring_produced (ring : RingAt dev hi lo) (space : respRingSpace dev > 0) (token : UInt32) :
    RingAt (kllmRespProduce dev token) (hi + 1) lo := by
  have room := ring_room ring space
  have order := ring.order
  rw [kllmRespProduce, if_pos space]
  refine ⟨ring.mask, ?_, ring.tail, by omega, room⟩
  simp only [ring.mask]
  exact masked_forward ring_power dev.respHead 1 hi ring.head

theorem ring_closed (ring : RingAt dev hi lo) (toCopy : UInt32) (unread : lo + toCopy.toNat ≤ hi) :
    RingAt { dev with respTail := (dev.respTail + toCopy) &&& dev.respMask } hi (lo + toCopy.toNat) := by
  have spare := ring.spare
  refine ⟨ring.mask, ring.head, ?_, unread, by omega⟩
  simp only [ring.mask]
  exact masked_forward ring_power dev.respTail toCopy lo ring.tail

structure PlanFits (dev : KllmDevice) (plan : ReadPlan) : Prop where
  split : plan.first.toNat ≤ plan.toCopy.toNat
  short : plan.toCopy.toNat ≤ 4095
  upper : dev.respTail.toNat + plan.first.toNat ≤ 4096
  wraps : plan.first.toNat < plan.toCopy.toNat → dev.respTail.toNat + plan.first.toNat = 4096

theorem read_plan_unread (ring : RingAt dev hi lo) (want : UInt32) : lo + (readPlan dev want).toCopy.toNat ≤ hi := by
  have count := ring_count ring
  have order := ring.order
  have least : (readPlan dev want).toCopy.toNat ≤ (respRingCount dev).toNat := by
    simp only [readPlan]
    split
    · exact Nat.le_refl _
    · next more => exact UInt32.not_lt.mp more
  omega

theorem read_plan_last (ring : RingAt dev hi lo) (want : UInt32)
    (wraps : ¬ dev.respTail + (readPlan dev want).toCopy ≤ dev.respMask + 1) :
    dev.respTail.toNat + (readPlan dev want).first.toNat = 4096 := by
  have tail := ring.tail
  have whole : (4096 : UInt32).toNat = 4096 := rfl
  rw [read_plan_wrapped dev want wraps, ring_size ring,
    UInt32.toNat_sub_of_le _ _ (by rw [UInt32.le_iff_toNat_le, whole]; omega), whole]
  omega

theorem read_plan_fits (ring : RingAt dev hi lo) (want : UInt32) : PlanFits dev (readPlan dev want) := by
  have unread := read_plan_unread ring want
  have spare := ring.spare
  have size := ring_size ring
  have tail := ring.tail
  have whole : (4096 : UInt32).toNat = 4096 := rfl
  have sum : (dev.respTail + (readPlan dev want).toCopy).toNat = dev.respTail.toNat + (readPlan dev want).toCopy.toNat := by
    rw [UInt32.toNat_add, Nat.mod_eq_of_lt (by omega)]
  by_cases fits : dev.respTail + (readPlan dev want).toCopy ≤ dev.respMask + 1
  · have first := read_plan_single dev want fits
    rw [UInt32.le_iff_toNat_le, sum, size, whole] at fits
    exact ⟨by rw [first], by omega, by rw [first]; exact fits, by rw [first]; omega⟩
  · have last := read_plan_last ring want fits
    rw [UInt32.le_iff_toNat_le, sum, size, whole] at fits
    exact ⟨by omega, by omega, by omega, fun _ => last⟩

end

def tagged (tokens : List UInt32) : List Cell := tokens.zipIdx.map (fun entry => ⟨some entry.2, entry.1⟩)

theorem tagged_length (tokens : List UInt32) : (tagged tokens).length = tokens.length := by
  rw [tagged, List.length_map, List.length_zipIdx]

theorem tagged_append (tokens : List UInt32) (token : UInt32) :
    tagged (tokens ++ [token]) = tagged tokens ++ [⟨some tokens.length, token⟩] := by
  simp [tagged, List.zipIdx_append]

theorem tagged_prefix {tokens longer : List UInt32} (grown : tokens <+: longer) : tagged tokens <+: tagged longer := by
  obtain ⟨rest, rfl⟩ := grown
  rw [tagged, tagged, List.zipIdx_append, List.map_append]
  exact List.prefix_append _ _

theorem tagged_tokens (tokens : List UInt32) : (tagged tokens).map (fun cell => cell.token) = tokens := by
  rw [tagged, List.map_map]
  exact List.zipIdx_map_fst 0 tokens

theorem tagged_origins (tokens : List UInt32) :
    (tagged tokens).map (fun cell => cell.origin) = (List.range tokens.length).map some := by
  rw [tagged, List.map_map, List.range_eq_range', ← List.zipIdx_map_snd 0 tokens, List.map_map]
  rfl

def window (s : RespState) (n : Nat) : List Cell := ((tagged s.accepted).drop s.released).take n

-- No read has moved the tail since r took its window.
def Fresh (s : RespState) (r : Nat) : Prop := s.opened r = s.released

def ReaderOk (s : RespState) (r : Nat) : Prop :=
  match s.readers r with
  | .idle => True
  | .entered _ => True
  | .copySingle toCopy => Fresh s r →
      s.released + toCopy.toNat ≤ s.accepted.length ∧ s.released % 4096 + toCopy.toNat ≤ 4096
  | .copyFirst toCopy first => first.toNat ≤ toCopy.toNat ∧ (Fresh s r →
      s.released + toCopy.toNat ≤ s.accepted.length ∧ s.released % 4096 + first.toNat = 4096)
  | .copySecond toCopy first got => first.toNat ≤ toCopy.toNat ∧ got.length = first.toNat ∧ (Fresh s r →
      s.released + toCopy.toNat ≤ s.accepted.length ∧ s.released % 4096 + first.toNat = 4096 ∧
      got = window s first.toNat)
  | .closing toCopy got => got.length = toCopy.toNat ∧ (Fresh s r →
      s.released + toCopy.toNat ≤ s.accepted.length ∧ got = window s toCopy.toNat)

structure RespRep (s : RespState) : Prop where
  mask : s.dev.respMask = 4095
  head : s.dev.respHead.toNat = s.accepted.length % 4096
  tail : s.dev.respTail.toNat = s.released % 4096
  held : Holds 4096 (cellAt s) (tagged s.accepted) s.released
  spare : s.accepted.length < s.released + 4096
  handed : deliveredCells s = (tagged s.accepted).take s.released
  stamps : ∀ r, s.opened r ≤ s.released
  readers : ∀ r, ReaderOk s r

section
variable {s next : RespState} {r : Nat}

theorem released_le (rep : RespRep s) : s.released ≤ s.accepted.length := by
  have order := rep.held.order
  rwa [tagged_length] at order

theorem rep_ring (rep : RespRep s) : RingAt s.dev s.accepted.length s.released :=
  ⟨rep.mask, rep.head, rep.tail, released_le rep, rep.spare⟩

theorem resp_count (rep : RespRep s) : (respRingCount s.dev).toNat = s.accepted.length - s.released :=
  ring_count (rep_ring rep)

theorem window_stable (n : Nat) (grown : s.accepted <+: next.accepted) (same : next.released = s.released)
    (within : s.released + n ≤ s.accepted.length) : window next n = window s n := by
  obtain ⟨rest, whole⟩ := tagged_prefix grown
  have length := tagged_length s.accepted
  rw [window, window, same, ← whole, List.drop_append_of_le_length (by omega),
    List.take_append_of_le_length (by rw [List.length_drop]; omega)]

theorem reader_frame (ok : ReaderOk s r) (pc : next.readers r = s.readers r) (stamp : next.opened r = s.opened r)
    (grown : s.accepted <+: next.accepted) (fresh : Fresh next r → next.released = s.released) : ReaderOk next r := by
  have longer := grown.length_le
  have before : Fresh next r → Fresh s r := by
    intro now
    exact stamp.symm.trans (now.trans (fresh now))
  unfold ReaderOk at ok ⊢
  rw [pc]
  cases reader : s.readers r with
  | idle => trivial
  | entered want => trivial
  | copySingle toCopy =>
      rw [reader] at ok
      intro now
      have old := ok (before now)
      rw [fresh now]
      exact ⟨by omega, old.2⟩
  | copyFirst toCopy first =>
      rw [reader] at ok
      refine ⟨ok.1, ?_⟩
      intro now
      have old := ok.2 (before now)
      rw [fresh now]
      exact ⟨by omega, old.2⟩
  | copySecond toCopy first got =>
      rw [reader] at ok
      obtain ⟨split, size, ok⟩ := ok
      refine ⟨split, size, ?_⟩
      intro now
      obtain ⟨within, wraps, copied⟩ := ok (before now)
      rw [window_stable first.toNat grown (fresh now) (by omega), fresh now]
      exact ⟨by omega, wraps, copied⟩
  | closing toCopy got =>
      rw [reader] at ok
      refine ⟨ok.1, ?_⟩
      intro now
      obtain ⟨within, copied⟩ := ok.2 (before now)
      rw [window_stable toCopy.toNat grown (fresh now) within, fresh now]
      exact ⟨by omega, copied⟩

theorem resp_produce_readers (token : UInt32) : (respProduce s token).readers = s.readers := by
  unfold respProduce
  split <;> rfl

theorem resp_produce_rep (rep : RespRep s) (token : UInt32) : RespRep (respProduce s token) := by
  by_cases space : respRingSpace s.dev > 0
  · have ring := ring_produced (rep_ring rep) space token
    have room := ring_room (rep_ring rep) space
    have cells : cellAt (respProduce s token) =
        Function.update (cellAt s) ((tagged s.accepted).length % 4096) ⟨some s.accepted.length, token⟩ := by
      funext i
      rw [tagged_length, ← rep.head]
      by_cases here : i = s.dev.respHead.toNat
      · simp [cellAt, respProduce, kllmRespProduce, space, here]
      · simp [cellAt, respProduce, kllmRespProduce, space, here]
    have written := holds_write rep.held (by rw [tagged_length]; omega) ⟨some s.accepted.length, token⟩
    rw [← cells, ← tagged_append] at written
    have accepted : (respProduce s token).accepted = s.accepted ++ [token] := by simp only [respProduce, if_pos space]
    have length : (respProduce s token).accepted.length = s.accepted.length + 1 := by
      rw [accepted, List.length_append, List.length_singleton]
    have released : (respProduce s token).released = s.released := by simp only [respProduce, if_pos space]
    have device : (respProduce s token).dev = kllmRespProduce s.dev token := by simp only [respProduce, if_pos space]
    have grown : s.accepted <+: (respProduce s token).accepted := accepted ▸ List.prefix_append _ _
    refine ⟨?_, ?_, ?_, ?_, ?_, ?_, ?_, ?_⟩
    · rw [device]
      exact ring.mask
    · rw [device, length]
      exact ring.head
    · rw [device, released]
      exact ring.tail
    · rw [accepted, released]
      exact written
    · rw [length, released]
      exact room
    · rw [accepted, released, tagged_append, List.take_append_of_le_length (by rw [tagged_length]; exact released_le rep),
        ← rep.handed]
      simp only [respProduce, if_pos space, deliveredCells]
    · intro r
      simp only [respProduce, if_pos space]
      exact rep.stamps r
    · intro r
      apply reader_frame (rep.readers r) _ _ grown (fun _ => released)
      · simp only [respProduce, if_pos space]
      · simp only [respProduce, if_pos space]
  · have same : respProduce s token = s := by simp only [respProduce, kllmRespProduce, if_neg space]
    rw [same]
    exact rep

theorem copy_cells_length (first count : Nat) : (copyCells s first count).length = count := by
  rw [copyCells, List.length_map, List.length_range]

theorem open_window_ok (rep : RespRep s) (want : UInt32) :
    ReaderOk { setReader s r (openWindow s.dev want) with opened := Function.update s.opened r s.released } r := by
  have unread := read_plan_unread (rep_ring rep) want
  have fits := read_plan_fits (rep_ring rep) want
  have tail := rep.tail
  have upper := fits.upper
  rw [open_window_plan]
  split
  · next single =>
      rw [read_plan_single s.dev want single] at upper
      simp only [ReaderOk, setReader, Function.update_self]
      intro _
      exact ⟨unread, by omega⟩
  · next wrapped =>
      rw [← read_plan_wrapped s.dev want wrapped]
      simp only [ReaderOk, setReader, Function.update_self]
      refine ⟨fits.split, ?_⟩
      intro _
      exact ⟨unread, tail ▸ read_plan_last (rep_ring rep) want wrapped⟩

theorem copy_cells_window (rep : RespRep s) (n : Nat) (within : s.released + n ≤ s.accepted.length)
    (contiguous : s.released % 4096 + n ≤ 4096) : copyCells s s.dev.respTail.toNat n = window s n := by
  rw [rep.tail]
  exact holds_window rep.held s.released n _ (Nat.le_refl _) (by rw [tagged_length]; exact within) rfl contiguous

theorem copy_cells_wrapped (rep : RespRep s) (first second : Nat) (within : s.released + first + second ≤ s.accepted.length)
    (wraps : s.released % 4096 + first = 4096) :
    window s first ++ copyCells s 0 second = window s (first + second) := by
  have spare := rep.spare
  have start : (s.released + first) % 4096 = 0 := by omega
  have copied := holds_window rep.held (s.released + first) second 0 (by omega) (by rw [tagged_length]; exact within) start
    (by omega)
  rw [copyCells, copied, window, window, List.take_add, List.drop_drop]

end

-- A read may advance the tail only if no other read has done so since it took
-- its window.
def Undisturbed (s : RespState) (r : Nat) : Prop :=
  ∀ toCopy got, s.readers r = .closing toCopy got → toCopy = 0 ∨ s.opened r = s.released

section
variable {s next : RespState} {r : Nat}

theorem set_reader_rep (rep : RespRep s) (pc : ReaderPc) (ok : ReaderOk (setReader s r pc) r) : RespRep (setReader s r pc) := by
  refine ⟨rep.mask, rep.head, rep.tail, rep.held, rep.spare, rep.handed, rep.stamps, ?_⟩
  intro other
  by_cases here : other = r
  · rw [here]
    exact ok
  · exact reader_frame (rep.readers other) (by simp only [setReader, Function.update_of_ne here]) rfl (List.prefix_refl _)
      (fun _ => rfl)

theorem open_window_rep (rep : RespRep s) (want : UInt32) :
    RespRep { setReader s r (openWindow s.dev want) with opened := Function.update s.opened r s.released } := by
  refine ⟨rep.mask, rep.head, rep.tail, rep.held, rep.spare, rep.handed, ?_, ?_⟩
  · intro other
    by_cases here : other = r
    · simp only [here, Function.update_self, setReader, Nat.le_refl]
    · simp only [Function.update_of_ne here]
      exact rep.stamps other
  · intro other
    by_cases here : other = r
    · rw [here]
      exact open_window_ok rep want
    · exact reader_frame (rep.readers other) (by simp only [setReader, Function.update_of_ne here])
        (by simp only [Function.update_of_ne here]) (List.prefix_refl _) (fun _ => rfl)

theorem close_window_rep (rep : RespRep s) (toCopy : UInt32) (got : List Cell) (pc : s.readers r = .closing toCopy got)
    (calm : Undisturbed s r) : RespRep (closeWindow s r toCopy got) := by
  have ok := rep.readers r
  unfold ReaderOk at ok
  rw [pc] at ok
  obtain ⟨size, copied⟩ := ok
  -- An empty window closes harmlessly, whatever happened meanwhile.
  have handed : s.released + toCopy.toNat ≤ s.accepted.length ∧ got = window s toCopy.toNat := by
    rcases calm toCopy got pc with empty | fresh
    · have zero : toCopy.toNat = 0 := by rw [empty]; rfl
      rw [zero] at size ⊢
      exact ⟨released_le rep, by rw [List.length_eq_zero_iff.mp size, window, List.take_zero]⟩
    · exact copied fresh
  obtain ⟨within, cells⟩ := handed
  have ring := ring_closed (rep_ring rep) toCopy within
  refine ⟨ring.mask, ring.head, ring.tail, ?_, ring.spare, ?_, ?_, ?_⟩
  · exact holds_advance rep.held _ (by simp only [closeWindow]; omega)
      (by simp only [closeWindow, setReader]; rw [tagged_length]; exact within)
  · have earlier := rep.handed
    simp only [deliveredCells] at earlier
    simp only [closeWindow, setReader, deliveredCells, List.flatMap_append, List.flatMap_singleton, earlier]
    rw [cells, window, ← List.take_add]
  · intro other
    have stamp := rep.stamps other
    simp only [closeWindow, setReader]
    omega
  · intro other
    by_cases here : other = r
    · rw [here]
      simp only [ReaderOk, closeWindow, setReader, Function.update_self]
    · refine reader_frame (rep.readers other) ?_ ?_ ?_ ?_
      · simp only [closeWindow, setReader, Function.update_of_ne here]
      · simp only [closeWindow, setReader]
      · exact List.prefix_refl _
      · intro fresh
        have stamp := rep.stamps other
        simp only [Fresh, closeWindow, setReader] at fresh ⊢
        omega

theorem read_step_rep (rep : RespRep s) (step : ReadStep r s next) (calm : Undisturbed s r) : RespRep next := by
  have ok := rep.readers r
  unfold ReaderOk at ok
  cases step with
  | enter count pc some_ ready =>
      exact set_reader_rep rep _ (by simp only [ReaderOk, setReader, Function.update_self])
  | openWindow want pc => exact open_window_rep rep want
  | copySingle toCopy pc =>
      rw [pc] at ok
      apply set_reader_rep rep
      simp only [ReaderOk, setReader, Function.update_self]
      refine ⟨copy_cells_length _ _, ?_⟩
      intro fresh
      obtain ⟨within, contiguous⟩ := ok fresh
      exact ⟨within, copy_cells_window rep _ within contiguous⟩
  | copyFirst toCopy first pc =>
      rw [pc] at ok
      obtain ⟨split, ok⟩ := ok
      apply set_reader_rep rep
      simp only [ReaderOk, setReader, Function.update_self]
      refine ⟨split, copy_cells_length _ _, ?_⟩
      intro fresh
      obtain ⟨within, wraps⟩ := ok fresh
      exact ⟨within, wraps, copy_cells_window rep _ (by omega) (by omega)⟩
  | copySecond toCopy first got pc =>
      rw [pc] at ok
      obtain ⟨split, size, ok⟩ := ok
      have second : (toCopy - first).toNat = toCopy.toNat - first.toNat :=
        UInt32.toNat_sub_of_le _ _ (UInt32.le_iff_toNat_le.mpr split)
      apply set_reader_rep rep
      simp only [ReaderOk, setReader, Function.update_self]
      refine ⟨by rw [List.length_append, copy_cells_length]; omega, ?_⟩
      intro fresh
      obtain ⟨within, wraps, copied⟩ := ok fresh
      refine ⟨within, ?_⟩
      rw [copied, copy_cells_wrapped rep _ _ (by omega) wraps, second, Nat.add_sub_cancel' split]
      rfl
  | faultSingle toCopy pc => exact set_reader_rep rep _ (by simp only [ReaderOk, setReader, Function.update_self])
  | faultFirst toCopy first pc => exact set_reader_rep rep _ (by simp only [ReaderOk, setReader, Function.update_self])
  | faultSecond toCopy first got pc =>
      exact set_reader_rep rep _ (by simp only [ReaderOk, setReader, Function.update_self])
  | closeWindow toCopy got pc => exact close_window_rep rep toCopy got pc calm

end

def SoleReader (s : RespState) (r : Nat) : Prop :=
  match s.readers r with
  | .idle => True
  | .entered _ => True
  | _ => Fresh s r

section
variable {s next : RespState} {r : Nat}

theorem sole_reader_calm (sole : SoleReader s r) : Undisturbed s r := by
  intro toCopy got pc
  unfold SoleReader at sole
  rw [pc] at sole
  exact Or.inr sole

theorem sole_reader_produce (sole : SoleReader s r) (token : UInt32) : SoleReader (respProduce s token) r := by
  have same : (respProduce s token).opened = s.opened ∧ (respProduce s token).released = s.released := by
    unfold respProduce
    split <;> exact ⟨rfl, rfl⟩
  unfold SoleReader Fresh at sole ⊢
  rw [resp_produce_readers, same.1, same.2]
  exact sole

theorem sole_reader_step (sole : SoleReader s r) (step : ReadStep r s next) : SoleReader next r := by
  unfold SoleReader Fresh at sole ⊢
  cases step with
  | enter count pc some_ ready => simp only [setReader, Function.update_self]
  | openWindow want pc =>
      simp only [setReader, Function.update_self]
      split <;> trivial
  | copySingle toCopy pc =>
      rw [pc] at sole
      simpa only [setReader, Function.update_self] using sole
  | copyFirst toCopy first pc =>
      rw [pc] at sole
      simpa only [setReader, Function.update_self] using sole
  | copySecond toCopy first got pc =>
      rw [pc] at sole
      simpa only [setReader, Function.update_self] using sole
  | faultSingle toCopy pc => simp only [setReader, Function.update_self]
  | faultFirst toCopy first pc => simp only [setReader, Function.update_self]
  | faultSecond toCopy first got pc => simp only [setReader, Function.update_self]
  | closeWindow toCopy got pc => simp only [closeWindow, setReader, Function.update_self]

end

theorem created_resp_rep : RespRep createdResp := by
  refine ⟨rfl, rfl, rfl, holds_empty _ _, ?_, rfl, fun _ => Nat.le_refl _, fun _ => trivial⟩
  simp [createdResp]

theorem resp_run_rep (s : RespState) (run : RespRun Undisturbed s) : RespRep s := by
  induction run with
  | created => exact created_resp_rep
  | produce s token previous ih => exact resp_produce_rep ih token
  | read s next r previous permitted step ih => exact read_step_rep ih step permitted

def DeliveredOnce (s : RespState) : Prop :=
  ∀ index, ((deliveredCells s).map (fun cell => cell.origin)).count (some index) ≤ 1

def CountExact (s : RespState) : Prop :=
  (∀ r, s.readers r = .idle) → (respRingCount s.dev).toNat + (deliveredCells s).length = s.accepted.length

theorem rep_delivered_once (s : RespState) (rep : RespRep s) : DeliveredOnce s := by
  intro index
  rw [rep.handed, List.map_take, tagged_origins]
  have distinct : ((List.range s.accepted.length).map some).Nodup :=
    List.nodup_range.map (Option.some_injective _)
  exact List.nodup_iff_count_le_one.mp (distinct.sublist (List.take_sublist _ _)) (some index)

theorem rep_delivered_length (s : RespState) (rep : RespRep s) : (deliveredCells s).length = s.released := by
  rw [rep.handed, List.length_take, tagged_length, Nat.min_eq_left (released_le rep)]

theorem rep_contents (s : RespState) (rep : RespRep s) : deliveredTokens s ++ respContents s.dev = s.accepted := by
  have order := released_le rep
  have spare := rep.spare
  have whole := holds_contents rep.held s.accepted.length order (by rw [tagged_length])
  rw [List.take_of_length_le (by rw [tagged_length])] at whole
  have tokens := congrArg (List.map (fun cell => cell.token)) whole
  rw [tagged_tokens, List.map_append, ← rep.handed, List.map_map] at tokens
  rw [tokens, deliveredTokens, respContents, resp_count rep]
  congr 1
  apply List.map_congr_left
  intro i inside
  rw [List.mem_range] at inside
  have place := masked_forward ring_power s.dev.respTail (UInt32.ofNat i) _ rep.tail
  rw [UInt32.toNat_ofNat_of_lt' (by omega : i < 2 ^ 32)] at place
  rw [rep.mask]
  exact congrArg s.dev.respRing place

theorem resp_run_delivers_once (s : RespState) (run : RespRun Undisturbed s) :
    DeliveredOnce s ∧ CountExact s ∧ deliveredTokens s ++ respContents s.dev = s.accepted := by
  have rep := resp_run_rep s run
  have order := released_le rep
  refine ⟨rep_delivered_once s rep, ?_, rep_contents s rep⟩
  intro _
  rw [resp_count rep, rep_delivered_length s rep]
  omega

theorem calm_until_close {s : RespState} {r : Nat} (pc : ∀ toCopy got, s.readers r ≠ .closing toCopy got) :
    Undisturbed s r :=
  fun toCopy got here => absurd here (pc toCopy got)

theorem shared_run : ∃ s, RespRun Undisturbed s ∧ s.accepted = [7, 8, 9] ∧
    s.delivered = [⟨0, [⟨some 0, 7⟩, ⟨some 1, 8⟩]⟩, ⟨1, [⟨some 2, 9⟩]⟩] :=
  ⟨_, .read _ _ 1 (.read _ _ 1 (.read _ _ 1 (.read _ _ 1 (.read _ _ 0 (.read _ _ 0 (.read _ _ 0 (.read _ _ 0
    (.produce _ 9 (.produce _ 8 (.produce _ 7 .created)))
    (calm_until_close nofun) (.enter 8 rfl (by decide) (by decide))) (calm_until_close nofun) (.openWindow 2 rfl))
    (calm_until_close nofun) (.copySingle 2 rfl)) (fun _ _ _ => Or.inr rfl) (.closeWindow 2 [⟨some 0, 7⟩, ⟨some 1, 8⟩] rfl))
    (calm_until_close nofun) (.enter 8 rfl (by decide) (by decide))) (calm_until_close nofun) (.openWindow 2 rfl))
    (calm_until_close nofun) (.copySingle 1 rfl)) (fun _ _ _ => Or.inr rfl) (.closeWindow 1 [⟨some 2, 9⟩] rfl), rfl, rfl⟩

theorem resp_run_delivers_once_shared : ∃ s, deliveredTokens s = [7, 8, 9] ∧ DeliveredOnce s ∧ CountExact s ∧
    [7, 8, 9] ++ respContents s.dev = [7, 8, 9] := by
  obtain ⟨s, run, accepted, delivered⟩ := shared_run
  obtain ⟨once, count, order⟩ := resp_run_delivers_once s run
  have tokens : deliveredTokens s = [7, 8, 9] := by rw [deliveredTokens, deliveredCells, delivered]; rfl
  rw [tokens, accepted] at order
  exact ⟨s, tokens, once, count, order⟩

theorem raced_run : ∃ s, RespRun (fun _ _ => True) s ∧ (∀ r, s.readers r = .idle) ∧
    deliveredCells s = [⟨some 0, 7⟩, ⟨some 0, 7⟩] ∧ respRingCount s.dev = 4095 ∧ s.accepted = [7] := by
  refine ⟨_, .read _ _ 1 (.read _ _ 0 (.read _ _ 1 (.read _ _ 0 (.read _ _ 1 (.read _ _ 0 (.read _ _ 1 (.read _ _ 0
    (.produce _ 7 .created) trivial (.enter 4 rfl (by decide) (by decide))) trivial (.enter 4 rfl (by decide) (by decide)))
    trivial (.openWindow 1 rfl)) trivial (.openWindow 1 rfl)) trivial (.copySingle 1 rfl)) trivial (.copySingle 1 rfl))
    trivial (.closeWindow 1 [⟨some 0, 7⟩] rfl)) trivial (.closeWindow 1 [⟨some 0, 7⟩] rfl), ?_, rfl, rfl, rfl⟩
  intro r
  by_cases one : r = 1
  · rw [one]
    rfl
  · by_cases zero : r = 0
    · rw [zero]
      rfl
    · simp [closeWindow, setReader, one, zero, resp_produce_readers, createdResp]

-- Both get the token, and the tail ends up past the head: 4095 tokens seem unread.
theorem overlapping_reads_duplicate : ∃ s, RespRun (fun _ _ => True) s ∧ ¬ DeliveredOnce s ∧ ¬ CountExact s := by
  obtain ⟨s, run, idle, cells, count, accepted⟩ := raced_run
  refine ⟨s, run, ?_, ?_⟩
  · intro once
    have twice := once 0
    rw [cells] at twice
    exact absurd twice (by decide)
  · intro counted
    have total := counted idle
    rw [cells, count, accepted] at total
    exact absurd total (by decide)

end Kllm.Chardev
