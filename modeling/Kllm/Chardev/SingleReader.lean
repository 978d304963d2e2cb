import Mathlib
import Kllm.Lib.CircularBuffer
import Kllm.Chardev.ResponseRing
import Kllm.Chardev.ResponseReads

set_option autoImplicit false

namespace Kllm.Chardev

open CircularBuffer

-- One caller of kllm_read, with the copies run a word at a time: a call that
-- waits for a token, one that saw some, one that is copying its window.
inductive SinglePc where
  | idle
  | waiting (want : UInt32)
  | ready (want : UInt32)
  | copying (plan : ReadPlan) (got : List UInt32)
  deriving DecidableEq, Repr

-- The fields after pc record the history and steer nothing: the tokens
-- accepted, the data of each successful read, how many tokens the reads have
-- released in all, and the tail when the read in progress was called.
structure SingleState where
  dev : KllmDevice
  pc : SinglePc
  accepted : List UInt32
  reads : List (List UInt32)
  released : Nat
  entryTail : UInt32

def createdSingle : SingleState := ⟨createdDevice, .idle, [], [], 0, 0⟩

def singleProduce (s : SingleState) (token : UInt32) : SingleState :=
  if respRingSpace s.dev > 0 then { s with dev := kllmRespProduce s.dev token, accepted := s.accepted ++ [token] }
  else { s with dev := kllmRespProduce s.dev token }

-- The slot of a window's k-th word. Both copies read the tail anew, but only
-- the reader itself moves it.
def planSlot (dev : KllmDevice) (plan : ReadPlan) (k : Nat) : Nat :=
  if k < plan.first.toNat then dev.respTail.toNat + k else k - plan.first.toNat

def singleClose (s : SingleState) (plan : ReadPlan) (got : List UInt32) : SingleState :=
  { s with
    dev := { s.dev with respTail := (s.dev.respTail + plan.toCopy) &&& s.dev.respMask }
    pc := .idle
    reads := s.reads ++ [got]
    released := s.released + plan.toCopy.toNat }

-- The returns below zero: EAGAIN on an empty ring, a wait cut short by a
-- signal, EFAULT from either copy after any number of words.
inductive ErrorReturn (s : SingleState) : SingleState → Prop where
  | again (want : UInt32) (pc : s.pc = .waiting want) (empty : respRingCount s.dev = 0) :
      ErrorReturn s { s with pc := .idle }
  | interrupted (want : UInt32) (pc : s.pc = .waiting want) : ErrorReturn s { s with pc := .idle }
  | fault (plan : ReadPlan) (got : List UInt32) (pc : s.pc = .copying plan got) : ErrorReturn s { s with pc := .idle }

inductive SingleStep (s : SingleState) : SingleState → Prop where
  | produce (token : UInt32) : SingleStep s (singleProduce s token)
  | callNothing (count : UInt64) (pc : s.pc = .idle) (none_ : count &&& ~~~3 = 0) :
      SingleStep s { s with reads := s.reads ++ [[]] }
  | call (count : UInt64) (pc : s.pc = .idle) (some_ : count &&& ~~~3 ≠ 0) :
      SingleStep s { s with pc := .waiting ((count &&& ~~~3) / 4).toUInt32, entryTail := s.dev.respTail }
  | wake (want : UInt32) (pc : s.pc = .waiting want) (some_ : 0 < respRingCount s.dev) :
      SingleStep s { s with pc := .ready want }
  | openWindow (want : UInt32) (pc : s.pc = .ready want) :
      SingleStep s { s with pc := .copying (readPlan s.dev want) [] }
  | copyWord (plan : ReadPlan) (got : List UInt32) (pc : s.pc = .copying plan got)
      (more : got.length < plan.toCopy.toNat) :
      SingleStep s { s with pc := .copying plan (got ++ [s.dev.respRing (planSlot s.dev plan got.length)]) }
  | close (plan : ReadPlan) (got : List UInt32) (pc : s.pc = .copying plan got)
      (done : got.length = plan.toCopy.toNat) : SingleStep s (singleClose s plan got)
  | error (next : SingleState) (returned : ErrorReturn s next) : SingleStep s next

inductive SingleRun : SingleState → Prop where
  | created : SingleRun createdSingle
  | step (s next : SingleState) (previous : SingleRun s) (move : SingleStep s next) : SingleRun next

structure Copying (s : SingleState) (plan : ReadPlan) (got : List UInt32) : Prop where
  unread : s.released + plan.toCopy.toNat ≤ s.accepted.length
  fits : PlanFits s.dev plan
  within : got.length ≤ plan.toCopy.toNat
  copied : got <+: s.accepted.drop s.released

structure SingleRep (s : SingleState) : Prop where
  ring : RingAt s.dev s.accepted.length s.released
  held : Holds 4096 s.dev.respRing s.accepted s.released
  handed : s.reads.flatten = s.accepted.take s.released
  entry : s.pc ≠ .idle → s.entryTail = s.dev.respTail
  reader : ∀ plan got, s.pc = .copying plan got → Copying s plan got

section
variable {s next : SingleState} {plan : ReadPlan} {got : List UInt32}

theorem plan_slot (ring : RingAt s.dev s.accepted.length s.released) (fits : PlanFits s.dev plan) (k : Nat)
    (inside : k < plan.toCopy.toNat) : planSlot s.dev plan k = (s.released + k) % 4096 := by
  have tail := ring.tail
  have upper := fits.upper
  have wraps := fits.wraps
  have short := fits.short
  unfold planSlot
  split <;> omega

theorem window_apart (rep : SingleRep s) (reader : Copying s plan got) (space : respRingSpace s.dev > 0) (k : Nat)
    (inside : k < plan.toCopy.toNat) : planSlot s.dev plan k ≠ s.dev.respHead.toNat := by
  have room := ring_room rep.ring space
  have unread := reader.unread
  rw [plan_slot rep.ring reader.fits k inside, rep.ring.head]
  exact residue_apart _ _ (by omega) (by omega)

theorem copy_word_copied (rep : SingleRep s) (reader : Copying s plan got) (more : got.length < plan.toCopy.toNat) :
    got ++ [s.dev.respRing (planSlot s.dev plan got.length)] <+: s.accepted.drop s.released := by
  have unread := reader.unread
  apply prefix_snoc _ _ _ reader.copied
  rw [List.getElem?_drop, plan_slot rep.ring reader.fits got.length more]
  exact holds_read rep.held _ (by omega) (by omega)

theorem set_pc_rep (rep : SingleRep s) (pc : SinglePc) (entry : pc ≠ .idle → s.entryTail = s.dev.respTail)
    (reader : ∀ plan got, pc = .copying plan got → Copying s plan got) : SingleRep { s with pc := pc } := by
  refine ⟨rep.ring, rep.held, rep.handed, entry, ?_⟩
  intro plan got here
  have old := reader plan got here
  exact ⟨old.unread, old.fits, old.within, old.copied⟩

theorem produce_rep (rep : SingleRep s) (token : UInt32) : SingleRep (singleProduce s token) := by
  by_cases space : respRingSpace s.dev > 0
  · have ring := ring_produced rep.ring space token
    have room := ring_room rep.ring space
    have order := rep.ring.order
    have device : (kllmRespProduce s.dev token).respRing = Function.update s.dev.respRing (s.accepted.length % 4096) token ∧
        (kllmRespProduce s.dev token).respTail = s.dev.respTail := by
      rw [kllmRespProduce, if_pos space, ← rep.ring.head]
      exact ⟨rfl, rfl⟩
    rw [singleProduce, if_pos space]
    refine ⟨?_, ?_, ?_, ?_, ?_⟩
    · simpa only [List.length_append, List.length_singleton] using ring
    · simp only [device.1]
      exact holds_write rep.held (by omega) token
    · simp only [List.take_append_of_le_length order]
      exact rep.handed
    · simp only [device.2]
      exact rep.entry
    · intro plan got here
      have old := rep.reader plan got here
      have unread := old.unread
      have fits := old.fits
      refine ⟨?_, ⟨fits.split, fits.short, ?_, ?_⟩, old.within, ?_⟩
      · simp only [List.length_append, List.length_singleton]
        omega
      · simpa only [device.2] using fits.upper
      · simpa only [device.2] using fits.wraps
      · simp only [List.drop_append_of_le_length order]
        exact old.copied.trans (List.prefix_append _ _)
  · have same : singleProduce s token = s := by simp only [singleProduce, kllmRespProduce, if_neg space]
    rw [same]
    exact rep

theorem close_rep (rep : SingleRep s) (reader : Copying s plan got) (done : got.length = plan.toCopy.toNat) :
    SingleRep (singleClose s plan got) := by
  have unread := reader.unread
  have data : got = (s.accepted.drop s.released).take plan.toCopy.toNat := by
    rw [← done]
    exact List.prefix_iff_eq_take.mp reader.copied
  refine ⟨ring_closed rep.ring plan.toCopy unread, holds_advance rep.held _ (by simp only [singleClose]; omega) unread,
    ?_, fun active => absurd rfl active, nofun⟩
  simp only [singleClose, List.flatten_append, List.flatten_singleton, rep.handed]
  rw [List.take_add, ← data]

theorem single_step_rep (rep : SingleRep s) (move : SingleStep s next) : SingleRep next := by
  cases move with
  | produce token => exact produce_rep rep token
  | callNothing count pc none_ =>
      refine ⟨rep.ring, rep.held, ?_, rep.entry, ?_⟩
      · simpa only [List.flatten_append, List.flatten_singleton, List.append_nil] using rep.handed
      · intro plan got here
        rw [pc] at here
        cases here
  | call count pc some_ => exact ⟨rep.ring, rep.held, rep.handed, fun _ => rfl, nofun⟩
  | wake want pc some_ => exact set_pc_rep rep _ (fun _ => rep.entry (by rw [pc]; nofun)) nofun
  | openWindow want pc =>
      apply set_pc_rep rep _ (fun _ => rep.entry (by rw [pc]; nofun))
      intro plan got here
      cases here
      exact ⟨read_plan_unread rep.ring want, read_plan_fits rep.ring want, Nat.zero_le _, List.nil_prefix⟩
  | copyWord plan got pc more =>
      have reader := rep.reader plan got pc
      apply set_pc_rep rep _ (fun _ => rep.entry (by rw [pc]; nofun))
      intro plan got here
      cases here
      refine ⟨reader.unread, reader.fits, ?_, copy_word_copied rep reader more⟩
      rw [List.length_append, List.length_singleton]
      exact more
  | close plan got pc done => exact close_rep rep (rep.reader plan got pc) done
  | error next returned =>
      cases returned with
      | again want pc empty => exact set_pc_rep rep _ (fun active => absurd rfl active) nofun
      | interrupted want pc => exact set_pc_rep rep _ (fun active => absurd rfl active) nofun
      | fault plan got pc => exact set_pc_rep rep _ (fun active => absurd rfl active) nofun

theorem created_single_rep : SingleRep createdSingle :=
  ⟨⟨rfl, rfl, rfl, Nat.le_refl _, by decide⟩, holds_empty _ _, rfl, fun active => absurd rfl active, nofun⟩

theorem single_run_rep (run : SingleRun s) : SingleRep s := by
  induction run with
  | created => exact created_single_rep
  | step s next previous move ih => exact single_step_rep ih move

theorem rep_reads_length (rep : SingleRep s) : s.reads.flatten.length = s.released := by
  rw [rep.handed, List.length_take, Nat.min_eq_left rep.ring.order]

theorem error_return_unchanged (rep : SingleRep s) (returned : ErrorReturn s next) :
    next.dev = s.dev ∧ next.reads = s.reads ∧ s.entryTail = s.dev.respTail := by
  cases returned with
  | again want pc empty => exact ⟨rfl, rfl, rep.entry (by rw [pc]; nofun)⟩
  | interrupted want pc => exact ⟨rfl, rfl, rep.entry (by rw [pc]; nofun)⟩
  | fault plan got pc => exact ⟨rfl, rfl, rep.entry (by rw [pc]; nofun)⟩

theorem index_within (index mask : UInt32) (n : Nat) (size : mask = 4095) (here : index.toNat = n % 4096) : index ≤ mask := by
  rw [size, UInt32.le_iff_toNat_le, here]
  exact Nat.le_of_lt_succ (Nat.mod_lt n (by decide))

end

theorem single_reader_run (s : SingleState) (run : SingleRun s) :
    s.reads.flatten <+: s.accepted ∧
    (∀ next, ErrorReturn s next → next.dev = s.dev ∧ next.reads = s.reads ∧ s.entryTail = s.dev.respTail) ∧
    (∀ plan got, s.pc = .copying plan got → respRingSpace s.dev > 0 →
      ∀ k, k < plan.toCopy.toNat → planSlot s.dev plan k ≠ s.dev.respHead.toNat) ∧
    s.dev.respHead ≤ s.dev.respMask ∧ s.dev.respTail ≤ s.dev.respMask ∧
    (respRingCount s.dev).toNat + s.reads.flatten.length = s.accepted.length ∧
    (respRingCount s.dev).toNat ≤ s.dev.respMask.toNat := by
  have rep := single_run_rep run
  refine ⟨rep.handed ▸ List.take_prefix _ _, fun next returned => error_return_unchanged rep returned, ?_,
    index_within _ _ _ rep.ring.mask rep.ring.head, index_within _ _ _ rep.ring.mask rep.ring.tail, ?_, ?_⟩
  · intro plan got pc space k inside
    exact window_apart rep (rep.reader plan got pc) space k inside
  · rw [ring_count rep.ring, rep_reads_length rep]
    exact Nat.sub_add_cancel rep.ring.order
  · have spare := rep.ring.spare
    have full : s.dev.respMask.toNat = 4095 := by rw [rep.ring.mask]; rfl
    rw [ring_count rep.ring, full]
    omega

theorem single_reader_run_overlap :
    ∃ s, SingleRun s ∧ s.reads = [[7]] ∧ s.accepted = [7, 8] ∧ s.reads.flatten <+: s.accepted := by
  let produced := singleProduce createdSingle 7
  let called : SingleState := { produced with pc := .waiting 2, entryTail := produced.dev.respTail }
  let woken : SingleState := { called with pc := .ready 2 }
  let opened : SingleState := { woken with pc := .copying (readPlan woken.dev 2) [] }
  let overlapped := singleProduce opened 8
  let word := overlapped.dev.respRing (planSlot overlapped.dev ⟨1, 1⟩ 0)
  let copied : SingleState := { overlapped with pc := .copying ⟨1, 1⟩ [word] }
  have run : SingleRun (singleClose copied ⟨1, 1⟩ [word]) := by
    refine .step copied _ (.step overlapped _ (.step opened _ (.step woken _ (.step called _ (.step produced _
      (.step createdSingle _ .created (.produce 7)) ?_) ?_) ?_) (.produce 8)) ?_) ?_
    · exact .call 8 rfl (by decide)
    · exact .wake 2 rfl (by decide)
    · exact .openWindow 2 rfl
    · exact .copyWord ⟨1, 1⟩ [] (by decide +kernel) (by decide)
    · exact .close ⟨1, 1⟩ [word] rfl rfl
  exact ⟨_, run, by decide +kernel, by decide +kernel, (single_reader_run _ run).1⟩

end Kllm.Chardev
