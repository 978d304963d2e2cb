import Mathlib
import Kllm.Chardev.ResponseReads

set_option autoImplicit false

namespace Kllm.Reactor

open Chardev

def emitChunk : Nat := 256

def eosSentinel : UInt32 := 0xffffffff

inductive ResponseCall where
  | emitOne (token : UInt32)
  | eos
  deriving DecidableEq, Repr

def callToken : ResponseCall → UInt32
  | .emitOne token => token
  | .eos => eosSentinel

-- A call in progress: its tokens, those the ring took so far, and how many the
-- ring dropped.
structure EmitCall where
  tokens : List UInt32
  stored : List UInt32
  dropped : Nat
  deriving DecidableEq, Repr

structure EmitRecord where
  call : EmitCall
  ok : Bool
  deriving DecidableEq, Repr

-- Where the emitter stands: at the head of the chunk loop, inside the ioctl's
-- token loop, or before the end marker's ioctl.
inductive EmitterPc where
  | idle
  | emit (call : EmitCall) (rest : List UInt32)
  | produce (call : EmitCall) (chunk rest : List UInt32)
  | eos
  deriving DecidableEq, Repr

structure EmitState where
  resp : RespState
  emitter : EmitterPc
  calls : List EmitRecord

def createdEmit : EmitState := ⟨createdResp, .idle, []⟩

def finishCall (s : EmitState) (call : EmitCall) (ok : Bool) : EmitState :=
  { s with emitter := .idle, calls := s.calls ++ [⟨call, ok⟩] }

-- kllm_resp_produce reports nothing; this is what it did.
def noteProduce (dev : KllmDevice) (call : EmitCall) (token : UInt32) : EmitCall :=
  if respRingSpace dev > 0 then { call with stored := call.stored ++ [token] }
  else { call with dropped := call.dropped + 1 }

inductive EmitStep (s : EmitState) : EmitState → Prop where
  | emitCall (tokens : List UInt32) (pc : s.emitter = .idle) (count : tokens.length < 2 ^ 32) :
      EmitStep s { s with emitter := .emit ⟨tokens, [], 0⟩ tokens }
  | emitReturn (call : EmitCall) (pc : s.emitter = .emit call []) : EmitStep s (finishCall s call true)
  | emitIoctl (call : EmitCall) (rest : List UInt32) (pc : s.emitter = .emit call rest) (more : rest ≠ [])
      (valid : (rest.take emitChunk).length ≤ 256) :
      EmitStep s { s with emitter := .produce call (rest.take emitChunk) (rest.drop emitChunk) }
  | emitFault (call : EmitCall) (rest : List UInt32) (pc : s.emitter = .emit call rest) (more : rest ≠ []) :
      EmitStep s (finishCall s call false)
  | emitProduce (call : EmitCall) (token : UInt32) (chunk rest : List UInt32)
      (pc : s.emitter = .produce call (token :: chunk) rest) :
      EmitStep s { s with
        resp := respProduce s.resp token, emitter := .produce (noteProduce s.resp.dev call token) chunk rest }
  | emitNext (call : EmitCall) (rest : List UInt32) (pc : s.emitter = .produce call [] rest) :
      EmitStep s { s with emitter := .emit call rest }
  | eosCall (pc : s.emitter = .idle) : EmitStep s { s with emitter := .eos }
  | eosProduce (pc : s.emitter = .eos) :
      EmitStep s (finishCall { s with resp := respProduce s.resp eosSentinel }
        (noteProduce s.resp.dev ⟨[eosSentinel], [], 0⟩ eosSentinel) true)
  | eosFault (pc : s.emitter = .eos) : EmitStep s (finishCall s ⟨[eosSentinel], [], 0⟩ false)

inductive EmitRun : List EmitState → EmitState → Prop where
  | created : EmitRun [] createdEmit
  | emit (visited : List EmitState) (s next : EmitState) (previous : EmitRun visited s) (step : EmitStep s next) :
      EmitRun (visited ++ [s]) next
  | read (visited : List EmitState) (s : EmitState) (next : RespState) (previous : EmitRun visited s)
      (step : ReadStep 0 s.resp next) : EmitRun (visited ++ [s]) { s with resp := next }

def promised (record : EmitRecord) : List UInt32 := if record.ok then record.call.tokens else []

def Lossless (s : EmitState) : Prop :=
  deliveredTokens s.resp ++ respContents s.resp.dev = s.calls.flatMap promised

-- A call that succeeds met a full ring at none of its tokens; a call that
-- fails left nothing behind.
def Faithful (record : EmitRecord) : Prop :=
  if record.ok then record.call.dropped = 0 else record.call.stored = []

def inProgress : EmitterPc → List UInt32
  | .idle => []
  | .emit call _ => call.stored
  | .produce call _ _ => call.stored
  | .eos => []

def CallOk (call : EmitCall) (rest : List UInt32) : Prop :=
  ∃ sent, call.tokens = sent ++ rest ∧ call.stored.Sublist sent ∧ call.stored.length + call.dropped = sent.length

def EmitterOk : EmitterPc → Prop
  | .idle => True
  | .emit call rest => CallOk call rest
  | .produce call chunk rest => CallOk call (chunk ++ rest)
  | .eos => True

structure EmitInv (s : EmitState) : Prop where
  rep : RespRep s.resp
  sole : SoleReader s.resp 0
  accepted : s.resp.accepted = s.calls.flatMap (fun record => record.call.stored) ++ inProgress s.emitter
  emitter : EmitterOk s.emitter
  records : ∀ record ∈ s.calls, record.ok = true → CallOk record.call []

theorem resp_produce_accepted (s : RespState) (token : UInt32) (call : EmitCall) :
    ∃ more, (respProduce s token).accepted = s.accepted ++ more ∧
      (noteProduce s.dev call token).stored = call.stored ++ more := by
  by_cases space : respRingSpace s.dev > 0
  · exact ⟨[token], by simp only [respProduce, if_pos space], by simp only [noteProduce, if_pos space]⟩
  · exact ⟨[], by simp only [respProduce, if_neg space, List.append_nil],
      by simp only [noteProduce, if_neg space, List.append_nil]⟩

theorem note_produce_ok (dev : KllmDevice) (call : EmitCall) (token : UInt32) (rest : List UInt32)
    (ok : CallOk call (token :: rest)) : CallOk (noteProduce dev call token) rest := by
  obtain ⟨sent, tokens, kept, count⟩ := ok
  by_cases space : respRingSpace dev > 0
  · rw [noteProduce, if_pos space]
    refine ⟨sent ++ [token], ?_, kept.append (List.Sublist.refl _), ?_⟩
    · simp only [tokens, List.append_assoc, List.singleton_append]
    · simp only [List.length_append, List.length_singleton]
      omega
  · rw [noteProduce, if_neg space]
    refine ⟨sent ++ [token], ?_, kept.trans (List.sublist_append_left _ _), ?_⟩
    · simp only [tokens, List.append_assoc, List.singleton_append]
    · simp only [List.length_append, List.length_singleton]
      omega

theorem stored_all_iff (call : EmitCall) (ok : CallOk call []) : call.dropped = 0 ↔ call.stored = call.tokens := by
  obtain ⟨sent, tokens, kept, count⟩ := ok
  rw [List.append_nil] at tokens
  rw [tokens]
  constructor
  · intro none_
    exact kept.eq_of_length (by omega)
  · intro all
    rw [all] at count
    omega

theorem faithful_iff (record : EmitRecord) (ok : record.ok = true → CallOk record.call []) :
    Faithful record ↔ record.call.stored = promised record := by
  cases returned : record.ok with
  | true => simpa only [Faithful, promised, returned, if_true] using stored_all_iff record.call (ok returned)
  | false => simp only [Faithful, promised, returned, Bool.false_eq_true, if_false]

theorem emit_step_calls {s next : EmitState} (step : EmitStep s next) :
    (next.calls = s.calls ∧ (next.emitter = .idle → s.emitter = .idle)) ∨
      ∃ record, next.calls = s.calls ++ [record] ∧ next.emitter = .idle := by
  cases step with
  | emitCall tokens pc count => exact Or.inl ⟨rfl, nofun⟩
  | emitReturn call pc => exact Or.inr ⟨_, rfl, rfl⟩
  | emitIoctl call rest pc more valid => exact Or.inl ⟨rfl, nofun⟩
  | emitFault call rest pc more => exact Or.inr ⟨_, rfl, rfl⟩
  | emitProduce call token chunk rest pc => exact Or.inl ⟨rfl, nofun⟩
  | emitNext call rest pc => exact Or.inl ⟨rfl, nofun⟩
  | eosCall pc => exact Or.inl ⟨rfl, nofun⟩
  | eosProduce pc => exact Or.inr ⟨_, rfl, rfl⟩
  | eosFault pc => exact Or.inr ⟨_, rfl, rfl⟩

theorem finish_call_inv {s : EmitState} {call : EmitCall} {ok : Bool} (rep : RespRep s.resp) (sole : SoleReader s.resp 0)
    (accepted : s.resp.accepted = s.calls.flatMap (fun record => record.call.stored) ++ call.stored)
    (records : ∀ record ∈ s.calls, record.ok = true → CallOk record.call []) (complete : ok = true → CallOk call []) :
    EmitInv (finishCall s call ok) := by
  refine ⟨rep, sole, ?_, trivial, ?_⟩
  · simpa only [finishCall, inProgress, List.flatMap_append, List.flatMap_singleton, List.append_nil] using accepted
  · intro record member returned
    rcases List.mem_append.mp member with earlier | last
    · exact records record earlier returned
    · rw [List.mem_singleton] at last
      subst last
      exact complete returned

theorem emit_step_inv {s next : EmitState} (inv : EmitInv s) (step : EmitStep s next) : EmitInv next := by
  have accepted := inv.accepted
  have ok := inv.emitter
  cases step with
  | emitCall tokens pc count =>
      rw [pc] at accepted
      exact ⟨inv.rep, inv.sole, accepted, ⟨[], rfl, List.Sublist.refl _, rfl⟩, inv.records⟩
  | emitReturn call pc =>
      rw [pc] at accepted ok
      exact finish_call_inv inv.rep inv.sole accepted inv.records (fun _ => ok)
  | emitIoctl call rest pc more valid =>
      rw [pc] at accepted ok
      refine ⟨inv.rep, inv.sole, accepted, ?_, inv.records⟩
      simpa only [EmitterOk, List.take_append_drop] using ok
  | emitFault call rest pc more =>
      rw [pc] at accepted
      exact finish_call_inv inv.rep inv.sole accepted inv.records nofun
  | emitProduce call token chunk rest pc =>
      rw [pc] at accepted ok
      obtain ⟨more, ring, noted⟩ := resp_produce_accepted s.resp token call
      refine ⟨resp_produce_rep inv.rep token, sole_reader_produce inv.sole token, ?_, ?_, inv.records⟩
      · simp only [inProgress] at accepted ⊢
        rw [ring, noted, accepted, List.append_assoc]
      · exact note_produce_ok s.resp.dev call token (chunk ++ rest) ok
  | emitNext call rest pc =>
      rw [pc] at accepted ok
      exact ⟨inv.rep, inv.sole, accepted, ok, inv.records⟩
  | eosCall pc =>
      rw [pc] at accepted
      exact ⟨inv.rep, inv.sole, accepted, trivial, inv.records⟩
  | eosProduce pc =>
      rw [pc] at accepted
      obtain ⟨more, ring, noted⟩ := resp_produce_accepted s.resp eosSentinel ⟨[eosSentinel], [], 0⟩
      refine finish_call_inv ?_ ?_ ?_ ?_ ?_
      · exact resp_produce_rep inv.rep eosSentinel
      · exact sole_reader_produce inv.sole eosSentinel
      · simp only [inProgress, List.append_nil] at accepted
        rw [ring, noted, accepted, List.nil_append]
      · exact inv.records
      · intro _
        exact note_produce_ok s.resp.dev _ eosSentinel [] ⟨[], rfl, List.Sublist.refl _, rfl⟩
  | eosFault pc =>
      rw [pc] at accepted
      exact finish_call_inv inv.rep inv.sole accepted inv.records nofun

theorem read_step_accepted {r : Nat} {s next : RespState} (step : ReadStep r s next) : next.accepted = s.accepted := by
  cases step <;> rfl

theorem emit_run_inv (visited : List EmitState) (s : EmitState) (run : EmitRun visited s) :
    ∀ t ∈ visited ++ [s], EmitInv t := by
  induction run with
  | created =>
      intro t member
      rw [List.nil_append, List.mem_singleton] at member
      subst member
      exact ⟨created_resp_rep, trivial, rfl, trivial, nofun⟩
  | emit visited s next previous step ih =>
      intro t member
      rcases List.mem_append.mp member with earlier | last
      · exact ih t earlier
      · rw [List.mem_singleton.mp last]
        exact emit_step_inv (ih s (by simp)) step
  | read visited s next previous step ih =>
      intro t member
      rcases List.mem_append.mp member with earlier | last
      · exact ih t earlier
      · rw [List.mem_singleton.mp last]
        have inv := ih s (by simp)
        exact ⟨read_step_rep inv.rep step (sole_reader_calm inv.sole), sole_reader_step inv.sole step,
          (read_step_accepted step).trans inv.accepted, inv.emitter, inv.records⟩

def Balanced (calls : List EmitRecord) : Prop :=
  calls.flatMap (fun record => record.call.stored) = calls.flatMap promised

theorem lossless_iff_balanced (s : EmitState) (inv : EmitInv s) (idle : s.emitter = .idle) : Lossless s ↔ Balanced s.calls := by
  have accepted := inv.accepted
  rw [idle] at accepted
  rw [Lossless, rep_contents s.resp inv.rep, accepted, inProgress, List.append_nil, Balanced]

theorem balanced_of_faithful (calls : List EmitRecord) (records : ∀ record ∈ calls, record.ok = true → CallOk record.call [])
    (faithful : ∀ record ∈ calls, Faithful record) : Balanced calls := by
  unfold Balanced
  apply List.flatMap_congr
  intro record member
  exact (faithful_iff record (records record member)).mp (faithful record member)

theorem balanced_snoc_iff (calls : List EmitRecord) (record : EmitRecord) (ok : record.ok = true → CallOk record.call [])
    (before : Balanced calls) : Balanced (calls ++ [record]) ↔ Faithful record := by
  unfold Balanced at before ⊢
  rw [List.flatMap_append, List.flatMap_append, before, List.append_cancel_left_eq, List.flatMap_singleton,
    List.flatMap_singleton, faithful_iff record ok]

theorem emit_run_lossless_iff (visited : List EmitState) (s : EmitState) (run : EmitRun visited s) :
    (∀ t ∈ visited ++ [s], t.emitter = .idle → Lossless t) ↔ ∀ record ∈ s.calls, Faithful record := by
  induction run with
  | created =>
      refine iff_of_true ?_ nofun
      intro t member _
      rw [List.nil_append, List.mem_singleton] at member
      subst member
      rfl
  | emit visited s next previous step ih =>
      have invs := emit_run_inv _ _ (.emit visited s next previous step)
      have invNext := invs next (by simp)
      rw [List.forall_mem_append, ih, List.forall_mem_singleton]
      rcases emit_step_calls step with ⟨calls, idle⟩ | ⟨record, calls, idle⟩
      · rw [calls]
        refine ⟨fun both => both.1, fun faithful => ⟨faithful, ?_⟩⟩
        intro quiet
        rw [lossless_iff_balanced next invNext quiet]
        exact balanced_of_faithful _ invNext.records (by rw [calls]; exact faithful)
      · rw [calls, List.forall_mem_append, List.forall_mem_singleton]
        refine and_congr_right (fun faithful => ?_)
        have before := balanced_of_faithful s.calls (invs s (by simp)).records faithful
        have complete := invNext.records record (by rw [calls]; simp)
        rw [← balanced_snoc_iff s.calls record complete before, ← calls, ← lossless_iff_balanced next invNext idle]
        exact ⟨fun held => held idle, fun held _ => held⟩
  | read visited s next previous step ih =>
      have invs := emit_run_inv _ _ (.read visited s next previous step)
      have invNext := invs { s with resp := next } (by simp)
      rw [List.forall_mem_append, ih, List.forall_mem_singleton]
      refine ⟨fun both => both.1, fun faithful => ⟨faithful, ?_⟩⟩
      intro quiet
      rw [lossless_iff_balanced _ invNext quiet]
      exact balanced_of_faithful _ invNext.records faithful

theorem two_token_run : ∃ visited s, EmitRun visited s ∧ s.emitter = .idle ∧
    s.calls = [⟨⟨[7, 8], [7, 8], 0⟩, true⟩, ⟨⟨[eosSentinel], [eosSentinel], 0⟩, true⟩] ∧ deliveredTokens s.resp = [7] :=
  ⟨_, _, .emit _ _ _ (.emit _ _ _ (.emit _ _ _ (.emit _ _ _ (.emit _ _ _ (.read _ _ _ (.read _ _ _ (.read _ _ _ (.read _ _ _
    (.emit _ _ _ (.emit _ _ _ (.emit _ _ _ .created (.emitCall [7, 8] rfl (by decide))) (.emitIoctl _ [7, 8] rfl (by decide)
    (by decide))) (.emitProduce _ 7 [8] [] rfl)) (.enter 8 rfl (by decide) (by decide +kernel))) (.openWindow 2 rfl))
    (.copySingle 1 rfl)) (.closeWindow 1 [⟨some 0, 7⟩] rfl)) (.emitProduce _ 8 [] [] rfl)) (.emitNext _ [] rfl))
    (.emitReturn _ rfl)) (.eosCall rfl)) (.eosProduce rfl), rfl, rfl, rfl⟩

theorem emit_run_lossless_two : ∃ s : EmitState, s.calls.length = 2 ∧ deliveredTokens s.resp = [7] ∧ Lossless s := by
  obtain ⟨visited, s, run, idle, calls, read⟩ := two_token_run
  refine ⟨s, by rw [calls]; rfl, read, (emit_run_lossless_iff visited s run).mpr ?_ s (by simp) idle⟩
  rw [calls]
  simp [Faithful]

theorem produce_alone (chunk : List UInt32) : ∀ (visited : List EmitState) (s : EmitState) (call : EmitCall)
    (rest : List UInt32), EmitRun visited s → s.emitter = .produce call chunk rest →
    ∃ visited next done, EmitRun visited next ∧ next.emitter = .emit done rest ∧ done.tokens = call.tokens ∧
      next.calls = s.calls ∧ next.resp.delivered = s.resp.delivered ∧ next.resp.released = s.resp.released := by
  induction chunk with
  | nil =>
      intro visited s call rest run pc
      exact ⟨_, _, call, .emit _ _ _ run (.emitNext call rest pc), rfl, rfl, rfl, rfl, rfl⟩
  | cons token chunk ih =>
      intro visited s call rest run pc
      obtain ⟨visited, next, done, run, pc, tokens, calls, delivered, released⟩ :=
        ih _ _ _ rest (.emit _ _ _ run (.emitProduce call token chunk rest pc)) rfl
      have kept : (respProduce s.resp token).delivered = s.resp.delivered ∧
          (respProduce s.resp token).released = s.resp.released := by
        unfold respProduce
        split <;> exact ⟨rfl, rfl⟩
      have noted : (noteProduce s.resp.dev call token).tokens = call.tokens := by
        unfold noteProduce
        split <;> rfl
      exact ⟨visited, next, done, run, pc, tokens.trans noted, calls, delivered.trans kept.1, released.trans kept.2⟩

theorem emit_alone (fuel : Nat) : ∀ (visited : List EmitState) (s : EmitState) (call : EmitCall) (rest : List UInt32),
    rest.length ≤ fuel → EmitRun visited s → s.emitter = .emit call rest →
    ∃ visited next done, EmitRun visited next ∧ next.emitter = .idle ∧ done.tokens = call.tokens ∧
      next.calls = s.calls ++ [⟨done, true⟩] ∧ next.resp.delivered = s.resp.delivered ∧
      next.resp.released = s.resp.released := by
  induction fuel with
  | zero =>
      intro visited s call rest short run pc
      have empty : rest = [] := List.length_eq_zero_iff.mp (by omega)
      rw [empty] at pc
      exact ⟨_, _, call, .emit _ _ _ run (.emitReturn call pc), rfl, rfl, rfl, rfl, rfl⟩
  | succ fuel ih =>
      intro visited s call rest short run pc
      by_cases empty : rest = []
      · rw [empty] at pc
        exact ⟨_, _, call, .emit _ _ _ run (.emitReturn call pc), rfl, rfl, rfl, rfl, rfl⟩
      · have valid : (rest.take emitChunk).length ≤ 256 := List.length_take_le _ _
        obtain ⟨_, middle, half, run, pc, tokens, calls, delivered, released⟩ :=
          produce_alone _ _ _ call _ (.emit _ _ _ run (.emitIoctl call rest pc empty valid)) rfl
        have shorter : (rest.drop emitChunk).length ≤ fuel := by
          rw [List.length_drop, emitChunk]
          omega
        obtain ⟨visited, next, done, run, idle, tokens_, calls_, delivered_, released_⟩ :=
          ih _ middle half _ shorter run pc
        refine ⟨visited, next, done, run, idle, tokens_.trans tokens, ?_, delivered_.trans delivered,
          released_.trans released⟩
        rw [calls_, calls]

-- 4096 tokens, no reader: the ring takes 4095, the call still returns zero.
theorem emit_drops_silently : ∃ visited s, EmitRun visited s ∧ s.emitter = .idle ∧ ¬ Lossless s ∧
    ∃ call, s.calls = [⟨call, true⟩] ∧ call.tokens = List.replicate 4096 7 := by
  obtain ⟨visited, s, done, run, idle, tokens, calls, delivered, released⟩ :=
    emit_alone 4096 _ _ ⟨List.replicate 4096 7, [], 0⟩ _ (by rw [List.length_replicate])
      (.emit _ _ _ .created (.emitCall (List.replicate 4096 7) rfl (by rw [List.length_replicate]; omega))) rfl
  have inv := emit_run_inv visited s run s (by simp)
  have room := inv.rep.spare
  rw [released] at room
  refine ⟨visited, s, run, idle, ?_, done, calls, tokens⟩
  intro lossless
  have arrived := congrArg List.length (rep_contents s.resp inv.rep)
  rw [lossless, calls] at arrived
  simp only [createdEmit, createdResp, List.nil_append, List.flatMap_singleton, promised, if_true, tokens,
    List.length_replicate] at arrived room
  omega

end Kllm.Reactor
