import Mathlib
import Kllm.Lib.SaturatingCounter
import Kllm.Compute.DispatchPolicy

set_option autoImplicit false

namespace Kllm.Compute

open SaturatingCounter

inductive DispatchCall where
  | decide (seqLen : UInt32) (cacheHit : Bool)
  | gpuComplete
  deriving DecidableEq, Repr

inductive DispatchEvent where
  | decided (seqLen : UInt32) (cacheHit : Bool) (target : KllmDispatchTarget)
  | completed
  deriving DecidableEq, Repr

def dispatchCall (ctx : KllmDispatchCtx) : DispatchCall → KllmDispatchCtx × DispatchEvent
  | .decide seqLen cacheHit =>
      ((kllmDispatchDecide ctx seqLen cacheHit).1, .decided seqLen cacheHit (kllmDispatchDecide ctx seqLen cacheHit).2)
  | .gpuComplete => (kllmDispatchGpuComplete ctx, .completed)

def dispatchCalls (ctx : KllmDispatchCtx) : List DispatchCall → KllmDispatchCtx × List DispatchEvent
  | [] => (ctx, [])
  | call :: rest =>
      let first := dispatchCall ctx call
      let later := dispatchCalls first.1 rest
      (later.1, first.2 :: later.2)

def onGpu : DispatchEvent → Bool
  | .decided _ _ target => target == .gpu
  | .completed => false

def shortOnGpu (threshold : UInt32) : DispatchEvent → Bool
  | .decided seqLen _ target => target == .gpu && decide (seqLen ≤ threshold)
  | .completed => false

def depthMove : DispatchEvent → Move
  | .decided _ _ .cpu => .stay
  | .decided _ _ .gpu => .up
  | .completed => .down

theorem kllm_dispatch_decide_cfg (ctx : KllmDispatchCtx) (seqLen : UInt32) (cacheHit : Bool) :
    (kllmDispatchDecide ctx seqLen cacheHit).1.cfg = ctx.cfg := by
  simp only [kllmDispatchDecide]
  split
  · rfl
  · rfl

theorem kllm_dispatch_complete_depth (ctx : KllmDispatchCtx) :
    (kllmDispatchGpuComplete ctx).state.gpuQueueDepth.toNat = ctx.state.gpuQueueDepth.toNat - 1 := by
  by_cases queued : ctx.state.gpuQueueDepth > 0
  · have least : (1 : UInt32) ≤ ctx.state.gpuQueueDepth := by
      rw [gt_iff_lt, UInt32.lt_iff_toNat_lt] at queued
      exact UInt32.le_iff_toNat_le.mpr queued
    rw [kllmDispatchGpuComplete, if_pos queued]
    exact UInt32.toNat_sub_of_le _ _ least
  · have zero : ctx.state.gpuQueueDepth.toNat = 0 := by
      rw [gt_iff_lt, UInt32.lt_iff_toNat_lt] at queued
      exact Nat.eq_zero_of_not_pos queued
    rw [kllmDispatchGpuComplete, if_neg queued, zero]

theorem dispatch_call_cfg (ctx : KllmDispatchCtx) (call : DispatchCall) : (dispatchCall ctx call).1.cfg = ctx.cfg := by
  cases call with
  | decide seqLen cacheHit => exact kllm_dispatch_decide_cfg ctx seqLen cacheHit
  | gpuComplete =>
      rw [dispatchCall, kllmDispatchGpuComplete]
      split
      · rfl
      · rfl

theorem dispatch_calls_cfg (ctx : KllmDispatchCtx) (calls : List DispatchCall) : (dispatchCalls ctx calls).1.cfg = ctx.cfg := by
  induction calls generalizing ctx with
  | nil => rfl
  | cons call rest ih => exact (ih _).trans (dispatch_call_cfg ctx call)

theorem dispatch_call_depth (ctx : KllmDispatchCtx) (call : DispatchCall) (room : ctx.state.gpuQueueDepth.toNat + 1 < 2 ^ 32) :
    (dispatchCall ctx call).1.state.gpuQueueDepth.toNat =
      moved ctx.state.gpuQueueDepth.toNat (depthMove (dispatchCall ctx call).2) := by
  cases call with
  | decide seqLen cacheHit =>
      rw [dispatchCall, kllm_dispatch_decide_depth]
      cases (kllmDispatchDecide ctx seqLen cacheHit).2 with
      | cpu => rfl
      | gpu =>
          have sum := UInt32.toNat_add ctx.state.gpuQueueDepth 1
          rw [UInt32.toNat_one, Nat.mod_eq_of_lt room] at sum
          exact sum
  | gpuComplete => exact kllm_dispatch_complete_depth ctx

theorem dispatch_calls_depth (ctx : KllmDispatchCtx) (calls : List DispatchCall)
    (room : ctx.state.gpuQueueDepth.toNat + calls.length < 2 ^ 32) :
    (dispatchCalls ctx calls).1.state.gpuQueueDepth.toNat =
      counted ctx.state.gpuQueueDepth.toNat ((dispatchCalls ctx calls).2.map depthMove) := by
  induction calls generalizing ctx with
  | nil => rfl
  | cons call rest ih =>
      rw [List.length_cons] at room
      have first := dispatch_call_depth ctx call (by omega)
      have once := counted_le ctx.state.gpuQueueDepth.toNat [depthMove (dispatchCall ctx call).2]
      have same : counted ctx.state.gpuQueueDepth.toNat [depthMove (dispatchCall ctx call).2] =
        (dispatchCall ctx call).1.state.gpuQueueDepth.toNat := first.symm
      rw [same, List.length_singleton] at once
      have later := ih (dispatchCall ctx call).1 (by omega)
      rw [first] at later
      exact later

theorem move_counts (events : List DispatchEvent) :
    ups (events.map depthMove) = events.countP onGpu ∧ downs (events.map depthMove) = events.count .completed := by
  induction events with
  | nil => exact ⟨rfl, rfl⟩
  | cons event rest ih =>
      rw [ups, downs] at ih ⊢
      rw [List.map_cons, List.count_cons, List.count_cons, List.countP_cons, List.count_cons, ih.1, ih.2]
      cases event with
      | decided seqLen cacheHit target =>
          cases target with
          | cpu => exact ⟨rfl, rfl⟩
          | gpu => exact ⟨rfl, rfl⟩
      | completed => exact ⟨rfl, rfl⟩

-- More went to the GPU than came back, by the level or more, in the last stretch.
def Backlog (level : Nat) (events : List DispatchEvent) : Prop :=
  ∃ stretch, stretch <:+ events ∧ stretch.count .completed + level ≤ stretch.countP onGpu

theorem backlog_iff (events : List DispatchEvent) (level : Nat) :
    level ≤ counted 0 (events.map depthMove) ↔ Backlog level events := by
  rw [le_counted_iff]
  constructor
  · rintro ⟨moves, ⟨before, whole⟩, reached⟩
    obtain ⟨earlier, stretch, same, _, rfl⟩ := List.map_eq_append_iff.mp whole.symm
    rw [(move_counts stretch).1, (move_counts stretch).2] at reached
    exact ⟨stretch, ⟨earlier, same.symm⟩, reached⟩
  · rintro ⟨stretch, last, reached⟩
    refine ⟨stretch.map depthMove, last.map depthMove, ?_⟩
    rw [(move_counts stretch).1, (move_counts stretch).2]
    exact reached

theorem dispatch_calls_short (ctx : KllmDispatchCtx) (calls : List DispatchCall)
    (room : ctx.state.gpuQueueDepth.toNat + calls.length < 2 ^ 32) :
    (dispatchCalls ctx calls).2.countP (shortOnGpu ctx.cfg.cpuSeqThreshold) + ctx.state.gpuQueueDepth.toNat ≤
      max ctx.state.gpuQueueDepth.toNat ctx.cfg.gpuQueueMax.toNat + (dispatchCalls ctx calls).2.count .completed := by
  induction calls generalizing ctx with
  | nil => simp [dispatchCalls]
  | cons call rest ih =>
      rw [List.length_cons] at room
      have first := dispatch_call_depth ctx call (by omega)
      have cfg := dispatch_call_cfg ctx call
      cases call with
      | decide seqLen cacheHit =>
          have target := kllm_dispatch_decide_target ctx seqLen cacheHit
          rw [dispatchCall] at first cfg
          have later := ih (kllmDispatchDecide ctx seqLen cacheHit).1
          rw [cfg] at later
          rw [dispatchCalls, dispatchCall, List.countP_cons, List.count_cons]
          cases chosen : (kllmDispatchDecide ctx seqLen cacheHit).2 with
          | cpu =>
              rw [chosen, depthMove, moved] at first
              rw [first] at later
              simpa [shortOnGpu] using later (by omega)
          | gpu =>
              rw [chosen, depthMove, moved] at first
              rw [first] at later
              have after := later (by omega)
              by_cases short : seqLen ≤ ctx.cfg.cpuSeqThreshold
              · have below : ctx.state.gpuQueueDepth.toNat < ctx.cfg.gpuQueueMax.toNat := by
                  by_contra full
                  rw [chosen] at target
                  exact absurd (target.mpr ⟨short, Or.inr (UInt32.le_iff_toNat_le.mpr (not_lt.mp full))⟩) (by decide)
                simp only [shortOnGpu, short, decide_true, beq_self_eq_true, Bool.and_self, if_true, reduceCtorEq, beq_iff_eq, if_false]
                omega
              · simp only [shortOnGpu, short, decide_false, Bool.and_false, Bool.false_eq_true, reduceCtorEq, beq_iff_eq, if_false]
                omega
      | gpuComplete =>
          rw [dispatchCall] at first cfg
          have later := ih (kllmDispatchGpuComplete ctx)
          rw [cfg] at later
          rw [depthMove, moved] at first
          rw [first] at later
          have after := later (by omega)
          rw [dispatchCalls, dispatchCall, List.countP_cons, List.count_cons]
          simp only [shortOnGpu, Bool.false_eq_true, if_false, beq_self_eq_true, if_true]
          omega

structure Accounted (state : KllmDispatchState) : Prop where
  lookups : state.totalRequests = state.cacheHits + state.cacheMisses
  targets : state.totalRequests = state.cpuDispatches + state.gpuDispatches

theorem dispatch_call_accounted {ctx : KllmDispatchCtx} (accounted : Accounted ctx.state) (call : DispatchCall) :
    Accounted (dispatchCall ctx call).1.state := by
  obtain ⟨lookups, targets⟩ := accounted
  cases call with
  | decide seqLen cacheHit =>
      have first : ∀ a b : UInt64, a + b + 1 = a + 1 + b := fun a b => add_right_comm a b 1
      have second : ∀ a b : UInt64, a + b + 1 = a + (b + 1) := fun a b => add_assoc a b 1
      simp only [dispatchCall, kllmDispatchDecide]
      cases cacheHit with
      | true =>
          split
          · exact ⟨(congrArg (· + 1) lookups).trans (first _ _), (congrArg (· + 1) targets).trans (first _ _)⟩
          · exact ⟨(congrArg (· + 1) lookups).trans (first _ _), (congrArg (· + 1) targets).trans (second _ _)⟩
      | false =>
          split
          · exact ⟨(congrArg (· + 1) lookups).trans (second _ _), (congrArg (· + 1) targets).trans (first _ _)⟩
          · exact ⟨(congrArg (· + 1) lookups).trans (second _ _), (congrArg (· + 1) targets).trans (second _ _)⟩
  | gpuComplete =>
      rw [dispatchCall, kllmDispatchGpuComplete]
      split
      · exact ⟨lookups, targets⟩
      · exact ⟨lookups, targets⟩

theorem dispatch_calls_accounted {ctx : KllmDispatchCtx} (accounted : Accounted ctx.state) (calls : List DispatchCall) :
    Accounted (dispatchCalls ctx calls).1.state := by
  induction calls generalizing ctx with
  | nil => exact accounted
  | cons call rest ih => exact ih (dispatch_call_accounted accounted call)

theorem dispatch_history (cfg : KllmDispatchConfig) (calls : List DispatchCall) (few : calls.length < 2 ^ 32) :
    let created := kllmDispatchCreate cfg
    let run := dispatchCalls created calls
    (∀ seqLen cacheHit, (kllmDispatchDecide run.1 seqLen cacheHit).2 = .cpu ↔
      seqLen ≤ created.cfg.cpuSeqThreshold ∧ (cacheHit = true ∨ Backlog created.cfg.gpuQueueMax.toNat run.2)) ∧
    run.2.countP (shortOnGpu created.cfg.cpuSeqThreshold) ≤ created.cfg.gpuQueueMax.toNat + run.2.count .completed ∧
    Accounted run.1.state := by
  intro created run
  have empty : created.state.gpuQueueDepth.toNat = 0 := rfl
  have room : created.state.gpuQueueDepth.toNat + calls.length < 2 ^ 32 := by rw [empty, Nat.zero_add]; exact few
  refine ⟨?_, ?_, dispatch_calls_accounted ⟨rfl, rfl⟩ calls⟩
  · intro seqLen cacheHit
    have depth := dispatch_calls_depth created calls room
    rw [kllm_dispatch_decide_target, dispatch_calls_cfg, UInt32.le_iff_toNat_le (b := run.1.state.gpuQueueDepth), depth, empty,
      backlog_iff]
  · have short := dispatch_calls_short created calls room
    rw [empty, Nat.add_zero, Nat.zero_max] at short
    exact short

theorem dispatch_history_one :
    (dispatchCalls (kllmDispatchCreate ⟨4, 0, 1⟩) [.decide 3 false, .decide 3 false, .gpuComplete, .decide 3 false]).2 =
        [.decided 3 false .gpu, .decided 3 false .cpu, .completed, .decided 3 false .gpu] ∧
      ((kllmDispatchDecide (dispatchCalls (kllmDispatchCreate ⟨4, 0, 1⟩) [.decide 3 false]).1 3 false).2 = .cpu ↔
        (3 : UInt32) ≤ (kllmDispatchCreate ⟨4, 0, 1⟩).cfg.cpuSeqThreshold ∧ (false = true ∨
          Backlog (kllmDispatchCreate ⟨4, 0, 1⟩).cfg.gpuQueueMax.toNat
            (dispatchCalls (kllmDispatchCreate ⟨4, 0, 1⟩) [.decide 3 false]).2)) :=
  ⟨by decide, (dispatch_history ⟨4, 0, 1⟩ [.decide 3 false] (by decide)).1 3 false⟩

end Kllm.Compute
