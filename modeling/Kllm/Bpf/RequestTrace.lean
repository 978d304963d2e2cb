import Mathlib
import Kllm.Lib.BoundedMap

set_option autoImplicit false

namespace Kllm.Bpf

open BoundedMap

inductive KllmTraceStage where
  | chardevWrite
  | tokenizeStart
  | tokenizeEnd
  | ringProduce
  | reactorConsume
  | dispatchDecide
  | cacheLookup
  | attentionStart
  | attentionEnd
  | sample
  | responseEmit
  | gpuSubmit
  | gpuComplete
  | eos
  deriving DecidableEq, Repr

structure KllmTraceEvent where
  timestampNs : UInt64
  requestId : UInt32
  stage : KllmTraceStage
  seqLen : UInt32
  tokenCount : UInt32
  latencyNs : UInt64
  deriving DecidableEq, Repr

structure KllmRequestTrace where
  stageTs : KllmTraceStage → UInt64
  lastStage : KllmTraceStage
  seqLen : UInt32

structure KllmTraceStats where
  totalRequests : UInt64
  totalTokens : UInt64
  totalLatencyNs : UInt64
  maxLatencyNs : UInt64
  stageTotals : KllmTraceStage → UInt64

def kllmMaxTracked : Nat := 1024

/-- The maps of the program. stats is per CPU; events is what was submitted to the ring
buffer. offered also has the events for which it had no room: it records the history and
steers nothing. -/
structure Tracer where
  requestState : List (UInt32 × KllmRequestTrace)
  stats : Nat → KllmTraceStats
  events : List KllmTraceEvent
  offered : List KllmTraceEvent

def loadedTracer : Tracer := ⟨[], fun _ => ⟨0, 0, 0, 0, fun _ => 0⟩, [], []⟩

def onCpu (t : Tracer) (cpu : Nat) (change : KllmTraceStats → KllmTraceStats) : Tracer :=
  { t with stats := Function.update t.stats cpu (change (t.stats cpu)) }

def stageDelta (t : Tracer) (requestId : UInt32) (now : UInt64) : UInt64 :=
  match find requestId t.requestState with
  | none => 0
  | some rt => now - rt.stageTs rt.lastStage

def enterStage (t : Tracer) (requestId : UInt32) (stage : KllmTraceStage) (seqLen : UInt32) (now : UInt64) :
    List (UInt32 × KllmRequestTrace) :=
  match find requestId t.requestState with
  | none => t.requestState
  | some rt => replace requestId ⟨Function.update rt.stageTs stage now, stage, seqLen⟩ t.requestState

-- The callers pass enumerators only, so the range checks on stages hold. room
-- is whether bpf_ringbuf_reserve finds space.
def emitTrace (t : Tracer) (cpu : Nat) (room : Bool) (requestId : UInt32) (stage : KllmTraceStage)
    (seqLen tokenCount : UInt32) (now : UInt64) : Tracer :=
  let delta := stageDelta t requestId now
  let evt : KllmTraceEvent := ⟨now, requestId, stage, seqLen, tokenCount, delta⟩
  let entered := { t with requestState := enterStage t requestId stage seqLen now, offered := t.offered ++ [evt] }
  if room then
    onCpu { entered with events := entered.events ++ [evt] } cpu (fun stats =>
      { stats with stageTotals := Function.update stats.stageTotals stage (stats.stageTotals stage + delta) })
  else entered

def startRequest (t : Tracer) (cpu : Nat) (requestId : UInt32) (now : UInt64) : Tracer :=
  let rt : KllmRequestTrace := ⟨Function.update (fun _ => 0) .chardevWrite now, .chardevWrite, 0⟩
  onCpu { t with requestState := update kllmMaxTracked t.requestState requestId rt } cpu (fun stats =>
    { stats with totalRequests := stats.totalRequests + 1 })

def endRequest (t : Tracer) (cpu : Nat) (requestId : UInt32) (now : UInt64) : Tracer :=
  let charged :=
    match find requestId t.requestState with
    | none => t
    | some rt =>
        let total := now - rt.stageTs .chardevWrite
        onCpu t cpu (fun stats =>
          { stats with
            totalLatencyNs := stats.totalLatencyNs + total
            maxLatencyNs := if total > stats.maxLatencyNs then total else stats.maxLatencyNs })
  { charged with requestState := erase requestId charged.requestState }

inductive Probe where
  | chardevWrite (count : UInt32)
  | chardevWriteExit
  | reactorConsume
  | dispatchDecide
  | attentionStart
  | attentionEnd
  | responseEmit
  | eos
  deriving DecidableEq, Repr

structure ProbeCall where
  probe : Probe
  cpu : Nat
  pid : UInt32
  room : Bool
  firstNs : UInt64
  secondNs : UInt64
  deriving DecidableEq, Repr

def runProbe (t : Tracer) (call : ProbeCall) : Tracer :=
  let emit := fun (t : Tracer) => emitTrace t call.cpu call.room call.pid
  match call.probe with
  | .chardevWrite count => emit (startRequest t call.cpu call.pid call.firstNs) .chardevWrite 0 count call.secondNs
  | .chardevWriteExit => emit t .tokenizeEnd 0 0 call.firstNs
  | .reactorConsume => emit t .reactorConsume 0 0 call.firstNs
  | .dispatchDecide => emit t .dispatchDecide 0 0 call.firstNs
  | .attentionStart => emit t .attentionStart 0 0 call.firstNs
  | .attentionEnd => emit t .attentionEnd 0 0 call.firstNs
  | .responseEmit =>
      emit (onCpu t call.cpu (fun stats => { stats with totalTokens := stats.totalTokens + 1 })) .responseEmit 0 1 call.firstNs
  | .eos => endRequest (emit t .eos 0 0 call.firstNs) call.cpu call.pid call.secondNs

def runProbes (t : Tracer) (calls : List ProbeCall) : Tracer := calls.foldl runProbe t

-- Handlers of the file operations run in the writing process, the uprobes in
-- the process that runs the reactor.
def isWriteProbe : Probe → Bool
  | .chardevWrite _ => true
  | .chardevWriteExit => true
  | _ => false

def isUprobe (probe : Probe) : Bool := !isWriteProbe probe

section
variable (t : Tracer) (cpu : Nat) (room : Bool) (requestId : UInt32) (stage : KllmTraceStage) (seqLen tokenCount : UInt32)
  (now : UInt64)

theorem emit_trace_state : (emitTrace t cpu room requestId stage seqLen tokenCount now).requestState =
    enterStage t requestId stage seqLen now := by
  cases room <;> rfl

theorem emit_trace_offered : (emitTrace t cpu room requestId stage seqLen tokenCount now).offered =
    t.offered ++ [⟨now, requestId, stage, seqLen, tokenCount, stageDelta t requestId now⟩] := by
  cases room <;> rfl

theorem emit_trace_stats (other : Nat) :
    ((emitTrace t cpu room requestId stage seqLen tokenCount now).stats other).totalLatencyNs = (t.stats other).totalLatencyNs ∧
      ((emitTrace t cpu room requestId stage seqLen tokenCount now).stats other).maxLatencyNs = (t.stats other).maxLatencyNs := by
  cases room with
  | false => exact ⟨rfl, rfl⟩
  | true =>
      by_cases same : other = cpu
      · subst same
        simp [emitTrace, onCpu]
      · simp [emitTrace, onCpu, same]

theorem start_request_stats (other : Nat) :
    ((startRequest t cpu requestId now).stats other).totalLatencyNs = (t.stats other).totalLatencyNs ∧
      ((startRequest t cpu requestId now).stats other).maxLatencyNs = (t.stats other).maxLatencyNs := by
  by_cases same : other = cpu
  · subst same
    simp [startRequest, onCpu]
  · simp [startRequest, onCpu, same]

theorem enter_stage_other (wanted : UInt32) (apart : wanted ≠ requestId) :
    find wanted (enterStage t requestId stage seqLen now) = find wanted t.requestState := by
  rw [enterStage]
  cases held : find requestId t.requestState with
  | none => rfl
  | some rt => exact find_replace_other requestId wanted apart _ _

theorem enter_stage_keys : keys (enterStage t requestId stage seqLen now) = keys t.requestState := by
  rw [enterStage]
  cases held : find requestId t.requestState with
  | none => rfl
  | some rt => exact keys_replace requestId _ _

theorem enter_stage_same {rt : KllmRequestTrace} (held : find requestId t.requestState = some rt) :
    find requestId (enterStage t requestId stage seqLen now) =
      some ⟨Function.update rt.stageTs stage now, stage, seqLen⟩ := by
  rw [enterStage, held]
  exact find_replace_same requestId _ _ (by rw [held]; rfl)

end

def plainStage : Probe → Option (KllmTraceStage × UInt32)
  | .chardevWrite _ => none
  | .chardevWriteExit => some (.tokenizeEnd, 0)
  | .reactorConsume => some (.reactorConsume, 0)
  | .dispatchDecide => some (.dispatchDecide, 0)
  | .attentionStart => some (.attentionStart, 0)
  | .attentionEnd => some (.attentionEnd, 0)
  | .responseEmit => some (.responseEmit, 1)
  | .eos => none

theorem plain_stage_not_write {probe : Probe} {stage : KllmTraceStage} {count : UInt32}
    (plain : plainStage probe = some (stage, count)) : stage ≠ .chardevWrite := by
  cases probe <;> cases plain <;> decide

theorem plain_probe (t : Tracer) (call : ProbeCall) {stage : KllmTraceStage} {count : UInt32}
    (plain : plainStage call.probe = some (stage, count)) :
    (runProbe t call).requestState = enterStage t call.pid stage 0 call.firstNs ∧
      (runProbe t call).offered =
        t.offered ++ [⟨call.firstNs, call.pid, stage, 0, count, stageDelta t call.pid call.firstNs⟩] ∧
      ∀ cpu, ((runProbe t call).stats cpu).totalLatencyNs = (t.stats cpu).totalLatencyNs ∧
        ((runProbe t call).stats cpu).maxLatencyNs = (t.stats cpu).maxLatencyNs := by
  obtain ⟨probe, cpu, pid, room, firstNs, secondNs⟩ := call
  -- The token counter of trace_response_emit is the one thing outside emit_trace.
  have counted : ∀ other, ((onCpu t cpu (fun stats => { stats with totalTokens := stats.totalTokens + 1 })).stats other).totalLatencyNs =
      (t.stats other).totalLatencyNs ∧
      ((onCpu t cpu (fun stats => { stats with totalTokens := stats.totalTokens + 1 })).stats other).maxLatencyNs =
      (t.stats other).maxLatencyNs := by
    intro other
    by_cases same : other = cpu
    · subst same
      simp [onCpu]
    · simp [onCpu, same]
  have emit : ∀ stage,
      (emitTrace t cpu room pid stage 0 0 firstNs).requestState = enterStage t pid stage 0 firstNs ∧
        (emitTrace t cpu room pid stage 0 0 firstNs).offered =
          t.offered ++ [⟨firstNs, pid, stage, 0, 0, stageDelta t pid firstNs⟩] ∧
        ∀ other, ((emitTrace t cpu room pid stage 0 0 firstNs).stats other).totalLatencyNs = (t.stats other).totalLatencyNs ∧
          ((emitTrace t cpu room pid stage 0 0 firstNs).stats other).maxLatencyNs = (t.stats other).maxLatencyNs :=
    fun stage => ⟨emit_trace_state _ _ _ _ _ _ _ _, emit_trace_offered _ _ _ _ _ _ _ _, emit_trace_stats _ _ _ _ _ _ _ _⟩
  cases probe with
  | chardevWrite count => cases plain
  | eos => cases plain
  | responseEmit =>
      cases plain
      refine ⟨emit_trace_state _ _ _ _ _ _ _ _, emit_trace_offered _ _ _ _ _ _ _ _, fun other => ?_⟩
      have emitted := emit_trace_stats (onCpu t cpu (fun stats => { stats with totalTokens := stats.totalTokens + 1 })) cpu room pid
        .responseEmit 0 1 firstNs other
      exact ⟨emitted.1.trans (counted other).1, emitted.2.trans (counted other).2⟩
  | chardevWriteExit => cases plain; exact emit _
  | reactorConsume => cases plain; exact emit _
  | dispatchDecide => cases plain; exact emit _
  | attentionStart => cases plain; exact emit _
  | attentionEnd => cases plain; exact emit _

theorem end_request_state (t : Tracer) (cpu : Nat) (requestId : UInt32) (now : UInt64) :
    (endRequest t cpu requestId now).requestState = erase requestId t.requestState ∧
      (endRequest t cpu requestId now).offered = t.offered := by
  cases held : find requestId t.requestState with
  | none => simp only [endRequest, held, and_self]
  | some rt => simp only [endRequest, held, onCpu, and_self]

theorem write_probe (t : Tracer) (call : ProbeCall) (count : UInt32) (write : call.probe = .chardevWrite count) :
    runProbe t call = emitTrace (startRequest t call.cpu call.pid call.firstNs) call.cpu call.room call.pid .chardevWrite 0 count
      call.secondNs := by
  rw [runProbe, write]

theorem eos_probe (t : Tracer) (call : ProbeCall) (eos : call.probe = .eos) :
    runProbe t call = endRequest (emitTrace t call.cpu call.room call.pid .eos 0 0 call.firstNs) call.cpu call.pid
      call.secondNs := by
  rw [runProbe, eos]

theorem probe_other (t : Tracer) (call : ProbeCall) (wanted : UInt32) (apart : wanted ≠ call.pid) :
    find wanted (runProbe t call).requestState = find wanted t.requestState ∧
      ∃ evt : KllmTraceEvent, evt.requestId = call.pid ∧ (runProbe t call).offered = t.offered ++ [evt] := by
  cases plain : plainStage call.probe with
  | some at_ =>
      obtain ⟨stage, count⟩ := at_
      obtain ⟨state, offered, _⟩ := plain_probe t call plain
      rw [state, offered]
      exact ⟨enter_stage_other t call.pid stage 0 call.firstNs wanted apart, _, rfl, rfl⟩
  | none =>
      cases kind : call.probe with
      | chardevWrite count =>
          rw [write_probe t call count kind, emit_trace_state, emit_trace_offered, enter_stage_other _ _ _ _ _ wanted apart]
          exact ⟨find_update_other kllmMaxTracked t.requestState call.pid wanted apart _, _, rfl, rfl⟩
      | eos =>
          rw [eos_probe t call kind]
          obtain ⟨state, offered⟩ := end_request_state (emitTrace t call.cpu call.room call.pid .eos 0 0 call.firstNs) call.cpu
            call.pid call.secondNs
          rw [state, offered, emit_trace_state, emit_trace_offered, find_erase_other call.pid wanted apart,
            enter_stage_other _ _ _ _ _ wanted apart]
          exact ⟨rfl, _, rfl, rfl⟩
      | chardevWriteExit => rw [kind] at plain; cases plain
      | reactorConsume => rw [kind] at plain; cases plain
      | dispatchDecide => rw [kind] at plain; cases plain
      | attentionStart => rw [kind] at plain; cases plain
      | attentionEnd => rw [kind] at plain; cases plain
      | responseEmit => rw [kind] at plain; cases plain

def stageLatencies (pid : UInt32) (events : List KllmTraceEvent) : UInt64 :=
  ((events.filter (fun evt => evt.requestId = pid)).map (fun evt => evt.latencyNs)).sum

theorem stage_latencies_snoc (pid : UInt32) (events : List KllmTraceEvent) (evt : KllmTraceEvent) :
    stageLatencies pid (events ++ [evt]) =
      stageLatencies pid events + if evt.requestId = pid then evt.latencyNs else 0 := by
  have sums : ∀ (values : List UInt64) (last : UInt64), (values ++ [last]).sum = values.sum + last := by
    intro values last
    induction values with
    | nil => simp
    | cons value rest ih => simp only [List.cons_append, List.sum_cons, ih, UInt64.add_assoc]
  rw [stageLatencies, List.filter_append, List.map_append]
  by_cases own : evt.requestId = pid
  · have kept : [evt].filter (fun evt => evt.requestId = pid) = [evt] := by simp [own]
    rw [kept, List.map_singleton, sums, if_pos own]
    rfl
  · have gone : [evt].filter (fun evt => evt.requestId = pid) = [] := by simp [own]
    rw [gone, List.map_nil, List.append_nil, if_neg own, UInt64.add_zero]
    rfl

-- A request since its write returned to the caller's process: the latencies of
-- its stages so far add up to the time since then.
def Following (pid : UInt32) (written : UInt64) (before : List KllmTraceEvent) (t : Tracer) : Prop :=
  ∃ rt more, find pid t.requestState = some rt ∧ rt.stageTs .chardevWrite = written ∧ t.offered = before ++ more ∧
    stageLatencies pid more = rt.stageTs rt.lastStage - written

theorem span_add (start middle finish : UInt64) : middle - start + (finish - middle) = finish - start := by grind

theorem following_enter {pid : UInt32} {written : UInt64} {before : List KllmTraceEvent} {t : Tracer}
    (following : Following pid written before t) (stage : KllmTraceStage) (later : stage ≠ .chardevWrite) (seqLen count : UInt32)
    (now : UInt64) (next : Tracer) (state : next.requestState = enterStage t pid stage seqLen now)
    (offered : next.offered = t.offered ++ [⟨now, pid, stage, seqLen, count, stageDelta t pid now⟩]) :
    Following pid written before next := by
  obtain ⟨rt, more, held, start, events, sum⟩ := following
  refine ⟨⟨Function.update rt.stageTs stage now, stage, seqLen⟩, more ++ [⟨now, pid, stage, seqLen, count, stageDelta t pid now⟩],
    ?_, ?_, ?_, ?_⟩
  · rw [state]
    exact enter_stage_same t pid stage seqLen now held
  · exact (Function.update_of_ne later.symm now rt.stageTs).trans start
  · rw [offered, events, List.append_assoc]
  · simp only [stage_latencies_snoc, if_pos, sum, Function.update_self, stageDelta, held]
    exact span_add _ _ _

theorem following_probe {pid : UInt32} {written : UInt64} {before : List KllmTraceEvent} {t : Tracer}
    (following : Following pid written before t) (call : ProbeCall)
    (quiet : call.pid = pid → (plainStage call.probe).isSome) : Following pid written before (runProbe t call) := by
  by_cases own : call.pid = pid
  · obtain ⟨⟨stage, count⟩, plain⟩ := Option.isSome_iff_exists.mp (quiet own)
    obtain ⟨state, offered, _⟩ := plain_probe t call plain
    rw [own] at state offered
    exact following_enter following stage (plain_stage_not_write plain) 0 count call.firstNs _ state offered
  · obtain ⟨rt, more, held, start, events, sum⟩ := following
    obtain ⟨same, evt, owner, offered⟩ := probe_other t call pid (fun eq => own eq.symm)
    refine ⟨rt, more ++ [evt], same.trans held, start, ?_, ?_⟩
    · rw [offered, events, List.append_assoc]
    · have other : ¬ evt.requestId = pid := by
        rw [owner]
        exact own
      rw [stage_latencies_snoc, if_neg other, UInt64.add_zero, sum]

theorem following_probes {pid : UInt32} {written : UInt64} {before : List KllmTraceEvent} {t : Tracer}
    (following : Following pid written before t) (calls : List ProbeCall)
    (quiet : ∀ call ∈ calls, call.pid = pid → (plainStage call.probe).isSome) :
    Following pid written before (runProbes t calls) := by
  induction calls generalizing t with
  | nil => exact following
  | cons call rest ih =>
      exact ih (following_probe following call (quiet call List.mem_cons_self))
        (fun other member => quiet other (List.mem_cons_of_mem call member))

theorem following_start (t : Tracer) (write : ProbeCall) (count : UInt32) (kind : write.probe = .chardevWrite count)
    (room : (find write.pid t.requestState).isSome ∨ t.requestState.length < kllmMaxTracked) :
    Following write.pid write.secondNs (runProbe t write).offered (runProbe t write) := by
  have tracked := find_update_same kllmMaxTracked t.requestState write.pid
    ⟨Function.update (fun _ => 0) KllmTraceStage.chardevWrite write.firstNs, .chardevWrite, 0⟩ room
  have entered := enter_stage_same (startRequest t write.cpu write.pid write.firstNs) write.pid .chardevWrite 0 write.secondNs
    tracked
  rw [write_probe t write count kind]
  refine ⟨_, [], (congrArg _ (emit_trace_state _ _ _ _ _ _ _ _)).trans entered, ?_, (List.append_nil _).symm, ?_⟩
  · simp only [Function.update_self]
  · simp only [Function.update_self, UInt64.sub_self]
    rfl

theorem traced_request_adds_up (t : Tracer) (write finish : ProbeCall) (between : List ProbeCall) (count : UInt32)
    (first : write.probe = .chardevWrite count) (last : finish.probe = .eos) (same : finish.pid = write.pid)
    (room : (find write.pid t.requestState).isSome ∨ t.requestState.length < kllmMaxTracked)
    (quiet : ∀ call ∈ between, call.pid = write.pid → (plainStage call.probe).isSome) :
    ∃ more, (runProbe (runProbes (runProbe t write) between) finish).offered = (runProbe t write).offered ++ more ∧
      stageLatencies write.pid more = finish.firstNs - write.secondNs ∧
      ((runProbe (runProbes (runProbe t write) between) finish).stats finish.cpu).totalLatencyNs =
        ((runProbes (runProbe t write) between).stats finish.cpu).totalLatencyNs + (finish.secondNs - write.secondNs) ∧
      finish.secondNs - write.secondNs ≤
        ((runProbe (runProbes (runProbe t write) between) finish).stats finish.cpu).maxLatencyNs ∧
      find write.pid (runProbe (runProbes (runProbe t write) between) finish).requestState = none := by
  have open_ := following_probes (following_start t write count first room) between quiet
  generalize runProbes (runProbe t write) between = s at open_
  have emitted := following_enter open_ .eos (by decide) 0 0 finish.firstNs
    (emitTrace s finish.cpu finish.room write.pid .eos 0 0 finish.firstNs) (emit_trace_state _ _ _ _ _ _ _ _)
    (emit_trace_offered _ _ _ _ _ _ _ _)
  have entered : ∃ rt, find write.pid (emitTrace s finish.cpu finish.room write.pid .eos 0 0 finish.firstNs).requestState = some rt ∧
      rt.stageTs .chardevWrite = write.secondNs ∧ rt.stageTs rt.lastStage = finish.firstNs := by
    obtain ⟨rt, _, held, start, _, _⟩ := open_
    have apart : KllmTraceStage.chardevWrite ≠ .eos := by decide
    rw [emit_trace_state]
    exact ⟨_, enter_stage_same s write.pid .eos 0 finish.firstNs held, (Function.update_of_ne apart finish.firstNs rt.stageTs).trans start,
      by simp only [Function.update_self]⟩
  obtain ⟨rt, held, start, ended⟩ := entered
  obtain ⟨rt', more, held', _, events, sum⟩ := emitted
  obtain ⟨state, offered⟩ := end_request_state (emitTrace s finish.cpu finish.room write.pid .eos 0 0 finish.firstNs) finish.cpu
    write.pid finish.secondNs
  have before := (emit_trace_stats s finish.cpu finish.room write.pid .eos 0 0 finish.firstNs finish.cpu).1
  rw [held] at held'
  cases held'
  have run := eos_probe s finish last
  rw [same] at run
  refine ⟨more, ?_, ?_, ?_, ?_, ?_⟩
  · rw [run, offered, events]
  · rw [sum, ended]
  · rw [run]
    simp only [endRequest, held, onCpu, Function.update_self, start, before]
  · rw [run]
    simp only [endRequest, held, onCpu, Function.update_self, start]
    split
    · exact UInt64.le_refl _
    · rename_i less
      exact UInt64.not_lt.mp less
  · rw [run, state]
    exact find_erase_same write.pid _

theorem traced_request_served :
    ∃ more, (runProbe (runProbes (runProbe loadedTracer ⟨.chardevWrite 3, 0, 7, true, 10, 12⟩)
        [⟨.chardevWriteExit, 0, 7, true, 15, 0⟩, ⟨.chardevWrite 5, 1, 9, true, 20, 21⟩, ⟨.attentionStart, 0, 7, false, 25, 0⟩])
        ⟨.eos, 2, 7, true, 40, 45⟩).offered = (runProbe loadedTracer ⟨.chardevWrite 3, 0, 7, true, 10, 12⟩).offered ++ more ∧
      stageLatencies 7 more = 28 := by
  obtain ⟨more, offered, sum, _⟩ := traced_request_adds_up loadedTracer ⟨.chardevWrite 3, 0, 7, true, 10, 12⟩
    ⟨.eos, 2, 7, true, 40, 45⟩
    [⟨.chardevWriteExit, 0, 7, true, 15, 0⟩, ⟨.chardevWrite 5, 1, 9, true, 20, 21⟩, ⟨.attentionStart, 0, 7, false, 25, 0⟩] 3
    rfl rfl rfl (Or.inr (by decide)) (by decide)
  exact ⟨more, offered, sum⟩

def writtenBy (calls : List ProbeCall) : List UInt32 :=
  calls.filterMap (fun call => match call.probe with
    | .chardevWrite _ => some call.pid
    | _ => none)

theorem written_by_snoc (calls : List ProbeCall) (call : ProbeCall) : writtenBy (calls ++ [call]) =
    writtenBy calls ++ writtenBy [call] := List.filterMap_append

structure Unmeasured (writers : Set UInt32) (calls : List ProbeCall) (t : Tracer) : Prop where
  idle : ∀ cpu, (t.stats cpu).totalLatencyNs = 0 ∧ (t.stats cpu).maxLatencyNs = 0
  stages : ∀ evt ∈ t.offered, evt.stage ≠ .chardevWrite → evt.stage ≠ .tokenizeEnd → evt.latencyNs = 0
  tracked : keys t.requestState = (writtenBy calls).eraseDups.take kllmMaxTracked
  known : ∀ pid ∈ writtenBy calls, pid ∈ writers

theorem unmeasured_absent {writers : Set UInt32} {calls : List ProbeCall} {t : Tracer} (before : Unmeasured writers calls t)
    (pid : UInt32) (outside : pid ∉ writers) : find pid t.requestState = none := by
  rw [find_none_iff, before.tracked]
  intro member
  exact outside (before.known pid (List.mem_eraseDups.mp (List.mem_of_mem_take member)))

theorem unmeasured_uprobe {writers : Set UInt32} {calls : List ProbeCall} {t : Tracer} (before : Unmeasured writers calls t)
    (pid : UInt32) (outside : pid ∉ writers) (stage : KllmTraceStage) (seqLen : UInt32) (now : UInt64) :
    enterStage t pid stage seqLen now = t.requestState ∧ stageDelta t pid now = 0 := by
  have absent := unmeasured_absent before pid outside
  rw [enterStage, stageDelta, absent]
  exact ⟨rfl, rfl⟩

section
variable {writers : Set UInt32} {calls : List ProbeCall} {t : Tracer}

theorem unmeasured_extend (before : Unmeasured writers calls t) {call : ProbeCall} {next : Tracer} {evt : KllmTraceEvent}
    (stats : ∀ cpu, (next.stats cpu).totalLatencyNs = (t.stats cpu).totalLatencyNs ∧
      (next.stats cpu).maxLatencyNs = (t.stats cpu).maxLatencyNs)
    (offered : next.offered = t.offered ++ [evt])
    (zero : evt.stage ≠ .chardevWrite → evt.stage ≠ .tokenizeEnd → evt.latencyNs = 0)
    (tracked : keys next.requestState = (writtenBy calls ++ writtenBy [call]).eraseDups.take kllmMaxTracked)
    (known : ∀ pid ∈ writtenBy [call], pid ∈ writers) : Unmeasured writers (calls ++ [call]) next := by
  refine ⟨fun cpu => ?_, ?_, ?_, ?_⟩
  · exact ⟨(stats cpu).1.trans (before.idle cpu).1, (stats cpu).2.trans (before.idle cpu).2⟩
  · intro evt' member write exit_
    rw [offered, List.mem_append, List.mem_singleton] at member
    rcases member with earlier | new
    · exact before.stages evt' earlier write exit_
    · rw [new] at write exit_ ⊢
      exact zero write exit_
  · rw [written_by_snoc]
    exact tracked
  · intro pid asked
    rw [written_by_snoc, List.mem_append] at asked
    exact asked.elim (before.known pid) (known pid)

theorem unmeasured_silent (before : Unmeasured writers calls t) {call : ProbeCall} {next : Tracer} {evt : KllmTraceEvent}
    (nothing : writtenBy [call] = [])
    (stats : ∀ cpu, (next.stats cpu).totalLatencyNs = (t.stats cpu).totalLatencyNs ∧
      (next.stats cpu).maxLatencyNs = (t.stats cpu).maxLatencyNs)
    (offered : next.offered = t.offered ++ [evt])
    (zero : evt.stage ≠ .chardevWrite → evt.stage ≠ .tokenizeEnd → evt.latencyNs = 0)
    (same : keys next.requestState = keys t.requestState) : Unmeasured writers (calls ++ [call]) next := by
  refine unmeasured_extend before stats offered zero ?_ ?_
  · rw [same, nothing, List.append_nil]
    exact before.tracked
  · rw [nothing]
    exact fun pid member => absurd member List.not_mem_nil

theorem plain_writes_nothing {call : ProbeCall} {at_ : KllmTraceStage × UInt32} (plain : plainStage call.probe = some at_) :
    writtenBy [call] = [] := by
  cases kind : call.probe with
  | chardevWrite count => rw [kind] at plain; cases plain
  | _ => simp [writtenBy, kind]

theorem plain_uprobe {probe : Probe} {stage : KllmTraceStage} {count : UInt32} (plain : plainStage probe = some (stage, count))
    (apart : stage ≠ .tokenizeEnd) : isUprobe probe = true := by
  cases probe with
  | chardevWriteExit =>
      cases plain
      exact absurd rfl apart
  | chardevWrite count => cases plain
  | _ => rfl

theorem unmeasured_plain (before : Unmeasured writers calls t) (call : ProbeCall) {stage : KllmTraceStage} {count : UInt32}
    (plain : plainStage call.probe = some (stage, count)) (outside : isUprobe call.probe = true → call.pid ∉ writers) :
    Unmeasured writers (calls ++ [call]) (runProbe t call) := by
  obtain ⟨state, offered, stats⟩ := plain_probe t call plain
  refine unmeasured_silent before (plain_writes_nothing plain) stats offered ?_ ?_
  · intro _ exit_
    exact (unmeasured_uprobe before call.pid (outside (plain_uprobe plain exit_)) stage 0 call.firstNs).2
  · rw [state, enter_stage_keys]

theorem unmeasured_write (before : Unmeasured writers calls t) (call : ProbeCall) {count : UInt32}
    (kind : call.probe = .chardevWrite count) (inside : call.pid ∈ writers) :
    Unmeasured writers (calls ++ [call]) (runProbe t call) := by
  have one : writtenBy [call] = [call.pid] := by simp [writtenBy, kind]
  rw [write_probe t call count kind]
  refine unmeasured_extend before (fun cpu => ?_) (emit_trace_offered ..) (fun write _ => absurd rfl write) ?_ ?_
  · have emitted := emit_trace_stats (startRequest t call.cpu call.pid call.firstNs) call.cpu call.room call.pid
      .chardevWrite 0 count call.secondNs cpu
    have started := start_request_stats t call.cpu call.pid call.firstNs cpu
    exact ⟨emitted.1.trans started.1, emitted.2.trans started.2⟩
  · rw [emit_trace_state, enter_stage_keys, one]
    exact keys_update kllmMaxTracked t.requestState (writtenBy calls) before.tracked call.pid _
  · intro pid asked
    rw [one, List.mem_singleton] at asked
    rw [asked]
    exact inside

theorem unmeasured_eos (before : Unmeasured writers calls t) (call : ProbeCall) (kind : call.probe = .eos)
    (outside : call.pid ∉ writers) : Unmeasured writers (calls ++ [call]) (runProbe t call) := by
  have nothing : writtenBy [call] = [] := by simp [writtenBy, kind]
  obtain ⟨entered, delta⟩ := unmeasured_uprobe before call.pid outside .eos 0 call.firstNs
  have held : find call.pid (emitTrace t call.cpu call.room call.pid .eos 0 0 call.firstNs).requestState = none := by
    rw [emit_trace_state, entered]
    exact unmeasured_absent before call.pid outside
  have ended : endRequest (emitTrace t call.cpu call.room call.pid .eos 0 0 call.firstNs) call.cpu call.pid call.secondNs =
      emitTrace t call.cpu call.room call.pid .eos 0 0 call.firstNs := by
    simp only [endRequest, held]
    rw [erase_absent call.pid _ ((find_none_iff _ _).mp held)]
  rw [eos_probe t call kind, ended]
  refine unmeasured_silent before nothing (emit_trace_stats t call.cpu call.room call.pid .eos 0 0 call.firstNs)
    (emit_trace_offered ..) (fun _ _ => delta) ?_
  rw [emit_trace_state, entered]

theorem unmeasured_probe (before : Unmeasured writers calls t) (call : ProbeCall)
    (inside : isWriteProbe call.probe = true → call.pid ∈ writers) (outside : isUprobe call.probe = true → call.pid ∉ writers) :
    Unmeasured writers (calls ++ [call]) (runProbe t call) := by
  cases plain : plainStage call.probe with
  | some at_ => exact unmeasured_plain before call plain outside
  | none =>
      cases kind : call.probe with
      | chardevWrite count => exact unmeasured_write before call kind (inside (by rw [kind]; rfl))
      | eos => exact unmeasured_eos before call kind (outside (by rw [kind]; rfl))
      | chardevWriteExit => rw [kind] at plain; cases plain
      | reactorConsume => rw [kind] at plain; cases plain
      | dispatchDecide => rw [kind] at plain; cases plain
      | attentionStart => rw [kind] at plain; cases plain
      | attentionEnd => rw [kind] at plain; cases plain
      | responseEmit => rw [kind] at plain; cases plain

end

theorem separate_processes_unmeasured (writers : Set UInt32) (calls : List ProbeCall)
    (inside : ∀ call ∈ calls, isWriteProbe call.probe = true → call.pid ∈ writers)
    (outside : ∀ call ∈ calls, isUprobe call.probe = true → call.pid ∉ writers) :
    (∀ cpu, ((runProbes loadedTracer calls).stats cpu).totalLatencyNs = 0 ∧
        ((runProbes loadedTracer calls).stats cpu).maxLatencyNs = 0) ∧
      (∀ evt ∈ (runProbes loadedTracer calls).offered,
        evt.stage ≠ .chardevWrite → evt.stage ≠ .tokenizeEnd → evt.latencyNs = 0) ∧
      keys (runProbes loadedTracer calls).requestState = (writtenBy calls).eraseDups.take kllmMaxTracked := by
  have all : Unmeasured writers calls (runProbes loadedTracer calls) := by
    induction calls using List.reverseRecOn with
    | nil =>
        refine ⟨fun cpu => ⟨rfl, rfl⟩, ?_, rfl, ?_⟩
        · intro evt member
          cases member
        · intro pid member
          cases member
    | append_singleton calls call ih =>
        have before := ih (fun other member => inside other (List.mem_append_left _ member))
          (fun other member => outside other (List.mem_append_left _ member))
        rw [runProbes, List.foldl_append, List.foldl_cons, List.foldl_nil]
        exact unmeasured_probe before call (inside call (by simp)) (outside call (by simp))
  exact ⟨all.idle, all.stages, all.tracked⟩

def twoWriters : List ProbeCall :=
  [⟨.chardevWrite 3, 0, 7, true, 10, 12⟩, ⟨.reactorConsume, 1, 1, true, 20, 0⟩, ⟨.chardevWrite 4, 0, 8, true, 30, 31⟩,
    ⟨.eos, 1, 1, true, 40, 45⟩]

theorem separate_processes_two : keys (runProbes loadedTracer twoWriters).requestState = [7, 8] := by
  have inside : ∀ call ∈ twoWriters, isWriteProbe call.probe = true → call.pid = 7 ∨ call.pid = 8 := by decide
  have outside : ∀ call ∈ twoWriters, isUprobe call.probe = true → ¬ (call.pid = 7 ∨ call.pid = 8) := by decide
  have unmeasured := separate_processes_unmeasured { pid | pid = 7 ∨ pid = 8 } twoWriters inside outside
  rw [unmeasured.2.2]
  rfl

end Kllm.Bpf
