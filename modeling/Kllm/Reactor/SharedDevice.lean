import Mathlib
import Kllm.Chardev.ResponseReads
import Kllm.Reactor.ResponseEmit
import Kllm.Reactor.BatchClose
import Kllm.Reactor.RequestIntegrity

set_option autoImplicit false

namespace Kllm.Reactor

open Chardev

/-- kllm_open stores the address of the one kllm_dev in every file: whatever the descriptor,
ioctls and reads meet here. owners keeps the slot of the request behind each accepted token.
-/
structure SharedDevice where
  resp : RespState
  owners : List Nat

abbrev SlotCall := Nat × Nat × ResponseCall

-- What a schedule lets happen next: the scheduler's next response call, or one
-- part of a kllm_read through a descriptor.
inductive ClientAct where
  | call
  | enter (fd : Nat) (count : UInt64)
  | advance (fd : Nat)
  | fault (fd : Nat)
  deriving DecidableEq, Repr

def takeCall (d : SharedDevice) (call : SlotCall) : SharedDevice where
  resp := respProduce d.resp (callToken call.2.2)
  owners := if respRingSpace d.resp.dev > 0 then d.owners ++ [call.1] else d.owners

-- A read that finds the ring empty waits or returns, and leaves no trace.
def enterRead (s : RespState) (fd : Nat) (count : UInt64) : RespState :=
  if s.readers fd = .idle ∧ count &&& ~~~3 ≠ 0 ∧ 0 < respRingCount s.dev then
    setReader s fd (.entered (count / 4).toUInt32)
  else s

def advanceRead (s : RespState) (fd : Nat) : RespState :=
  match s.readers fd with
  | .idle => s
  | .entered want => { setReader s fd (openWindow s.dev want) with opened := Function.update s.opened fd s.released }
  | .copySingle toCopy => setReader s fd (.closing toCopy (copyCells s s.dev.respTail.toNat toCopy.toNat))
  | .copyFirst toCopy first => setReader s fd (.copySecond toCopy first (copyCells s s.dev.respTail.toNat first.toNat))
  | .copySecond toCopy first got => setReader s fd (.closing toCopy (got ++ copyCells s 0 (toCopy - first).toNat))
  | .closing toCopy got => closeWindow s fd toCopy got

def faultRead (s : RespState) (fd : Nat) : RespState :=
  match s.readers fd with
  | .idle => s
  | .entered _ => s
  | .copySingle _ => setReader s fd .idle
  | .copyFirst _ _ => setReader s fd .idle
  | .copySecond _ _ _ => setReader s fd .idle
  | .closing _ _ => s

def performAct (at_ : SharedDevice × List SlotCall) : ClientAct → SharedDevice × List SlotCall
  | .call =>
      match at_.2 with
      | [] => at_
      | call :: rest => (takeCall at_.1 call, rest)
  | .enter fd count => ({ at_.1 with resp := enterRead at_.1.resp fd count }, at_.2)
  | .advance fd => ({ at_.1 with resp := advanceRead at_.1.resp fd }, at_.2)
  | .fault fd => ({ at_.1 with resp := faultRead at_.1.resp fd }, at_.2)

def runActs (d : SharedDevice) (calls : List SlotCall) (acts : List ClientAct) : SharedDevice :=
  (acts.foldl performAct (d, calls)).1

theorem act_resp_step (at_ : SharedDevice × List SlotCall) (act : ClientAct) :
    (performAct at_ act).1.resp = at_.1.resp ∨ (∃ token, (performAct at_ act).1.resp = respProduce at_.1.resp token) ∨
      ∃ fd, ReadStep fd at_.1.resp (performAct at_ act).1.resp := by
  obtain ⟨⟨s, owners⟩, calls⟩ := at_
  cases act with
  | call =>
      cases calls with
      | nil => exact .inl rfl
      | cons call rest => exact .inr (.inl ⟨callToken call.2.2, rfl⟩)
  | enter fd count =>
      by_cases enabled : s.readers fd = .idle ∧ count &&& ~~~3 ≠ 0 ∧ 0 < respRingCount s.dev
      · simp only [performAct, enterRead, if_pos enabled]
        exact .inr (.inr ⟨fd, .enter count enabled.1 enabled.2.1 enabled.2.2⟩)
      · simp only [performAct, enterRead, if_neg enabled]
        exact .inl trivial
  | advance fd =>
      cases pc : s.readers fd with
      | idle => simp only [performAct, advanceRead, pc]; exact .inl trivial
      | entered want => simp only [performAct, advanceRead, pc]; exact .inr (.inr ⟨fd, .openWindow want pc⟩)
      | copySingle toCopy => simp only [performAct, advanceRead, pc]; exact .inr (.inr ⟨fd, .copySingle toCopy pc⟩)
      | copyFirst toCopy first => simp only [performAct, advanceRead, pc]; exact .inr (.inr ⟨fd, .copyFirst toCopy first pc⟩)
      | copySecond toCopy first got =>
          simp only [performAct, advanceRead, pc]
          exact .inr (.inr ⟨fd, .copySecond toCopy first got pc⟩)
      | closing toCopy got => simp only [performAct, advanceRead, pc]; exact .inr (.inr ⟨fd, .closeWindow toCopy got pc⟩)
  | fault fd =>
      cases pc : s.readers fd with
      | idle => simp only [performAct, faultRead, pc]; exact .inl trivial
      | entered want => simp only [performAct, faultRead, pc]; exact .inl trivial
      | copySingle toCopy => simp only [performAct, faultRead, pc]; exact .inr (.inr ⟨fd, .faultSingle toCopy pc⟩)
      | copyFirst toCopy first => simp only [performAct, faultRead, pc]; exact .inr (.inr ⟨fd, .faultFirst toCopy first pc⟩)
      | copySecond toCopy first got =>
          simp only [performAct, faultRead, pc]
          exact .inr (.inr ⟨fd, .faultSecond toCopy first got pc⟩)
      | closing toCopy got => simp only [performAct, faultRead, pc]; exact .inl trivial

theorem acts_resp_run (d : SharedDevice) (calls : List SlotCall) (acts : List ClientAct)
    (reached : RespRun (fun _ _ => True) d.resp) : RespRun (fun _ _ => True) (runActs d calls acts).resp := by
  rw [runActs]
  induction acts generalizing d calls with
  | nil => exact reached
  | cons act rest ih =>
      apply ih
      show RespRun (fun _ _ => True) (performAct (d, calls) act).1.resp
      cases act_resp_step (d, calls) act with
      | inl same => rw [same]; exact reached
      | inr moved =>
          cases moved with
          | inl produced =>
              obtain ⟨token, same⟩ := produced
              rw [same]
              exact .produce d.resp token reached
          | inr read =>
              obtain ⟨fd, step⟩ := read
              exact .read d.resp _ fd reached trivial step

theorem read_step_act {fd : Nat} {s next : RespState} (step : ReadStep fd s next) :
    (∃ count, enterRead s fd count = next) ∨ advanceRead s fd = next ∨ faultRead s fd = next := by
  cases step with
  | enter count pc some_ ready => exact .inl ⟨count, by rw [enterRead, if_pos ⟨pc, some_, ready⟩]⟩
  | openWindow want pc => exact .inr (.inl (by rw [advanceRead, pc]))
  | copySingle toCopy pc => exact .inr (.inl (by rw [advanceRead, pc]))
  | copyFirst toCopy first pc => exact .inr (.inl (by rw [advanceRead, pc]))
  | copySecond toCopy first got pc => exact .inr (.inl (by rw [advanceRead, pc]))
  | faultSingle toCopy pc => exact .inr (.inr (by rw [faultRead, pc]))
  | faultFirst toCopy first pc => exact .inr (.inr (by rw [faultRead, pc]))
  | faultSecond toCopy first got pc => exact .inr (.inr (by rw [faultRead, pc]))
  | closeWindow toCopy got pc => exact .inr (.inl (by rw [advanceRead, pc]))

def readBy (start d : SharedDevice) (fd : Nat) : List (Option Nat × UInt32) :=
  ((d.resp.delivered.drop start.resp.delivered.length).filter (fun delivery => delivery.reader = fd)).flatMap
    (fun delivery => delivery.cells.map (fun cell => (cell.origin.bind (fun n => d.owners[n]?), cell.token)))

def ownStream (d : SharedDevice) (calls : List SlotCall) (slot : Nat) : List (Option Nat × UInt32) :=
  (((d.owners.zip d.resp.accepted).drop d.resp.released ++ calls.map (fun call => (call.1, callToken call.2.2))).filter
    (fun entry => entry.1 = slot)).map (fun entry => (some entry.1, entry.2))

def runCalls (s : KllmBatchScheduler) (envs : List BatchEnv) : List SlotCall := (batchSteps s envs).2.filterMap responseOf

-- Another run of as many steps: in the slot another prompt, or other tokens
-- generated from it, and the same calls for every other request.
def Varied (slot : Nat) (s : KllmBatchScheduler) (envs : List BatchEnv) (s' : KllmBatchScheduler) (envs' : List BatchEnv) :
    Prop :=
  (∃ buffer promptLen seqLen, promptLen ≤ seqLen ∧ seqLen ≤ kllmMaxSeqLen ∧
    s' = setRequest s slot { requestAt s slot with tokens := some buffer, promptLen := promptLen, seqLen := seqLen }) ∧
  envs'.length = envs.length ∧
  ∀ other, other ≠ slot →
    (batchSteps s' envs').2.filterMap (slotResponse other) = (batchSteps s envs).2.filterMap (slotResponse other)

/-- On every schedule the client of own reads the beginning of its request's stream, and the
same tokens whatever the other request does. -/
structure NonInterference (d : SharedDevice) (s : KllmBatchScheduler) (envs : List BatchEnv) (own other fd : Nat) : Prop where
  beginning : ∀ acts, readBy d (runActs d (runCalls s envs) acts) fd <+: ownStream d (runCalls s envs) own
  same : ∀ s' envs', Varied other s envs s' envs' → ∀ acts,
    (readBy d (runActs d (runCalls s' envs') acts) fd).map Prod.snd =
      (readBy d (runActs d (runCalls s envs) acts) fd).map Prod.snd

structure TwoClients (fdOf : Nat → Nat) (s : KllmBatchScheduler) (a b : Nat) : Prop where
  first : a < s.maxRequests.toNat ∧ InFlight (requestAt s a)
  second : b < s.maxRequests.toNat ∧ InFlight (requestAt s b)
  differ : fdOf (requestAt s a).response ≠ fdOf (requestAt s b).response

structure AtRest (d : SharedDevice) : Prop where
  rep : RespRep d.resp
  idle : ∀ fd, d.resp.readers fd = .idle
  owned : d.owners.length = d.resp.accepted.length

def StepLost (s : KllmBatchScheduler) (env : BatchEnv) : Prop :=
  ∀ turned ∈ (stepBatch s).zipIdx,
    (inferRequest (decodeReady s).gpu env turned.2 turned.1 (requestAt (decodeReady s) turned.1)).token = none

def AllLost (s : KllmBatchScheduler) : List BatchEnv → Prop
  | [] => True
  | env :: rest => StepLost s env ∧ AllLost (kllmBatchStep s env).sched rest

theorem decode_request_silent_iff (gpu : Bool) (eosTokenId : UInt32) (env : BatchEnv) (turn slot : Nat) (req : KllmRequest) :
    (decodeRequest gpu eosTokenId env turn slot req).events.filterMap responseOf = [] ↔
      (inferRequest gpu env turn slot req).token = none := by
  have quiet := infer_request_quiet gpu env turn slot req
  have outcome := decode_request_case gpu eosTokenId env turn slot req
  generalize decodeRequest gpu eosTokenId env turn slot req = result at outcome
  cases outcome with
  | failed lost => simp [quiet, lost]
  | ended found => simp [found, responseOf]
  | appended token found other room => simp [found, List.filterMap_cons, responseOf]
  | filled token found other full => simp [found, responseOf]

theorem step_silent_iff {s : KllmBatchScheduler} (size : s.requests.length = s.maxRequests.toNat) (env : BatchEnv) :
    (kllmBatchStep s env).events.filterMap responseOf = [] ↔ StepLost s env := by
  rw [(kllm_batch_step_spec size env).events, List.filterMap_flatMap, List.flatMap_eq_nil_iff]
  exact forall₂_congr (fun turned _ => decode_request_silent_iff _ _ _ _ _ _)

theorem run_silent_iff {s : KllmBatchScheduler} (size : s.requests.length = s.maxRequests.toNat) (envs : List BatchEnv) :
    runCalls s envs = [] ↔ AllLost s envs := by
  induction envs generalizing s with
  | nil => simp [runCalls, batchSteps, AllLost]
  | cons env rest ih =>
      have kept := (kllm_batch_step_spec size env).kept
      have later := ih (s := (kllmBatchStep s env).sched) (by rw [kept.slots, kept.maxRequests, size])
      rw [runCalls] at later
      rw [runCalls, batchSteps, List.filterMap_append, List.append_eq_nil_iff, step_silent_iff size, later, AllLost]

theorem varied_size {slot : Nat} {s s' : KllmBatchScheduler} {envs envs' : List BatchEnv}
    (size : s.requests.length = s.maxRequests.toNat) (varied : Varied slot s envs s' envs') :
    s'.requests.length = s'.maxRequests.toNat := by
  obtain ⟨⟨buffer, promptLen, seqLen, _, _, rfl⟩, _⟩ := varied
  rw [setRequest, List.length_set]
  exact size

section
variable {d : SharedDevice}

theorem quiet_acts (rest_ : AtRest d) (empty : respRingCount d.resp.dev = 0) (acts : List ClientAct) :
    runActs d [] acts = d := by
  have still : ∀ act, performAct (d, []) act = (d, []) := by
    intro act
    cases act with
    | call => rfl
    | enter fd count => simp [performAct, enterRead, empty]
    | advance fd => simp [performAct, advanceRead, rest_.idle fd]
    | fault fd => simp [performAct, faultRead, rest_.idle fd]
  rw [runActs]
  induction acts with
  | nil => rfl
  | cons act rest ih => rw [List.foldl_cons, still act, ih]

theorem quiet_reads (rest_ : AtRest d) (empty : respRingCount d.resp.dev = 0) (acts : List ClientAct) (fd : Nat) :
    readBy d (runActs d [] acts) fd = [] := by
  rw [quiet_acts rest_ empty acts, readBy, List.drop_length]
  rfl

def readOne (fd : Nat) : List ClientAct := [.enter fd 4, .advance fd, .advance fd, .advance fd]

theorem open_window_one {s : RespState} (rep : RespRep s) (ready : 0 < respRingCount s.dev) :
    openWindow s.dev 1 = .copySingle 1 := by
  have one : (1 : UInt32).toNat = 1 := rfl
  have whole : (4096 : UInt32).toNat = 4096 := rfl
  have tail := rep.tail
  have some_ : ¬ respRingCount s.dev < 1 := by
    rw [UInt32.not_lt, UInt32.le_iff_toNat_le, one]
    exact UInt32.lt_iff_toNat_lt.mp ready
  have single : s.dev.respTail + 1 ≤ s.dev.respMask + 1 := by
    rw [ring_size (rep_ring rep), UInt32.le_iff_toNat_le, UInt32.toNat_add, one, whole]
    omega
  simp only [openWindow, if_neg some_, if_pos single]

theorem read_one_delivers (rep : RespRep d.resp) (calls : List SlotCall) (fd : Nat) (idle : d.resp.readers fd = .idle)
    (ready : 0 < respRingCount d.resp.dev) :
    ∃ token, d.resp.accepted[d.resp.released]? = some token ∧
      (runActs d calls (readOne fd)).owners = d.owners ∧
      (runActs d calls (readOne fd)).resp.delivered = d.resp.delivered ++ [⟨fd, [⟨some d.resp.released, token⟩]⟩] := by
  have count := resp_count rep
  have some_ : 0 < (respRingCount d.resp.dev).toNat := UInt32.lt_iff_toNat_lt.mp ready
  have inside : d.resp.released < d.resp.accepted.length := by omega
  refine ⟨d.resp.accepted[d.resp.released], List.getElem?_eq_getElem inside, rfl, ?_⟩
  have copied : copyCells d.resp d.resp.dev.respTail.toNat 1 = [⟨some d.resp.released, d.resp.accepted[d.resp.released]⟩] := by
    rw [copy_cells_window rep 1 inside (by omega), window, List.take_one_drop_eq_of_lt_length (by rw [tagged_length]; exact inside)]
    simp [tagged]
  have opened := open_window_one rep ready
  have entered : enterRead d.resp fd 4 = setReader d.resp fd (.entered 1) := by
    rw [enterRead, if_pos ⟨idle, by decide, ready⟩]
    rfl
  simp only [runActs, readOne, List.foldl_cons, List.foldl_nil, performAct, entered]
  simp only [advanceRead, setReader, Function.update_self, opened, closeWindow]
  rw [← copied]
  rfl

theorem read_one_reads {start : SharedDevice} (rest_ : AtRest d) (same : d.resp.delivered = start.resp.delivered)
    (calls : List SlotCall) (fd : Nat) (ready : 0 < respRingCount d.resp.dev) :
    ∃ slot token, d.owners[d.resp.released]? = some slot ∧
      readBy start (runActs d calls (readOne fd)) fd = [(some slot, token)] := by
  obtain ⟨token, found, owners, delivered⟩ := read_one_delivers rest_.rep calls fd (rest_.idle fd) ready
  have inside : d.resp.released < d.owners.length := by
    rw [rest_.owned]
    exact (List.getElem?_eq_some_iff.mp found).1
  refine ⟨d.owners[d.resp.released], token, List.getElem?_eq_getElem inside, ?_⟩
  rw [readBy, owners, delivered, same, List.drop_left]
  simp [List.getElem?_eq_getElem inside]

theorem take_call_rest (rest_ : AtRest d) (empty : respRingCount d.resp.dev = 0) (call : SlotCall) :
    AtRest (takeCall d call) ∧ 0 < respRingCount (takeCall d call).resp.dev ∧
      (takeCall d call).resp.delivered = d.resp.delivered ∧
      (takeCall d call).owners[(takeCall d call).resp.released]? = some call.1 := by
  have rep := rest_.rep
  have order := released_le rep
  have drained : d.resp.released = d.resp.accepted.length := by
    have count := resp_count rep
    rw [empty, show (0 : UInt32).toNat = 0 from rfl] at count
    omega
  have space : respRingSpace d.resp.dev > 0 := by
    rw [gt_iff_lt, UInt32.lt_iff_toNat_lt, ring_space (rep_ring rep), drained]
    simp
  have accepted : (takeCall d call).resp.accepted = d.resp.accepted ++ [callToken call.2.2] := by
    simp only [takeCall, respProduce, if_pos space]
  have released : (takeCall d call).resp.released = d.resp.released := by simp only [takeCall, respProduce, if_pos space]
  have owners : (takeCall d call).owners = d.owners ++ [call.1] := by simp only [takeCall, if_pos space]
  have next : AtRest (takeCall d call) := by
    refine ⟨resp_produce_rep rep _, ?_, ?_⟩
    · intro fd
      rw [takeCall, resp_produce_readers]
      exact rest_.idle fd
    · rw [owners, accepted, List.length_append, List.length_append, rest_.owned]
      rfl
  refine ⟨next, ?_, ?_, ?_⟩
  · rw [UInt32.lt_iff_toNat_lt, resp_count next.rep, accepted, released, drained, List.length_append, List.length_singleton]
    simp
  · simp only [takeCall, respProduce, if_pos space]
  · rw [owners, released, drained, ← rest_.owned, List.getElem?_concat_length]

theorem own_stream_owner (calls : List SlotCall) (slot : Nat) :
    ∀ entry ∈ ownStream d calls slot, entry.1 = some slot := by
  intro entry member
  obtain ⟨pair, kept, rfl⟩ := List.mem_map.mp member
  have same := (List.mem_filter.mp kept).2
  simpa using same

end

section
variable {fdOf : Nat → Nat} {d : SharedDevice} {s : KllmBatchScheduler} {envs : List BatchEnv} {a b : Nat}

theorem clients_slots_differ (clients : TwoClients fdOf s a b) : a ≠ b := by
  intro same
  exact clients.differ (by rw [same])

theorem unread_token_disclosed (rest_ : AtRest d) {own other fd : Nat} (holds : NonInterference d s envs own other fd)
    (ready : 0 < respRingCount d.resp.dev) : d.owners[d.resp.released]? = some own := by
  obtain ⟨slot, token, owner, read⟩ := read_one_reads rest_ rfl (runCalls s envs) fd ready
  have beginning := holds.beginning (readOne fd)
  rw [read] at beginning
  have mine := own_stream_owner (runCalls s envs) own (some slot, token) (beginning.mem List.mem_cons_self)
  exact owner.trans mine

theorem first_call_disclosed (rest_ : AtRest d) (empty : respRingCount d.resp.dev = 0) {own other fd : Nat}
    (holds : NonInterference d s envs own other fd) {call : SlotCall} {rest : List SlotCall}
    (calls : runCalls s envs = call :: rest) : call.1 = own := by
  obtain ⟨next, ready, delivered, owner⟩ := take_call_rest rest_ empty call
  obtain ⟨slot, token, found, read⟩ := read_one_reads next delivered rest fd ready
  have beginning := holds.beginning (.call :: readOne fd)
  rw [calls] at beginning
  have mine := own_stream_owner (call :: rest) own (some slot, token) (beginning.mem (read ▸ List.mem_cons_self))
  exact Option.some.inj (owner.symm.trans (found.trans mine))

theorem varied_call_disclosed (rest_ : AtRest d) (empty : respRingCount d.resp.dev = 0) {own other fd : Nat}
    (holds : NonInterference d s envs own other fd) (silent : runCalls s envs = []) {s' : KllmBatchScheduler}
    {envs' : List BatchEnv} (varied : Varied other s envs s' envs') : runCalls s' envs' = [] := by
  cases calls : runCalls s' envs' with
  | nil => rfl
  | cons call rest =>
      obtain ⟨next, ready, delivered, _⟩ := take_call_rest rest_ empty call
      obtain ⟨slot, token, _, read⟩ := read_one_reads next delivered rest fd ready
      have same := holds.same s' envs' varied (.call :: readOne fd)
      rw [silent, quiet_reads rest_ empty, calls] at same
      replace read : readBy d (runActs d (call :: rest) (.call :: readOne fd)) fd = [(some slot, token)] := read
      rw [read] at same
      cases same

theorem silent_non_interference (rest_ : AtRest d) (empty : respRingCount d.resp.dev = 0) {own other fd : Nat}
    (silent : runCalls s envs = []) (varied : ∀ s' envs', Varied other s envs s' envs' → runCalls s' envs' = []) :
    NonInterference d s envs own other fd where
  beginning := by
    intro acts
    rw [silent, quiet_reads rest_ empty]
    exact List.nil_prefix
  same := by
    intro s' envs' variation acts
    rw [silent, varied s' envs' variation]

theorem non_interference_iff (size : s.requests.length = s.maxRequests.toNat) (clients : TwoClients fdOf s a b)
    (rest_ : AtRest d) :
    (NonInterference d s envs a b (fdOf (requestAt s a).response) ∧
        NonInterference d s envs b a (fdOf (requestAt s b).response)) ↔
      respRingCount d.resp.dev = 0 ∧ AllLost s envs ∧
        (∀ s' envs', Varied a s envs s' envs' → AllLost s' envs') ∧
        ∀ s' envs', Varied b s envs s' envs' → AllLost s' envs' := by
  have differ := clients_slots_differ clients
  constructor
  · intro both
    obtain ⟨first, second⟩ := both
    have empty : respRingCount d.resp.dev = 0 := by
      by_contra waiting
      have ready : 0 < respRingCount d.resp.dev := UInt32.pos_iff_ne_zero.mpr waiting
      have mine := unread_token_disclosed rest_ first ready
      exact differ (Option.some.inj (mine.symm.trans (unread_token_disclosed rest_ second ready)))
    have silent : runCalls s envs = [] := by
      cases calls : runCalls s envs with
      | nil => rfl
      | cons call rest =>
          have mine := first_call_disclosed rest_ empty first calls
          exact absurd (mine.symm.trans (first_call_disclosed rest_ empty second calls)) differ
    refine ⟨empty, (run_silent_iff size envs).mp silent, ?_, ?_⟩
    · intro s' envs' varied
      exact (run_silent_iff (varied_size size varied) envs').mp (varied_call_disclosed rest_ empty second silent varied)
    · intro s' envs' varied
      exact (run_silent_iff (varied_size size varied) envs').mp (varied_call_disclosed rest_ empty first silent varied)
  · intro nothing
    obtain ⟨empty, lost, lostA, lostB⟩ := nothing
    have silent := (run_silent_iff size envs).mpr lost
    constructor
    · exact silent_non_interference rest_ empty silent
        (fun s' envs' varied => (run_silent_iff (varied_size size varied) envs').mpr (lostB s' envs' varied))
    · exact silent_non_interference rest_ empty silent
        (fun s' envs' varied => (run_silent_iff (varied_size size varied) envs').mpr (lostA s' envs' varied))

end

def clientRequest (requestId token : UInt32) (response : Nat) : KllmRequest :=
  ⟨requestId, .decode, .cpu, some (fun _ => token), 1, 1, 0, 0, false, response⟩

def twoClients (token : UInt32) : KllmBatchScheduler :=
  ⟨⟨2, 8, 2, 0⟩, false, ⟨⟨512, 0, 0⟩, ⟨0, 0, 0, 0, 0, 0⟩⟩, [clientRequest 1 token 8, clientRequest 2 4 9], 2, 2, 3, [], [],
    ⟨0, 0, 0, 0, 0, 0, 0⟩⟩

def promptEnv : BatchEnv := ⟨fun _ tokens => some (tokens.getD 0 0 + 10), fun _ _ => none, fun _ _ => none, fun _ => 0⟩

def createdShared : SharedDevice := ⟨createdResp, []⟩

theorem two_clients : TwoClients id (twoClients 3) 0 1 := ⟨by decide, by decide, by decide⟩

theorem created_at_rest : AtRest createdShared := ⟨created_resp_rep, fun _ => rfl, rfl⟩

theorem two_clients_interfere : TwoClients id (twoClients 3) 0 1 ∧ AtRest createdShared ∧
    ¬ (NonInterference createdShared (twoClients 3) [promptEnv] 0 1 8 ∧
      NonInterference createdShared (twoClients 3) [promptEnv] 1 0 9) := by
  refine ⟨two_clients, created_at_rest, fun both => ?_⟩
  have lost := (non_interference_iff rfl two_clients created_at_rest).mp both
  exact absurd lost.2.1.1 (by unfold StepLost; decide)

-- The client behind descriptor 9 reads the token that the request behind
-- descriptor 8 generated, and sees that request's prompt change.
theorem other_client_reads : TwoClients id (twoClients 3) 0 1 ∧ AtRest createdShared ∧
    runCalls (twoClients 3) [promptEnv] = [(0, 8, .emitOne 13), (1, 9, .emitOne 14)] ∧
    readBy createdShared (runActs createdShared (runCalls (twoClients 3) [promptEnv]) (.call :: readOne 9)) 9 =
      [(some 0, 13)] ∧
    ownStream createdShared (runCalls (twoClients 3) [promptEnv]) 1 = [(some 1, 14)] ∧
    Varied 0 (twoClients 3) [promptEnv] (twoClients 5) [promptEnv] ∧
    readBy createdShared (runActs createdShared (runCalls (twoClients 5) [promptEnv]) (.call :: readOne 9)) 9 =
      [(some 0, 15)] := by
  refine ⟨two_clients, created_at_rest, by decide +kernel, by decide +kernel, by decide +kernel, ⟨⟨fun _ => 5, 1, 1, ?_⟩, rfl, ?_⟩,
    by decide +kernel⟩
  · exact ⟨by decide, by decide, rfl⟩
  · intro other differ
    have before : (batchSteps (twoClients 3) [promptEnv]).2 = [.inferCpu 0 [3], .emitOne 0 8 13, .store 0 1,
        .inferCpu 1 [4], .emitOne 1 9 14, .store 1 1] := by decide +kernel
    have after : (batchSteps (twoClients 5) [promptEnv]).2 = [.inferCpu 0 [5], .emitOne 0 8 15, .store 0 1,
        .inferCpu 1 [4], .emitOne 1 9 14, .store 1 1] := by decide +kernel
    rw [before, after]
    simp [List.filterMap_cons, slotResponse, Ne.symm differ]

end Kllm.Reactor
