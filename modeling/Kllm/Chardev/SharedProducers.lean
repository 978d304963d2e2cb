import Mathlib
import Kllm.Lib.CircularBuffer
import Kllm.Chardev.TokenRingRuns

set_option autoImplicit false

namespace Kllm.Chardev

open CircularBuffer

-- A call of kllm_tokenize on one CPU: before its third phase, with the tokens that
-- the merges left in its own scratch sequence, or inside it.
inductive CallPc where
  | before (tokens : List UInt32)
  | inside (pc : ProducerPc)
deriving DecidableEq, Repr

-- Two CPUs write to one ring; nothing in the ring keeps them apart.
structure SharedRing where
  hdr : KllmRingHdr
  calls : Bool → CallPc

def alone (hdr : KllmRingHdr) (pc : ProducerPc) : RingState := ⟨hdr, pc, .idle, [], [], []⟩

-- A call loads head once and then takes the steps of the one producer; idle is its
-- return.
inductive CallStep (hdr : KllmRingHdr) : CallPc → KllmRingHdr → CallPc → Prop where
  | load (tokens : List UInt32) (nonzero : hdr.slotCount ≠ 0) :
      CallStep hdr (.before tokens) hdr (.inside (.tokenizeCheck (tokens.take maxSeqLen) hdr.head))
  | inside (pc : ProducerPc) (next : RingState) (busy : pc ≠ .idle) (step : ProducerStep (alone hdr pc) next) :
      CallStep hdr (.inside pc) next.hdr (.inside next.producer)

def moveCall (s : SharedRing) (cpu : Bool) (hdr : KllmRingHdr) (pc : CallPc) : SharedRing :=
  ⟨hdr, Function.update s.calls cpu pc⟩

@[simp] theorem move_call_hdr (s : SharedRing) (cpu : Bool) (hdr : KllmRingHdr) (pc : CallPc) :
    (moveCall s cpu hdr pc).hdr = hdr := rfl

@[simp] theorem move_call_self (s : SharedRing) (cpu : Bool) (hdr : KllmRingHdr) (pc : CallPc) :
    (moveCall s cpu hdr pc).calls cpu = pc := Function.update_self ..

@[simp] theorem move_call_not (s : SharedRing) (cpu : Bool) (hdr : KllmRingHdr) (pc : CallPc) :
    (moveCall s cpu hdr pc).calls (!cpu) = s.calls (!cpu) := Function.update_of_ne (Bool.not_ne_self cpu) ..

theorem move_call_again (s : SharedRing) (cpu : Bool) (hdr next : KllmRingHdr) (pc after : CallPc) :
    moveCall (moveCall s cpu hdr pc) cpu next after = moveCall s cpu next after := by
  rw [moveCall, moveCall, Function.update_idem, moveCall]

inductive SharedStep (s : SharedRing) : SharedRing → Prop where
  | call (cpu : Bool) (hdr : KllmRingHdr) (pc : CallPc) (step : CallStep s.hdr (s.calls cpu) hdr pc) :
      SharedStep s (moveCall s cpu hdr pc)

def SharedRun : SharedRing → SharedRing → Prop := Relation.ReflTransGen SharedStep

def raceStart (hdr : KllmRingHdr) (prompts : Bool → List UInt32) : SharedRing := ⟨hdr, fun cpu => .before (prompts cpu)⟩

def Loaded : CallPc → Prop
  | .before _ => False
  | .inside _ => True

def Published : CallPc → Prop
  | .inside .tokenizeBump => True
  | .inside .idle => True
  | _ => False

theorem published_loaded {pc : CallPc} (done : Published pc) : Loaded pc := by
  cases pc with
  | before tokens => exact done.elim
  | inside pc => trivial

-- A call that loaded head at the given position and has written some of its tokens.
-- Positions count everything ever published; position p lives in slot p % size.
def CallAt (size : Nat) (prompt : List UInt32) (pc : CallPc) (start written : Nat) : Prop :=
  match pc with
  | .before tokens => tokens = prompt ∧ written = 0
  | .inside (.tokenizeCheck rest head) =>
      rest = prompt.drop written ∧ written ≤ prompt.length ∧ head.toNat = (start + written) % size
  | .inside (.tokenizeWrite token rest head next) =>
      token :: rest = prompt.drop written ∧ head.toNat = (start + written) % size ∧ next.toNat = (start + written + 1) % size
  | .inside (.tokenizePublish head) => written = prompt.length ∧ head.toNat = (start + written) % size
  | .inside .tokenizeBump => written = prompt.length
  | .inside .idle => written = prompt.length
  | _ => False

section
variable (count : UInt32) (low base : Nat) (prompts : Bool → List UInt32) (old : Nat → UInt32)

def headPosition (start : Bool → Nat) : Option Bool → Nat
  | none => base
  | some cpu => start cpu + (prompts cpu).length

def Filled (slots : Nat → UInt32) (start written : Bool → Nat) : Prop :=
  ∀ cpu i, i < written cpu → ∃ writer j, j < written writer ∧ start writer + j = start cpu + i ∧
    (prompts writer)[j]? = some (slots ((start cpu + i) % count.toNat))

-- A call starts at the head of before, or behind the other call if that has
-- published by then; in the second case it publishes last.
def StartOk (calls : Bool → CallPc) (start : Bool → Nat) (last : Option Bool) (cpu : Bool) : Prop :=
  start cpu = base ∨ start cpu = base + (prompts (!cpu)).length ∧ start (!cpu) = base ∧ Published (calls (!cpu)) ∧
    (Published (calls cpu) → last = some cpu)

structure Racing (s : SharedRing) (start written : Bool → Nat) (last : Option Bool) : Prop where
  slotCount : s.hdr.slotCount = count
  tail : s.hdr.tail.toNat = low % count.toNat
  head : s.hdr.head.toNat = headPosition base prompts start last % count.toNat
  calls : ∀ cpu, CallAt count.toNat (prompts cpu) (s.calls cpu) (start cpu) (written cpu)
  lastOne : ∀ cpu, last = some cpu → Published (s.calls cpu)
  noneYet : last = none → ∀ cpu, ¬ Published (s.calls cpu)
  starts : ∀ cpu, Loaded (s.calls cpu) → StartOk base prompts s.calls start last cpu
  kept : ∀ p, low ≤ p → p < base → s.hdr.slots (p % count.toNat) = old p
  filled : Filled count prompts s.hdr.slots start written

end

inductive TokenizeMove (hdr : KllmRingHdr) : ProducerPc → KllmRingHdr → ProducerPc → Prop where
  | done (head : UInt32) : TokenizeMove hdr (.tokenizeCheck [] head) hdr (.tokenizePublish head)
  | full (token : UInt32) (rest : List UInt32) (head : UInt32) (full : ringNext hdr head = hdr.tail) :
      TokenizeMove hdr (.tokenizeCheck (token :: rest) head) hdr (.tokenizePublish head)
  | room (token : UInt32) (rest : List UInt32) (head : UInt32) :
      TokenizeMove hdr (.tokenizeCheck (token :: rest) head) hdr (.tokenizeWrite token rest head (ringNext hdr head))
  | write (token : UInt32) (rest : List UInt32) (head next : UInt32) :
      TokenizeMove hdr (.tokenizeWrite token rest head next) (writeSlot hdr head token) (.tokenizeCheck rest next)
  | publish (head : UInt32) : TokenizeMove hdr (.tokenizePublish head) { hdr with head := head } .tokenizeBump
  | bump : TokenizeMove hdr .tokenizeBump { hdr with seqId := hdr.seqId + 1 } .idle

theorem tokenize_move {hdr : KllmRingHdr} {pc : ProducerPc} {next : RingState} {size start written : Nat} {prompt : List UInt32}
    (busy : pc ≠ .idle) (here : CallAt size prompt (.inside pc) start written) (step : ProducerStep (alone hdr pc) next) :
    TokenizeMove hdr pc next.hdr next.producer := by
  cases step with
  | produceLoad token idle => exact absurd idle busy
  | produceFull token head at_ => cases at_; exact here.elim
  | produceRoom token head at_ => cases at_; exact here.elim
  | produceWrite token head next at_ => cases at_; exact here.elim
  | producePublish next at_ => cases at_; exact here.elim
  | tokenizeLoad tokens idle => exact absurd idle busy
  | tokenizeDone head at_ => cases at_; exact .done head
  | tokenizeFull token rest head at_ full => cases at_; exact .full token rest head full
  | tokenizeRoom token rest head at_ => cases at_; exact .room token rest head
  | tokenizeWrite token rest head next at_ => cases at_; exact .write token rest head next
  | tokenizePublish head at_ => cases at_; exact .publish head
  | tokenizeBump at_ => cases at_; exact .bump

theorem call_at_written {size start written : Nat} {prompt : List UInt32} {pc : CallPc} (here : CallAt size prompt pc start written) :
    written ≤ prompt.length ∧ (0 < written → Loaded pc) := by
  cases pc with
  | before tokens =>
      obtain ⟨_, rfl⟩ := here
      exact ⟨Nat.zero_le _, fun some_ => absurd some_ (Nat.lt_irrefl 0)⟩
  | inside pc =>
      refine ⟨?_, fun _ => trivial⟩
      cases pc with
      | tokenizeCheck rest head => exact here.2.1
      | tokenizeWrite token rest head next =>
          have lengths := congrArg List.length here.1
          rw [List.length_cons, List.length_drop] at lengths
          omega
      | tokenizePublish head => exact here.1.le
      | tokenizeBump => exact Nat.le_of_eq here
      | idle => exact Nat.le_of_eq here
      | produceCheck token head => exact here.elim
      | produceWrite token head next => exact here.elim
      | producePublish next => exact here.elim

section
variable {count : UInt32} {low base : Nat} {prompts : Bool → List UInt32} {old : Nat → UInt32} {s : SharedRing}
  {start written : Bool → Nat} {last : Option Bool}

theorem lengths_total (prompts : Bool → List UInt32) (cpu : Bool) :
    (prompts cpu).length + (prompts (!cpu)).length = (prompts true).length + (prompts false).length := by
  cases cpu with
  | false => exact Nat.add_comm _ _
  | true => rfl

theorem written_position (racing : Racing count low base prompts old s start written last) (cpu : Bool)
    (loaded : Loaded (s.calls cpu)) {i : Nat} (inside : i ≤ (prompts cpu).length) :
    base ≤ start cpu + i ∧ start cpu + i ≤ base + ((prompts true).length + (prompts false).length) := by
  have total := lengths_total prompts cpu
  rcases racing.starts cpu loaded with atBase | ⟨behind, _⟩
  · omega
  · omega

theorem both_calls {property : Bool → Prop} (cpu : Bool) (this : property cpu) (other : property (!cpu)) (either : Bool) :
    property either := by
  by_cases same : either = cpu
  · exact same ▸ this
  · rw [Bool.eq_not_of_ne same]
    exact other

theorem start_at_base (racing : Racing count low base prompts old s start written last) {cpu : Bool}
    (unpublished : ¬ Published (s.calls cpu)) (loaded : Loaded (s.calls (!cpu))) : start (!cpu) = base := by
  rcases racing.starts (!cpu) loaded with atBase | ⟨_, _, published, _⟩
  · exact atBase
  · rw [Bool.not_not] at published
    exact absurd published unpublished

theorem starts_kept (racing : Racing count low base prompts old s start written last) {calls : Bool → CallPc}
    (same : ∀ cpu, Published (calls cpu) ↔ Published (s.calls cpu)) (already : ∀ cpu, Loaded (calls cpu) → Loaded (s.calls cpu))
    (cpu : Bool) (loaded : Loaded (calls cpu)) : StartOk base prompts calls start last cpu := by
  rcases racing.starts cpu (already cpu loaded) with atBase | ⟨behind, first, done, order⟩
  · exact .inl atBase
  · exact .inr ⟨behind, first, (same _).mpr done, fun now => order ((same _).mp now)⟩

theorem move_racing (racing : Racing count low base prompts old s start written last) (cpu : Bool) (hdr : KllmRingHdr) (pc : CallPc)
    (slotCount : hdr.slotCount = s.hdr.slotCount) (tail : hdr.tail = s.hdr.tail) (head : hdr.head = s.hdr.head)
    (slots : hdr.slots = s.hdr.slots) (here : CallAt count.toNat (prompts cpu) pc (start cpu) (written cpu))
    (loaded : Loaded (s.calls cpu)) (published : Published pc ↔ Published (s.calls cpu)) :
    Racing count low base prompts old (moveCall s cpu hdr pc) start written last := by
  have same : ∀ either, Published ((moveCall s cpu hdr pc).calls either) ↔ Published (s.calls either) :=
    both_calls cpu (by rw [move_call_self]; exact published) (by rw [move_call_not])
  have already : ∀ either, Loaded ((moveCall s cpu hdr pc).calls either) → Loaded (s.calls either) :=
    both_calls cpu (fun _ => loaded) (by rw [move_call_not]; exact id)
  refine ⟨slotCount.trans racing.slotCount, ?_, ?_, ?_, ?_, ?_, ?_, ?_, ?_⟩
  · rw [move_call_hdr, tail]
    exact racing.tail
  · rw [move_call_hdr, head]
    exact racing.head
  · exact both_calls cpu (by rw [move_call_self]; exact here) (by rw [move_call_not]; exact racing.calls _)
  · exact fun either found => (same either).mpr (racing.lastOne either found)
  · exact fun nothing either => mt (same either).mp (racing.noneYet nothing either)
  · exact starts_kept racing same already
  · rw [move_call_hdr, slots]
    exact racing.kept
  · rw [move_call_hdr, slots]
    exact racing.filled

theorem load_racing (racing : Racing count low base prompts old s start written last) (short : ∀ cpu, (prompts cpu).length ≤ maxSeqLen)
    (cpu : Bool) {tokens : List UInt32} (pc : s.calls cpu = .before tokens) :
    Racing count low base prompts old
      (moveCall s cpu s.hdr (.inside (.tokenizeCheck (tokens.take maxSeqLen) s.hdr.head)))
      (Function.update start cpu (headPosition base prompts start last)) written last := by
  have here := racing.calls cpu
  rw [pc] at here
  obtain ⟨rfl, nothing⟩ := here
  have unpublished : ¬ Published (s.calls cpu) := by rw [pc]; exact id
  have other : ∀ writer, 0 < written writer → Function.update start cpu (headPosition base prompts start last) writer = start writer := by
    intro writer some_
    refine Function.update_of_ne ?_ ..
    rintro rfl
    omega
  have notThis : last ≠ some cpu := fun found => unpublished (racing.lastOne cpu found)
  have position : headPosition base prompts (Function.update start cpu (headPosition base prompts start last)) last =
      headPosition base prompts start last := by
    cases found : last with
    | none => rfl
    | some owner =>
        have apart : owner ≠ cpu := fun same => notThis (same ▸ found)
        simp only [headPosition, Function.update_of_ne apart]
  have same : ∀ either, Published ((moveCall s cpu s.hdr
      (.inside (.tokenizeCheck ((prompts cpu).take maxSeqLen) s.hdr.head))).calls either) ↔ Published (s.calls either) :=
    both_calls cpu (by rw [move_call_self]; exact iff_of_false id unpublished) (by rw [move_call_not])
  refine ⟨racing.slotCount, racing.tail, ?_, ?_, ?_, ?_, ?_, racing.kept, ?_⟩
  · rw [position]
    exact racing.head
  · refine both_calls cpu ?_ ?_
    · rw [move_call_self, Function.update_self, nothing]
      exact ⟨List.take_of_length_le (short cpu), Nat.zero_le _, racing.head⟩
    · rw [move_call_not, Function.update_of_ne (Bool.not_ne_self cpu)]
      exact racing.calls _
  · exact fun either found => (same either).mpr (racing.lastOne either found)
  · exact fun none_ either => mt (same either).mp (racing.noneYet none_ either)
  · refine both_calls cpu ?_ ?_
    · intro _
      rw [StartOk, Function.update_self, Function.update_of_ne (Bool.not_ne_self cpu), same, same]
      cases found : last with
      | none => exact .inl rfl
      | some owner =>
          have owned : owner = !cpu := Bool.eq_not_of_ne (fun this => notThis (this ▸ found))
          have done := racing.lastOne owner found
          have loaded := published_loaded done
          subst owned
          have atBase := start_at_base racing unpublished loaded
          exact .inr ⟨by rw [headPosition, atBase], atBase, done, fun now => absurd now unpublished⟩
    · intro loaded
      rw [move_call_not] at loaded
      rw [StartOk, Function.update_of_ne (Bool.not_ne_self cpu)]
      exact .inl (start_at_base racing unpublished loaded)
  · intro either i inside
    rw [other either (Nat.zero_lt_of_lt inside)]
    obtain ⟨writer, j, wrote, place, value⟩ := racing.filled either i inside
    exact ⟨writer, j, wrote, by rw [other writer (Nat.zero_lt_of_lt wrote), place], value⟩

theorem publish_racing (racing : Racing count low base prompts old s start written last) (cpu : Bool) {head : UInt32}
    (pc : s.calls cpu = .inside (.tokenizePublish head)) :
    Racing count low base prompts old (moveCall s cpu { s.hdr with head := head } (.inside .tokenizeBump)) start written (some cpu) := by
  have here := racing.calls cpu
  rw [pc] at here
  obtain ⟨whole, place⟩ := here
  have unpublished : ¬ Published (s.calls cpu) := by rw [pc]; exact id
  have loaded : Loaded (s.calls cpu) := by rw [pc]; trivial
  have now : Published ((moveCall s cpu { s.hdr with head := head } (.inside .tokenizeBump)).calls cpu) := by
    rw [move_call_self]
    trivial
  refine ⟨racing.slotCount, racing.tail, ?_, ?_, ?_, ?_, ?_, racing.kept, racing.filled⟩
  · rw [headPosition, ← whole]
    exact place
  · refine both_calls cpu ?_ ?_
    · rw [move_call_self]
      exact whole
    · rw [move_call_not]
      exact racing.calls _
  · intro either found
    cases found
    exact now
  · intro found
    cases found
  · refine both_calls cpu ?_ ?_
    · intro _
      rcases racing.starts cpu loaded with atBase | ⟨behind, first, done, _⟩
      · exact .inl atBase
      · exact .inr ⟨behind, first, by rw [move_call_not]; exact done, fun _ => rfl⟩
    · intro other
      rw [move_call_not] at other
      exact .inl (start_at_base racing unpublished other)

section
variable (room : base + ((prompts true).length + (prompts false).length) < low + count.toNat) (order : low ≤ base)
include room order

theorem write_slot_others (racing : Racing count low base prompts old s start written last) (cpu : Bool)
    (loaded : Loaded (s.calls cpu)) (more : written cpu < (prompts cpu).length) (token : UInt32) {head : UInt32}
    (place : head.toNat = (start cpu + written cpu) % count.toNat) {p : Nat} (lower : low ≤ p)
    (upper : p < base + ((prompts true).length + (prompts false).length)) (apart : p ≠ start cpu + written cpu) :
    (writeSlot s.hdr head token).slots (p % count.toNat) = s.hdr.slots (p % count.toNat) := by
  have bounds := written_position racing cpu loaded more.le
  refine Function.update_of_ne ?_ ..
  rw [place]
  rcases Nat.lt_or_gt_of_ne apart with before | behind
  · exact residue_apart p _ before (by omega)
  · exact (residue_apart _ p behind (by omega)).symm

theorem write_filled (racing : Racing count low base prompts old s start written last) (cpu : Bool)
    (loaded : Loaded (s.calls cpu)) {token : UInt32} (token_ : (prompts cpu)[written cpu]? = some token) {head : UInt32}
    (place : head.toNat = (start cpu + written cpu) % count.toNat) :
    Filled count prompts (writeSlot s.hdr head token).slots start (Function.update written cpu (written cpu + 1)) := by
  have more : written cpu < (prompts cpu).length := (List.getElem?_eq_some_iff.mp token_).1
  have this : (writeSlot s.hdr head token).slots ((start cpu + written cpu) % count.toNat) = token := by
    rw [← place]
    exact Function.update_self ..
  have grown : ∀ either, written either ≤ Function.update written cpu (written cpu + 1) either :=
    both_calls cpu (by rw [Function.update_self]; omega) (by rw [Function.update_of_ne (Bool.not_ne_self cpu)])
  intro either i inside
  by_cases newest : start either + i = start cpu + written cpu
  · rw [newest, this]
    exact ⟨cpu, written cpu, by rw [Function.update_self]; omega, rfl, token_⟩
  · have before : i < written either := by
      by_cases moved : either = cpu
      · rw [moved, Function.update_self] at inside
        rw [moved] at newest ⊢
        omega
      · rwa [Function.update_of_ne moved] at inside
    obtain ⟨bound, used⟩ := call_at_written (racing.calls either)
    have within := written_position racing either (used (Nat.zero_lt_of_lt before)) (Nat.le_of_lt (before.trans_le bound))
    have beyond := written_position racing either (used (Nat.zero_lt_of_lt before)) (before.trans_le bound)
    rw [write_slot_others room order racing cpu loaded more token place (by omega) (by omega) newest]
    obtain ⟨writer, j, wrote, position, value⟩ := racing.filled either i before
    exact ⟨writer, j, wrote.trans_le (grown writer), position, value⟩

theorem write_racing (racing : Racing count low base prompts old s start written last) (cpu : Bool) {token : UInt32}
    {rest : List UInt32} {head next : UInt32} (pc : s.calls cpu = .inside (.tokenizeWrite token rest head next)) :
    Racing count low base prompts old (moveCall s cpu (writeSlot s.hdr head token) (.inside (.tokenizeCheck rest next))) start
      (Function.update written cpu (written cpu + 1)) last := by
  have here := racing.calls cpu
  rw [pc] at here
  obtain ⟨left, place, after⟩ := here
  have loaded : Loaded (s.calls cpu) := by rw [pc]; trivial
  have more : written cpu < (prompts cpu).length := by
    have lengths := congrArg List.length left
    rw [List.length_cons, List.length_drop] at lengths
    omega
  have token_ : (prompts cpu)[written cpu]? = some token := by
    rw [← List.head?_drop, ← left, List.head?_cons]
  have rest_ : rest = (prompts cpu).drop (written cpu + 1) := by
    rw [← List.tail_drop, ← left, List.tail_cons]
  have bounds := written_position racing cpu loaded more.le
  have same : ∀ either, Published ((moveCall s cpu (writeSlot s.hdr head token)
      (.inside (.tokenizeCheck rest next))).calls either) ↔ Published (s.calls either) :=
    both_calls cpu (by rw [move_call_self, pc]; exact iff_of_false id id) (by rw [move_call_not])
  have already : ∀ either, Loaded ((moveCall s cpu (writeSlot s.hdr head token)
      (.inside (.tokenizeCheck rest next))).calls either) → Loaded (s.calls either) :=
    both_calls cpu (fun _ => loaded) (by rw [move_call_not]; exact id)
  refine ⟨racing.slotCount, racing.tail, racing.head, ?_, ?_, ?_, ?_, ?_, ?_⟩
  · refine both_calls cpu ?_ ?_
    · rw [move_call_self, Function.update_self]
      exact ⟨rest_, more, after⟩
    · rw [move_call_not, Function.update_of_ne (Bool.not_ne_self cpu)]
      exact racing.calls _
  · exact fun either found => (same either).mpr (racing.lastOne either found)
  · exact fun nothing either => mt (same either).mp (racing.noneYet nothing either)
  · exact starts_kept racing same already
  · intro p lower upper
    rw [move_call_hdr, write_slot_others room order racing cpu loaded more token place lower (by omega) (by omega)]
    exact racing.kept p lower upper
  · exact write_filled room order racing cpu loaded token_ place

end

section
variable (power : ∃ k, count.toNat = 2 ^ k) (short : ∀ cpu, (prompts cpu).length ≤ maxSeqLen)
  (room : base + ((prompts true).length + (prompts false).length) < low + count.toNat) (order : low ≤ base)
include power short room order

theorem race_step {next : SharedRing} (racing : Racing count low base prompts old s start written last) (step : SharedStep s next) :
    ∃ start' written' last', Racing count low base prompts old next start' written' last' := by
  obtain ⟨cpu, hdr, pc, step⟩ := step
  have here := racing.calls cpu
  generalize at_ : s.calls cpu = before at step
  cases step with
  | load tokens nonzero => exact ⟨_, _, _, load_racing racing short cpu at_⟩
  | inside pc next busy step =>
      rw [at_] at here
      have loaded : Loaded (s.calls cpu) := by rw [at_]; trivial
      have move := tokenize_move busy here step
      generalize next.hdr = hdr at move ⊢
      generalize next.producer = after at move ⊢
      cases move with
      | done head =>
          refine ⟨_, _, _, move_racing racing cpu _ _ rfl rfl rfl rfl ?_ loaded (by rw [at_]; exact Iff.rfl)⟩
          obtain ⟨left, within, place⟩ := here
          exact ⟨le_antisymm within (List.drop_eq_nil_iff.mp left.symm), place⟩
      | full token rest head full =>
          -- There is room for every token of both prompts.
          obtain ⟨left, within, place⟩ := here
          have more : written cpu < (prompts cpu).length := by
            have lengths := congrArg List.length left
            rw [List.length_cons, List.length_drop] at lengths
            omega
          have bounds := written_position racing cpu loaded more
          have bounds' := written_position racing cpu loaded more.le
          have next_ : (ringNext s.hdr head).toNat = (start cpu + written cpu + 1) % count.toNat := by
            rw [ringNext, kllmRingMask, racing.slotCount]
            exact masked_forward power head 1 _ place
          rw [full, racing.tail] at next_
          exact absurd next_ (residue_apart low (start cpu + written cpu + 1) (by omega) (by omega))
      | room token rest head =>
          refine ⟨_, _, _, move_racing racing cpu _ _ rfl rfl rfl rfl ?_ loaded (by rw [at_]; exact Iff.rfl)⟩
          obtain ⟨left, within, place⟩ := here
          refine ⟨left, place, ?_⟩
          rw [ringNext, kllmRingMask, racing.slotCount]
          exact masked_forward power head 1 _ place
      | write token rest head next => exact ⟨_, _, _, write_racing room order racing cpu at_⟩
      | publish head => exact ⟨_, _, _, publish_racing racing cpu at_⟩
      | bump => exact ⟨_, _, _, move_racing racing cpu _ _ rfl rfl rfl rfl here loaded (by rw [at_]; exact Iff.rfl)⟩

theorem race_run {next : SharedRing} (racing : Racing count low base prompts old s start written last) (run : SharedRun s next) :
    ∃ start' written' last', Racing count low base prompts old next start' written' last' := by
  induction run with
  | refl => exact ⟨_, _, _, racing⟩
  | tail _ step ih =>
      obtain ⟨_, _, _, here⟩ := ih
      exact race_step power short room order here step

end

end

theorem contents_positions {hdr : KllmRingHdr} {low high : Nat} (power : ∃ k, hdr.slotCount.toNat = 2 ^ k)
    (tail : hdr.tail.toNat = low % hdr.slotCount.toNat) (head : hdr.head.toNat = high % hdr.slotCount.toNat) (order : low ≤ high)
    (fits : high < low + hdr.slotCount.toNat) :
    ringContents hdr = (List.range (high - low)).map (fun i => hdr.slots ((low + i) % hdr.slotCount.toNat)) := by
  have available : (kllmRingAvailable hdr).toNat = high - low := masked_distance power hdr.head hdr.tail high low head tail order fits
  rw [ringContents, available]
  refine List.map_congr_left (fun i member => ?_)
  have small : i < 2 ^ 32 := by
    have inside := List.mem_range.mp member
    have bound := hdr.slotCount.toNat_lt
    omega
  have place := masked_forward power hdr.tail (UInt32.ofNat i) low tail
  rw [UInt32.toNat_ofNat_of_lt' small] at place
  rw [batchSlot, kllmRingMask, place]

theorem contents_split (hdr : KllmRingHdr) (low base high : Nat) (power : ∃ k, hdr.slotCount.toNat = 2 ^ k)
    (tail : hdr.tail.toNat = low % hdr.slotCount.toNat) (head : hdr.head.toNat = high % hdr.slotCount.toNat) (order : low ≤ base)
    (grown : base ≤ high) (fits : high < low + hdr.slotCount.toNat) :
    ringContents hdr = (List.range (base - low)).map (fun i => hdr.slots ((low + i) % hdr.slotCount.toNat)) ++
      (List.range (high - base)).map (fun i => hdr.slots ((base + i) % hdr.slotCount.toNat)) := by
  have parts : high - low = (base - low) + (high - base) := by omega
  rw [contents_positions power tail head (order.trans grown) fits, parts, List.range_add, List.map_append, List.map_map]
  refine congrArg _ (List.map_congr_left (fun i _ => ?_))
  have position : low + (base - low + i) = base + i := by omega
  rw [Function.comp_apply, position]

-- What two calls leave behind the old tokens: both prompts, or one list no longer
-- than one of the prompts that takes each of its tokens from either.
def RaceOutcome (prompts : Bool → List UInt32) (new : List UInt32) : Prop :=
  ∃ cpu, new = prompts (!cpu) ++ prompts cpu ∨
    new.length = (prompts cpu).length ∧ ∀ (i : Nat) (token : UInt32), new[i]? = some token →
      (prompts cpu)[i]? = some token ∨ (prompts (!cpu))[i]? = some token

section
variable {count : UInt32} {low base : Nat} {prompts : Bool → List UInt32} {old : Nat → UInt32} {s : SharedRing}
  {start written : Bool → Nat} {last : Option Bool}

theorem either_call (cpu writer : Bool) : writer = cpu ∨ writer = !cpu := by
  by_cases same : writer = cpu
  · exact .inl same
  · exact .inr (Bool.eq_not_of_ne same)

section
variable (racing : Racing count low base prompts old s start written last) (whole : ∀ cpu, written cpu = (prompts cpu).length) {cpu : Bool}
include racing whole

theorem mixed_tokens (this : start cpu = base) (other : start (!cpu) = base) {i : Nat} (inside : i < (prompts cpu).length) :
    (prompts cpu)[i]? = some (s.hdr.slots ((base + i) % count.toNat)) ∨
      (prompts (!cpu))[i]? = some (s.hdr.slots ((base + i) % count.toNat)) := by
  obtain ⟨writer, j, _, place, wrote⟩ := racing.filled cpu i (by rw [whole]; exact inside)
  rw [this] at place wrote
  rcases either_call cpu writer with rfl | rfl
  · have same : j = i := by omega
    exact .inl (same ▸ wrote)
  · have same : j = i := by omega
    exact .inr (same ▸ wrote)

theorem ordered_tokens (behind : start cpu = base + (prompts (!cpu)).length) (first : start (!cpu) = base) {i : Nat}
    (inside : i < (prompts (!cpu)).length + (prompts cpu).length) :
    (prompts (!cpu) ++ prompts cpu)[i]? = some (s.hdr.slots ((base + i) % count.toNat)) := by
  by_cases early : i < (prompts (!cpu)).length
  · obtain ⟨writer, j, _, place, wrote⟩ := racing.filled (!cpu) i (by rw [whole]; exact early)
    rw [first] at place wrote
    rw [List.getElem?_append_left early]
    rcases either_call cpu writer with rfl | rfl
    · omega
    · have same : j = i := by omega
      exact same ▸ wrote
  · obtain ⟨writer, j, bound, place, wrote⟩ := racing.filled cpu (i - (prompts (!cpu)).length) (by rw [whole]; omega)
    have position : start cpu + (i - (prompts (!cpu)).length) = base + i := by omega
    rw [position] at place wrote
    rw [List.getElem?_append_right (by omega)]
    rcases either_call cpu writer with rfl | rfl
    · have same : j = i - (prompts (!writer)).length := by omega
      exact same ▸ wrote
    · rw [whole] at bound
      omega

end

theorem race_returned (racing : Racing count low base prompts old s start written last) (power : ∃ k, count.toNat = 2 ^ k)
    (room : base + ((prompts true).length + (prompts false).length) < low + count.toNat) (order : low ≤ base)
    (returned : ∀ cpu, s.calls cpu = .inside .idle) :
    ∃ new, ringContents s.hdr = (List.range (base - low)).map (fun i => old (low + i)) ++ new ∧ RaceOutcome prompts new := by
  have whole : ∀ cpu, written cpu = (prompts cpu).length := by
    intro cpu
    have here := racing.calls cpu
    rw [returned cpu] at here
    exact here
  have published : ∀ cpu, Published (s.calls cpu) := fun cpu => by rw [returned cpu]; trivial
  have loaded : ∀ cpu, Loaded (s.calls cpu) := fun cpu => by rw [returned cpu]; trivial
  have size : s.hdr.slotCount.toNat = count.toNat := congrArg UInt32.toNat racing.slotCount
  obtain ⟨cpu, found⟩ : ∃ cpu, last = some cpu := by
    cases found : last with
    | none => exact absurd (published true) (racing.noneYet found true)
    | some cpu => exact ⟨cpu, rfl⟩
  subst found
  have total := lengths_total prompts cpu
  have ends := written_position racing cpu (loaded cpu) (Nat.le_refl _)
  have contents := contents_split s.hdr low base (start cpu + (prompts cpu).length) (size ▸ power) (size ▸ racing.tail)
    (size ▸ racing.head) order ends.1 (by omega)
  have kept : (List.range (base - low)).map (fun i => s.hdr.slots ((low + i) % count.toNat)) =
      (List.range (base - low)).map (fun i => old (low + i)) := by
    refine List.map_congr_left (fun i member => racing.kept (low + i) (Nat.le_add_right _ _) ?_)
    have inside := List.mem_range.mp member
    omega
  rw [size, kept] at contents
  refine ⟨_, contents, cpu, ?_⟩
  rcases racing.starts cpu (loaded cpu) with atBase | ⟨behind, first, _, _⟩
  · -- The other call did not start behind this one, which published last.
    have both : start (!cpu) = base := by
      rcases racing.starts (!cpu) (loaded _) with here | ⟨_, _, _, lastOne⟩
      · exact here
      · exact absurd (Option.some.inj (lastOne (published _))) (Bool.not_ne_self cpu).symm
    have length : start cpu + (prompts cpu).length - base = (prompts cpu).length := by omega
    rw [length]
    refine .inr ⟨by simp, ?_⟩
    intro i token found
    obtain ⟨inside, value⟩ := List.getElem?_eq_some_iff.mp found
    rw [List.length_map, List.length_range] at inside
    rw [List.getElem_map, List.getElem_range] at value
    rw [← value]
    exact mixed_tokens racing whole atBase both inside
  · have length : start cpu + (prompts cpu).length - base = (prompts (!cpu)).length + (prompts cpu).length := by omega
    refine .inl (List.ext_getElem? (fun i => ?_))
    rw [length, List.getElem?_map]
    by_cases inside : i < (prompts (!cpu)).length + (prompts cpu).length
    · rw [List.getElem?_range inside, ordered_tokens racing whole behind first inside]
      rfl
    · rw [List.getElem?_eq_none (by rw [List.length_range]; omega), List.getElem?_eq_none (by rw [List.length_append]; omega)]
      rfl

end

section
variable {s : SharedRing} {cpu : Bool} {low : Nat}

theorem shared_inside {pc : ProducerPc} {next : RingState} (at_ : s.calls cpu = .inside pc) (busy : pc ≠ .idle)
    (step : ProducerStep (alone s.hdr pc) next) : SharedStep s (moveCall s cpu next.hdr (.inside next.producer)) := by
  refine .call cpu _ _ ?_
  rw [at_]
  exact .inside pc next busy step

theorem write_run {token : UInt32} {rest : List UInt32} {head : UInt32}
    (pc : s.calls cpu = .inside (.tokenizeCheck (token :: rest) head)) (free : ringNext s.hdr head ≠ s.hdr.tail) :
    SharedRun s (moveCall s cpu (writeSlot s.hdr head token) (.inside (.tokenizeCheck rest (ringNext s.hdr head)))) := by
  have check := shared_inside pc (by simp) (.tokenizeRoom token rest head rfl free)
  have write := shared_inside (move_call_self s cpu s.hdr (.inside (.tokenizeWrite token rest head (ringNext s.hdr head))))
    (by simp) (.tokenizeWrite token rest head (ringNext s.hdr head) rfl)
  rw [move_call_again] at write
  exact (Relation.ReflTransGen.single check).tail write

theorem publish_run {head : UInt32} (pc : s.calls cpu = .inside (.tokenizeCheck [] head)) :
    SharedRun s (moveCall s cpu { s.hdr with head := head, seqId := s.hdr.seqId + 1 } (.inside .idle)) := by
  have done := shared_inside pc (by simp) (.tokenizeDone head rfl)
  have publish := shared_inside (move_call_self s cpu s.hdr (.inside (.tokenizePublish head))) (by simp) (.tokenizePublish head rfl)
  rw [move_call_again] at publish
  have bump := shared_inside (move_call_self s cpu { s.hdr with head := head } (.inside .tokenizeBump)) (by simp) (.tokenizeBump rfl)
  rw [move_call_again] at bump
  exact ((Relation.ReflTransGen.single done).tail publish).tail bump

structure Completed (s after : SharedRing) (cpu : Bool) (low position : Nat) (tokens : List UInt32) : Prop where
  run : SharedRun s after
  returned : after.calls cpu = .inside .idle
  other : after.calls (!cpu) = s.calls (!cpu)
  slotCount : after.hdr.slotCount = s.hdr.slotCount
  tail : after.hdr.tail = s.hdr.tail
  head : after.hdr.head.toNat = (position + tokens.length) % s.hdr.slotCount.toNat
  values : ∀ i < tokens.length, tokens[i]? = some (after.hdr.slots ((position + i) % s.hdr.slotCount.toNat))
  kept : ∀ p, low ≤ p → p < position →
    after.hdr.slots (p % s.hdr.slotCount.toNat) = s.hdr.slots (p % s.hdr.slotCount.toNat)

theorem call_completes {tokens : List UInt32} {head : UInt32} {position : Nat} (power : ∃ k, s.hdr.slotCount.toNat = 2 ^ k)
    (pc : s.calls cpu = .inside (.tokenizeCheck tokens head)) (place : head.toNat = position % s.hdr.slotCount.toNat)
    (tail : s.hdr.tail.toNat = low % s.hdr.slotCount.toNat) (order : low ≤ position)
    (room : position + tokens.length < low + s.hdr.slotCount.toNat) : ∃ after, Completed s after cpu low position tokens := by
  induction tokens generalizing s head position with
  | nil =>
      exact ⟨_, publish_run pc, move_call_self .., move_call_not .., rfl, rfl, place,
        fun _ none_ => absurd none_ (Nat.not_lt_zero _), fun _ _ _ => rfl⟩
  | cons token rest ih =>
      rw [List.length_cons] at room
      have next : (ringNext s.hdr head).toNat = (position + 1) % s.hdr.slotCount.toNat := masked_forward power head 1 _ place
      have free : ringNext s.hdr head ≠ s.hdr.tail := by
        intro full
        rw [full, tail] at next
        exact residue_apart low (position + 1) (by omega) (by omega) next
      have space : position + 1 + rest.length < low + s.hdr.slotCount.toNat := by omega
      obtain ⟨after, later⟩ := ih (s := moveCall s cpu (writeSlot s.hdr head token)
        (.inside (.tokenizeCheck rest (ringNext s.hdr head)))) power (move_call_self ..) next tail (Nat.le_succ_of_le order) space
      have before : ∀ p, low ≤ p → p < position →
          (writeSlot s.hdr head token).slots (p % s.hdr.slotCount.toNat) = s.hdr.slots (p % s.hdr.slotCount.toNat) := by
        intro p lower upper
        refine Function.update_of_ne ?_ ..
        rw [place]
        exact residue_apart p position upper (by omega)
      have here : (writeSlot s.hdr head token).slots (position % s.hdr.slotCount.toNat) = token := by
        rw [← place]
        exact Function.update_self ..
      refine ⟨after, (write_run pc free).trans later.run, later.returned, ?_, later.slotCount, later.tail, ?_, ?_, ?_⟩
      · rw [later.other, move_call_not]
      · rw [later.head, List.length_cons, Nat.add_assoc, Nat.add_comm 1]
        rfl
      · intro i inside
        cases i with
        | zero => exact congrArg some (here.symm.trans (later.kept position order (Nat.lt_succ_self _)).symm)
        | succ i =>
            have value := later.values i (Nat.lt_of_succ_lt_succ inside)
            rw [Nat.add_assoc, Nat.add_comm 1] at value
            exact value
      · intro p lower upper
        exact (later.kept p lower (Nat.lt_succ_of_lt upper)).trans (before p lower upper)

end

theorem start_racing {hdr : KllmRingHdr} (power : ∃ k, hdr.slotCount.toNat = 2 ^ k) (headIn : hdr.head < hdr.slotCount)
    (tailIn : hdr.tail < hdr.slotCount) (prompts : Bool → List UInt32) :
    Racing hdr.slotCount hdr.tail.toNat (hdr.tail.toNat + (kllmRingAvailable hdr).toNat) prompts
      (fun p => hdr.slots (p % hdr.slotCount.toNat)) (raceStart hdr prompts) (fun _ => 0) (fun _ => 0) none := by
  have rep := ring_rep_at_rest hdr power headIn tailIn
  have length : (ringContents hdr).length = (kllmRingAvailable hdr).toNat := by
    rw [ringContents, List.length_map, List.length_range]
  have head := rep.head
  rw [List.length_append, List.length_replicate, length] at head
  exact
    { slotCount := rfl
      tail := (Nat.mod_eq_of_lt (UInt32.lt_iff_toNat_lt.mp tailIn)).symm
      head := head
      calls := fun _ => ⟨rfl, rfl⟩
      lastOne := fun _ found => by cases found
      noneYet := fun _ _ => id
      starts := fun _ loaded => loaded.elim
      kept := fun _ _ _ => rfl
      filled := fun _ _ none_ => absurd none_ (Nat.not_lt_zero _) }

def loadCall (s : SharedRing) (cpu : Bool) (tokens : List UInt32) : SharedRing :=
  moveCall s cpu s.hdr (.inside (.tokenizeCheck tokens s.hdr.head))

theorem load_step {s : SharedRing} {cpu : Bool} {tokens : List UInt32} (before : s.calls cpu = .before tokens)
    (short : tokens.length ≤ maxSeqLen) (nonzero : s.hdr.slotCount ≠ 0) : SharedStep s (loadCall s cpu tokens) := by
  have load := CallStep.load tokens nonzero
  rw [List.take_of_length_le short] at load
  refine .call cpu _ _ ?_
  rw [before]
  exact load

theorem race_loses {s : SharedRing} {low base : Nat} {prompts : Bool → List UInt32} (power : ∃ k, s.hdr.slotCount.toNat = 2 ^ k)
    (short : ∀ cpu, (prompts cpu).length ≤ maxSeqLen) (before : ∀ cpu, s.calls cpu = .before (prompts cpu))
    (tail : s.hdr.tail.toNat = low % s.hdr.slotCount.toNat) (head : s.hdr.head.toNat = base % s.hdr.slotCount.toNat)
    (order : low ≤ base) (room : base + ((prompts true).length + (prompts false).length) < low + s.hdr.slotCount.toNat) (cpu : Bool) :
    ∃ after, SharedRun s after ∧ (∀ either, after.calls either = .inside .idle) ∧
      ringContents after.hdr =
        (List.range (base - low)).map (fun i => s.hdr.slots ((low + i) % s.hdr.slotCount.toNat)) ++ prompts cpu := by
  have total := lengths_total prompts cpu
  have nonzero : s.hdr.slotCount ≠ 0 := by
    intro zero
    have positive := count_positive power
    rw [zero] at positive
    exact Nat.lt_irrefl 0 positive
  have firstRoom : base + (prompts (!cpu)).length < low + s.hdr.slotCount.toNat := by omega
  have secondRoom : base + (prompts cpu).length < low + s.hdr.slotCount.toNat := by omega
  have first : SharedStep s (loadCall s cpu (prompts cpu)) := load_step (before cpu) (short cpu) nonzero
  have waiting : (loadCall s cpu (prompts cpu)).calls (!cpu) = .before (prompts (!cpu)) := by
    rw [loadCall, move_call_not]
    exact before _
  have second : SharedStep (loadCall s cpu (prompts cpu)) (loadCall (loadCall s cpu (prompts cpu)) (!cpu) (prompts (!cpu))) :=
    load_step waiting (short _) nonzero
  obtain ⟨middle, other⟩ := call_completes (s := loadCall (loadCall s cpu (prompts cpu)) (!cpu) (prompts (!cpu))) power
    (move_call_self ..) head tail order firstRoom
  have standing : middle.calls cpu = .inside (.tokenizeCheck (prompts cpu) s.hdr.head) := by
    have same := other.other
    rw [Bool.not_not] at same
    rw [same]
    have kept := move_call_not (loadCall s cpu (prompts cpu)) (!cpu) s.hdr (.inside (.tokenizeCheck (prompts (!cpu)) s.hdr.head))
    rw [Bool.not_not] at kept
    exact kept.trans (move_call_self ..)
  have size : middle.hdr.slotCount = s.hdr.slotCount := other.slotCount
  have tail' : middle.hdr.tail = s.hdr.tail := other.tail
  obtain ⟨after, this⟩ := call_completes (s := middle) (by rw [size]; exact power) standing (by rw [size]; exact head)
    (by rw [size, tail']; exact tail) order (by rw [size]; exact secondRoom)
  have size' : after.hdr.slotCount = s.hdr.slotCount := this.slotCount.trans size
  refine ⟨after, (((Relation.ReflTransGen.single first).tail second).trans other.run).trans this.run, ?_, ?_⟩
  · exact both_calls cpu this.returned (this.other.trans other.returned)
  · have contents := contents_split after.hdr low base (base + (prompts cpu).length) (by rw [size']; exact power)
      (by rw [this.tail, tail', size']; exact tail) (by rw [this.head, size, size']) order (Nat.le_add_right _ _)
      (by rw [size']; exact secondRoom)
    rw [contents, size', Nat.add_sub_cancel_left]
    congr 1
    · refine List.map_congr_left (fun i member => ?_)
      have inside := List.mem_range.mp member
      have early := this.kept (low + i) (Nat.le_add_right _ _) (by omega)
      have earlier := other.kept (low + i) (Nat.le_add_right _ _) (by omega)
      rw [size] at early
      exact early.trans earlier
    · refine List.ext_getElem? (fun i => ?_)
      rw [List.getElem?_map]
      by_cases inside : i < (prompts cpu).length
      · have value := this.values i inside
        rw [size] at value
        rw [List.getElem?_range inside, value]
        rfl
      · rw [List.getElem?_eq_none (by rw [List.length_range]; omega), List.getElem?_eq_none (by omega)]
        rfl

theorem tokenizers_race (hdr : KllmRingHdr) (power : ∃ k, hdr.slotCount.toNat = 2 ^ k) (headIn : hdr.head < hdr.slotCount)
    (tailIn : hdr.tail < hdr.slotCount) (prompts : Bool → List UInt32) (short : ∀ cpu, (prompts cpu).length ≤ maxSeqLen)
    (room : (prompts true).length + (prompts false).length ≤ (kllmRingFree hdr).toNat) :
    (∀ s, SharedRun (raceStart hdr prompts) s → (∀ cpu, s.calls cpu = .inside .idle) →
      ∃ new, ringContents s.hdr = ringContents hdr ++ new ∧ RaceOutcome prompts new) ∧
    ∀ cpu, ∃ s, SharedRun (raceStart hdr prompts) s ∧ (∀ either, s.calls either = .inside .idle) ∧
      ringContents s.hdr = ringContents hdr ++ prompts cpu := by
  have racing := start_racing power headIn tailIn prompts
  have rep := ring_rep_at_rest hdr power headIn tailIn
  have length : (ringContents hdr).length = (kllmRingAvailable hdr).toNat := by
    rw [ringContents, List.length_map, List.length_range]
  have spare := rep.spare
  have free := ring_free rep
  rw [List.length_append, List.length_replicate, length] at spare free
  rw [List.length_nil] at spare
  have order : hdr.tail.toNat ≤ hdr.tail.toNat + (kllmRingAvailable hdr).toNat := Nat.le_add_right _ _
  have space : hdr.tail.toNat + (kllmRingAvailable hdr).toNat + ((prompts true).length + (prompts false).length) <
      hdr.tail.toNat + hdr.slotCount.toNat := by omega
  have contents := contents_positions power racing.tail racing.head order (by simp only [headPosition]; omega)
  constructor
  · intro s run returned
    obtain ⟨_, _, _, ends⟩ := race_run power short space order racing run
    obtain ⟨new, found, outcome⟩ := race_returned ends power space order returned
    refine ⟨new, ?_, outcome⟩
    rw [found]
    exact congrArg (· ++ new) contents.symm
  · intro cpu
    obtain ⟨after, run, returned, found⟩ := race_loses (s := raceStart hdr prompts) power short (fun _ => rfl) racing.tail racing.head
      order space cpu
    refine ⟨after, run, returned, ?_⟩
    rw [found]
    exact congrArg (· ++ prompts cpu) contents.symm

theorem tokenizers_race_eight :
    (kllmRingFree (createdRing 8)).toNat = 7 ∧
      ∃ s, SharedRun (raceStart (createdRing 8) (fun cpu => if cpu then [1, 2] else [3])) s ∧
        (∀ either, s.calls either = .inside .idle) ∧ ringContents s.hdr = [3] := by
  have free : (kllmRingFree (createdRing 8)).toNat = 7 := by decide
  obtain ⟨s, run, returned, contents⟩ := (tokenizers_race (createdRing 8) ⟨3, by decide⟩ (by decide) (by decide)
    (fun cpu => if cpu then [1, 2] else [3]) (by decide) (by decide)).2 false
  exact ⟨free, s, run, returned, contents⟩

end Kllm.Chardev
