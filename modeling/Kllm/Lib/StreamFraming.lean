import Mathlib

set_option autoImplicit false

namespace StreamFraming

variable {α : Type}

-- Messages are written to a stream one behind the other; a reader takes up to n
-- elements at a time, and nothing from an empty stream.
inductive Op (α : Type) where
  | push (message : List α)
  | cut
  deriving DecidableEq, Repr

structure Stream (α : Type) where
  queue : List α
  pieces : List (List α)

def step (n : Nat) (s : Stream α) : Op α → Stream α
  | .push message => { s with queue := s.queue ++ message }
  | .cut =>
      match s.queue with
      | [] => s
      | first :: rest => ⟨(first :: rest).drop n, s.pieces ++ [(first :: rest).take n]⟩

def run (n : Nat) (s : Stream α) (ops : List (Op α)) : Stream α := ops.foldl (step n) s

def messages : List (Op α) → List (List α)
  | [] => []
  | .push [] :: rest => messages rest
  | .push (first :: more) :: rest => (first :: more) :: messages rest
  | .cut :: rest => messages rest

-- Every cut meets an empty stream, or takes the oldest message and no more.
def WholeCuts (n : Nat) : List (List α) → List (Op α) → Prop
  | _, [] => True
  | waiting, .push [] :: rest => WholeCuts n waiting rest
  | waiting, .push (first :: more) :: rest => WholeCuts n (waiting ++ [first :: more]) rest
  | [], .cut :: rest => WholeCuts n [] rest
  | message :: waiting, .cut :: rest =>
      (message.length = n ∨ message.length < n ∧ waiting = []) ∧ WholeCuts n waiting rest

theorem run_pieces (n : Nat) (ops : List (Op α)) (queue : List α) (pieces : List (List α)) :
    (run n ⟨queue, pieces⟩ ops).pieces = pieces ++ (run n ⟨queue, []⟩ ops).pieces := by
  induction ops generalizing queue pieces with
  | nil => exact (List.append_nil pieces).symm
  | cons op rest ih =>
      cases op with
      | push message => exact ih _ _
      | cut =>
          cases queue with
          | nil => exact ih _ _
          | cons first more =>
              have later := ih ((first :: more).drop n) (pieces ++ [(first :: more).take n])
              have alone := ih ((first :: more).drop n) ([] ++ [(first :: more).take n])
              rw [List.append_assoc] at later
              rw [List.nil_append] at alone
              simp only [run, List.foldl_cons, step] at later alone ⊢
              rw [later, List.nil_append, alone]

theorem take_whole (n : Nat) (message : List α) (waiting : List (List α)) (full : ∀ other ∈ waiting, other ≠ []) :
    (message ++ waiting.flatten).take n = message ↔ message.length = n ∨ message.length < n ∧ waiting = [] := by
  constructor
  · intro whole
    have length := congrArg List.length whole
    rw [List.length_take, List.length_append] at length
    by_cases fills : message.length = n
    · exact .inl fills
    · refine .inr ⟨by omega, ?_⟩
      cases waiting with
      | nil => rfl
      | cons other more =>
          have some_ := List.length_pos_iff.mpr (full other List.mem_cons_self)
          rw [List.flatten_cons, List.length_append] at length
          omega
  · intro fits
    rcases fits with fills | ⟨short, alone⟩
    · rw [← fills, List.take_left]
    · rw [alone, List.flatten_nil, List.append_nil, List.take_of_length_le short.le]

theorem pieces_are_messages_iff (n : Nat) (ops : List (Op α)) (waiting : List (List α)) (full : ∀ other ∈ waiting, other ≠ []) :
    (run n ⟨waiting.flatten, []⟩ ops).pieces <+: waiting ++ messages ops ↔ WholeCuts n waiting ops := by
  induction ops generalizing waiting with
  | nil => simp [run, WholeCuts]
  | cons op rest ih =>
      cases op with
      | push message =>
          cases message with
          | nil =>
              have later := ih waiting full
              simp only [run, List.foldl_cons, step, List.append_nil, messages, WholeCuts] at later ⊢
              exact later
          | cons first more =>
              have nonempty : ∀ other ∈ waiting ++ [first :: more], other ≠ [] := by
                intro other member
                rw [List.mem_append, List.mem_singleton] at member
                rcases member with old | new
                · exact full other old
                · rw [new]
                  exact List.cons_ne_nil first more
              have later := ih (waiting ++ [first :: more]) nonempty
              simp only [List.flatten_append, List.flatten_singleton, List.append_assoc, List.singleton_append] at later
              simpa only [run, List.foldl_cons, step, messages, WholeCuts] using later
      | cut =>
          cases waiting with
          | nil =>
              have later := ih [] full
              simpa only [run, List.foldl_cons, step, List.flatten_nil, messages, WholeCuts] using later
          | cons message waiting =>
              have nonempty : ∀ other ∈ waiting, other ≠ [] := fun other member => full other (List.mem_cons_of_mem _ member)
              have whole := take_whole n message waiting nonempty
              obtain ⟨first, more, shape⟩ := List.exists_cons_of_ne_nil (full message List.mem_cons_self)
              have stepped : step n ⟨(message :: waiting).flatten, []⟩ .cut =
                  ⟨(message ++ waiting.flatten).drop n, [(message ++ waiting.flatten).take n]⟩ := by
                rw [List.flatten_cons, shape, List.cons_append]
                rfl
              have pieces : (run n ⟨(message :: waiting).flatten, []⟩ (.cut :: rest)).pieces =
                  (message ++ waiting.flatten).take n ::
                    (run n ⟨(message ++ waiting.flatten).drop n, []⟩ rest).pieces := by
                rw [run, List.foldl_cons, stepped]
                exact run_pieces n rest _ _
              rw [pieces, messages, WholeCuts, List.cons_append, List.cons_prefix_cons, whole]
              refine and_congr_right (fun fits => ?_)
              have left : (message ++ waiting.flatten).drop n = waiting.flatten := by
                rcases fits with fills | ⟨short, alone⟩
                · rw [← fills, List.drop_left]
                · rw [alone, List.flatten_nil, List.append_nil, List.drop_of_length_le short.le]
              rw [left]
              exact ih waiting nonempty

end StreamFraming
