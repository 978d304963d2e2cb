import Mathlib

set_option autoImplicit false

namespace PairMerge

section
variable {T : Type}

def PairAt (xs : List T) (i : Nat) (a b : T) : Prop := xs[i]? = some a ∧ xs[i + 1]? = some b

def mergeAt (xs : List T) (i : Nat) (t : T) : List T := xs.take i ++ t :: xs.drop (i + 2)

theorem pair_at_bound {xs : List T} {i : Nat} {a b : T} (pair : PairAt xs i a b) : i + 1 < xs.length :=
  (List.getElem?_eq_some_iff.mp pair.2).1

theorem pair_at_cons {xs : List T} {i : Nat} {a b c : T} : PairAt (c :: xs) (i + 1) a b ↔ PairAt xs i a b := by
  simp only [PairAt, List.getElem?_cons_succ]

theorem pair_at_split {xs : List T} {i : Nat} {a b : T} (pair : PairAt xs i a b) :
    xs = xs.take i ++ a :: b :: xs.drop (i + 2) := by
  obtain ⟨inside, first⟩ := List.getElem?_eq_some_iff.mp pair.1
  obtain ⟨bound, second⟩ := List.getElem?_eq_some_iff.mp pair.2
  have tail : xs.drop i = a :: b :: xs.drop (i + 2) := by
    rw [List.drop_eq_getElem_cons inside, List.drop_eq_getElem_cons bound, first, second]
  rw [← tail, List.take_append_drop]

theorem pair_at_append (p q : List T) (a b : T) : PairAt (p ++ a :: b :: q) p.length a b := by
  constructor
  · rw [List.getElem?_append_right (Nat.le_refl _), Nat.sub_self, List.getElem?_cons_zero]
  · rw [List.getElem?_append_right (by omega), Nat.add_sub_cancel_left, List.getElem?_cons_succ, List.getElem?_cons_zero]

theorem merge_at_length {xs : List T} {i : Nat} (inside : i + 1 < xs.length) (t : T) :
    (mergeAt xs i t).length + 1 = xs.length := by
  simp only [mergeAt, List.length_append, List.length_take, List.length_cons, List.length_drop]
  omega

theorem merge_at_get {xs : List T} {i : Nat} (inside : i + 1 < xs.length) (t : T) (j : Nat) :
    (mergeAt xs i t)[j]? = if j < i then xs[j]? else if j = i then some t else xs[j + 1]? := by
  have size : (xs.take i).length = i := by
    rw [List.length_take]
    omega
  by_cases before : j < i
  · rw [mergeAt, List.getElem?_append_left (by omega), List.getElem?_take, if_pos before, if_pos before]
  · rw [mergeAt, List.getElem?_append_right (by omega), size, if_neg before]
    by_cases here : j = i
    · rw [here, Nat.sub_self, List.getElem?_cons_zero, if_pos rfl]
    · obtain ⟨k, rfl⟩ : ∃ k, j = i + 1 + k := ⟨j - (i + 1), by omega⟩
      have offset : i + 1 + k - i = k + 1 := by omega
      rw [if_neg here, offset, List.getElem?_cons_succ, List.getElem?_drop]
      congr 1
      omega

theorem flat_map_merge_at {B : Type} (meaning : T → List B) {xs : List T} {i : Nat} {a b t : T} (pair : PairAt xs i a b)
    (same : meaning t = meaning a ++ meaning b) : (mergeAt xs i t).flatMap meaning = xs.flatMap meaning := by
  rw [mergeAt]
  conv_rhs => rw [pair_at_split pair]
  simp only [List.flatMap_append, List.flatMap_cons, same, List.append_assoc]

end

section
variable {T R : Type} [LinearOrder R]

-- The merged token of each known pair, and its rank.
abbrev Rules (T R : Type) := T → T → Option (T × R)

/-- The pair a greedy pass merges: of least rank, and the leftmost of that rank. -/
structure Leftmost (rules : Rules T R) (xs : List T) (i : Nat) (t : T) (r : R) : Prop where
  here : ∃ a b, PairAt xs i a b ∧ rules a b = some (t, r)
  least : ∀ j a b u q, PairAt xs j a b → rules a b = some (u, q) → r ≤ q
  first : ∀ j < i, ∀ a b u q, PairAt xs j a b → rules a b = some (u, q) → r < q

def GreedyStep (rules : Rules T R) (xs ys : List T) : Prop := ∃ i t r, Leftmost rules xs i t r ∧ ys = mergeAt xs i t

def Merged (rules : Rules T R) (xs : List T) : Prop := ∀ i a b, PairAt xs i a b → rules a b = none

inductive Steps (rules : Rules T R) : Nat → List T → List T → Prop where
  | done (xs : List T) : Steps rules 0 xs xs
  | more (n : Nat) (xs ys zs : List T) (previous : Steps rules n xs ys) (step : GreedyStep rules ys zs) :
      Steps rules (n + 1) xs zs

variable {rules : Rules T R}

theorem leftmost_unique {xs : List T} {i j : Nat} {t u : T} {r q : R} (left : Leftmost rules xs i t r)
    (right : Leftmost rules xs j u q) : i = j ∧ t = u := by
  obtain ⟨a, b, pair, rule⟩ := left.here
  obtain ⟨c, d, other, known⟩ := right.here
  have same : r = q := le_antisymm (left.least j c d u q other known) (right.least i a b t r pair rule)
  have position : i = j := by
    rcases Nat.lt_trichotomy i j with before | here | after
    · exact absurd (right.first i before a b t r pair rule) (by rw [same]; exact lt_irrefl q)
    · exact here
    · exact absurd (left.first j after c d u q other known) (by rw [same]; exact lt_irrefl q)
  subst position
  have operands : a = c ∧ b = d :=
    ⟨Option.some.inj (pair.1.symm.trans other.1), Option.some.inj (pair.2.symm.trans other.2)⟩
  rw [operands.1, operands.2, known] at rule
  exact ⟨rfl, (Prod.mk.inj (Option.some.inj rule)).1.symm⟩

theorem greedy_step_unique {xs ys zs : List T} (left : GreedyStep rules xs ys) (right : GreedyStep rules xs zs) :
    ys = zs := by
  obtain ⟨i, t, r, first, rfl⟩ := left
  obtain ⟨j, u, q, second, rfl⟩ := right
  obtain ⟨position, token⟩ := leftmost_unique first second
  rw [position, token]

theorem merged_no_step {xs ys : List T} (merged : Merged rules xs) : ¬ GreedyStep rules xs ys := by
  rintro ⟨i, t, r, leftmost, _⟩
  obtain ⟨a, b, pair, rule⟩ := leftmost.here
  rw [merged i a b pair] at rule
  cases rule

theorem steps_unique {n : Nat} {xs ys zs : List T} (left : Steps rules n xs ys) (right : Steps rules n xs zs) : ys = zs := by
  induction left generalizing zs with
  | done xs =>
      cases right with
      | done => rfl
  | more n xs ys ws previous step ih =>
      cases right with
      | more _ _ us _ before last =>
          have same := ih before
          subst same
          exact greedy_step_unique step last

theorem steps_cons {n : Nat} {xs ys zs : List T}
    (step : GreedyStep rules xs ys) (steps : Steps rules n ys zs) : Steps rules (n + 1) xs zs := by
  induction steps with
  | done ys => exact .more 0 xs xs ys (.done xs) step
  | more n ys us vs previous last ih => exact .more (n + 1) xs us vs (ih step) last

theorem steps_back {n : Nat} {xs ys : List T} (steps : Steps rules n xs ys) (k : Nat) (earlier : k ≤ n) :
    ∃ zs, Steps rules k xs zs := by
  induction steps with
  | done xs =>
      have zero : k = 0 := by omega
      subst zero
      exact ⟨xs, .done xs⟩
  | more n xs ys zs previous step ih =>
      by_cases last : k = n + 1
      · subst last
        exact ⟨zs, .more n xs ys zs previous step⟩
      · exact ih (by omega)

theorem merged_last {n k : Nat} {xs ys zs : List T} (steps : Steps rules n xs ys) (merged : Merged rules ys)
    (other : Steps rules k xs zs) : k ≤ n := by
  by_contra longer
  obtain ⟨ws, further⟩ := steps_back other (n + 1) (by omega)
  cases further with
  | more _ _ us _ before last =>
      have same := steps_unique steps before
      subst same
      exact merged_no_step merged last

theorem steps_length {n : Nat} {xs ys : List T} (steps : Steps rules n xs ys) : ys.length + n = xs.length := by
  induction steps with
  | done xs => rfl
  | more n xs ys zs previous step ih =>
      obtain ⟨i, t, r, leftmost, rfl⟩ := step
      obtain ⟨a, b, pair, _⟩ := leftmost.here
      have shorter := merge_at_length (pair_at_bound pair) t
      omega

def leastPair (rules : Rules T R) : List T → Option (Nat × T × R)
  | a :: b :: rest =>
      match rules a b, leastPair rules (b :: rest) with
      | none, none => none
      | none, some (i, u, q) => some (i + 1, u, q)
      | some (t, r), none => some (0, t, r)
      | some (t, r), some (i, u, q) => if r ≤ q then some (0, t, r) else some (i + 1, u, q)
  | _ => none

def greedyNext (rules : Rules T R) (xs : List T) : Option (List T) :=
  match leastPair rules xs with
  | none => none
  | some (i, t, _) => some (mergeAt xs i t)

def greedyTimes (rules : Rules T R) : Nat → List T → Option (List T)
  | 0, xs => some xs
  | n + 1, xs =>
      match greedyNext rules xs with
      | none => none
      | some ys => greedyTimes rules n ys

theorem pair_at_zero {xs : List T} {a b c d : T} (pair : PairAt (a :: b :: xs) 0 c d) : a = c ∧ b = d :=
  ⟨Option.some.inj pair.1, Option.some.inj pair.2⟩

omit [LinearOrder R] in
theorem merged_cons {a b : T} {rest : List T} (unknown : rules a b = none) (merged : Merged rules (b :: rest)) :
    Merged rules (a :: b :: rest) := by
  intro j c d pair
  cases j with
  | zero =>
      obtain ⟨rfl, rfl⟩ := pair_at_zero pair
      exact unknown
  | succ j => exact merged j c d (pair_at_cons.mp pair)

theorem leftmost_head {a b t : T} {r : R} {rest : List T} (known : rules a b = some (t, r))
    (later : ∀ j c d u q, PairAt (b :: rest) j c d → rules c d = some (u, q) → r ≤ q) :
    Leftmost rules (a :: b :: rest) 0 t r := by
  refine ⟨⟨a, b, pair_at_append [] rest a b, known⟩, ?_, nofun⟩
  intro j c d u q pair rule
  cases j with
  | zero =>
      obtain ⟨rfl, rfl⟩ := pair_at_zero pair
      rw [known] at rule
      cases rule
      exact le_refl r
  | succ j => exact later j c d u q (pair_at_cons.mp pair) rule

theorem leftmost_tail {a b u : T} {q : R} {i : Nat} {rest : List T} (leftmost : Leftmost rules (b :: rest) i u q)
    (higher : ∀ t r, rules a b = some (t, r) → q < r) : Leftmost rules (a :: b :: rest) (i + 1) u q := by
  obtain ⟨c, d, pair, rule⟩ := leftmost.here
  refine ⟨⟨c, d, pair_at_cons.mpr pair, rule⟩, ?_, ?_⟩
  · intro j c d t r other known
    cases j with
    | zero =>
        obtain ⟨rfl, rfl⟩ := pair_at_zero other
        exact (higher t r known).le
    | succ j => exact leftmost.least j c d t r (pair_at_cons.mp other) known
  · intro j before c d t r other known
    cases j with
    | zero =>
        obtain ⟨rfl, rfl⟩ := pair_at_zero other
        exact higher t r known
    | succ j => exact leftmost.first j (by omega) c d t r (pair_at_cons.mp other) known

theorem least_pair_spec (rules : Rules T R) (xs : List T) :
    match leastPair rules xs with
    | none => Merged rules xs
    | some (i, t, r) => Leftmost rules xs i t r := by
  fun_induction leastPair rules xs with
  | case1 a b rest none_ unknown ih =>
      rw [none_] at ih
      exact merged_cons unknown ih
  | case2 a b rest i u q some_ unknown ih =>
      rw [some_] at ih
      refine leftmost_tail ih ?_
      intro t r known
      rw [unknown] at known
      cases known
  | case3 a b rest t r none_ known ih =>
      rw [none_] at ih
      refine leftmost_head known ?_
      intro j c d u q pair rule
      rw [ih j c d pair] at rule
      cases rule
  | case4 a b rest t r i u q some_ known low ih =>
      rw [some_] at ih
      refine leftmost_head known ?_
      intro j c d v p pair rule
      exact low.trans (ih.least j c d v p pair rule)
  | case5 a b rest t r i u q some_ known high ih =>
      rw [some_] at ih
      refine leftmost_tail ih ?_
      intro v p other
      rw [known] at other
      cases other
      exact not_le.mp high
  | case6 xs short =>
      intro i a b pair
      cases xs with
      | nil => cases pair.1
      | cons c rest =>
          cases rest with
          | nil => cases pair.2
          | cons d rest => exact absurd rfl (short c d rest)

theorem least_pair_cases (rules : Rules T R) (xs : List T) :
    (leastPair rules xs = none ∧ Merged rules xs) ∨
      ∃ i t r, leastPair rules xs = some (i, t, r) ∧ Leftmost rules xs i t r := by
  have spec := least_pair_spec rules xs
  cases found : leastPair rules xs with
  | none =>
      rw [found] at spec
      exact Or.inl ⟨rfl, spec⟩
  | some pair =>
      rw [found] at spec
      exact Or.inr ⟨pair.1, pair.2.1, pair.2.2, rfl, spec⟩

theorem greedy_next_none_iff (xs : List T) : greedyNext rules xs = none ↔ Merged rules xs := by
  unfold greedyNext
  rcases least_pair_cases rules xs with ⟨none_, merged⟩ | ⟨i, t, r, some_, leftmost⟩
  · simp only [none_, merged]
  · simp only [some_, reduceCtorEq, false_iff]
    intro merged
    exact merged_no_step merged ⟨i, t, r, leftmost, rfl⟩

theorem greedy_next_some_iff (xs ys : List T) : greedyNext rules xs = some ys ↔ GreedyStep rules xs ys := by
  unfold greedyNext
  rcases least_pair_cases rules xs with ⟨none_, merged⟩ | ⟨i, t, r, some_, leftmost⟩
  · simp only [none_, reduceCtorEq, false_iff]
    exact merged_no_step merged
  · simp only [some_, Option.some.injEq]
    have step : GreedyStep rules xs (mergeAt xs i t) := ⟨i, t, r, leftmost, rfl⟩
    constructor
    · intro same
      exact same ▸ step
    · intro other
      exact greedy_step_unique step other

theorem steps_flat_map {B : Type} (meaning : T → List B)
    (known : ∀ a b t r, rules a b = some (t, r) → meaning t = meaning a ++ meaning b) {n : Nat} {xs ys : List T}
    (steps : Steps rules n xs ys) : ys.flatMap meaning = xs.flatMap meaning := by
  induction steps with
  | done xs => rfl
  | more n xs ys zs previous step ih =>
      obtain ⟨i, t, r, leftmost, rfl⟩ := step
      obtain ⟨a, b, pair, rule⟩ := leftmost.here
      rw [flat_map_merge_at meaning pair (known a b t r rule), ih]

end

section
variable {T R : Type} [DecidableEq T]

end

section
variable {T R : Type} [DecidableEq T] [LinearOrder R]

end

end PairMerge
