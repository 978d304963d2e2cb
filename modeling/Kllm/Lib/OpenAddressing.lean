import Mathlib

set_option autoImplicit false

namespace OpenAddressing

-- Linear probing over n cells: the i-th cell visited from home cell b.
def probe (n b i : Nat) : Nat := (b + i) % n

-- The number of cells visited from b before cell p.
def reach (n b p : Nat) : Nat := (p + (n - b % n)) % n

theorem probe_bound (n b i : Nat) (positive : 0 < n) : probe n b i < n := Nat.mod_lt _ positive

theorem reach_bound (n b p : Nat) (positive : 0 < n) : reach n b p < n := Nat.mod_lt _ positive

theorem probe_reach (n b p : Nat) (inside : p < n) : probe n b (reach n b p) = p := by
  have positive : 0 < n := by omega
  have low : b % n < n := Nat.mod_lt b positive
  have whole := Nat.div_add_mod b n
  have total : b + (p + (n - b % n)) = p + n * (b / n + 1) := by
    rw [Nat.mul_add, Nat.mul_one]
    omega
  rw [probe, reach, Nat.add_mod_mod, total, Nat.add_mul_mod_self_left, Nat.mod_eq_of_lt inside]

theorem reach_probe (n b i : Nat) (inside : i < n) : reach n b (probe n b i) = i := by
  have positive : 0 < n := by omega
  have low : b % n < n := Nat.mod_lt b positive
  have whole := Nat.div_add_mod b n
  have total : b + i + (n - b % n) = i + n * (b / n + 1) := by
    rw [Nat.mul_add, Nat.mul_one]
    omega
  rw [reach, probe, Nat.mod_add_mod, total, Nat.add_mul_mod_self_left, Nat.mod_eq_of_lt inside]

section
variable {K : Type}

-- occ p is the key held by cell p, if any. A search stops at the first empty
-- cell; it does not know about cells behind it.
def search [DecidableEq K] (n b : Nat) (occ : Nat → Option K) (key : K) (i : Nat) : Nat → Option Nat
  | 0 => none
  | fuel + 1 =>
      match occ (probe n b i) with
      | none => none
      | some other => if other = key then some (probe n b i) else search n b occ key (i + 1) fuel

def firstFree (n b : Nat) (occ : Nat → Option K) (i : Nat) : Nat → Option Nat
  | 0 => none
  | fuel + 1 =>
      match occ (probe n b i) with
      | none => some (probe n b i)
      | some _ => firstFree n b occ (i + 1) fuel

theorem search_some_iff [DecidableEq K] (n b : Nat) (occ : Nat → Option K) (key : K) (fuel i p : Nat) :
    search n b occ key i fuel = some p ↔
      ∃ j, i ≤ j ∧ j < i + fuel ∧ p = probe n b j ∧ occ (probe n b j) = some key ∧
        ∀ k, i ≤ k → k < j → ∃ other, occ (probe n b k) = some other ∧ other ≠ key := by
  induction fuel generalizing i with
  | zero =>
      simp only [search, reduceCtorEq, false_iff]
      rintro ⟨j, lower, upper, _⟩
      omega
  | succ fuel ih =>
      cases cell : occ (probe n b i) with
      | none =>
          simp only [search, cell, reduceCtorEq, false_iff]
          rintro ⟨j, lower, upper, _, found, before⟩
          by_cases first : j = i
          · rw [first, cell] at found
            cases found
          · obtain ⟨other, full, _⟩ := before i (Nat.le_refl i) (by omega)
            rw [cell] at full
            cases full
      | some other =>
          by_cases same : other = key
          · subst other
            simp only [search, cell, if_true, Option.some.injEq]
            constructor
            · intro here
              exact ⟨i, Nat.le_refl i, by omega, here.symm, cell, fun k lower upper => by omega⟩
            · rintro ⟨j, lower, _, eq, _, before⟩
              by_cases first : j = i
              · rw [eq, first]
              · obtain ⟨other, full, different⟩ := before i (Nat.le_refl i) (by omega)
                rw [cell] at full
                exact absurd (Option.some.inj full).symm different
          · simp only [search, cell, if_neg same]
            rw [ih (i + 1)]
            constructor
            · rintro ⟨j, lower, upper, eq, found, before⟩
              refine ⟨j, by omega, by omega, eq, found, ?_⟩
              intro k start below
              by_cases first : k = i
              · exact ⟨other, by rw [first]; exact cell, same⟩
              · exact before k (by omega) below
            · rintro ⟨j, lower, upper, eq, found, before⟩
              have later : j ≠ i := by
                intro first
                rw [first, cell] at found
                exact same (Option.some.inj found)
              exact ⟨j, by omega, by omega, eq, found, fun k start below => before k (by omega) below⟩

theorem first_free_some_iff (n b : Nat) (occ : Nat → Option K) (fuel i p : Nat) :
    firstFree n b occ i fuel = some p ↔
      ∃ j, i ≤ j ∧ j < i + fuel ∧ p = probe n b j ∧ occ (probe n b j) = none ∧
        ∀ k, i ≤ k → k < j → occ (probe n b k) ≠ none := by
  induction fuel generalizing i with
  | zero =>
      simp only [firstFree, reduceCtorEq, false_iff]
      rintro ⟨j, lower, upper, _⟩
      omega
  | succ fuel ih =>
      cases cell : occ (probe n b i) with
      | none =>
          simp only [firstFree, cell, Option.some.injEq]
          constructor
          · intro here
            exact ⟨i, Nat.le_refl i, by omega, here.symm, cell, fun k lower upper => by omega⟩
          · rintro ⟨j, lower, _, eq, _, before⟩
            by_cases first : j = i
            · rw [eq, first]
            · exact absurd cell (before i (Nat.le_refl i) (by omega))
      | some other =>
          simp only [firstFree, cell]
          rw [ih (i + 1)]
          constructor
          · rintro ⟨j, lower, upper, eq, empty, before⟩
            refine ⟨j, by omega, by omega, eq, empty, ?_⟩
            intro k start below
            by_cases first : k = i
            · rw [first, cell]
              simp
            · exact before k (by omega) below
          · rintro ⟨j, lower, upper, eq, empty, before⟩
            have later : j ≠ i := by
              intro first
              rw [first, cell] at empty
              cases empty
            exact ⟨j, by omega, by omega, eq, empty, fun k start below => before k (by omega) below⟩

theorem search_table_iff [DecidableEq K] (n b : Nat) (occ : Nat → Option K) (key : K) (p : Nat) :
    search n b occ key 0 n = some p ↔ p < n ∧ occ p = some key ∧
      ∀ q < n, reach n b q < reach n b p → ∃ other, occ q = some other ∧ other ≠ key := by
  rw [search_some_iff]
  constructor
  · rintro ⟨j, _, upper, eq, found, before⟩
    have inside : j < n := by omega
    subst p
    refine ⟨probe_bound n b j (by omega), found, ?_⟩
    intro q bounded earlier
    rw [reach_probe n b j inside] at earlier
    have cell := before (reach n b q) (by omega) earlier
    rwa [probe_reach n b q bounded] at cell
  · rintro ⟨bounded, found, before⟩
    have positive : 0 < n := by omega
    refine ⟨reach n b p, by omega, ?_, (probe_reach n b p bounded).symm, ?_, ?_⟩
    · have bound := reach_bound n b p positive
      omega
    · rw [probe_reach n b p bounded]
      exact found
    · intro k _ below
      have small : k < n := Nat.lt_trans below (reach_bound n b p positive)
      exact before (probe n b k) (probe_bound n b k positive) (by rw [reach_probe n b k small]; exact below)

theorem first_free_table_iff (n b : Nat) (occ : Nat → Option K) (p : Nat) :
    firstFree n b occ 0 n = some p ↔ p < n ∧ occ p = none ∧
      ∀ q < n, reach n b q < reach n b p → occ q ≠ none := by
  rw [first_free_some_iff]
  constructor
  · rintro ⟨j, _, upper, eq, empty, before⟩
    have inside : j < n := by omega
    subst p
    refine ⟨probe_bound n b j (by omega), empty, ?_⟩
    intro q bounded earlier
    rw [reach_probe n b j inside] at earlier
    have cell := before (reach n b q) (by omega) earlier
    rwa [probe_reach n b q bounded] at cell
  · rintro ⟨bounded, empty, before⟩
    have positive : 0 < n := by omega
    refine ⟨reach n b p, by omega, ?_, (probe_reach n b p bounded).symm, ?_, ?_⟩
    · have bound := reach_bound n b p positive
      omega
    · rw [probe_reach n b p bounded]
      exact empty
    · intro k _ below
      have small : k < n := Nat.lt_trans below (reach_bound n b p positive)
      exact before (probe n b k) (probe_bound n b k positive) (by rw [reach_probe n b k small]; exact below)

theorem first_free_exists (n b : Nat) (occ : Nat → Option K) (p : Nat) (inside : p < n) (empty : occ p = none) :
    ∃ q, firstFree n b occ 0 n = some q := by
  have some_free : ∃ d, ∃ q < n, occ q = none ∧ reach n b q = d := ⟨_, p, inside, empty, rfl⟩
  classical
  obtain ⟨q, bounded, free, distance⟩ := Nat.find_spec some_free
  refine ⟨q, (first_free_table_iff n b occ q).mpr ⟨bounded, free, ?_⟩⟩
  intro other small earlier absent
  rw [distance] at earlier
  exact Nat.find_min some_free earlier ⟨other, small, absent, rfl⟩

/-- Keys are held once, and no empty cell lies before a key on its probe path. -/
structure Placed (n : Nat) (home : K → Nat) (occ : Nat → Option K) : Prop where
  once : ∀ p < n, ∀ q < n, ∀ key, occ p = some key → occ q = some key → p = q
  chain : ∀ p < n, ∀ key, occ p = some key → ∀ q < n,
    reach n (home key) q < reach n (home key) p → occ q ≠ none

theorem placed_vacant (n : Nat) (home : K → Nat) (occ : Nat → Option K) (vacant : ∀ p < n, occ p = none) :
    Placed n home occ := by
  refine ⟨?_, ?_⟩
  · intro p low q _ key found
    rw [vacant p low] at found
    cases found
  · intro p low key found
    rw [vacant p low] at found
    cases found

theorem search_placed [DecidableEq K] (n : Nat) (home : K → Nat) (occ : Nat → Option K) (placed : Placed n home occ)
    (key : K) (p : Nat) : search n (home key) occ key 0 n = some p ↔ p < n ∧ occ p = some key := by
  rw [search_table_iff]
  constructor
  · rintro ⟨inside, found, _⟩
    exact ⟨inside, found⟩
  · rintro ⟨inside, found⟩
    refine ⟨inside, found, ?_⟩
    intro q bounded earlier
    obtain ⟨other, full⟩ := Option.ne_none_iff_exists'.mp (placed.chain p inside key found q bounded earlier)
    refine ⟨other, full, ?_⟩
    intro same
    subst other
    have eq := placed.once p inside q bounded key found full
    rw [eq] at earlier
    omega

theorem search_absent [DecidableEq K] (n b : Nat) (occ : Nat → Option K) (key : K)
    (absent : ∀ p < n, occ p ≠ some key) : search n b occ key 0 n = none := by
  cases result : search n b occ key 0 n with
  | none => rfl
  | some p =>
      obtain ⟨inside, found, _⟩ := (search_table_iff n b occ key p).mp result
      exact absurd found (absent p inside)

def hold (occ : Nat → Option K) (p : Nat) (cell : Option K) : Nat → Option K := Function.update occ p cell

@[simp] theorem hold_here (occ : Nat → Option K) (p : Nat) (cell : Option K) : hold occ p cell p = cell := by
  simp [hold]

@[simp] theorem hold_elsewhere (occ : Nat → Option K) (p q : Nat) (cell : Option K) (different : q ≠ p) :
    hold occ p cell q = occ q := by
  simp [hold, different]

theorem hold_none_some {occ : Nat → Option K} {p q : Nat} {key : K} (found : hold occ p none q = some key) :
    q ≠ p ∧ occ q = some key := by
  by_cases here : q = p
  · rw [here, hold_here] at found
    cases found
  · exact ⟨here, by rwa [hold_elsewhere _ _ _ _ here] at found⟩

theorem placed_remove (n : Nat) (home : K → Nat) (occ : Nat → Option K) (placed : Placed n home occ) (p : Nat)
    (clear : ∀ q < n, q ≠ p → ∀ key, occ q = some key → ¬ reach n (home key) p < reach n (home key) q) :
    Placed n home (hold occ p none) := by
  refine ⟨?_, ?_⟩
  · intro q inside r bounded key left right
    exact placed.once q inside r bounded key (hold_none_some left).2 (hold_none_some right).2
  · intro q inside key found r bounded earlier
    obtain ⟨different, full⟩ := hold_none_some found
    have other : r ≠ p := by
      intro same
      subst r
      exact clear q inside different key full earlier
    rw [hold_elsewhere occ p r none other]
    exact placed.chain q inside key full r bounded earlier

-- Filling the first free cell r of a new key's path. The table before may have
-- one open gap, provided the gap is the very cell being filled.
theorem placed_fill (n : Nat) (home : K → Nat) (occ : Nat → Option K) (key : K) (r : Nat)
    (once : ∀ p < n, ∀ q < n, ∀ other, occ p = some other → occ q = some other → p = q)
    (gap : ∀ p < n, ∀ other, occ p = some other → ∀ q < n,
      reach n (home other) q < reach n (home other) p → occ q = none → q = r)
    (absent : ∀ p < n, occ p ≠ some key) (free : firstFree n (home key) occ 0 n = some r) :
    Placed n home (hold occ r (some key)) := by
  obtain ⟨_, empty, before⟩ := (first_free_table_iff n (home key) occ r).mp free
  refine ⟨?_, ?_⟩
  · intro p inside q bounded other left right
    by_cases first : p = r
    · by_cases second : q = r
      · rw [first, second]
      · rw [first, hold_here] at left
        rw [hold_elsewhere occ r q _ second] at right
        exact absurd (by rw [right, Option.some.inj left]) (absent q bounded)
    · by_cases second : q = r
      · rw [second, hold_here] at right
        rw [hold_elsewhere occ r p _ first] at left
        exact absurd (by rw [left, Option.some.inj right]) (absent p inside)
      · rw [hold_elsewhere occ r p _ first] at left
        rw [hold_elsewhere occ r q _ second] at right
        exact once p inside q bounded other left right
  · intro p inside other found q bounded earlier
    by_cases filled : q = r
    · rw [filled, hold_here]
      simp
    · rw [hold_elsewhere occ r q _ filled]
      by_cases first : p = r
      · rw [first, hold_here] at found
        rw [first, ← Option.some.inj found] at earlier
        exact before q bounded earlier
      · rw [hold_elsewhere occ r p _ first] at found
        intro open_
        exact filled (gap p inside other found q bounded earlier open_)

theorem search_filled [DecidableEq K] (n b : Nat) (occ emptied : Nat → Option K) (key : K) (r : Nat)
    (missed : search n b occ key 0 n = none) (fewer : ∀ p, emptied p = none ∨ emptied p = occ p)
    (free : firstFree n b emptied 0 n = some r) : search n b (hold emptied r (some key)) key 0 n = some r := by
  obtain ⟨inside, _, before⟩ := (first_free_table_iff n b emptied r).mp free
  have full : ∀ q < n, reach n b q < reach n b r → ∃ other, occ q = some other ∧ emptied q = some other := by
    intro q bounded earlier
    obtain ⟨other, held⟩ := Option.ne_none_iff_exists'.mp (before q bounded earlier)
    cases fewer q with
    | inl empty => exact absurd empty (before q bounded earlier)
    | inr same => exact ⟨other, same ▸ held, held⟩
  -- The first cell of the path with the key would have been found.
  have absent : ∀ d < reach n b r, ∀ q < n, reach n b q = d → occ q ≠ some key := by
    intro d
    induction d using Nat.strong_induction_on with
    | _ d ih =>
        intro below q bounded distance found
        have hit : search n b occ key 0 n = some q := by
          refine (search_table_iff n b occ key q).mpr ⟨bounded, found, ?_⟩
          intro p small earlier
          obtain ⟨other, held, _⟩ := full p small (by omega)
          refine ⟨other, held, ?_⟩
          intro same
          exact ih (reach n b p) (by omega) (by omega) p small rfl (same ▸ held)
        rw [missed] at hit
        cases hit
  refine (search_table_iff n b _ key r).mpr ⟨inside, hold_here emptied r _, ?_⟩
  intro q bounded earlier
  have different : q ≠ r := by
    intro same
    exact absurd earlier (same ▸ Nat.lt_irrefl _)
  obtain ⟨other, old, held⟩ := full q bounded earlier
  refine ⟨other, by rw [hold_elsewhere emptied r q _ different, held], ?_⟩
  intro same
  exact absent _ earlier q bounded rfl (same ▸ old)

theorem search_cut [DecidableEq K] (n : Nat) (home : K → Nat) (occ : Nat → Option K) (key : K) (p q : Nat)
    (inside : q < n) (empty : occ q = none) (alone : ∀ r < n, occ r = some key → r = p)
    (earlier : reach n (home key) q < reach n (home key) p) : search n (home key) occ key 0 n = none := by
  cases result : search n (home key) occ key 0 n with
  | none => rfl
  | some r =>
      obtain ⟨bounded, found, before⟩ := (search_table_iff n (home key) occ key r).mp result
      have same := alone r bounded found
      subst r
      obtain ⟨other, full, _⟩ := before q inside earlier
      rw [empty] at full
      cases full

end

end OpenAddressing
