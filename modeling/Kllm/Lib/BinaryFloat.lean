import Mathlib

set_option autoImplicit false

namespace BinaryFloat

/-- The magnitude of a pattern without its sign, in units of the least subnormal: p bits of
fraction, and the exponent above them. The pattern of infinity gets the magnitude that
follows the largest finite one. -/
def magnitude (p m : Nat) : Nat := if m / 2 ^ p = 0 then m else (2 ^ p + m % 2 ^ p) * 2 ^ (m / 2 ^ p - 1)

def spacing (p m : Nat) : Nat := 2 ^ (m / 2 ^ p - 1)

theorem spacing_positive (p m : Nat) : 0 < spacing p m := Nat.two_pow_pos _

theorem magnitude_split (p e f : Nat) (inside : f < 2 ^ p) :
    magnitude p (e * 2 ^ p + f) = if e = 0 then f else (2 ^ p + f) * 2 ^ (e - 1) := by
  have positive := Nat.two_pow_pos p
  have high : (e * 2 ^ p + f) / 2 ^ p = e := by
    rw [Nat.mul_comm, Nat.mul_add_div positive, Nat.div_eq_of_lt inside, Nat.add_zero]
  have low : (e * 2 ^ p + f) % 2 ^ p = f := by
    rw [Nat.mul_comm, Nat.mul_add_mod, Nat.mod_eq_of_lt inside]
  rw [magnitude, high, low]
  by_cases zero : e = 0
  · rw [if_pos zero, if_pos zero, zero, Nat.zero_mul, Nat.zero_add]
  · rw [if_neg zero, if_neg zero]

theorem spacing_split (p e f : Nat) (inside : f < 2 ^ p) : spacing p (e * 2 ^ p + f) = 2 ^ (e - 1) := by
  rw [spacing, Nat.mul_comm, Nat.mul_add_div (Nat.two_pow_pos p), Nat.div_eq_of_lt inside, Nat.add_zero]

theorem magnitude_succ (p m : Nat) : magnitude p (m + 1) = magnitude p m + spacing p m := by
  have positive := Nat.two_pow_pos p
  obtain ⟨e, f, inside, rfl⟩ : ∃ e f, f < 2 ^ p ∧ m = e * 2 ^ p + f :=
    ⟨m / 2 ^ p, m % 2 ^ p, Nat.mod_lt m positive, (Nat.div_add_mod' m (2 ^ p)).symm⟩
  rw [spacing_split p e f inside, magnitude_split p e f inside]
  by_cases last : f + 1 = 2 ^ p
  · have carried : e * 2 ^ p + f + 1 = (e + 1) * 2 ^ p + 0 := by
      rw [Nat.succ_mul]
      omega
    rw [carried, magnitude_split p (e + 1) 0 positive, if_neg (Nat.succ_ne_zero e), Nat.add_zero, Nat.add_sub_cancel]
    cases e with
    | zero =>
        rw [if_pos rfl]
        simp only [pow_zero, Nat.mul_one, Nat.zero_sub]
        exact last.symm
    | succ e =>
        rw [if_neg (Nat.succ_ne_zero e), Nat.add_sub_cancel, pow_succ, ← Nat.succ_mul, Nat.succ_eq_add_one, Nat.add_assoc, last]
        ring
  · have next : f + 1 < 2 ^ p := by omega
    rw [Nat.add_assoc, magnitude_split p e (f + 1) next]
    cases e with
    | zero => simp
    | succ e =>
        rw [if_neg (Nat.succ_ne_zero e), if_neg (Nat.succ_ne_zero e)]
        ring

theorem spacing_normal {p m : Nat} (normal : 2 ^ p ≤ m) : 2 ^ p * spacing p m ≤ magnitude p m := by
  have exponent : m / 2 ^ p ≠ 0 := (Nat.div_pos normal (Nat.two_pow_pos p)).ne'
  rw [magnitude, if_neg exponent, spacing]
  exact Nat.mul_le_mul_right _ (Nat.le_add_right _ _)

theorem magnitude_strict_mono (p : Nat) : StrictMono (magnitude p) := by
  apply strictMono_nat_of_lt_succ
  intro m
  rw [magnitude_succ]
  have := spacing_positive p m
  omega

theorem magnitude_zero (p : Nat) : magnitude p 0 = 0 := by
  rw [magnitude, Nat.zero_div, if_pos rfl]

theorem magnitude_coarse (q s k : Nat) : magnitude (q + s) (k * 2 ^ s) = magnitude q k * 2 ^ s := by
  have positive := Nat.two_pow_pos q
  obtain ⟨e, f, inside, rfl⟩ : ∃ e f, f < 2 ^ q ∧ k = e * 2 ^ q + f :=
    ⟨k / 2 ^ q, k % 2 ^ q, Nat.mod_lt k positive, (Nat.div_add_mod' k (2 ^ q)).symm⟩
  have shifted : (e * 2 ^ q + f) * 2 ^ s = e * 2 ^ (q + s) + f * 2 ^ s := by
    rw [Nat.add_mul, Nat.mul_assoc, ← pow_add]
  have low : f * 2 ^ s < 2 ^ (q + s) := by
    rw [pow_add]
    exact Nat.mul_lt_mul_of_pos_right inside (Nat.two_pow_pos s)
  rw [shifted, magnitude_split _ _ _ low, magnitude_split _ _ _ inside]
  by_cases zero : e = 0
  · rw [if_pos zero, if_pos zero]
  · rw [if_neg zero, if_neg zero, pow_add]
    ring

theorem magnitude_block (q s k r : Nat) (inside : r ≤ 2 ^ s) :
    magnitude (q + s) (k * 2 ^ s + r) = magnitude q k * 2 ^ s + r * spacing q k := by
  induction r with
  | zero => rw [Nat.add_zero, magnitude_coarse, Nat.zero_mul, Nat.add_zero]
  | succ r ih =>
      have same : spacing (q + s) (k * 2 ^ s + r) = spacing q k := by
        have high : (k * 2 ^ s + r) / 2 ^ s = k := by
          rw [Nat.mul_comm, Nat.mul_add_div (Nat.two_pow_pos s), Nat.div_eq_of_lt inside, Nat.add_zero]
        rw [spacing, spacing, Nat.add_comm q s, pow_add, ← Nat.div_div_eq_div_mul, high]
      rw [← Nat.add_assoc, magnitude_succ, ih (by omega), same, Nat.succ_mul, Nat.add_assoc]

theorem closer_upper {a b u : ℚ} (apart : a < b) : |u - b| ≤ |u - a| ↔ a + b ≤ 2 * u := by
  rw [← sq_le_sq]
  constructor
  · intro near
    nlinarith
  · intro far
    nlinarith

theorem closer_lower {a b u : ℚ} (apart : a < b) : |u - a| ≤ |u - b| ↔ 2 * u ≤ a + b := by
  rw [← sq_le_sq]
  constructor
  · intro near
    nlinarith
  · intro far
    nlinarith

/-- The nearest point of a grid, the even one of two. -/
structure NearestEven (grid : Nat → ℚ) (u : ℚ) (k : Nat) : Prop where
  nearest : ∀ j, |u - grid k| ≤ |u - grid j|
  even : ∀ j, j ≠ k → |u - grid j| = |u - grid k| → k % 2 = 0

section
variable {grid : Nat → ℚ} (mono : StrictMono grid)
include mono

theorem nearest_even_lower {k : Nat} {u : ℚ} (lower : grid k ≤ u)
    (near : 2 * u < grid k + grid (k + 1) ∨ 2 * u = grid k + grid (k + 1) ∧ k % 2 = 0) : NearestEven grid u k := by
  have within : 2 * u ≤ grid k + grid (k + 1) := near.elim le_of_lt (fun tie => tie.1.le)
  constructor
  · intro j
    rcases Nat.lt_trichotomy j k with before | here | after
    · have below := mono before
      exact (closer_upper below).mpr (by linarith)
    · rw [here]
    · have beyond := mono.monotone (Nat.succ_le_of_lt after)
      exact (closer_lower (mono after)).mpr (within.trans (add_le_add_right beyond _))
  · intro j other same
    rcases Nat.lt_or_gt_of_ne other with before | after
    · have below := mono before
      have := (closer_lower below).mp same.le
      linarith
    · have beyond := mono.monotone (Nat.succ_le_of_lt after)
      have far := (closer_upper (mono after)).mp same.le
      rcases near with strict | tie
      · simp only [Nat.succ_eq_add_one] at beyond
        linarith
      · exact tie.2

theorem nearest_even_upper {k : Nat} {u : ℚ} (upper : u ≤ grid (k + 1))
    (near : grid k + grid (k + 1) < 2 * u ∨ 2 * u = grid k + grid (k + 1) ∧ k % 2 = 1) : NearestEven grid u (k + 1) := by
  have within : grid k + grid (k + 1) ≤ 2 * u := near.elim le_of_lt (fun tie => tie.1.ge)
  constructor
  · intro j
    rcases Nat.lt_trichotomy j (k + 1) with before | here | after
    · have below := mono.monotone (Nat.le_of_lt_succ before)
      exact (closer_upper (mono before)).mpr (le_trans (add_le_add_left below _) within)
    · rw [here]
    · have beyond := mono after
      exact (closer_lower beyond).mpr (by linarith)
  · intro j other same
    rcases Nat.lt_or_gt_of_ne other with before | after
    · have below := mono.monotone (Nat.le_of_lt_succ before)
      have far := (closer_lower (mono before)).mp same.le
      rcases near with strict | tie
      · linarith
      · omega
    · have beyond := mono after
      have := (closer_upper beyond).mp same.le
      linarith

theorem nearest_even_between {k : Nat} {d t : ℚ} (step : grid (k + 1) = grid k + d) (positive : 0 < d) (lower : 0 ≤ t)
    (upper : t ≤ 1) : NearestEven grid (grid k + t * d) (if 2 * t < 1 ∨ 2 * t = 1 ∧ k % 2 = 0 then k else k + 1) := by
  have above := mul_nonneg lower positive.le
  have below := mul_le_mul_of_nonneg_right upper positive.le
  by_cases down : 2 * t < 1 ∨ 2 * t = 1 ∧ k % 2 = 0
  · rw [if_pos down]
    refine nearest_even_lower mono (by linarith) ?_
    rw [step]
    rcases down with less | ⟨half, even⟩
    · left
      have := mul_lt_mul_of_pos_right less positive
      linarith
    · right
      have scaled : 2 * t * d = 1 * d := by rw [half]
      exact ⟨by linarith, even⟩
  · rw [if_neg down]
    refine nearest_even_upper mono (by rw [step]; linarith) ?_
    rw [step]
    rcases lt_trichotomy (2 * t) 1 with less | half | more
    · exact absurd (Or.inl less) down
    · right
      have scaled : 2 * t * d = 1 * d := by rw [half]
      refine ⟨by linarith, ?_⟩
      have odd : ¬ k % 2 = 0 := fun even => down (Or.inr ⟨half, even⟩)
      omega
    · left
      have := mul_lt_mul_of_pos_right more positive
      linarith

theorem nearest_even_point (k : Nat) : NearestEven grid (grid k) k := by
  constructor
  · intro j
    rw [sub_self, abs_zero]
    exact abs_nonneg _
  · intro j other same
    rw [sub_self, abs_zero, abs_eq_zero, sub_eq_zero] at same
    exact absurd (mono.injective same).symm other

theorem nearest_even_mono {u v : ℚ} {k j : Nat} (order : u ≤ v) (first : NearestEven grid u k) (second : NearestEven grid v j) :
    k ≤ j := by
  by_contra crossed
  have above : j < k := by omega
  have apart := mono above
  have high := (closer_upper apart).mp (first.nearest j)
  have low := (closer_lower apart).mp (second.nearest k)
  have equal : v = u := by linarith
  have same : |u - grid j| = |u - grid k| := by
    rw [abs_eq_abs]
    right
    linarith
  rw [equal] at second
  have evenFirst := first.even j (by omega) same
  have evenSecond := second.even k (by omega) same.symm
  -- Both are even, so a grid point lies between them, and it is nearer.
  have between : j + 1 < k := by omega
  have left := mono (Nat.lt_succ_self j)
  have right := mono between
  have near := (closer_upper right).mp (first.nearest (j + 1))
  simp only [Nat.succ_eq_add_one] at left
  linarith

end

theorem magnitude_grid (q : Nat) : StrictMono (fun j => (magnitude q j : ℚ)) :=
  fun _ _ order => Nat.cast_lt.mpr (magnitude_strict_mono q order)

-- Adding half of the dropped part, less one, and the last bit kept.
def roundBlock (s m : Nat) : Nat := (m + (2 ^ (s - 1) - 1 + m / 2 ^ s % 2)) / 2 ^ s

theorem round_block_split (s k r : Nat) (some_ : 1 ≤ s) (inside : r < 2 ^ s) :
    roundBlock s (k * 2 ^ s + r) = if 2 * r < 2 ^ s ∨ 2 * r = 2 ^ s ∧ k % 2 = 0 then k else k + 1 := by
  have positive := Nat.two_pow_pos (s - 1)
  have double : 2 ^ s = 2 * 2 ^ (s - 1) := by
    rw [← pow_succ', Nat.sub_add_cancel some_]
  have high : (k * 2 ^ s + r) / 2 ^ s = k := by
    rw [Nat.mul_comm, Nat.mul_add_div (Nat.two_pow_pos s), Nat.div_eq_of_lt inside, Nat.add_zero]
  rw [roundBlock, high, Nat.add_assoc, Nat.mul_comm k, Nat.mul_add_div (Nat.two_pow_pos s)]
  by_cases down : 2 * r < 2 ^ s ∨ 2 * r = 2 ^ s ∧ k % 2 = 0
  · rw [if_pos down, Nat.div_eq_of_lt (by omega), Nat.add_zero]
  · rw [if_neg down]
    congr 1
    exact Nat.div_eq_of_lt_le (by omega) (by omega)

theorem round_block_le_iff (s k m : Nat) (some_ : 1 ≤ s) :
    roundBlock s m ≤ k ↔ 2 * m < (2 * k + 1) * 2 ^ s ∨ 2 * m = (2 * k + 1) * 2 ^ s ∧ k % 2 = 0 := by
  obtain ⟨j, r, inside, rfl⟩ : ∃ j r, r < 2 ^ s ∧ m = j * 2 ^ s + r :=
    ⟨m / 2 ^ s, m % 2 ^ s, Nat.mod_lt m (Nat.two_pow_pos s), (Nat.div_add_mod' m (2 ^ s)).symm⟩
  have middle : (2 * k + 1) * 2 ^ s = 2 * (k * 2 ^ s) + 2 ^ s := by ring
  rw [round_block_split s j r some_ inside, middle]
  rcases Nat.lt_trichotomy j k with below | rfl | above
  · have room := Nat.mul_le_mul_right (2 ^ s) below
    rw [Nat.succ_mul] at room
    have small : (if 2 * r < 2 ^ s ∨ 2 * r = 2 ^ s ∧ j % 2 = 0 then j else j + 1) ≤ k := by split <;> omega
    exact iff_of_true small (by omega)
  · split <;> omega
  · have room := Nat.mul_le_mul_right (2 ^ s) above
    rw [Nat.succ_mul] at room
    have large : ¬ (if 2 * r < 2 ^ s ∨ 2 * r = 2 ^ s ∧ j % 2 = 0 then j else j + 1) ≤ k := by split <;> omega
    exact iff_of_false large (by omega)

theorem magnitude_next (q k : Nat) : ((magnitude q (k + 1) : Nat) : ℚ) = magnitude q k + spacing q k := by
  rw [magnitude_succ, Nat.cast_add]

theorem round_block_nearest (q s m : Nat) (some_ : 1 ≤ s) :
    NearestEven (fun j => (magnitude q j : ℚ)) ((magnitude (q + s) m : ℚ) / 2 ^ s) (roundBlock s m) := by
  obtain ⟨k, r, inside, rfl⟩ : ∃ k r, r < 2 ^ s ∧ m = k * 2 ^ s + r :=
    ⟨m / 2 ^ s, m % 2 ^ s, Nat.mod_lt m (Nat.two_pow_pos s), (Nat.div_add_mod' m (2 ^ s)).symm⟩
  have size : (0 : ℚ) < 2 ^ s := by positivity
  have bound : (r : ℚ) ≤ 2 ^ s := by exact_mod_cast inside.le
  have fine : (magnitude (q + s) (k * 2 ^ s + r) : ℚ) / 2 ^ s = magnitude q k + r / 2 ^ s * spacing q k := by
    rw [magnitude_block q s k r inside.le, Nat.cast_add, Nat.cast_mul, Nat.cast_mul, Nat.cast_pow, Nat.cast_ofNat]
    field_simp
  have half : (2 * ((r : ℚ) / 2 ^ s) < 1 ∨ 2 * ((r : ℚ) / 2 ^ s) = 1 ∧ k % 2 = 0) ↔
      (2 * r < 2 ^ s ∨ 2 * r = 2 ^ s ∧ k % 2 = 0) := by
    rw [← mul_div_assoc, div_lt_one size, div_eq_one_iff_eq size.ne']
    norm_cast
  have near := nearest_even_between (magnitude_grid q) (magnitude_next q k) (Nat.cast_pos.mpr (spacing_positive q k))
    (div_nonneg (Nat.cast_nonneg r) size.le) ((div_le_one size).mpr bound)
  simp only [half] at near
  rw [fine, round_block_split s k r some_ inside]
  exact near

theorem nearest_even_unique {grid : Nat → ℚ} (mono : StrictMono grid) {u : ℚ} {k j : Nat} (first : NearestEven grid u k)
    (second : NearestEven grid u j) : k = j :=
  Nat.le_antisymm (nearest_even_mono mono le_rfl first second) (nearest_even_mono mono le_rfl second first)

-- The last pattern whose magnitude does not exceed u: u / 2^n has q + 1 bits
-- before the point, or fewer where n is zero.
def floorPattern (q : Nat) (u : ℚ) : Nat :=
  let n := Nat.log2 ⌊u⌋₊ - q
  n * 2 ^ q + ⌊u / 2 ^ n⌋₊

def LowerHalf (q k : Nat) (u : ℚ) : Prop :=
  2 * u < magnitude q k + magnitude q (k + 1) ∨ 2 * u = magnitude q k + magnitude q (k + 1) ∧ k % 2 = 0

instance (q k : Nat) (u : ℚ) : Decidable (LowerHalf q k u) := inferInstanceAs (Decidable (_ ∨ _))

def nearestPattern (q : Nat) (u : ℚ) : Nat :=
  if LowerHalf q (floorPattern q u) u then floorPattern q u else floorPattern q u + 1

theorem magnitude_scaled (q n j : Nat) (below : j < 2 ^ (q + 1)) (full : n = 0 ∨ 2 ^ q ≤ j) :
    magnitude q (n * 2 ^ q + j) = j * 2 ^ n ∧ spacing q (n * 2 ^ q + j) = 2 ^ n := by
  rw [pow_succ] at below
  by_cases short : j < 2 ^ q
  · have zero : n = 0 := full.resolve_right (by omega)
    subst zero
    rw [magnitude_split q 0 j short, spacing_split q 0 j short]
    simp
  · have inside : j - 2 ^ q < 2 ^ q := by omega
    have split : n * 2 ^ q + j = (n + 1) * 2 ^ q + (j - 2 ^ q) := by
      rw [Nat.succ_mul]
      omega
    have whole : 2 ^ q + (j - 2 ^ q) = j := by omega
    rw [split, magnitude_split q _ _ inside, spacing_split q _ _ inside, if_neg (Nat.succ_ne_zero n), whole, Nat.add_sub_cancel]
    exact ⟨rfl, rfl⟩

theorem floor_pattern_between (q : Nat) {u : ℚ} (nonneg : 0 ≤ u) :
    (magnitude q (floorPattern q u) : ℚ) ≤ u ∧ u < magnitude q (floorPattern q u + 1) := by
  obtain ⟨n, hn⟩ : ∃ n, n = Nat.log2 ⌊u⌋₊ - q := ⟨_, rfl⟩
  have size : (0 : ℚ) < 2 ^ n := by positivity
  have scaled : 0 ≤ u / 2 ^ n := div_nonneg nonneg size.le
  have whole : ⌊u / 2 ^ n⌋₊ = ⌊u⌋₊ / 2 ^ n := by
    rw [← Nat.floor_div_natCast, Nat.cast_pow, Nat.cast_ofNat]
  have short : ⌊u / 2 ^ n⌋₊ < 2 ^ (q + 1) := by
    rw [whole, Nat.div_lt_iff_lt_mul (Nat.two_pow_pos n), ← pow_add]
    exact Nat.lt_log2_self.trans_le (Nat.pow_le_pow_right (by decide) (by omega))
  have full : n = 0 ∨ 2 ^ q ≤ ⌊u / 2 ^ n⌋₊ := by
    by_cases zero : n = 0
    · exact Or.inl zero
    · right
      have some_ : ⌊u⌋₊ ≠ 0 := by
        intro none_
        rw [none_, Nat.log2_zero] at hn
        omega
      rw [whole, Nat.le_div_iff_mul_le (Nat.two_pow_pos n), ← pow_add]
      exact (Nat.le_log2 some_).mp (by omega)
  obtain ⟨value, gap⟩ := magnitude_scaled q n _ short full
  have low := Nat.floor_le scaled
  have high := Nat.lt_floor_add_one (u / 2 ^ n)
  rw [le_div_iff₀ size] at low
  rw [div_lt_iff₀ size] at high
  rw [floorPattern, magnitude_succ, ← hn]
  simp only [value, gap]
  push_cast
  constructor
  · exact low
  · linarith

theorem floor_pattern_unique {q k : Nat} {u : ℚ} (low : (magnitude q k : ℚ) ≤ u) (high : u < magnitude q (k + 1)) :
    floorPattern q u = k := by
  have nonneg : 0 ≤ u := le_trans (Nat.cast_nonneg _) low
  obtain ⟨below, above⟩ := floor_pattern_between q nonneg
  have first := (magnitude_grid q).lt_iff_lt.mp (low.trans_lt above)
  have second := (magnitude_grid q).lt_iff_lt.mp (below.trans_lt high)
  omega

theorem nearest_pattern_nearest (q : Nat) {u : ℚ} (nonneg : 0 ≤ u) :
    NearestEven (fun j => (magnitude q j : ℚ)) u (nearestPattern q u) := by
  obtain ⟨low, high⟩ := floor_pattern_between q nonneg
  rw [nearestPattern]
  by_cases lower : LowerHalf q (floorPattern q u) u
  · rw [if_pos lower]
    exact nearest_even_lower (magnitude_grid q) low lower
  · rw [if_neg lower]
    refine nearest_even_upper (magnitude_grid q) high.le ?_
    rcases lt_trichotomy (2 * u) (magnitude q (floorPattern q u) + magnitude q (floorPattern q u + 1)) with less | tie | above
    · exact absurd (Or.inl less) lower
    · have odd : ¬ floorPattern q u % 2 = 0 := fun even => lower (Or.inr ⟨tie, even⟩)
      exact Or.inr ⟨tie, by omega⟩
    · exact Or.inl above

theorem spacing_bound (q : Nat) {k : Nat} {u : ℚ} (low : (magnitude q k : ℚ) ≤ u) : (spacing q k : ℚ) ≤ u / 2 ^ q + 1 := by
  have nonneg : 0 ≤ u := le_trans (Nat.cast_nonneg _) low
  have size : (0 : ℚ) < 2 ^ q := by positivity
  by_cases normal : 2 ^ q ≤ k
  · have scaled : (2 : ℚ) ^ q * spacing q k ≤ magnitude q k := by exact_mod_cast spacing_normal normal
    have share : (spacing q k : ℚ) ≤ u / 2 ^ q := by
      rw [le_div_iff₀' size]
      exact scaled.trans low
    linarith
  · have one : spacing q k = 1 := by rw [spacing, Nat.div_eq_of_lt (not_le.mp normal), Nat.zero_sub, pow_zero]
    have share : 0 ≤ u / 2 ^ q := div_nonneg nonneg size.le
    rw [one, Nat.cast_one]
    linarith

theorem nearest_pattern_error (q : Nat) {u : ℚ} (nonneg : 0 ≤ u) :
    |(magnitude q (nearestPattern q u) : ℚ) - u| ≤ (u / 2 ^ q + 1) / 2 := by
  obtain ⟨low, high⟩ := floor_pattern_between q nonneg
  have gap := spacing_bound q low
  have next := magnitude_next q (floorPattern q u)
  rw [nearestPattern, abs_le]
  by_cases lower : LowerHalf q (floorPattern q u) u
  · have half : 2 * u ≤ magnitude q (floorPattern q u) + magnitude q (floorPattern q u + 1) :=
      lower.elim le_of_lt (fun tie => tie.1.le)
    rw [if_pos lower]
    constructor
    · linarith
    · linarith
  · have half : (magnitude q (floorPattern q u) : ℚ) + magnitude q (floorPattern q u + 1) ≤ 2 * u :=
      not_lt.mp (fun less => lower (Or.inl less))
    rw [if_neg lower]
    constructor
    · linarith
    · linarith

end BinaryFloat
