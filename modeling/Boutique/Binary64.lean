import Mathlib.Algebra.Order.Group.Int
import Mathlib.Algebra.Order.Ring.Nat
import Mathlib.Order.Basic
import Mathlib.Tactic.Linarith
import Mathlib.Tactic.Ring
/-!
# Binary64 — double-precision numbers, and their rounded difference

The finite doubles are whole multiples of the least positive one, so a double is an integer counted in that unit, and
every exact sum or difference of doubles is again an integer.  Rounding is to 53 significant bits, a tie to the even
neighbour.  The exponent has no upper bound here: a result that overflows stands past every finite double, where infinity is.
-/
namespace Binary64

def PRECISION : Nat := 53

def Fits (n : Nat) : Prop := ∃ m s, m < 2 ^ PRECISION ∧ n = m * 2 ^ s

/-- **A finite double**, in units of 2^-1074. -/
structure Double where
  units : Int
  fits : Fits units.natAbs

theorem Double.ext {x y : Double} (h : x.units = y.units) : x = y := by
  cases x
  cases y
  cases h
  rfl

instance : LinearOrder Double := LinearOrder.lift' Double.units fun _ _ => Double.ext

def Double.ofParts (m : Int) (s : Nat) (h : m.natAbs < 2 ^ PRECISION) : Double where
  units := m * 2 ^ s
  fits := ⟨m.natAbs, s, h, by rw [Int.natAbs_mul, Int.natAbs_pow]; rfl⟩

def quantum (n : Nat) : Nat := 2 ^ (n.log2 + 1 - PRECISION)

def halfEven (n q : Nat) : Nat :=
  if 2 * (n % q) < q ∨ (2 * (n % q) = q ∧ n / q % 2 = 0) then n / q else n / q + 1

def roundNat (n : Nat) : Nat := halfEven n (quantum n) * quantum n

/-- **Rounding of an exact result.** -/
def round (n : Int) : Int := n.sign * roundNat n.natAbs

/-- The difference as the processor gives it. -/
def sub (x y : Double) : Int := round (x.units - y.units)

/-! ## One spacing -/

section Spacing

variable {n m q : Nat}

theorem quantum_pos (n : Nat) : 0 < quantum n := Nat.two_pow_pos _

theorem lt_quantum (n : Nat) : n < 2 ^ PRECISION * quantum n := by
  unfold quantum
  rw [← Nat.pow_add]
  exact Nat.lt_of_lt_of_le Nat.lt_log2_self (Nat.pow_le_pow_right (by decide) (by omega))

/-- Where the spacing is not the unit, `n` has all its 53 bits. -/
theorem quantum_le (h : quantum n ≠ 1) : 2 ^ (PRECISION - 1) * quantum n ≤ n := by
  unfold quantum at h ⊢
  have hn : n ≠ 0 := by
    rintro rfl
    exact h rfl
  have hlog : PRECISION ≤ n.log2 := by
    by_contra hlt
    have hzero : n.log2 + 1 - PRECISION = 0 := by omega
    exact h (by rw [hzero, Nat.pow_zero])
  rw [← Nat.pow_add]
  refine Nat.le_trans (Nat.pow_le_pow_right (by decide) ?_) (Nat.log2_self_le hn)
  simp only [PRECISION] at hlog ⊢
  omega

theorem div_le_halfEven (n q : Nat) : n / q ≤ halfEven n q := by
  unfold halfEven
  split
  · exact Nat.le_refl _
  · exact Nat.le_succ _

theorem halfEven_le (n q : Nat) : halfEven n q ≤ n / q + 1 := by
  unfold halfEven
  split
  · exact Nat.le_succ _
  · exact Nat.le_refl _

theorem halfEven_of_dvd (hq : 0 < q) (h : q ∣ n) : halfEven n q = n / q := by
  unfold halfEven
  rw [Nat.mod_eq_zero_of_dvd h]
  exact if_pos (.inl (by omega))

theorem halfEven_mono (q : Nat) (h : n ≤ m) : halfEven n q ≤ halfEven m q := by
  rcases Nat.eq_or_lt_of_le (Nat.div_le_div_right h : n / q ≤ m / q) with heq | hlt
  · have hmod : n % q ≤ m % q := by
      have hn := Nat.div_add_mod n q
      have hm := Nat.div_add_mod m q
      rw [heq] at hn
      omega
    unfold halfEven
    rw [heq]
    split <;> split <;> omega
  · exact Nat.le_trans (halfEven_le n q) (Nat.le_trans hlt (div_le_halfEven m q))

theorem halfEven_quantum_le (n : Nat) : halfEven n (quantum n) ≤ 2 ^ PRECISION :=
  (halfEven_le n _).trans (Nat.div_lt_of_lt_mul (by rw [Nat.mul_comm]; exact lt_quantum n))

end Spacing

/-! ## Rounding -/

section Rounding

variable {n m : Nat}

theorem Fits.quantum_dvd (h : Fits n) : quantum n ∣ n := by
  obtain ⟨k, s, hk, rfl⟩ := h
  by_cases hunit : quantum (k * 2 ^ s) = 1
  · rw [hunit]
    exact Nat.one_dvd _
  · refine Nat.dvd_mul_left_of_dvd (Nat.pow_dvd_pow 2 ?_) k
    have hle := quantum_le hunit
    by_contra hlt
    have hbits : 2 ^ (s + 1) ≤ quantum (k * 2 ^ s) := Nat.pow_le_pow_right (by decide) (by omega)
    have hfew : k * 2 ^ s < 2 ^ PRECISION * 2 ^ s := Nat.mul_lt_mul_of_pos_right hk (Nat.two_pow_pos s)
    have hmany := (Nat.mul_le_mul_left (2 ^ (PRECISION - 1)) hbits).trans hle
    rw [← Nat.pow_add] at hfew hmany
    have hexp : PRECISION - 1 + (s + 1) = PRECISION + s := by
      simp only [PRECISION]
      omega
    rw [hexp] at hmany
    omega

theorem roundNat_of_fits (h : Fits n) : roundNat n = n := by
  rw [roundNat, halfEven_of_dvd (quantum_pos n) h.quantum_dvd, Nat.div_mul_cancel h.quantum_dvd]

theorem roundNat_mono (h : n ≤ m) : roundNat n ≤ roundNat m := by
  have hexp : n.log2 + 1 - PRECISION ≤ m.log2 + 1 - PRECISION := by
    by_cases hn : n = 0
    · rw [hn, Nat.log2_zero]
      exact Nat.sub_le_sub_right (Nat.succ_le_succ (Nat.zero_le _)) _
    · have hm : m ≠ 0 := Nat.ne_of_gt (Nat.lt_of_lt_of_le (Nat.pos_of_ne_zero hn) h)
      exact Nat.sub_le_sub_right (Nat.succ_le_succ ((Nat.le_log2 hm).2 ((Nat.log2_self_le hn).trans h))) _
  rcases Nat.eq_or_lt_of_le hexp with heq | hlt
  · have hquantum : quantum n = quantum m := by rw [quantum, quantum, heq]
    unfold roundNat
    rw [hquantum]
    exact Nat.mul_le_mul_right _ (halfEven_mono _ h)
  · -- the power of two between the two spacings lies between the two results
    have hspaced : 2 * quantum n ≤ quantum m := by
      unfold quantum
      rw [← Nat.pow_succ']
      exact Nat.pow_le_pow_right (by decide) hlt
    have hunit : quantum m ≠ 1 := by
      have := quantum_pos n
      omega
    have hlow : 2 ^ (PRECISION - 1) ≤ m / quantum m := (Nat.le_div_iff_mul_le (quantum_pos m)).2 (quantum_le hunit)
    calc roundNat n ≤ 2 ^ PRECISION * quantum n := Nat.mul_le_mul_right _ (halfEven_quantum_le n)
      _ = 2 ^ (PRECISION - 1) * (2 * quantum n) := by rw [← Nat.mul_assoc]; rfl
      _ ≤ 2 ^ (PRECISION - 1) * quantum m := Nat.mul_le_mul_left _ hspaced
      _ ≤ roundNat m := Nat.mul_le_mul_right _ (hlow.trans (div_le_halfEven m _))

end Rounding

/-! ## Signed results -/

section Signed

variable {x y : Int}

theorem round_nonneg (h : 0 ≤ x) : round x = roundNat x.natAbs := by
  rcases Int.lt_or_eq_of_le h with hpos | rfl
  · rw [round, Int.sign_eq_one_of_pos hpos, Int.one_mul]
  · rfl

theorem round_nonpos (h : x ≤ 0) : round x = -roundNat x.natAbs := by
  rcases Int.lt_or_eq_of_le h with hneg | rfl
  · rw [round, Int.sign_eq_neg_one_of_neg hneg, Int.neg_one_mul]
  · rfl

theorem round_mono (h : x ≤ y) : round x ≤ round y := by
  by_cases hx : 0 ≤ x
  · rw [round_nonneg hx, round_nonneg (hx.trans h)]
    exact Int.ofNat_le.2 (roundNat_mono (by omega))
  · by_cases hy : 0 ≤ y
    · rw [round_nonpos (by omega), round_nonneg hy]
      omega
    · rw [round_nonpos (by omega), round_nonpos (by omega)]
      exact Int.neg_le_neg (Int.ofNat_le.2 (roundNat_mono (by omega)))

theorem round_of_fits (h : Fits x.natAbs) : round x = x := by
  rw [round, roundNat_of_fits h, Int.sign_mul_natAbs]

end Signed

/-! ## Differences -/

/-- **Sterbenz**: the difference of two doubles within a factor of two of each other is a double. -/
theorem Fits.sub {n m : Nat} (hn : Fits n) (hm : Fits m) (hle : m ≤ n) (hnear : n ≤ 2 * m) : Fits (n - m) := by
  obtain ⟨j, s, hj, rfl⟩ := hn
  obtain ⟨k, t, hk, rfl⟩ := hm
  rcases Nat.le_total s t with hst | hts
  · obtain ⟨d, rfl⟩ := Nat.exists_eq_add_of_le hst
    have hsplit : k * 2 ^ (s + d) = k * 2 ^ d * 2 ^ s := by rw [Nat.pow_add]; ring
    refine ⟨j - k * 2 ^ d, s, (Nat.sub_le _ _).trans_lt hj, ?_⟩
    rw [hsplit, Nat.sub_mul]
  · obtain ⟨d, rfl⟩ := Nat.exists_eq_add_of_le hts
    have hsplit : j * 2 ^ (t + d) = j * 2 ^ d * 2 ^ t := by rw [Nat.pow_add]; ring
    rw [hsplit] at hle hnear ⊢
    refine ⟨j * 2 ^ d - k, t, lt_of_le_of_lt ?_ hk, (Nat.sub_mul ..).symm⟩
    have hfew : j * 2 ^ d ≤ 2 * k := by
      refine Nat.le_of_mul_le_mul_right (hnear.trans_eq ?_) (Nat.two_pow_pos t)
      ring
    omega

variable {x y z : Double}

theorem sub_mono (h : x ≤ y) : sub x z ≤ sub y z := by
  have h : x.units ≤ y.units := h
  exact round_mono (by omega)

theorem sub_nonpos (h : x ≤ y) : sub x y ≤ 0 := by
  have h : x.units ≤ y.units := h
  exact (round_mono (by omega : x.units - y.units ≤ 0)).trans_eq rfl

/-- Between doubles that are not negative the difference is exact, or greater than the smaller of them. -/
theorem sub_exact_or (hy : 0 ≤ y.units) (h : y ≤ x) : sub x y = x.units - y.units ∨ y.units < x.units - y.units := by
  have h : y.units ≤ x.units := h
  by_cases hnear : x.units ≤ 2 * y.units
  · refine .inl (round_of_fits ?_)
    have hfits := x.fits.sub y.fits (by omega) (by omega)
    rwa [show x.units.natAbs - y.units.natAbs = (x.units - y.units).natAbs by omega] at hfits
  · exact .inr (by omega)

end Binary64
