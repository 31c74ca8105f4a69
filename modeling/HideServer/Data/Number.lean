import Mathlib.Data.Nat.Factorization.Basic

/-!
# Integers as floating-point numbers

A natural number that needs more binary digits than there are is rounded to the nearest that does
not, ties to even. `Number` are the integers among the doubles, with what overflows and what is no
number. Zero has no sign here.
-/

namespace Data

/-- The distance of the numbers of so many bits next to a number. -/
def ulp (bits n : Nat) : Nat := 2 ^ (n.log2 + 1 - bits)

/-- The nearest number of so many bits, ties to even. -/
def roundTo (bits n : Nat) : Nat :=
  let quotient := n / ulp bits n
  let rest := n % ulp bits n
  if ulp bits n < 2 * rest ∨ (2 * rest = ulp bits n ∧ quotient % 2 = 1) then (quotient + 1) * ulp bits n
  else quotient * ulp bits n

/-- The number needs no more than so many bits. -/
def Exact (bits n : Nat) : Prop := ulp bits n ∣ n
  deriving Decidable

theorem ulp_pos (bits n : Nat) : 0 < ulp bits n := Nat.two_pow_pos _

theorem exact_of_log2_lt {bits n : Nat} (h : n.log2 < bits) : Exact bits n := by
  have hulp : ulp bits n = 1 := by rw [ulp, Nat.sub_eq_zero_of_le h, pow_zero]
  rw [Exact, hulp]
  exact one_dvd n

theorem roundTo_eq_self_iff {bits n : Nat} : roundTo bits n = n ↔ Exact bits n := by
  constructor
  · intro h
    unfold roundTo at h
    dsimp only at h
    split at h
    · exact Dvd.intro_left _ h
    · exact Dvd.intro_left _ h
  · intro h
    have hrest : n % ulp bits n = 0 := Nat.mod_eq_zero_of_dvd h
    have hpos := ulp_pos bits n
    rw [roundTo, hrest, if_neg (by omega)]
    exact Nat.div_mul_cancel h

theorem exact_mul_two_pow {bits : Nat} (hbits : 0 < bits) {k : Nat} (hk : k ≤ 2 ^ bits) (c : Nat) :
    Exact bits (k * 2 ^ c) := by
  rcases Nat.eq_zero_or_pos k with rfl | hpos
  · rw [Nat.zero_mul]
    exact Nat.dvd_zero _
  rcases Nat.lt_or_eq_of_le hk with hlt | rfl
  · have hlog : (k * 2 ^ c).log2 < bits + c := by
      rw [Nat.log2_lt (Nat.mul_ne_zero hpos.ne' (Nat.two_pow_pos c).ne'), pow_add]
      exact Nat.mul_lt_mul_of_pos_right hlt (Nat.two_pow_pos c)
    exact Dvd.dvd.mul_left (pow_dvd_pow 2 (by omega)) k
  · rw [← pow_add, Exact, ulp, Nat.log2_two_pow]
    exact pow_dvd_pow 2 (by omega)

theorem exact_roundTo {bits : Nat} (hbits : 0 < bits) (n : Nat) : Exact bits (roundTo bits n) := by
  have hquotient : n / ulp bits n < 2 ^ bits := by
    rw [Nat.div_lt_iff_lt_mul (ulp_pos bits n), ulp, ← pow_add]
    exact Nat.lt_log2_self.trans_le (Nat.pow_le_pow_right (by decide) (by omega))
  unfold roundTo
  dsimp only
  split
  · exact exact_mul_two_pow hbits hquotient _
  · exact exact_mul_two_pow hbits hquotient.le _

theorem le_two_mul_roundTo {bits : Nat} (hbits : 0 < bits) (n : Nat) : n ≤ 2 * roundTo bits n := by
  by_cases hzero : n = 0
  · rw [hzero]
    exact Nat.zero_le _
  have hulp : ulp bits n ≤ n := by
    calc ulp bits n ≤ 2 ^ n.log2 := Nat.pow_le_pow_right (by decide) (by omega)
      _ ≤ n := Nat.log2_self_le hzero
  have hquotient : 1 ≤ n / ulp bits n := (Nat.one_le_div_iff (ulp_pos bits n)).2 hulp
  have hrest : n % ulp bits n < ulp bits n := Nat.mod_lt n (ulp_pos bits n)
  have hsplit : ulp bits n * (n / ulp bits n) + n % ulp bits n = n := Nat.div_add_mod n _
  have hwhole : ulp bits n ≤ n / ulp bits n * ulp bits n := Nat.le_mul_of_pos_left _ hquotient
  have hround : n / ulp bits n * ulp bits n ≤ roundTo bits n := by
    unfold roundTo
    dsimp only
    split
    · exact Nat.mul_le_mul_right _ (Nat.le_succ _)
    · exact Nat.le_refl _
  rw [Nat.mul_comm] at hsplit
  omega

theorem Exact.of_mul {bits k n : Nat} (hk : k ≠ 0) (h : Exact bits (k * n)) : Exact bits n := by
  by_cases hbits : n.log2 < bits
  · exact exact_of_log2_lt hbits
  by_cases hzero : n = 0
  · rw [hzero]
    exact Nat.dvd_zero _
  obtain ⟨c, m, hodd, rfl⟩ := Nat.exists_eq_two_pow_mul_odd hk
  -- the factors of two only move the digits, and the odd factor leaves the last of them in its place
  have hlog : c + n.log2 ≤ (2 ^ c * m * n).log2 := by
    refine (Nat.le_log2 (Nat.mul_ne_zero hk hzero)).2 ?_
    calc 2 ^ (c + n.log2) = 2 ^ c * 2 ^ n.log2 := pow_add 2 c _
      _ ≤ 2 ^ c * m * n := Nat.mul_le_mul (Nat.le_mul_of_pos_right _ hodd.pos) (Nat.log2_self_le hzero)
  have hcoprime : Nat.Coprime (ulp bits n) m := (Nat.coprime_two_left.2 hodd).pow_left _
  have hdvd : 2 ^ c * ulp bits n ∣ 2 ^ c * (m * n) := by
    rw [ulp, ← pow_add, ← Nat.mul_assoc]
    exact (pow_dvd_pow 2 (by omega)).trans h
  exact hcoprime.dvd_of_dvd_mul_left (Nat.dvd_of_mul_dvd_mul_left (Nat.two_pow_pos c) hdvd)

inductive Number where
  | nan
  | infinite (negative : Bool)
  | int (value : Int)
  deriving DecidableEq, Repr

namespace Number

/-- The double nearest to an integer. -/
def ofInt (value : Int) : Number :=
  let magnitude := roundTo 53 value.natAbs
  if 1024 ≤ magnitude.log2 then .infinite (value < 0) else .int (value.sign * magnitude)

def neg : Number → Number
  | .nan => .nan
  | .infinite negative => .infinite !negative
  | .int value => .int (-value)

def add : Number → Number → Number
  | .nan, _ | _, .nan => .nan
  | .infinite left, .infinite right => if left = right then .infinite left else .nan
  | .infinite negative, .int _ | .int _, .infinite negative => .infinite negative
  | .int left, .int right => ofInt (left + right)

def sub (left right : Number) : Number := left.add right.neg

def mul : Number → Number → Number
  | .nan, _ | _, .nan => .nan
  | .infinite left, .infinite right => .infinite (left != right)
  | .infinite negative, .int value | .int value, .infinite negative =>
    if value = 0 then .nan else .infinite (negative != (value < 0))
  | .int left, .int right => ofInt (left * right)

def lt : Number → Number → Bool
  | .nan, _ | _, .nan => false
  | .infinite left, .infinite right => left && !right
  | .infinite negative, .int _ => negative
  | .int _, .infinite negative => !negative
  | .int left, .int right => left < right

/-- The conversion to a Boolean. -/
def truthy : Number → Bool
  | .nan => false
  | .infinite _ => true
  | .int value => value ≠ 0

theorem ofInt_natCast (n : Nat) :
    ofInt n = if 1024 ≤ (roundTo 53 n).log2 then .infinite false else .int (roundTo 53 n) := by
  have hsign : (n : Int).sign * (roundTo 53 n : Int) = roundTo 53 n := by
    cases n with
    | zero => rfl
    | succ n => rw [Int.sign_eq_one_of_pos (by omega), one_mul]
  have hnonneg : ¬ (n : Int) < 0 := by omega
  simp [ofInt, hsign, hnonneg]

/-- A number in the range is itself if it needs no rounding, and only then. -/
theorem ofInt_eq_int_iff {n : Nat} (h : n.log2 < 1024) : ofInt n = .int n ↔ Exact 53 n := by
  rw [ofInt_natCast, ← roundTo_eq_self_iff]
  split
  · rename_i hover
    constructor
    · intro hint
      cases hint
    · intro heq
      rw [heq] at hover
      omega
  · rw [Number.int.injEq, Nat.cast_inj]

theorem ofInt_eq_int {value : Int} (h : value.natAbs < 2 ^ 53) : ofInt value = .int value := by
  have hlog : value.natAbs.log2 < 53 := by
    by_cases hzero : value.natAbs = 0
    · rw [hzero]
      decide
    · exact (Nat.log2_lt hzero).2 h
  have hround : roundTo 53 value.natAbs = value.natAbs := roundTo_eq_self_iff.2 (exact_of_log2_lt hlog)
  rw [ofInt, hround, if_neg (by omega), Int.sign_mul_natAbs]

theorem ofInt_truthy (n : Nat) : (ofInt n).truthy = decide (n ≠ 0) := by
  have hle := le_two_mul_roundTo (show 0 < 53 by decide) n
  rw [ofInt_natCast]
  by_cases hzero : n = 0
  · subst hzero
    rfl
  · have hround : roundTo 53 n ≠ 0 := by omega
    split <;> simp [truthy, hzero, hround]

end Number

end Data
