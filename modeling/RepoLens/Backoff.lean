import RepoLens.EvidencePacket
import RepoLens.JobStore

/-!
`CalculateBackoff` of `internal/jobs/retry.go` on 64-bit integers. Durations are in nanoseconds.
-/

namespace RepoLens

open Evidence (wrap wrap_eq)

namespace Backoff

def millisecond : Int := 1000000

def second : Int := 1000 * millisecond

def minute : Int := 60 * second

def shiftOne (count : Nat) : Int := if count < 64 then wrap (2 ^ count) else 0

/-- `rand.Int63n`, which panics for a bound that is not positive. -/
def int63n (draw : Int → Int) (bound : Int) : Option Int :=
  if bound ≤ 0 then none else some (draw bound)

def effectiveAttempt (attempt : Int) : Int := if attempt ≤ 0 then 1 else attempt

def effectiveBase (baseDuration : Int) : Int := if baseDuration ≤ 0 then second else baseDuration

def effectiveMax (maxDuration : Int) : Int := if maxDuration ≤ 0 then minute else maxDuration

def factorOf (count : Nat) : Int :=
  let factor := shiftOne count
  if factor ≤ 0 ∨ factor > 64 then 64 else factor

def backoffOf (attempt baseDuration maxDuration : Int) : Int :=
  let backoff := wrap (effectiveBase baseDuration * factorOf (effectiveAttempt attempt - 1).toNat)
  if backoff > effectiveMax maxDuration then effectiveMax maxDuration else backoff

def jitterBound (backoff : Int) : Int := wrap ((backoff.tdiv millisecond).tdiv 4 + 1)

def calculateBackoff (draw : Int → Int) (attempt baseDuration maxDuration : Int) : Option Int :=
  let backoff := backoffOf attempt baseDuration maxDuration
  (int63n draw (jitterBound backoff)).map fun jitterMs =>
    let total := wrap (backoff + wrap (jitterMs * millisecond))
    if total > effectiveMax maxDuration then effectiveMax maxDuration else total

def lowerBound (attempt baseDuration maxDuration : Int) : Int :=
  min (effectiveMax maxDuration)
    (effectiveBase baseDuration * 2 ^ (min (effectiveAttempt attempt - 1) 6).toNat)

theorem factorOf_eq (count : Nat) : factorOf count = 2 ^ min count 6 := by
  by_cases small : count < 64
  · have each : ∀ count < 64, factorOf count = 2 ^ min count 6 := by decide +kernel
    exact each count small
  · have zero : shiftOne count = 0 := if_neg small
    rw [factorOf, zero, min_eq_right (by omega)]
    rfl

theorem effectiveBase_pos (baseDuration : Int) : 0 < effectiveBase baseDuration := by
  unfold effectiveBase
  split
  · decide
  · omega

theorem effectiveMax_pos (maxDuration : Int) : 0 < effectiveMax maxDuration := by
  unfold effectiveMax
  split
  · decide
  · omega

theorem effectiveAttempt_pos (attempt : Int) : 1 ≤ effectiveAttempt attempt := by
  unfold effectiveAttempt
  split <;> omega

theorem factor_bounds (count : Nat) :
    (1 : Int) ≤ 2 ^ min count 6 ∧ (2 : Int) ^ min count 6 ≤ 64 := by
  constructor
  · exact one_le_pow₀ (by norm_num)
  · exact (pow_le_pow_right₀ (by norm_num) (Nat.min_le_right count 6)).trans (by norm_num)

variable {attempt baseDuration maxDuration : Int}

theorem backoffOf_eq (fits : 80 * effectiveBase baseDuration < 2 ^ 63) :
    backoffOf attempt baseDuration maxDuration = lowerBound attempt baseDuration maxDuration := by
  have base := effectiveBase_pos baseDuration
  have count := effectiveAttempt_pos attempt
  obtain ⟨low, high⟩ := factor_bounds (effectiveAttempt attempt - 1).toNat
  have least : (min (effectiveAttempt attempt - 1) 6).toNat =
      min (effectiveAttempt attempt - 1).toNat 6 := by
    omega
  have product : effectiveBase baseDuration * 2 ^ min (effectiveAttempt attempt - 1).toNat 6 ≤
      effectiveBase baseDuration * 64 := Int.mul_le_mul_of_nonneg_left high base.le
  have positive : 0 < effectiveBase baseDuration * 2 ^ min (effectiveAttempt attempt - 1).toNat 6 :=
    Int.mul_pos base (by omega)
  unfold backoffOf lowerBound
  simp only
  rw [factorOf_eq, least, wrap_eq positive.le (by omega)]
  split
  · exact (min_eq_left (by omega)).symm
  · exact (min_eq_right (by omega)).symm

theorem lowerBound_bounds (attempt baseDuration maxDuration : Int) :
    0 < lowerBound attempt baseDuration maxDuration ∧
      lowerBound attempt baseDuration maxDuration ≤ effectiveMax maxDuration ∧
        lowerBound attempt baseDuration maxDuration ≤ 64 * effectiveBase baseDuration := by
  have base := effectiveBase_pos baseDuration
  obtain ⟨low, high⟩ := factor_bounds (effectiveAttempt attempt - 1).toNat
  have least : (min (effectiveAttempt attempt - 1) 6).toNat =
      min (effectiveAttempt attempt - 1).toNat 6 := by
    omega
  unfold lowerBound
  rw [least]
  refine ⟨lt_min (effectiveMax_pos maxDuration) (Int.mul_pos base (by omega)), min_le_left _ _, ?_⟩
  apply (min_le_right _ _).trans
  rw [mul_comm]
  exact Int.mul_le_mul_of_nonneg_right high base.le

theorem jitterBound_eq {backoff : Int} (positive : 0 < backoff) (fits : backoff < 2 ^ 63) :
    jitterBound backoff = backoff / millisecond / 4 + 1 := by
  unfold jitterBound millisecond
  rw [Int.tdiv_eq_ediv_of_nonneg positive.le, Int.tdiv_eq_ediv_of_nonneg (by omega),
    wrap_eq (by omega) (by omega)]

theorem lowerBound_mono {attempt later : Int} (le : attempt ≤ later) :
    lowerBound attempt baseDuration maxDuration ≤ lowerBound later baseDuration maxDuration := by
  have base := effectiveBase_pos baseDuration
  have attempts : effectiveAttempt attempt ≤ effectiveAttempt later := by
    unfold effectiveAttempt
    split <;> split <;> omega
  apply min_le_min_left
  apply Int.mul_le_mul_of_nonneg_left _ base.le
  apply pow_le_pow_right₀ (by norm_num)
  omega

theorem calculateBackoff_eq {draw : Int → Int}
    (drawn : ∀ bound, 0 < bound → 0 ≤ draw bound ∧ draw bound < bound)
    (fits : 80 * effectiveBase baseDuration < 2 ^ 63) :
    0 < jitterBound (backoffOf attempt baseDuration maxDuration) ∧
      calculateBackoff draw attempt baseDuration maxDuration =
        some (min (effectiveMax maxDuration) (lowerBound attempt baseDuration maxDuration +
          draw (lowerBound attempt baseDuration maxDuration / millisecond / 4 +
            1) * millisecond)) := by
  obtain ⟨positive, below, product⟩ := lowerBound_bounds attempt baseDuration maxDuration
  have bound := jitterBound_eq positive (by omega)
  have asked : 0 < lowerBound attempt baseDuration maxDuration / millisecond / 4 + 1 := by
    rw [millisecond]
    omega
  unfold calculateBackoff int63n
  simp only [backoffOf_eq fits, bound]
  refine ⟨asked, ?_⟩
  obtain ⟨least, most⟩ := drawn _ asked
  simp only [not_le.mpr asked, if_false, Option.map_some]
  generalize draw (lowerBound attempt baseDuration maxDuration / millisecond / 4 + 1) =
    jitterMs at least most ⊢
  generalize lowerBound attempt baseDuration maxDuration = lower at *
  rw [millisecond] at most ⊢
  rw [@wrap_eq (jitterMs * 1000000) (by omega) (by omega), wrap_eq (by omega) (by omega)]
  split
  · rw [min_eq_left (by omega)]
  · rw [min_eq_right (by omega)]

/-- The random source is called with a positive bound, and the delay is between the exponential
bound, which does not fall with the attempts, and the maximum. -/
theorem calculateBackoff_bounds (draw : Int → Int)
    (drawn : ∀ bound, 0 < bound → 0 ≤ draw bound ∧ draw bound < bound)
    (attempt baseDuration maxDuration : Int) (fits : 80 * effectiveBase baseDuration < 2 ^ 63) :
    0 < jitterBound (backoffOf attempt baseDuration maxDuration) ∧
      (∃ delay, calculateBackoff draw attempt baseDuration maxDuration = some delay ∧
        min (effectiveMax maxDuration) (effectiveBase baseDuration *
          2 ^ (min (effectiveAttempt attempt - 1) 6).toNat) ≤ delay ∧
            delay ≤ effectiveMax maxDuration) ∧
      ∀ later ≥ attempt, lowerBound attempt baseDuration maxDuration ≤
        lowerBound later baseDuration maxDuration := by
  obtain ⟨asked, result⟩ := @calculateBackoff_eq attempt baseDuration maxDuration draw drawn fits
  obtain ⟨positive, below, _⟩ := lowerBound_bounds attempt baseDuration maxDuration
  refine ⟨asked, ⟨_, result, ?_, min_le_left _ _⟩, fun later le => lowerBound_mono le⟩
  have least := (drawn (lowerBound attempt baseDuration maxDuration / millisecond / 4 + 1) (by
    rw [millisecond]
    omega)).1
  apply le_min below
  rw [millisecond] at least ⊢
  omega

theorem calculateBackoff_bounds_late :
    ∃ delay, calculateBackoff (fun bound => bound - 1) 1000 second minute = some delay ∧
      min (effectiveMax minute)
        (effectiveBase second * 2 ^ (min (effectiveAttempt 1000 - 1) 6).toNat) ≤ delay ∧
        delay ≤ effectiveMax minute :=
  (calculateBackoff_bounds (fun bound => bound - 1) (fun bound positive => ⟨by omega, by omega⟩)
    1000 second minute
    (by decide)).2.1

theorem lowerBound_milliseconds (attempt : Nat) :
    lowerBound attempt second minute = millisecond * min (1000 * backoffFactor attempt) 60000 := by
  have factor : (2 : Int) ^ (min (effectiveAttempt attempt - 1) 6).toNat =
      backoffFactor attempt := by
    have count : (min (effectiveAttempt attempt - 1) 6).toNat = min (attempt - 1) 6 := by
      unfold effectiveAttempt
      split <;> omega
    rw [count, backoffFactor]
    split
    · rw [min_eq_left (by omega)]
      norm_num
    · rw [min_eq_right (by omega)]
      norm_num
  rw [lowerBound, factor]
  change min (60 * (1000 * 1000000)) (1000 * 1000000 * (backoffFactor attempt : Int)) = 1000000 * _
  omega

theorem calculateBackoff_milliseconds (attempt jitter : Nat) :
    calculateBackoff (fun bound => jitter % bound) attempt second minute =
      some (millisecond * RepoLens.calculateBackoff attempt 1000 60000 jitter) := by
  have drawn : ∀ bound : Int, 0 < bound → 0 ≤ (jitter : Int) % bound ∧
      (jitter : Int) % bound < bound :=
    fun bound positive => ⟨Int.emod_nonneg _ positive.ne', Int.emod_lt_of_pos _ positive⟩
  rw [(@calculateBackoff_eq attempt second minute _ drawn (by decide)).2, lowerBound_milliseconds,
    RepoLens.calculateBackoff]
  have whole (backoff : Nat) : millisecond * (backoff : Int) / millisecond = backoff :=
    Int.mul_ediv_cancel_left _ (by decide)
  generalize min (1000 * backoffFactor attempt) 60000 = backoff
  rw [whole]
  have jittered : (jitter : Int) % ((backoff : Int) / 4 + 1) =
      (jitter % (backoff / 4 + 1) : Nat) := by
    push_cast
    rfl
  rw [jittered]
  generalize jitter % (backoff / 4 + 1) = drawn
  change some (min (60 * (1000 * 1000000)) (1000000 * (backoff : Int) + (drawn : Int) * 1000000)) =
    some (1000000 * _)
  congr 1
  omega

end Backoff

end RepoLens
