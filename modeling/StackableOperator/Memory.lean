import Mathlib
import StackableOperator.ForMathlib.Traverse

/-!
# Memory quantities for Java

`MemoryQuantity.formatForJava` rounds a quantity down to a whole number of kibi-, mebi- or
gibibytes. It scales the unit down until the number is not zero and the rounding loss is tolerable.
Scaling keeps the bytes (`bytes_scaleTo`), so that only the last step loses some of them:
`formatForJava_bytes` has the bounds. Values are rational numbers, without rounding errors.
-/

namespace StackableOperator

/-! ### The model of the source -/

inductive BinaryMultiple : Type
  | kibi
  | mebi
  | gibi
  | tebi
  | pebi
  | exbi
  deriving DecidableEq

namespace BinaryMultiple

def toJavaMemoryUnit : BinaryMultiple → String
  | kibi => "k"
  | mebi => "m"
  | gibi => "g"
  | tebi => "t"
  | pebi => "p"
  | exbi => "e"

/-- The exponential scale factor used when converting a multiple to another one. -/
def exponentialScaleFactor : BinaryMultiple → ℕ
  | kibi => 1
  | mebi => 2
  | gibi => 3
  | tebi => 4
  | pebi => 5
  | exbi => 6

def getSmallest : BinaryMultiple := kibi

end BinaryMultiple

inductive MemoryError : Type
  | cannotScaleDownMemoryUnit
  deriving DecidableEq

/-- A memory limit. -/
structure MemoryQuantity where
  value : ℚ
  unit : BinaryMultiple
  deriving DecidableEq

/-- The integral part, rounded towards zero. -/
def trunc (x : ℚ) : ℤ := if 0 ≤ x then ⌊x⌋ else ⌈x⌉

/-- The fractional part. -/
def fract (x : ℚ) : ℚ := x - trunc x

namespace MemoryQuantity

def fromMebi (mebi : ℚ) : MemoryQuantity := ⟨mebi, .mebi⟩

/-- Scale up or down to a unit. -/
def scaleTo (self : MemoryQuantity) (binaryMultiple : BinaryMultiple) : MemoryQuantity :=
  let fromExponent : ℤ := self.unit.exponentialScaleFactor
  let toExponent : ℤ := binaryMultiple.exponentialScaleFactor
  ⟨self.value * 1024 ^ (fromExponent - toExponent), binaryMultiple⟩

/-- Quantities are compared in their smallest unit. -/
def lt (self other : MemoryQuantity) : Bool :=
  (self.scaleTo .getSmallest).value < (other.scaleTo .getSmallest).value

def scaleToAtMostGb (self : MemoryQuantity) : MemoryQuantity :=
  match self.unit with
  | .kibi | .mebi | .gibi => self
  | .tebi | .pebi | .exbi => self.scaleTo .gibi

/-- Scale down the unit by one order of magnitude. -/
def scaleDownUnit (self : MemoryQuantity) : Except MemoryError MemoryQuantity :=
  match self.unit with
  | .kibi => .error .cannotScaleDownMemoryUnit
  | .mebi => .ok (self.scaleTo .kibi)
  | .gibi => .ok (self.scaleTo .mebi)
  | .tebi => .ok (self.scaleTo .gibi)
  | .pebi => .ok (self.scaleTo .tebi)
  | .exbi => .ok (self.scaleTo .pebi)

def floor (self : MemoryQuantity) : MemoryQuantity := ⟨⌊self.value⌋, self.unit⟩

/-- The bytes that a quantity stands for. -/
def bytes (self : MemoryQuantity) : ℚ := self.value * 1024 ^ self.unit.exponentialScaleFactor

/-! ### Scaling -/

/-- **Scaling keeps the bytes.** -/
theorem bytes_scaleTo (self : MemoryQuantity) (unit : BinaryMultiple) :
    (self.scaleTo unit).bytes = self.bytes := by
  have hne : (1024 : ℚ) ≠ 0 := by norm_num
  rw [bytes, scaleTo, bytes, mul_assoc, ← zpow_natCast, ← zpow_add₀ hne, sub_add_cancel,
    zpow_natCast]

theorem value_scaleTo_getSmallest (self : MemoryQuantity) :
    (self.scaleTo .getSmallest).value = self.bytes / 1024 := by
  have hbytes := self.bytes_scaleTo .getSmallest
  rw [bytes] at hbytes
  have hpow : (1024 : ℚ) ^ BinaryMultiple.getSmallest.exponentialScaleFactor = 1024 := by
    norm_num [BinaryMultiple.getSmallest, BinaryMultiple.exponentialScaleFactor]
  have hunit : (self.scaleTo .getSmallest).unit = .getSmallest := rfl
  rw [hunit, hpow] at hbytes
  rw [← hbytes, mul_div_cancel_right₀ _ (by norm_num)]

/-- Quantities are compared by their bytes. -/
theorem lt_iff {self other : MemoryQuantity} : self.lt other = true ↔ self.bytes < other.bytes := by
  rw [lt, decide_eq_true_eq, value_scaleTo_getSmallest, value_scaleTo_getSmallest,
    div_lt_div_iff_of_pos_right (by norm_num)]

theorem bytes_scaleToAtMostGb (self : MemoryQuantity) :
    self.scaleToAtMostGb.bytes = self.bytes := by
  unfold scaleToAtMostGb
  split
  all_goals first | rfl | exact self.bytes_scaleTo .gibi

theorem unit_scaleToAtMostGb (self : MemoryQuantity) :
    self.scaleToAtMostGb.unit.exponentialScaleFactor ≤ 3 := by
  unfold scaleToAtMostGb
  split
  · rename_i hunit
    rw [hunit]
    decide
  · rename_i hunit
    rw [hunit]
    decide
  · rename_i hunit
    rw [hunit]
    decide
  all_goals exact le_rfl

/-- Scaling down fails at the smallest unit; otherwise the unit is the next one. -/
theorem scaleDownUnit_cases (self : MemoryQuantity) :
    (self.unit = .kibi ∧ self.scaleDownUnit = .error .cannotScaleDownMemoryUnit) ∨
      ∃ scaled, self.scaleDownUnit = .ok scaled ∧ scaled.bytes = self.bytes ∧
        scaled.unit.exponentialScaleFactor + 1 = self.unit.exponentialScaleFactor := by
  obtain ⟨value, unit⟩ := self
  match unit with
  | .kibi => exact .inl ⟨rfl, rfl⟩
  | .mebi => exact .inr ⟨_, rfl, bytes_scaleTo _ _, rfl⟩
  | .gibi => exact .inr ⟨_, rfl, bytes_scaleTo _ _, rfl⟩
  | .tebi => exact .inr ⟨_, rfl, bytes_scaleTo _ _, rfl⟩
  | .pebi => exact .inr ⟨_, rfl, bytes_scaleTo _ _, rfl⟩
  | .exbi => exact .inr ⟨_, rfl, bytes_scaleTo _ _, rfl⟩

theorem lt_of_scaleDownUnit {self scaled : MemoryQuantity} (h : self.scaleDownUnit = .ok scaled) :
    scaled.unit.exponentialScaleFactor < self.unit.exponentialScaleFactor := by
  obtain ⟨-, herror⟩ | ⟨scaled', hscaled, -, hunit⟩ := self.scaleDownUnit_cases
  · rw [herror] at h
    cases h
  · obtain rfl := Except.ok.inj (hscaled.symm.trans h)
    omega

/-- Convert the quantity to a smaller unit until it is at least one. -/
def ensureNoZero (self : MemoryQuantity) : Except MemoryError MemoryQuantity :=
  if self.value < 1 then
    match _h : self.scaleDownUnit with
    | .error e => .error e
    | .ok scaled => scaled.ensureNoZero
  else .ok self
termination_by self.unit.exponentialScaleFactor
decreasing_by exact lt_of_scaleDownUnit _h

/-- Convert the quantity to a smaller unit until its fractional part is tolerable, and drop it. -/
def ensureInteger (self toleratedRoundingLoss : MemoryQuantity) :
    Except MemoryError MemoryQuantity :=
  let fractionMemory : MemoryQuantity := ⟨fract self.value, self.unit⟩
  if fractionMemory.lt toleratedRoundingLoss then .ok self.floor
  else
    match _h : self.scaleDownUnit with
    | .error e => .error e
    | .ok scaled => scaled.ensureInteger toleratedRoundingLoss
termination_by self.unit.exponentialScaleFactor
decreasing_by exact lt_of_scaleDownUnit _h

/-- A value like `1355m` or `2g`. -/
def formatForJava (self : MemoryQuantity) : Except MemoryError String := do
  let m ← self.scaleToAtMostGb.ensureNoZero
  let m ← m.ensureInteger (fromMebi 20)
  return toString m.value ++ m.unit.toJavaMemoryUnit

/-! ### The loops -/

/-- **A quantity of at least one kibibyte is at least one of some unit**, and only such a
quantity is. -/
theorem ensureNoZero_cases (self : MemoryQuantity) :
    (1024 ≤ self.bytes ∧ ∃ r, self.ensureNoZero = .ok r ∧ r.bytes = self.bytes ∧ 1 ≤ r.value ∧
        r.unit.exponentialScaleFactor ≤ self.unit.exponentialScaleFactor) ∨
      (self.bytes < 1024 ∧ self.ensureNoZero = .error .cannotScaleDownMemoryUnit) := by
  induction hn : self.unit.exponentialScaleFactor using Nat.strong_induction_on
    generalizing self with
  | _ n ih =>
    subst hn
    unfold ensureNoZero
    by_cases hlt : self.value < 1
    · rw [if_pos hlt]
      -- less than one of its unit: there is a smaller unit, or it is too small
      obtain ⟨hunit, herror⟩ | ⟨scaled, hscaled, hbytes, hfactor⟩ := self.scaleDownUnit_cases
      · refine .inr ⟨?_, ?_⟩
        · rw [bytes, hunit, BinaryMultiple.exponentialScaleFactor]
          linarith
        · split
          · rfl
          · rename_i scaled hscaled
            rw [herror] at hscaled
            cases hscaled
      · have hloop := ih _ (by omega) scaled rfl
        split
        · rename_i e he
          rw [hscaled] at he
          cases he
        · rename_i scaled' hscaled'
          obtain rfl := Except.ok.inj (hscaled.symm.trans hscaled')
          rw [← hbytes]
          obtain ⟨hle, r, hr, hrbytes, hvalue, hrunit⟩ | hsmall := hloop
          · exact .inl ⟨hle, r, hr, hrbytes, hvalue, by omega⟩
          · exact .inr hsmall
    · rw [if_neg hlt]
      refine .inl ⟨?_, self, rfl, rfl, not_lt.mp hlt, le_rfl⟩
      -- at least one of a unit is at least one kibibyte
      have hone : (1 : ℚ) ≤ self.value := not_lt.mp hlt
      have hpow : (1024 : ℚ) ≤ 1024 ^ self.unit.exponentialScaleFactor := by
        refine le_self_pow₀ (by norm_num) ?_
        cases self.unit <;> decide
      calc (1024 : ℚ) ≤ 1024 ^ self.unit.exponentialScaleFactor := hpow
        _ = 1 * 1024 ^ self.unit.exponentialScaleFactor := (one_mul _).symm
        _ ≤ self.bytes := by
          rw [bytes]
          gcongr

theorem fract_of_nonneg {x : ℚ} (h : 0 ≤ x) : fract x = x - ⌊x⌋ := by
  rw [fract, trunc, if_pos h]

/-- **Rounding down loses less than the tolerated bytes**, if they are at least a kibibyte. -/
theorem exists_ensureInteger {self tolerated : MemoryQuantity} (hvalue : 1 ≤ self.value)
    (htolerated : 1024 ≤ tolerated.bytes) :
    ∃ (n : ℕ) (unit : BinaryMultiple), self.ensureInteger tolerated = .ok ⟨n, unit⟩ ∧ 0 < n ∧
      unit.exponentialScaleFactor ≤ self.unit.exponentialScaleFactor ∧
      bytes ⟨n, unit⟩ ≤ self.bytes ∧ self.bytes - bytes ⟨n, unit⟩ < tolerated.bytes := by
  induction hn : self.unit.exponentialScaleFactor using Nat.strong_induction_on
    generalizing self with
  | _ n ih =>
    subst hn
    have hpos : (0 : ℚ) < 1024 ^ self.unit.exponentialScaleFactor := by positivity
    have hfract : bytes ⟨fract self.value, self.unit⟩ = self.bytes - self.floor.bytes := by
      rw [bytes, bytes, bytes, floor, fract_of_nonneg (by linarith), sub_mul]
    unfold ensureInteger
    by_cases hlt : bytes ⟨fract self.value, self.unit⟩ < tolerated.bytes
    · have hfloor : (⌊self.value⌋.toNat : ℤ) = ⌊self.value⌋ :=
        Int.toNat_of_nonneg (Int.floor_nonneg.mpr (by linarith))
      have hone : (1 : ℤ) ≤ ⌊self.value⌋ := Int.le_floor.mpr (by exact_mod_cast hvalue)
      have hself : self.floor = ⟨(⌊self.value⌋.toNat : ℕ), self.unit⟩ := by
        rw [floor, ← hfloor]
        rfl
      refine ⟨⌊self.value⌋.toNat, self.unit, ?_, by omega, le_rfl, ?_, ?_⟩
      · rw [if_pos (lt_iff.mpr hlt), hself]
      · rw [← hself, bytes, floor, bytes]
        gcongr
        exact Int.floor_le _
      · rw [← hself, ← hfract]
        exact hlt
    · rw [if_neg (mt lt_iff.mp hlt)]
      obtain ⟨hunit, -⟩ | ⟨scaled, hscaled, hbytes, hfactor⟩ := self.scaleDownUnit_cases
      · -- a fraction of a kibibyte is always tolerated
        refine absurd ?_ hlt
        have hfractlt : fract self.value < 1 := by
          rw [fract_of_nonneg (by linarith)]
          linarith [Int.lt_floor_add_one self.value]
        rw [bytes, hunit, BinaryMultiple.exponentialScaleFactor]
        linarith
      · have hscaledValue : 1 ≤ scaled.value := by
          have hpow : (1024 : ℚ) ^ self.unit.exponentialScaleFactor =
              1024 ^ scaled.unit.exponentialScaleFactor * 1024 := by
            rw [← hfactor, pow_succ]
          have hscaledPos : (0 : ℚ) < 1024 ^ scaled.unit.exponentialScaleFactor := by positivity
          have heq : scaled.value = self.value * 1024 := by
            rw [bytes, bytes, hpow, ← mul_assoc, mul_right_comm] at hbytes
            exact mul_right_cancel₀ hscaledPos.ne' hbytes
          linarith
        obtain ⟨n, unit, hok, hnpos, hunit, hle, hloss⟩ := ih _ (by omega) hscaledValue rfl
        rw [hbytes] at hle hloss
        refine ⟨n, unit, ?_, hnpos, by omega, hle, hloss⟩
        split
        · rename_i e he
          rw [hscaled] at he
          cases he
        · rename_i scaled' hscaled'
          obtain rfl := Except.ok.inj (hscaled.symm.trans hscaled')
          exact hok

/-! ### Java settings -/

theorem toString_natCast (n : ℕ) : toString (n : ℚ) = toString n := by
  have hden : (n : ℚ).den = 1 := Rat.den_natCast n
  have hnum : (n : ℚ).num = n := Rat.num_natCast n
  have hstring : toString (n : ℚ) = toString (n : ℚ).num := if_pos hden
  rw [hstring, hnum]
  rfl

/-- **Formatting for Java** terminates for every quantity, and succeeds iff it is at least a
kibibyte; the result is a positive number of kibi-, mebi- or gibibytes that is at most the quantity
and less than 20 mebibytes below it. -/
theorem formatForJava_bytes (self : MemoryQuantity) :
    ((∃ text, self.formatForJava = .ok text) ↔ 1024 ≤ self.bytes) ∧
      ∀ text, self.formatForJava = .ok text → ∃ (n : ℕ) (unit : BinaryMultiple),
        text = toString n ++ unit.toJavaMemoryUnit ∧ unit.toJavaMemoryUnit ∈ ["k", "m", "g"] ∧
        0 < n ∧ bytes ⟨n, unit⟩ ≤ self.bytes ∧ self.bytes - bytes ⟨n, unit⟩ < 20 * 1024 ^ 2 := by
  obtain ⟨hle, r, hr, hrbytes, hvalue, hrunit⟩ | ⟨hlt, herror⟩ :=
    self.scaleToAtMostGb.ensureNoZero_cases
  · have hmebi : (fromMebi 20).bytes = 20 * 1024 ^ 2 := rfl
    -- the tolerated loss of 20 mebibytes is more than the smallest unit
    have htolerated : 1024 ≤ (fromMebi 20).bytes := by
      rw [hmebi]
      norm_num
    obtain ⟨n, unit, hok, hpos, hunit, hnle, hloss⟩ :=
      exists_ensureInteger hvalue htolerated
    rw [bytes_scaleToAtMostGb] at hle hrbytes
    rw [hrbytes] at hnle hloss
    have hformat : self.formatForJava = .ok (toString n ++ unit.toJavaMemoryUnit) := by
      rw [formatForJava, bind_eq_ok]
      refine ⟨r, hr, bind_eq_ok.mpr ⟨_, hok, ?_⟩⟩
      rw [← toString_natCast]
      rfl
    refine ⟨⟨fun _ => hle, fun _ => ⟨_, hformat⟩⟩, fun text htext => ?_⟩
    refine ⟨n, unit, Except.ok.inj (htext.symm.trans hformat), ?_, hpos, hnle, hloss⟩
    -- no unit above gibibytes is left
    have hgb := self.unit_scaleToAtMostGb
    have hthree : unit.exponentialScaleFactor ≤ 3 := by omega
    revert hthree
    cases unit <;> decide
  · rw [bytes_scaleToAtMostGb] at hlt
    have hformat : self.formatForJava = .error .cannotScaleDownMemoryUnit := by
      rw [formatForJava, herror]
      rfl
    refine ⟨⟨?_, fun hle => absurd hlt hle.not_gt⟩, ?_⟩
    · rintro ⟨text, htext⟩
      rw [hformat] at htext
      cases htext
    · intro text htext
      rw [hformat] at htext
      cases htext

end MemoryQuantity

end StackableOperator
