import Mathlib
import StackableOperator.ForMathlib.CodeUnits

/-!
# Numbers at the beginning of a text

`readNumber` reads the digits at the beginning of a text, up to a maximal number of digits.
`readDigits_eq_some_iff` says what it reads. Numbers that are written without leading zeros are read
back, and without leading zeros there is only one way to write them (`toDigits_digitsValue`).
-/

namespace StackableOperator

/-- `char::to_digit` for a radix of at most 16 -/
def toDigit (radix : ℕ) (c : Char) : Option ℕ := (hexDigit c).filter (· < radix)

/-- Read digits after some that were read before: the number, how many there are, and the rest. -/
def readDigits (radix maxDigits : ℕ) (result count : ℕ) : List Char → Option (ℕ × ℕ × List Char)
  | [] => some (result, count, [])
  | c :: rest =>
    match toDigit radix c with
    | none => some (result, count, c :: rest)
    | some digit =>
      if maxDigits < count + 1 then none
      else readDigits radix maxDigits (result * radix + digit) (count + 1) rest

/-- Read a number below a bound. -/
def readNumber (radix maxDigits : ℕ) (allowZeroPrefix : Bool) (bound : ℕ) (s : List Char) :
    Option (ℕ × List Char) := do
  let (result, count, rest) ← readDigits radix maxDigits 0 0 s
  if count = 0 then none
  else if !allowZeroPrefix && s.head? == some '0' && 1 < count then none
  else if result < bound then some (result, rest)
  else none

/-- The number of some digits after a number that was read before. -/
def digitsValue (radix result : ℕ) (digits : List Char) : ℕ :=
  digits.foldl (fun n c => n * radix + (toDigit radix c).getD 0) result

/-- The text goes on with something else than a digit. -/
def EndsDigits (radix : ℕ) (rest : List Char) : Prop := ∀ c ∈ rest.head?, toDigit radix c = none

section

variable {radix maxDigits : ℕ}

/-- What is read: all the digits, if they are not too many. -/
theorem readDigits_eq_some_iff {result count n k : ℕ} {s rest : List Char} :
    readDigits radix maxDigits result count s = some (n, k, rest) ↔
      ∃ digits, s = digits ++ rest ∧ (∀ c ∈ digits, (toDigit radix c).isSome) ∧
        EndsDigits radix rest ∧ n = digitsValue radix result digits ∧ k = count + digits.length ∧
        (digits = [] ∨ k ≤ maxDigits) := by
  induction s generalizing result count with
  | nil =>
    rw [readDigits]
    constructor
    · intro h
      obtain ⟨rfl, rfl, rfl⟩ : result = n ∧ count = k ∧ [] = rest := by simpa using h
      exact ⟨[], rfl, by simp, by simp [EndsDigits], rfl, rfl, .inl rfl⟩
    · rintro ⟨digits, hs, -, -, rfl, rfl, -⟩
      obtain ⟨rfl, rfl⟩ := List.append_eq_nil_iff.mp hs.symm
      rfl
  | cons c s ih =>
    rw [readDigits]
    cases hc : toDigit radix c with
    -- the first character is no digit: the empty group is read
    | none =>
      constructor
      · intro h
        obtain ⟨rfl, rfl, rfl⟩ : result = n ∧ count = k ∧ c :: s = rest := by simpa using h
        exact ⟨[], rfl, by simp, by simp [EndsDigits, hc], rfl, rfl, .inl rfl⟩
      · rintro ⟨digits, hs, hdigits, -, rfl, rfl, -⟩
        cases digits with
        | nil =>
          rw [List.nil_append] at hs
          rw [hs]
          rfl
        | cons d digits =>
          obtain ⟨rfl, -⟩ := List.cons.inj hs
          have hsome := hdigits c List.mem_cons_self
          simp [hc] at hsome
    -- a digit: the group goes on with the rest
    | some digit =>
      dsimp only
      constructor
      · intro h
        split_ifs at h with hmax
        obtain ⟨digits, rfl, hdigits, hrest, rfl, rfl, hle⟩ := ih.mp h
        refine ⟨c :: digits, rfl, List.forall_mem_cons.mpr ⟨by simp [hc], hdigits⟩, hrest, ?_, ?_,
          .inr ?_⟩
        · simp [digitsValue, hc]
        · simp [Nat.add_comm, Nat.add_left_comm]
        · rcases hle with rfl | hle
          · simpa using hmax
          · exact hle
      · rintro ⟨digits, hs, hdigits, hrest, rfl, rfl, hle⟩
        cases digits with
        | nil =>
          rw [List.nil_append] at hs
          have hnone := hrest c (by simp [← hs])
          rw [hc] at hnone
          cases hnone
        | cons d digits =>
          obtain ⟨rfl, rfl⟩ := List.cons.inj hs
          have hle := hle.resolve_left (List.cons_ne_nil _ _)
          rw [List.length_cons] at hle
          rw [if_neg (by omega)]
          refine ih.mpr ⟨digits, rfl, (List.forall_mem_cons.mp hdigits).2, hrest, ?_, ?_, .inr ?_⟩
          · simp [digitsValue, hc]
          · simp [Nat.add_comm, Nat.add_left_comm]
          · simpa using hle

theorem readNumber_eq_some {allowZeroPrefix : Bool} {bound n : ℕ} {s rest : List Char}
    (h : readNumber radix maxDigits allowZeroPrefix bound s = some (n, rest)) :
    ∃ digits, s = digits ++ rest ∧ digits ≠ [] ∧ (∀ c ∈ digits, (toDigit radix c).isSome) ∧
      EndsDigits radix rest ∧ n = digitsValue radix 0 digits ∧ n < bound ∧
      (allowZeroPrefix = false → digits.head? = some '0' → digits.length = 1) := by
  rw [readNumber, Option.bind_eq_bind, Option.bind_eq_some_iff] at h
  obtain ⟨⟨n', k, rest'⟩, hread, h⟩ := h
  obtain ⟨digits, rfl, hdigits, hrest, rfl, rfl, -⟩ := readDigits_eq_some_iff.mp hread
  dsimp only at h
  rw [Nat.zero_add] at h
  split_ifs at h with hempty hzero hbound
  obtain ⟨rfl, rfl⟩ := Prod.mk.inj (Option.some.inj h)
  have hne : digits ≠ [] := fun hnil => hempty (by rw [hnil]; rfl)
  refine ⟨digits, rfl, hne, hdigits, hrest, rfl, hbound, fun hallow hhead => ?_⟩
  have hpos := List.length_pos_of_ne_nil hne
  rw [List.head?_append_of_ne_nil _ hne] at hzero
  simp [hallow, hhead] at hzero
  omega

theorem readNumber_append {allowZeroPrefix : Bool} {bound : ℕ} {digits rest : List Char}
    (hne : digits ≠ []) (hdigits : ∀ c ∈ digits, (toDigit radix c).isSome)
    (hrest : EndsDigits radix rest) (hlength : digits.length ≤ maxDigits)
    (hzero : allowZeroPrefix = true ∨ digits.head? ≠ some '0' ∨ digits.length = 1)
    (hbound : digitsValue radix 0 digits < bound) :
    readNumber radix maxDigits allowZeroPrefix bound (digits ++ rest) =
      some (digitsValue radix 0 digits, rest) := by
  have hread : readDigits radix maxDigits 0 0 (digits ++ rest) =
      some (digitsValue radix 0 digits, digits.length, rest) :=
    readDigits_eq_some_iff.mpr
      ⟨digits, rfl, hdigits, hrest, rfl, (Nat.zero_add _).symm, .inr hlength⟩
  have hpos := List.length_pos_of_ne_nil hne
  have hnoZero : (!allowZeroPrefix && (digits ++ rest).head? == some '0' &&
      decide (1 < digits.length)) = false := by
    rw [List.head?_append_of_ne_nil _ hne]
    rcases hzero with h | h | h <;> simp [h]
  rw [readNumber, hread, Option.bind_eq_bind, Option.bind_some]
  simp only [hnoZero]
  rw [if_neg (by omega), if_neg Bool.false_ne_true, if_pos hbound]

theorem digitsValue_append (result : ℕ) (s t : List Char) :
    digitsValue radix result (s ++ t) = digitsValue radix (digitsValue radix result s) t :=
  List.foldl_append

/-! ### Numbers without leading zeros -/

theorem toDigit_digitChar (hradix : radix ≤ 16) {d : ℕ} (hd : d < radix) :
    toDigit radix (Nat.digitChar d) = some d := by
  have hdigit : ∀ d < 16, hexDigit (Nat.digitChar d) = some d := by decide
  rw [toDigit, hdigit d (by omega)]
  simp [hd]

/-- The digits of a number are read as the number. -/
theorem toDigits_spec (hradix : radix ≤ 16) (hone : 1 < radix) (n : ℕ) :
    (∀ c ∈ Nat.toDigits radix n, (toDigit radix c).isSome) ∧
      digitsValue radix 0 (Nat.toDigits radix n) = n := by
  induction n using Nat.strong_induction_on with
  | _ n ih =>
    rcases Nat.lt_or_ge n radix with hlt | hge
    · rw [Nat.toDigits_of_lt_base hlt]
      simp [digitsValue, toDigit_digitChar hradix hlt]
    · obtain ⟨hdigits, hvalue⟩ := ih (n / radix) (Nat.div_lt_self (by omega) hone)
      have hlast := toDigit_digitChar hradix (Nat.mod_lt n (by omega : radix > 0))
      rw [Nat.toDigits_of_base_le hone hge, digitsValue_append, hvalue]
      constructor
      · intro c hc
        rcases List.mem_append.mp hc with hc | hc
        · exact hdigits c hc
        · rw [List.mem_singleton.mp hc, hlast]
          rfl
      · simp [digitsValue, hlast, Nat.div_add_mod']

theorem toDigit_zero (hone : 1 < radix) : toDigit radix '0' = some 0 := by
  have hzero : hexDigit '0' = some 0 := by decide
  rw [toDigit, hzero]
  simp
  omega

/-- A positive number does not begin with a zero. -/
theorem head?_toDigits_ne (hradix : radix ≤ 16) (hone : 1 < radix) {n : ℕ} (hn : 0 < n) :
    (Nat.toDigits radix n).head? ≠ some '0' := by
  induction n using Nat.strong_induction_on with
  | _ n ih =>
    rcases Nat.lt_or_ge n radix with hlt | hge
    · rw [Nat.toDigits_of_lt_base hlt, List.head?_cons]
      intro h
      have hdigit := toDigit_digitChar hradix hlt
      rw [Option.some.inj h, toDigit_zero hone] at hdigit
      have := Option.some.inj hdigit
      omega
    · rw [Nat.toDigits_of_base_le hone hge, List.head?_append_of_ne_nil _ Nat.toDigits_ne_nil]
      exact ih (n / radix) (Nat.div_lt_self hn hone) (Nat.div_pos hge (by omega))

/-- A number is read back. -/
theorem readNumber_toDigits {allowZeroPrefix : Bool} {bound n : ℕ} {rest : List Char}
    (hradix : radix ≤ 16) (hone : 1 < radix) (hmax : 0 < maxDigits) (hn : n < radix ^ maxDigits)
    (hbound : n < bound) (hrest : EndsDigits radix rest) :
    readNumber radix maxDigits allowZeroPrefix bound (Nat.toDigits radix n ++ rest) =
      some (n, rest) := by
  obtain ⟨hdigits, hvalue⟩ := toDigits_spec hradix hone n
  have hlength := (Nat.length_toDigits_le_iff hone hmax).mpr hn
  have hzero : (Nat.toDigits radix n).head? ≠ some '0' ∨ (Nat.toDigits radix n).length = 1 := by
    rcases Nat.eq_zero_or_pos n with rfl | hpos
    · exact .inr (by rw [Nat.toDigits_zero]; rfl)
    · exact .inl (head?_toDigits_ne hradix hone hpos)
  have hread : readNumber radix maxDigits allowZeroPrefix bound (Nat.toDigits radix n ++ rest) =
      some (digitsValue radix 0 (Nat.toDigits radix n), rest) :=
    readNumber_append Nat.toDigits_ne_nil hdigits hrest hlength (.inr hzero)
      (hvalue.symm ▸ hbound)
  rwa [hvalue] at hread

theorem digitChar_of_toDigit_ten {c : Char} {d : ℕ} (h : toDigit 10 c = some d) :
    d < 10 ∧ c = Nat.digitChar d := by
  obtain ⟨hc, hd⟩ := Option.filter_eq_some_iff.mp h
  have hd : d < 10 := of_decide_eq_true hd
  refine ⟨hd, ?_⟩
  have h0 : '0'.toNat = 48 := rfl
  have h9 : '9'.toNat = 57 := rfl
  unfold hexDigit at hc
  split_ifs at hc
  · have hvalue := Option.some.inj hc
    rw [← Char.toNat_inj, Nat.toNat_digitChar_of_lt_ten hd]
    omega
  · have := Option.some.inj hc
    omega
  · have := Option.some.inj hc
    omega

/-- A number without a leading zero can only be written in one way. -/
theorem toDigits_digitsValue_of_head?_ne {digits : List Char} (hne : digits ≠ [])
    (hdigits : ∀ c ∈ digits, (toDigit 10 c).isSome) (hzero : digits.head? ≠ some '0') :
    0 < digitsValue 10 0 digits ∧ Nat.toDigits 10 (digitsValue 10 0 digits) = digits := by
  induction digits using List.reverseRecOn with
  | nil => exact absurd rfl hne
  | append_singleton digits c ih =>
    obtain ⟨hfront, hlast⟩ := List.forall_mem_append.mp hdigits
    obtain ⟨d, hd⟩ := Option.isSome_iff_exists.mp (hlast c (List.mem_singleton_self c))
    obtain ⟨hlt, rfl⟩ := digitChar_of_toDigit_ten hd
    have hvalue : digitsValue 10 0 (digits ++ [Nat.digitChar d]) =
        10 * digitsValue 10 0 digits + d := by
      rw [digitsValue_append, Nat.mul_comm]
      simp [digitsValue, hd]
    rw [hvalue]
    cases digits with
    | nil =>
      have hpos : 0 < d := by
        rcases Nat.eq_zero_or_pos d with rfl | hpos
        · exact absurd rfl hzero
        · exact hpos
      refine ⟨by omega, ?_⟩
      have hnil : digitsValue 10 0 [] = 0 := rfl
      rw [hnil, Nat.mul_zero, Nat.zero_add, Nat.toDigits_of_lt_base hlt]
      rfl
    | cons c' digits =>
      obtain ⟨hpos, hfrontDigits⟩ := ih (List.cons_ne_nil _ _) hfront hzero
      refine ⟨by omega, ?_⟩
      rw [← Nat.toDigits_append_toDigits (by decide) hpos hlt, hfrontDigits,
        Nat.toDigits_of_lt_base hlt]

/-- **A number with no superfluous zero can only be written in one way.** -/
theorem toDigits_digitsValue {digits : List Char} (hne : digits ≠ [])
    (hdigits : ∀ c ∈ digits, (toDigit 10 c).isSome)
    (hzero : digits.head? = some '0' → digits.length = 1) :
    Nat.toDigits 10 (digitsValue 10 0 digits) = digits := by
  by_cases hhead : digits.head? = some '0'
  · obtain ⟨c, rfl⟩ := List.length_eq_one_iff.mp (hzero hhead)
    obtain rfl := Option.some.inj hhead
    decide
  · exact (toDigits_digitsValue_of_head?_ne hne hdigits hhead).2

end

end StackableOperator
