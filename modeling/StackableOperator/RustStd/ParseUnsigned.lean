import Mathlib

/-!
# Unsigned integers in texts

`parseUnsigned size` reads the decimal text of a number below `size`, with an optional plus sign,
and checks every digit, product and sum. `IsDecimal` is the decimal notation without a sign, with
any number of leading zeros; `parseUnsigned_eq_ok_iff` says that texts without a sign are read
exactly if they are in this notation and their number is small enough.
-/

namespace StackableOperator

/-- Errors of integers in texts. -/
inductive IntErrorKind : Type
  | empty
  | invalidDigit
  | posOverflow
  deriving DecidableEq, Repr

/-- The next digit, with checks of the digit, of the product and of the sum, in this order. -/
def parseUnsignedStep (size result : ℕ) (c : Char) : Except IntErrorKind ℕ :=
  if !c.isDigit then .error .invalidDigit
  else if size ≤ result * 10 then .error .posOverflow
  else if size ≤ result * 10 + (c.toNat - '0'.toNat) then .error .posOverflow
  else .ok (result * 10 + (c.toNat - '0'.toNat))

/-- `str::parse` for the unsigned integers below `size` -/
def parseUnsigned (size : ℕ) (src : List Char) : Except IntErrorKind ℕ :=
  match src with
  | [] => .error .empty
  | ['+'] => .error .invalidDigit
  | ['-'] => .error .invalidDigit
  | '+' :: digits => digits.foldlM (parseUnsignedStep size) 0
  | digits => digits.foldlM (parseUnsignedStep size) 0

/-! ### Decimal notation -/

/-- The text consists of decimal digits, and these denote the number. -/
structure IsDecimal (text : List Char) (n : ℕ) : Prop where
  ne_nil : text ≠ []
  isDigit : ∀ c ∈ text, c.isDigit = true
  value : Nat.ofDigitChars 10 text 0 = n

theorem IsDecimal.eq {text : List Char} {m n : ℕ} (hm : IsDecimal text m)
    (hn : IsDecimal text n) : m = n :=
  hm.value.symm.trans hn.value

theorem isDecimal_toString (n : ℕ) : IsDecimal (toString n).toList n := by
  rw [Nat.toString_eq_repr, Nat.toList_repr]
  exact ⟨Nat.toDigits_ne_nil, fun c hc => Nat.isDigit_of_mem_toDigits (by decide) (by decide) hc,
    Nat.ofDigitChars_ten_toDigits⟩

theorem IsDecimal.head?_ne {text : List Char} {n : ℕ} (h : IsDecimal text n) :
    text.head? ≠ some '+' := by
  intro hhead
  exact absurd (h.isDigit '+' (List.mem_of_mem_head? hhead)) (by decide)

/-- What comes before the first item outside of a class. -/
theorem takeWhile_append_of_head? {α : Type*} {p : α → Bool} {s t : List α}
    (hs : ∀ a ∈ s, p a = true) (ht : ∀ a ∈ t.head?, p a = false) :
    (s ++ t).takeWhile p = s := by
  rw [List.takeWhile_append_of_pos hs]
  match t with
  | [] => simp
  | a :: t => rw [List.takeWhile_cons_of_neg (by simp [ht a rfl]), List.append_nil]

theorem IsDecimal.takeWhile_append {digits rest : List Char} {n : ℕ} (h : IsDecimal digits n)
    (hrest : ∀ c ∈ rest.head?, c.isDigit = false) :
    (digits ++ rest).takeWhile Char.isDigit = digits :=
  takeWhile_append_of_head? h.isDigit hrest

/-! ### Reading -/

theorem le_ofDigitChars (ds : List Char) (i : ℕ) : i ≤ Nat.ofDigitChars 10 ds i := by
  induction ds generalizing i with
  | nil => rfl
  | cons d ds ih =>
    rw [Nat.ofDigitChars_cons]
    have hle := ih (10 * i + (d.toNat - '0'.toNat))
    omega

variable {size : ℕ}

theorem parseUnsignedStep_eq_ok_iff {i n : ℕ} {d : Char} :
    parseUnsignedStep size i d = .ok n ↔
      d.isDigit = true ∧ i * 10 + (d.toNat - '0'.toNat) = n ∧ n < size := by
  unfold parseUnsignedStep
  constructor
  · intro h
    split_ifs at h with hdigit hproduct hsum
    obtain rfl := Except.ok.inj h
    exact ⟨by simpa using hdigit, rfl, by omega⟩
  · rintro ⟨hdigit, rfl, hfits⟩
    rw [if_neg (by simp [hdigit]), if_neg (by omega), if_neg (by omega)]

/-- Reading goes on iff there are digits only and the number fits. -/
theorem foldlM_parseUnsignedStep_eq_ok_iff {ds : List Char} {i n : ℕ} (hi : i < size) :
    ds.foldlM (parseUnsignedStep size) i = .ok n ↔
      (∀ d ∈ ds, d.isDigit = true) ∧ Nat.ofDigitChars 10 ds i = n ∧ n < size := by
  induction ds generalizing i with
  | nil =>
    have hnil : List.foldlM (parseUnsignedStep size) i [] = .ok i := rfl
    rw [hnil, Except.ok.injEq]
    constructor
    · rintro rfl
      exact ⟨by simp, rfl, hi⟩
    · rintro ⟨-, hvalue, -⟩
      exact hvalue
  | cons d ds ih =>
    rw [List.foldlM_cons, List.forall_mem_cons, Nat.ofDigitChars_cons, mul_comm]
    match hstep : parseUnsignedStep size i d with
    | .ok next =>
      obtain ⟨hdigit, hnext, hfits⟩ := parseUnsignedStep_eq_ok_iff.mp hstep
      rw [hnext]
      refine (ih hfits).trans ⟨?_, ?_⟩
      · rintro ⟨hdigits, hvalue, hn⟩
        exact ⟨⟨hdigit, hdigits⟩, hvalue, hn⟩
      · rintro ⟨⟨-, hdigits⟩, hvalue, hn⟩
        exact ⟨hdigits, hvalue, hn⟩
    | .error e =>
      refine iff_of_false (by simp [bind, Except.bind]) ?_
      rintro ⟨⟨hdigit, -⟩, hvalue, hn⟩
      -- the number would fit already before the rest is read
      have hle := le_ofDigitChars ds (i * 10 + (d.toNat - '0'.toNat))
      have hok : parseUnsignedStep size i d = .ok (i * 10 + (d.toNat - '0'.toNat)) :=
        parseUnsignedStep_eq_ok_iff.mpr ⟨hdigit, rfl, by omega⟩
      rw [hok] at hstep
      exact absurd hstep (by simp)

/-- **Texts without a sign** are read iff they are in decimal notation and the number fits. -/
theorem parseUnsigned_eq_ok_iff {src : List Char} {n : ℕ} (hsign : src.head? ≠ some '+') :
    parseUnsigned size src = .ok n ↔ IsDecimal src n ∧ n < size := by
  match src with
  | [] =>
    have hempty : parseUnsigned size [] = .error .empty := rfl
    rw [hempty]
    exact iff_of_false (by simp) fun h => h.1.ne_nil rfl
  | d :: ds =>
    have hplus : d ≠ '+' := by
      rintro rfl
      exact hsign rfl
    have hparse : parseUnsigned size (d :: ds) = .ok n ↔
        (d :: ds).foldlM (parseUnsignedStep size) 0 = .ok n := by
      unfold parseUnsigned
      split
      · next h => exact absurd h (by simp)
      · next h => exact absurd (List.cons.inj h).1 hplus
      · next h =>
        -- a single minus sign is no digit either
        rw [h]
        have hminus : parseUnsignedStep size 0 '-' = .error .invalidDigit := rfl
        rw [List.foldlM_cons, hminus]
        exact iff_of_false (by simp) (by simp [bind, Except.bind])
      · next h => exact absurd (List.cons.inj h).1 hplus
      · rfl
    rw [hparse]
    by_cases hpos : 0 < size
    · rw [foldlM_parseUnsignedStep_eq_ok_iff hpos]
      constructor
      · rintro ⟨hdigits, hvalue, hn⟩
        exact ⟨⟨List.cons_ne_nil d ds, hdigits, hvalue⟩, hn⟩
      · rintro ⟨h, hn⟩
        exact ⟨h.isDigit, h.value, hn⟩
    · refine iff_of_false (fun h => ?_) (fun h => by omega)
      rw [List.foldlM_cons] at h
      match hstep : parseUnsignedStep size 0 d with
      | .ok next =>
        obtain ⟨-, -, hfits⟩ := parseUnsignedStep_eq_ok_iff.mp hstep
        omega
      | .error e =>
        rw [hstep] at h
        exact absurd h (by simp [bind, Except.bind])

/-- The decimal text of a number is read as this number. -/
theorem parseUnsigned_toString {n : ℕ} (hfits : n < size) :
    parseUnsigned size (toString n).toList = .ok n :=
  (parseUnsigned_eq_ok_iff (isDecimal_toString n).head?_ne).mpr ⟨isDecimal_toString n, hfits⟩

end StackableOperator
