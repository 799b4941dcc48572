import Mathlib

/-!
# Regular expressions with character classes

Operators that the regular expressions of programs have beside those of `RegularExpression`:
character classes, `P?`, `P+` and `P{0,n}`. Every operator has a lemma about the words that it
matches.
-/

namespace RegularExpression

variable {α : Type*} {P : RegularExpression α} {w : List α}

/-- A character class. -/
def oneOf : List α → RegularExpression α
  | [] => 0
  | a :: as => char a + oneOf as

/-- `P?` -/
def opt (P : RegularExpression α) : RegularExpression α := 1 + P

/-- `P+` -/
def atLeastOne (P : RegularExpression α) : RegularExpression α := P * star P

/-- `P{0,n}` -/
def upTo (P : RegularExpression α) (n : ℕ) : RegularExpression α := opt P ^ n

theorem mem_matches'_oneOf {as : List α} : w ∈ (oneOf as).matches' ↔ ∃ a ∈ as, w = [a] := by
  induction as with
  | nil =>
    rw [oneOf, matches'_zero]
    simp
  | cons a as ih =>
    rw [oneOf, matches'_add, Language.mem_add, ih]
    simp only [List.mem_cons, exists_eq_or_imp]
    rfl

theorem mem_matches'_opt : w ∈ (opt P).matches' ↔ w = [] ∨ w ∈ P.matches' := by
  rw [opt, matches'_add, Language.mem_add, matches'_epsilon, Language.mem_one]

theorem mem_matches'_atLeastOne : w ∈ (atLeastOne P).matches' ↔
    ∃ words : List (List α), words ≠ [] ∧ w = words.flatten ∧
      ∀ word ∈ words, word ∈ P.matches' := by
  rw [atLeastOne, matches'_mul, matches'_star, Language.mem_mul]
  constructor
  · rintro ⟨v, hv, _, ⟨words, rfl, hwords⟩, rfl⟩
    exact ⟨v :: words, List.cons_ne_nil v words, rfl, List.forall_mem_cons.mpr ⟨hv, hwords⟩⟩
  · rintro ⟨words, hne, rfl, hwords⟩
    obtain ⟨v, words, rfl⟩ := List.exists_cons_of_ne_nil hne
    have hmem := List.forall_mem_cons.mp hwords
    exact ⟨v, hmem.1, words.flatten, ⟨words, rfl, hmem.2⟩, rfl⟩

/-- A word of `P*` is empty or begins with a word of `P`. -/
theorem mem_matches'_star : w ∈ (star P).matches' ↔
    w = [] ∨ ∃ u v, u ∈ P.matches' ∧ v ∈ (star P).matches' ∧ w = u ++ v := by
  rw [matches'_star, ← Language.one_add_self_mul_kstar_eq_kstar, Language.mem_add, Language.mem_one,
    Language.mem_mul, Language.one_add_self_mul_kstar_eq_kstar]
  refine or_congr Iff.rfl ⟨?_, ?_⟩
  · rintro ⟨u, hu, v, hv, rfl⟩
    exact ⟨u, v, hu, hv, rfl⟩
  · rintro ⟨u, v, hu, hv, rfl⟩
    exact ⟨u, hu, v, hv, rfl⟩

/-- A class that is repeated any number of times. -/
theorem mem_matches'_star_oneOf {as : List α} :
    w ∈ (star (oneOf as)).matches' ↔ ∀ a ∈ w, a ∈ as := by
  induction w with
  | nil =>
    rw [mem_matches'_star]
    simp
  | cons b w ih =>
    rw [mem_matches'_star, List.forall_mem_cons, ← ih]
    constructor
    · rintro (h | ⟨u, v, hu, hv, heq⟩)
      · exact absurd h (List.cons_ne_nil b w)
      · obtain ⟨a, ha, rfl⟩ := mem_matches'_oneOf.mp hu
        obtain ⟨rfl, rfl⟩ := List.cons.inj heq
        exact ⟨ha, hv⟩
    · rintro ⟨hb, hw⟩
      exact Or.inr ⟨[b], w, mem_matches'_oneOf.mpr ⟨b, hb, rfl⟩, hw, rfl⟩

theorem mem_matches'_atLeastOne_oneOf {as : List α} :
    w ∈ (atLeastOne (oneOf as)).matches' ↔ w ≠ [] ∧ ∀ a ∈ w, a ∈ as := by
  rw [atLeastOne, matches'_mul, Language.mem_mul]
  constructor
  · rintro ⟨u, hu, v, hv, rfl⟩
    obtain ⟨a, ha, rfl⟩ := mem_matches'_oneOf.mp hu
    refine ⟨List.cons_ne_nil a v, ?_⟩
    rw [List.singleton_append, List.forall_mem_cons]
    exact ⟨ha, mem_matches'_star_oneOf.mp hv⟩
  · rintro ⟨hne, hall⟩
    obtain ⟨b, w, rfl⟩ := List.exists_cons_of_ne_nil hne
    rw [List.forall_mem_cons] at hall
    exact ⟨[b], mem_matches'_oneOf.mpr ⟨b, hall.1, rfl⟩, w, mem_matches'_star_oneOf.mpr hall.2, rfl⟩

theorem append_mem_matches'_atLeastOne {v : List α} (hv : v ∈ (atLeastOne P).matches')
    (hw : w ∈ (atLeastOne P).matches') : v ++ w ∈ (atLeastOne P).matches' := by
  obtain ⟨words, hne, rfl, hwords⟩ := mem_matches'_atLeastOne.mp hv
  obtain ⟨words', -, rfl, hwords'⟩ := mem_matches'_atLeastOne.mp hw
  refine mem_matches'_atLeastOne.mpr ⟨words ++ words', by simp [hne], by simp, ?_⟩
  intro word hword
  obtain hword | hword := List.mem_append.mp hword
  · exact hwords word hword
  · exact hwords' word hword

/-- A class that is repeated up to `n` times. -/
theorem mem_matches'_upTo_oneOf {as : List α} {n : ℕ} :
    w ∈ (upTo (oneOf as) n).matches' ↔ w.length ≤ n ∧ ∀ a ∈ w, a ∈ as := by
  rw [upTo, matches'_pow]
  induction n generalizing w with
  | zero =>
    have hnil : w = [] ↔ w.length ≤ 0 ∧ ∀ a ∈ w, a ∈ as := by
      constructor
      · rintro rfl
        simp
      · intro h
        exact List.eq_nil_of_length_eq_zero (Nat.le_zero.mp h.1)
    rw [pow_zero, Language.mem_one, hnil]
  | succ n ih =>
    rw [pow_succ', Language.mem_mul]
    constructor
    · rintro ⟨u, hu, v, hv, rfl⟩
      obtain ⟨hlength, hall⟩ := ih.mp hv
      obtain rfl | hu := mem_matches'_opt.mp hu
      · exact ⟨by simp; omega, hall⟩
      · obtain ⟨a, ha, rfl⟩ := mem_matches'_oneOf.mp hu
        refine ⟨by simp; omega, ?_⟩
        rw [List.singleton_append, List.forall_mem_cons]
        exact ⟨ha, hall⟩
    · rintro ⟨hlength, hall⟩
      -- a shorter word leaves this repetition out
      match w with
      | [] =>
        have hempty := (ih (w := [])).mpr ⟨Nat.zero_le n, hall⟩
        exact ⟨[], mem_matches'_opt.mpr (Or.inl rfl), [], hempty, rfl⟩
      | a :: v =>
        rw [List.forall_mem_cons] at hall
        have ha : [a] ∈ (oneOf as).matches' := mem_matches'_oneOf.mpr ⟨a, hall.1, rfl⟩
        have hv : v.length ≤ n := by simpa using hlength
        exact ⟨[a], mem_matches'_opt.mpr (Or.inr ha), v, ih.mpr ⟨hv, hall.2⟩, rfl⟩

/-- A class that is repeated up to `n` times, between two characters of another class. -/
theorem mem_matches'_enclosed {as bs : List α} {n : ℕ} :
    w ∈ (oneOf as * upTo (oneOf bs) n * oneOf as).matches' ↔
      ∃ a v b, w = a :: (v ++ [b]) ∧ a ∈ as ∧ b ∈ as ∧ v.length ≤ n ∧ ∀ c ∈ v, c ∈ bs := by
  rw [matches'_mul, matches'_mul, Language.mem_mul]
  constructor
  · rintro ⟨_, ⟨u, hu, v, hv, rfl⟩, z, hz, rfl⟩
    obtain ⟨a, ha, rfl⟩ := mem_matches'_oneOf.mp hu
    obtain ⟨b, hb, rfl⟩ := mem_matches'_oneOf.mp hz
    obtain ⟨hlength, hall⟩ := mem_matches'_upTo_oneOf.mp hv
    exact ⟨a, v, b, by simp, ha, hb, hlength, hall⟩
  · rintro ⟨a, v, b, rfl, ha, hb, hlength, hall⟩
    refine ⟨[a] ++ v, ⟨[a], ?_, v, ?_, rfl⟩, [b], ?_, by simp⟩
    · exact mem_matches'_oneOf.mpr ⟨a, ha, rfl⟩
    · exact mem_matches'_upTo_oneOf.mpr ⟨hlength, hall⟩
    · exact mem_matches'_oneOf.mpr ⟨b, hb, rfl⟩

/-- `P(,P)*` for a separator in place of the comma. -/
def separated (a : α) (P : RegularExpression α) : RegularExpression α := P * star (char a * P)

/-- Words that are put together with a separator, which none of them contains. -/
theorem mem_matches'_separated [DecidableEq α] {a : α} (hP : ∀ v ∈ P.matches', a ∉ v) :
    w ∈ (separated a P).matches' ↔ ∀ piece ∈ w.splitOn a, piece ∈ P.matches' := by
  rw [separated, matches'_mul, matches'_star, matches'_mul, matches'_char, Language.mem_mul]
  constructor
  · rintro ⟨u, hu, _, ⟨words, rfl, hwords⟩, rfl⟩
    -- the separators begin the repeated words
    induction words generalizing u with
    | nil =>
      rw [List.flatten_nil, List.append_nil, List.splitOn_eq_singleton (by simpa using hP u hu)]
      exact List.forall_mem_singleton.mpr hu
    | cons word words ih =>
      obtain ⟨hword, hrest⟩ := List.forall_mem_cons.mp hwords
      obtain ⟨_, rfl, v, hv, rfl⟩ := Language.mem_mul.mp hword
      rw [List.flatten_cons, List.append_assoc, List.singleton_append,
        List.splitOn_append_cons_self_of_not_mem (hP u hu), List.forall_mem_cons]
      exact ⟨hu, ih v hv hrest⟩
  · intro h
    obtain ⟨u, pieces, hpieces⟩ := List.exists_cons_of_ne_nil (List.splitOn_ne_nil a w)
    have hjoin : [a].intercalate (w.splitOn a) = w := List.intercalate_splitOn a
    rw [hpieces] at h hjoin
    obtain ⟨hu, hrest⟩ := List.forall_mem_cons.mp h
    refine ⟨u, hu, (pieces.map (a :: ·)).flatten, ⟨_, rfl, ?_⟩, ?_⟩
    · intro word hword
      obtain ⟨piece, hpiece, rfl⟩ := List.mem_map.mp hword
      exact Language.mem_mul.mpr ⟨[a], rfl, piece, hrest piece hpiece, rfl⟩
    · rw [← hjoin]
      clear hu h hpieces hjoin
      induction pieces generalizing u with
      | nil => simp
      | cons piece pieces ih =>
        rw [List.intercalate_cons_cons, List.map_cons, List.flatten_cons, List.append_assoc,
          List.singleton_append, ← ih piece (List.forall_mem_cons.mp hrest).2]
        rfl

end RegularExpression

/-- The characters from `lo` to `hi`. -/
def charRange (lo hi : Char) : List Char :=
  (List.range (hi.toNat + 1 - lo.toNat)).map fun i => Char.ofNat (lo.toNat + i)

theorem mem_charRange {lo hi c : Char} (hvalid : hi.toNat < 0xd800) :
    c ∈ charRange lo hi ↔ lo.toNat ≤ c.toNat ∧ c.toNat ≤ hi.toNat := by
  rw [charRange, List.mem_map]
  constructor
  · rintro ⟨i, hi, rfl⟩
    have hlt := List.mem_range.mp hi
    have htoNat : (Char.ofNat (lo.toNat + i)).toNat = lo.toNat + i := by
      rw [Char.toNat_ofNat, if_pos (Or.inl (by omega))]
    omega
  · rintro ⟨hlo, hhi⟩
    refine ⟨c.toNat - lo.toNat, List.mem_range.mpr (by omega), ?_⟩
    rw [Nat.add_sub_cancel' hlo]
    exact Char.ofNat_toNat c
