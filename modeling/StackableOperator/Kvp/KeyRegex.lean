import Mathlib
import StackableOperator.ForMathlib.RegularExpression
import StackableOperator.Kvp.Key

/-!
# The regular expressions of keys

`KEY_PREFIX_REGEX` and `KEY_NAME_REGEX` as regular expressions, and the words that they match. The
matchers `matchesKeyPrefix` and `matchesName` decide them (`mem_keyPrefixRegex_iff`,
`mem_keyNameRegex_iff`).
-/

namespace StackableOperator

namespace Kvp

open RegularExpression

/-- The character class `[a-zA-Z]`. -/
def letters : List Char := charRange 'a' 'z' ++ charRange 'A' 'Z'

/-- The character class `[a-zA-Z0-9]`. -/
def alphanums : List Char := letters ++ charRange '0' '9'

/-- The character class `[a-zA-Z0-9-]`. -/
def segmentChars : List Char := alphanums ++ ['-']

/-- The character class `[a-z0-9A-Z-_.]`. -/
def nameChars : List Char := alphanums ++ ['-', '_', '.']

/-- `^[a-z0-9A-Z]([a-z0-9A-Z-_.]*[a-z0-9A-Z]+)?$` -/
def keyNameRegex : RegularExpression Char :=
  oneOf alphanums * opt (star (oneOf nameChars) * atLeastOne (oneOf alphanums))

/-- `^[a-zA-Z](\.?[a-zA-Z0-9-])*\.[a-zA-Z]{2,}\.?$` -/
def keyPrefixRegex : RegularExpression Char :=
  oneOf letters * star (opt (char '.') * oneOf segmentChars) * char '.' *
    (oneOf letters * atLeastOne (oneOf letters)) * opt (char '.')

/-! ### Character classes -/

theorem mem_letters {c : Char} : c ∈ letters ↔ c.isAlpha = true := by
  rw [letters, List.mem_append, mem_charRange (by decide), mem_charRange (by decide), or_comm]
  simp only [Char.isAlpha, Char.isLower, Char.isUpper, Bool.or_eq_true, Bool.and_eq_true,
    decide_eq_true_eq, UInt32.le_iff_toNat_le]
  rfl

theorem mem_alphanums {c : Char} : c ∈ alphanums ↔ c.isAlphanum = true := by
  rw [alphanums, List.mem_append, mem_letters, mem_charRange (by decide), Char.isAlphanum,
    Bool.or_eq_true]
  simp only [Char.isDigit, Bool.and_eq_true, decide_eq_true_eq, UInt32.le_iff_toNat_le]
  rfl

theorem mem_segmentChars {c : Char} : c ∈ segmentChars ↔ (c.isAlphanum || c == '-') = true := by
  rw [segmentChars, List.mem_append, mem_alphanums, List.mem_singleton, Bool.or_eq_true, beq_iff_eq]

theorem mem_nameChars {c : Char} : c ∈ nameChars ↔ isNameChar c = true := by
  simp [nameChars, mem_alphanums, isNameChar, or_assoc]

theorem letters_subset : letters ⊆ segmentChars := fun _ hc =>
  List.mem_append_left _ (List.mem_append_left _ hc)

theorem dot_notMem_segmentChars : '.' ∉ segmentChars := by
  rw [mem_segmentChars]
  decide

/-! ### Names -/

/-- **The matcher of names decides their regular expression.** -/
theorem mem_keyNameRegex_iff {w : List Char} :
    w ∈ keyNameRegex.matches' ↔ matchesName w = true := by
  rw [keyNameRegex, matches'_mul, Language.mem_mul]
  constructor
  · rintro ⟨u, hu, v, hv, rfl⟩
    obtain ⟨c, hc, rfl⟩ := mem_matches'_oneOf.mp hu
    rw [List.singleton_append, matchesName, isSegment_cons_iff]
    refine ⟨mem_alphanums.mp hc, ?_⟩
    obtain rfl | hv := mem_matches'_opt.mp hv
    · exact .inl rfl
    · obtain ⟨x, hx, y, hy, rfl⟩ := Language.mem_mul.mp (matches'_mul _ _ ▸ hv)
      obtain ⟨hne, hall⟩ := mem_matches'_atLeastOne_oneOf.mp hy
      obtain ⟨y, z, rfl⟩ := (List.eq_nil_or_concat' y).resolve_left hne
      rw [List.forall_mem_append, List.forall_mem_singleton] at hall
      refine .inr ⟨x ++ y, z, (List.append_assoc x y [z]).symm, ?_, mem_alphanums.mp hall.2⟩
      rw [List.forall_mem_append]
      refine ⟨fun c hc => mem_nameChars.mp (mem_matches'_star_oneOf.mp hx c hc), fun c hc => ?_⟩
      exact mem_nameChars.mp (List.mem_append_left _ (hall.1 c hc))
  · intro h
    match w with
    | [] => exact absurd h (by decide)
    | c :: cs =>
      obtain ⟨hc, hcs⟩ := isSegment_cons_iff.mp h
      refine ⟨[c], mem_matches'_oneOf.mpr ⟨c, mem_alphanums.mpr hc, rfl⟩, cs, ?_, rfl⟩
      obtain rfl | ⟨front, z, rfl, hfront, hz⟩ := hcs
      · exact mem_matches'_opt.mpr (.inl rfl)
      · refine mem_matches'_opt.mpr (.inr ?_)
        rw [matches'_mul]
        refine Language.mem_mul.mpr ⟨front, ?_, [z], ?_, rfl⟩
        · exact mem_matches'_star_oneOf.mpr fun x hx => mem_nameChars.mpr (hfront x hx)
        · refine mem_matches'_atLeastOne_oneOf.mpr ⟨List.cons_ne_nil z [], ?_⟩
          exact List.forall_mem_singleton.mpr (mem_alphanums.mpr hz)

/-! ### Prefixes -/

/-- Not empty, and without other characters than those of segments. -/
def IsKeySegment (segment : List Char) : Prop := segment ≠ [] ∧ ∀ c ∈ segment, c ∈ segmentChars

/-- Segments between single dots. -/
def IsDotted (s : List Char) : Prop := ∀ segment ∈ s.splitOn '.', IsKeySegment segment

theorem not_isDotted_nil : ¬ IsDotted [] := fun h => (h [] (by simp)).1 rfl

/-- A text that begins with a segment of one character. -/
theorem isDotted_cons_dot {c : Char} (hc : c ∈ segmentChars) {w : List Char} :
    IsDotted (c :: '.' :: w) ↔ IsDotted w := by
  have hdot : '.' ∉ [c] := by
    rw [List.mem_singleton]
    rintro rfl
    exact dot_notMem_segmentChars hc
  have hsplit : (c :: '.' :: w).splitOn '.' = [c] :: w.splitOn '.' :=
    List.splitOn_append_cons_self_of_not_mem hdot w
  rw [IsDotted, hsplit, List.forall_mem_cons, IsDotted, and_iff_right]
  exact ⟨List.cons_ne_nil c [], List.forall_mem_singleton.mpr hc⟩

/-- A character in front of the first segment. -/
theorem isDotted_cons_cons {c d : Char} (hc : c ∈ segmentChars) {w : List Char} (hd : d ≠ '.') :
    IsDotted (c :: d :: w) ↔ IsDotted (d :: w) := by
  have hne : c ≠ '.' := by
    rintro rfl
    exact dot_notMem_segmentChars hc
  obtain ⟨first, rest, hfirst⟩ := List.exists_cons_of_ne_nil (List.splitOn_ne_nil '.' w)
  have hsplit : (d :: w).splitOn '.' = (d :: first) :: rest := by
    rw [List.splitOn_cons_eq_if_modifyHead, if_neg (by simpa using hd), hfirst]
    rfl
  have hsplit' : (c :: d :: w).splitOn '.' = (c :: d :: first) :: rest := by
    rw [List.splitOn_cons_eq_if_modifyHead, if_neg (by simpa using hne), hsplit]
    rfl
  rw [IsDotted, IsDotted, hsplit, hsplit', List.forall_mem_cons, List.forall_mem_cons]
  simp [IsKeySegment, hc]

theorem mem_of_isDotted_cons {d : Char} {w : List Char} (h : IsDotted (d :: w)) :
    d ∈ segmentChars := by
  obtain ⟨first, rest, hfirst⟩ := List.exists_cons_of_ne_nil (List.splitOn_ne_nil '.' w)
  by_cases hd : d = '.'
  · rw [IsDotted, List.splitOn_cons_eq_if_modifyHead, if_pos (by simpa using hd)] at h
    exact absurd rfl (h [] List.mem_cons_self).1
  · rw [IsDotted, List.splitOn_cons_eq_if_modifyHead, if_neg (by simpa using hd), hfirst] at h
    exact (h (d :: first) List.mem_cons_self).2 d List.mem_cons_self

/-- A word of the repeated part is empty, or one character follows, perhaps after a dot. -/
theorem mem_dottedRegex_iff {w : List Char} :
    w ∈ (star (opt (char '.') * oneOf segmentChars)).matches' ↔
      w = [] ∨ ∃ c ∈ segmentChars, ∃ v, (w = c :: v ∨ w = '.' :: c :: v) ∧
        v ∈ (star (opt (char '.') * oneOf segmentChars)).matches' := by
  rw [mem_matches'_star]
  refine or_congr Iff.rfl ⟨?_, ?_⟩
  · rintro ⟨u, v, hu, hv, rfl⟩
    rw [matches'_mul] at hu
    obtain ⟨x, hx, y, hy, rfl⟩ := Language.mem_mul.mp hu
    obtain ⟨c, hc, rfl⟩ := mem_matches'_oneOf.mp hy
    obtain rfl | rfl := mem_matches'_opt.mp hx
    · exact ⟨c, hc, v, .inl rfl, hv⟩
    · exact ⟨c, hc, v, .inr rfl, hv⟩
  · rintro ⟨c, hc, v, hw, hv⟩
    have hc' : [c] ∈ (oneOf segmentChars).matches' := mem_matches'_oneOf.mpr ⟨c, hc, rfl⟩
    obtain rfl | rfl := hw
    · exact ⟨[c], v, matches'_mul _ _ ▸ Language.mem_mul.mpr
        ⟨[], mem_matches'_opt.mpr (.inl rfl), [c], hc', rfl⟩, hv, rfl⟩
    · exact ⟨['.', c], v, matches'_mul _ _ ▸ Language.mem_mul.mpr
        ⟨['.'], mem_matches'_opt.mpr (.inr rfl), [c], hc', rfl⟩, hv, rfl⟩

/-- The repeated part continues segments between single dots. -/
theorem mem_dottedRegex_iff_isDotted {c : Char} (hc : c ∈ segmentChars) (w : List Char) :
    w ∈ (star (opt (char '.') * oneOf segmentChars)).matches' ↔ IsDotted (c :: w) := by
  induction hn : w.length using Nat.strong_induction_on generalizing c w with
  | _ n ih =>
    subst hn
    rw [mem_dottedRegex_iff]
    match w with
    | [] =>
      have hsplit : [c].splitOn '.' = [[c]] :=
        List.splitOn_eq_singleton fun h => dot_notMem_segmentChars (List.mem_singleton.mp h ▸ hc)
      rw [IsDotted, hsplit, List.forall_mem_singleton]
      exact iff_of_true (.inl rfl)
        ⟨List.cons_ne_nil c [], List.forall_mem_singleton.mpr hc⟩
    | d :: w =>
      -- a dot has to be followed by a character of a segment
      by_cases hd : d = '.'
      · subst hd
        rw [isDotted_cons_dot hc]
        constructor
        · rintro (h | ⟨d, hd, v, heq | heq, hv⟩)
          · exact absurd h (List.cons_ne_nil '.' w)
          · exact absurd ((List.cons.inj heq).1 ▸ hd) dot_notMem_segmentChars
          · obtain rfl := (List.cons.inj heq).2
            exact (ih v.length (by simp) hd v rfl).mp hv
        · intro h
          match w with
          | [] => exact absurd h not_isDotted_nil
          | d :: v =>
            have hd := mem_of_isDotted_cons h
            exact .inr ⟨d, hd, v, .inr rfl, (ih v.length (by simp) hd v rfl).mpr h⟩
      · rw [isDotted_cons_cons hc hd]
        constructor
        · rintro (h | ⟨d', hd', v, heq | heq, hv⟩)
          · exact absurd h (List.cons_ne_nil d w)
          · obtain ⟨rfl, rfl⟩ := List.cons.inj heq
            exact (ih w.length (by simp) hd' w rfl).mp hv
          · exact absurd (List.cons.inj heq).1 hd
        · intro h
          have hd' := mem_of_isDotted_cons h
          exact .inr ⟨d, hd', w, .inl rfl, (ih w.length (by simp) hd' w rfl).mpr h⟩

/-- The words of the prefix grammar: segments between single dots, of which the first one begins
with a letter, then a dot and at least two letters, and perhaps one more dot. -/
structure IsPrefixWord (front last dot : List Char) : Prop where
  isDotted : IsDotted front
  head : ∀ c ∈ front.head?, c ∈ letters
  length : 2 ≤ last.length
  last : ∀ c ∈ last, c ∈ letters
  dot : dot = [] ∨ dot = ['.']

theorem mem_keyPrefixRegex_iff_exists {w : List Char} :
    w ∈ keyPrefixRegex.matches' ↔
      ∃ front last dot, w = front ++ '.' :: (last ++ dot) ∧ IsPrefixWord front last dot := by
  rw [keyPrefixRegex]
  simp only [matches'_mul, Language.mem_mul]
  constructor
  · rintro ⟨_, ⟨_, ⟨_, ⟨u, hu, v, hv, rfl⟩, x, hx, rfl⟩, _, ⟨y, hy, z, hz, rfl⟩, rfl⟩, dot, hdot,
      rfl⟩
    obtain ⟨c, hc, rfl⟩ := mem_matches'_oneOf.mp hu
    obtain ⟨l, hl, rfl⟩ := mem_matches'_oneOf.mp hy
    obtain rfl : x = ['.'] := hx
    obtain ⟨hne, hletters⟩ := mem_matches'_atLeastOne_oneOf.mp hz
    have hlength := List.length_pos_of_ne_nil hne
    refine ⟨c :: v, l :: z, dot, by simp, ?_⟩
    exact {
      isDotted := (mem_dottedRegex_iff_isDotted (letters_subset hc) v).mp hv
      head := by simpa using hc
      length := by simp; omega
      last := List.forall_mem_cons.mpr ⟨hl, hletters⟩
      dot := mem_matches'_opt.mp hdot }
  · rintro ⟨front, last, dot, rfl, h⟩
    match front, last, h with
    | [], _, h => exact absurd h.isDotted not_isDotted_nil
    | _, [], h => exact absurd h.length (by simp)
    | c :: v, l :: z, h =>
      have hc : c ∈ letters := h.head c rfl
      have hlast := List.forall_mem_cons.mp h.last
      have hne : z ≠ [] := by
        rintro rfl
        exact absurd h.length (by simp)
      exact ⟨_, ⟨_, ⟨_, ⟨[c], mem_matches'_oneOf.mpr ⟨c, hc, rfl⟩, v,
        (mem_dottedRegex_iff_isDotted (letters_subset hc) v).mpr h.isDotted, rfl⟩, ['.'], rfl, rfl⟩,
        _, ⟨[l], mem_matches'_oneOf.mpr ⟨l, hlast.1, rfl⟩, z,
        mem_matches'_atLeastOne_oneOf.mpr ⟨hne, hlast.2⟩, rfl⟩, rfl⟩, dot,
        mem_matches'_opt.mpr h.dot, by simp⟩

/-- The pieces of a word of the prefix grammar. -/
theorem IsPrefixWord.splitOn {front last dot : List Char} (h : IsPrefixWord front last dot) :
    (front ++ '.' :: (last ++ dot)).splitOn '.' =
      front.splitOn '.' ++ last :: (if dot = [] then [] else [[]]) := by
  have hlast : '.' ∉ last := fun hmem =>
    dot_notMem_segmentChars (letters_subset (h.last '.' hmem))
  rw [List.splitOn_append_cons_self]
  obtain rfl | rfl := h.dot
  · rw [List.append_nil, List.splitOn_eq_singleton hlast, if_pos rfl]
  · rw [List.splitOn_append_cons_self_of_not_mem hlast, List.splitOn_nil, if_neg (by simp)]

/-- The pieces between the dots that the matcher looks at: a dot at the end leaves none behind. -/
def keyPieces (w : List Char) : List (List Char) :=
  if (w.splitOn '.').getLast? = some [] then (w.splitOn '.').dropLast else w.splitOn '.'

theorem matchesKeyPrefix_iff {w : List Char} :
    matchesKeyPrefix w = true ↔ ∃ front last, keyPieces w = front ++ [last] ∧ front ≠ [] ∧
      (∃ c ∈ w.head?, c ∈ letters) ∧ (∀ segment ∈ front, IsKeySegment segment) ∧
      2 ≤ last.length ∧ ∀ c ∈ last, c ∈ letters := by
  have hunfold : matchesKeyPrefix w = (2 ≤ (keyPieces w).length && w.head?.any Char.isAlpha &&
      (keyPieces w).all (fun segment =>
        !segment.isEmpty && segment.all fun c => c.isAlphanum || c == '-') &&
      (keyPieces w).getLast?.any
        (fun segment => 2 ≤ segment.length && segment.all Char.isAlpha)) := rfl
  have hsegment : ∀ segment : List Char, (!segment.isEmpty &&
      segment.all fun c => c.isAlphanum || c == '-') = true ↔ IsKeySegment segment := by
    intro segment
    simp [IsKeySegment, mem_segmentChars]
  have hhead : w.head?.any Char.isAlpha = true ↔ ∃ c ∈ w.head?, c ∈ letters := by
    simp only [Option.any_eq_true, mem_letters, Option.mem_def]
  rw [hunfold]
  simp only [Bool.and_eq_true, decide_eq_true_eq, List.all_eq_true, hsegment, hhead]
  constructor
  · rintro ⟨⟨⟨hlength, hletter⟩, hall⟩, hlast⟩
    obtain hnil | ⟨front, last, hpieces⟩ := List.eq_nil_or_concat' (keyPieces w)
    · rw [hnil] at hlength
      exact absurd hlength (by simp)
    · rw [hpieces, List.getLast?_concat, Option.any_some, Bool.and_eq_true, decide_eq_true_eq,
        List.all_eq_true] at hlast
      rw [hpieces, List.forall_mem_append] at hall
      refine ⟨front, last, hpieces, ?_, hletter, hall.1, hlast.1,
        fun c hc => mem_letters.mpr (hlast.2 c hc)⟩
      rintro rfl
      rw [hpieces] at hlength
      exact absurd hlength (by simp)
  · rintro ⟨front, last, hpieces, hne, hletter, hfront, hlength, hlast⟩
    have hpos := List.length_pos_of_ne_nil hne
    rw [hpieces, List.getLast?_concat, Option.any_some, Bool.and_eq_true, decide_eq_true_eq,
      List.all_eq_true, List.length_append, List.length_singleton]
    refine ⟨⟨⟨by omega, hletter⟩, ?_⟩, hlength, fun c hc => mem_letters.mp (hlast c hc)⟩
    refine List.forall_mem_append.mpr ⟨hfront, List.forall_mem_singleton.mpr ⟨?_, ?_⟩⟩
    · rintro rfl
      exact absurd hlength (by simp)
    · exact fun c hc => letters_subset (hlast c hc)

/-- **The matcher of prefixes decides their regular expression.** -/
theorem mem_keyPrefixRegex_iff {w : List Char} :
    w ∈ keyPrefixRegex.matches' ↔ matchesKeyPrefix w = true := by
  rw [mem_keyPrefixRegex_iff_exists, matchesKeyPrefix_iff]
  constructor
  · rintro ⟨front, last, dot, rfl, h⟩
    have hne : front ≠ [] := fun hnil => not_isDotted_nil (hnil ▸ h.isDotted)
    obtain ⟨c, front, rfl⟩ := List.exists_cons_of_ne_nil hne
    refine ⟨(c :: front).splitOn '.', last, ?_, List.splitOn_ne_nil _ _,
      ⟨c, rfl, h.head c rfl⟩, h.isDotted, h.length, h.last⟩
    have hsplit := h.splitOn
    obtain rfl | rfl := h.dot
    · have hlast : last ≠ [] := by
        rintro rfl
        exact absurd h.length (by simp)
      rw [if_pos rfl] at hsplit
      rw [keyPieces, hsplit, List.getLast?_concat,
        if_neg (fun heq => hlast (Option.some.inj heq))]
    · have hconcat : (c :: front ++ '.' :: (last ++ ['.'])).splitOn '.' =
          ((c :: front).splitOn '.' ++ [last]) ++ [[]] := by
        rw [hsplit, if_neg (List.cons_ne_nil '.' []), List.append_assoc]
        rfl
      rw [keyPieces, hconcat, List.getLast?_concat, if_pos rfl, List.dropLast_concat]
  · rintro ⟨pieces, last, hpieces, hne, ⟨c, hc, hletter⟩, hsegments, hlength, hlast⟩
    have hfront : ∀ front dot, w = front ++ '.' :: (last ++ dot) → front.splitOn '.' = pieces →
        (dot = [] ∨ dot = ['.']) → IsPrefixWord front last dot := by
      intro front dot hw hsplit hdot
      refine ⟨by rw [IsDotted, hsplit]; exact hsegments, ?_, hlength, hlast, hdot⟩
      intro d hd
      rw [hw, List.head?_append, Option.mem_def.mp hd] at hc
      exact Option.some.inj hc ▸ hletter
    rw [keyPieces] at hpieces
    split at hpieces
    · rename_i hdot
      -- the dot at the end
      obtain ⟨init, hinit⟩ := List.getLast?_eq_some_iff.mp hdot
      rw [hinit, List.dropLast_concat] at hpieces
      obtain ⟨t, ht, hsplit⟩ := eq_append_of_splitOn_eq_concat hinit (by simp [hpieces])
      obtain ⟨front, rfl, hfrontSplit⟩ := eq_append_of_splitOn_eq_concat (hsplit.trans hpieces) hne
      have hw : w = front ++ '.' :: (last ++ ['.']) := by simp [ht]
      exact ⟨front, last, ['.'], hw, hfront front ['.'] hw hfrontSplit (.inr rfl)⟩
    · obtain ⟨front, hw, hfrontSplit⟩ := eq_append_of_splitOn_eq_concat hpieces hne
      have hw : w = front ++ '.' :: (last ++ []) := by simp [hw]
      exact ⟨front, last, [], hw, hfront front [] hw hfrontSplit (.inl rfl)⟩

end Kvp

end StackableOperator
