import Mathlib
import StackableOperator.K8sVersion.FromStr

/-!
# What version texts denote

`Version.Denotes` reads a version off its text: decimal digits behind a `v`, and the name and the
digits of a level. It does not mention the regular expressions of the parser;
`Version.denotes_of_fromStr` says that the parser agrees with it, and `Version.Denotes.eq` that a
text denotes one version at most. `Version.Precedes` lists the cases of the order.
-/

namespace StackableOperator

/-- A text that denotes a level. -/
inductive Level.Denotes : List Char → Level → Prop
  | alpha {digits : List Char} {n : ℕ} (h : IsDecimal digits n) :
    Denotes ("alpha".toList ++ digits) (.alpha n)
  | beta {digits : List Char} {n : ℕ} (h : IsDecimal digits n) :
    Denotes ("beta".toList ++ digits) (.beta n)

/-- A text that denotes a version. -/
inductive Version.Denotes : List Char → Version → Prop
  | stable {digits : List Char} {n : ℕ} (h : IsDecimal digits n) :
    Denotes ('v' :: digits) ⟨n, none⟩
  | level {digits text : List Char} {n : ℕ} {l : Level} (h : IsDecimal digits n)
    (hlevel : l.Denotes text) : Denotes ('v' :: digits ++ text) ⟨n, some l⟩

/-! ### A text denotes one version -/

theorem Level.Denotes.isDigit_head? {text : List Char} {l : Level} (h : l.Denotes text) :
    ∀ c ∈ text.head?, c.isDigit = false := by
  cases h with
  | alpha h => simp
  | beta h => simp

theorem Level.Denotes.ne_nil {text : List Char} {l : Level} (h : l.Denotes text) : text ≠ [] := by
  cases h with
  | alpha h => simp
  | beta h => simp

theorem Level.Denotes.eq {text : List Char} {l l' : Level} (h : l.Denotes text)
    (h' : l'.Denotes text) : l = l' := by
  generalize htext : text = text' at h'
  cases h with
  | alpha h =>
    cases h' with
    | alpha h' => rw [h.eq (List.append_cancel_left htext ▸ h')]
    | beta h' => simp at htext
  | beta h =>
    cases h' with
    | alpha h' => simp at htext
    | beta h' => rw [h.eq (List.append_cancel_left htext ▸ h')]

/-- The parts of a text that denotes a version. -/
theorem Version.denotes_iff {s : List Char} {v : Version} :
    v.Denotes s ↔ ∃ digits text, s = 'v' :: (digits ++ text) ∧ IsDecimal digits v.major ∧
      match v.level with
      | none => text = []
      | some l => l.Denotes text := by
  constructor
  · intro h
    cases h with
    | @stable digits n h => exact ⟨digits, [], by simp, h, rfl⟩
    | @level digits text n l h hlevel => exact ⟨digits, text, rfl, h, hlevel⟩
  · rintro ⟨digits, text, rfl, h, htext⟩
    obtain ⟨major, level⟩ := v
    match level, htext with
    | none, htext =>
      rw [htext, List.append_nil]
      exact .stable h
    | some l, hlevel => exact .level h hlevel

theorem Version.Denotes.eq {s : List Char} {v v' : Version} (h : v.Denotes s)
    (h' : v'.Denotes s) : v = v' := by
  have hhead {text : List Char} {level : Option Level}
      (h : match level with
        | none => text = []
        | some l => l.Denotes text) : ∀ c ∈ text.head?, c.isDigit = false := by
    match level, h with
    | none, htext => simp [htext]
    | some l, hlevel => exact hlevel.isDigit_head?
  obtain ⟨digits, text, rfl, hdigits, htext⟩ := denotes_iff.mp h
  obtain ⟨digits', text', heq, hdigits', htext'⟩ := denotes_iff.mp h'
  -- the digits end where the level begins
  have hjoin : digits ++ text = digits' ++ text' := (List.cons.inj heq).2
  have htake := congrArg (List.takeWhile Char.isDigit) hjoin
  rw [hdigits.takeWhile_append (hhead htext), hdigits'.takeWhile_append (hhead htext')] at htake
  subst htake
  obtain rfl := List.append_cancel_left hjoin
  obtain ⟨major, level⟩ := v
  obtain ⟨major', level'⟩ := v'
  obtain rfl : major = major' := hdigits.eq hdigits'
  match level, level', htext, htext' with
  | none, none, _, _ => rfl
  | none, some l, htext, hlevel => exact absurd htext hlevel.ne_nil
  | some l, none, hlevel, htext => exact absurd htext hlevel.ne_nil
  | some l, some l', hlevel, hlevel' => rw [hlevel.eq hlevel']

/-! ### The parser -/

theorem plus_notMem {text : List Char} (h : ∀ c ∈ text, isDecimalDigit c = true) :
    text.head? ≠ some '+' := by
  intro hhead
  have hplus : isDecimalDigit '+' = false := by decide
  rw [h '+' (List.mem_of_mem_head? hhead)] at hplus
  exact absurd hplus (by decide)

/-- A number that is read from the digits of any script has ASCII digits only. -/
theorem isDecimal_of_parseU64 {text : List Char} {n : ℕ}
    (hdigits : ∀ c ∈ text, isDecimalDigit c = true) (h : parseU64 text = .ok n) :
    IsDecimal text n :=
  ((parseUnsigned_eq_ok_iff (plus_notMem hdigits)).mp h).1

theorem Level.denotes_of_fromStr {input : List Char} {l : Level} (h : Level.fromStr input = .ok l) :
    l.Denotes input := by
  unfold Level.fromStr at h
  split at h
  · exact absurd h (by simp)
  · rename_i identifier version hcaptures
    unfold levelCaptures at hcaptures
    dsimp only at hcaptures
    split_ifs at hcaptures with hparts
    obtain ⟨rfl, rfl⟩ := Prod.mk.inj (Option.some.inj hcaptures)
    obtain ⟨-, -, hdigits⟩ := hparts
    have hinput := List.takeWhile_append_dropWhile (p := isLowerAlpha) (l := input)
    split at h
    · exact absurd h (by simp)
    · rename_i n hn
      have hdecimal := isDecimal_of_parseU64 (List.all_eq_true.mp hdigits) hn
      split_ifs at h with halpha hbeta
      · obtain rfl := Except.ok.inj h
        rw [halpha] at hinput
        rw [← hinput]
        exact .alpha hdecimal
      · obtain rfl := Except.ok.inj h
        rw [hbeta] at hinput
        rw [← hinput]
        exact .beta hdecimal

/-- The captures of a version are its digits and what follows them. -/
theorem versionCaptures_eq_some {input major : List Char} {level : Option (List Char)}
    (h : versionCaptures input = some (major, level)) :
    input = 'v' :: (major ++ level.getD []) ∧ ∀ c ∈ major, isDecimalDigit c = true := by
  unfold versionCaptures at h
  split at h
  · rename_i rest
    obtain ⟨n, hn, hat⟩ := List.exists_of_findSome?_eq_some h
    simp only [List.mem_map, List.mem_reverse, List.mem_range] at hn
    obtain ⟨k, hk, rfl⟩ := hn
    have hdigits : ∀ c ∈ rest.take (k + 1), isDecimalDigit c = true := by
      intro c hc
      have hinitial : rest.take (k + 1) <+: rest.takeWhile isDecimalDigit :=
        List.prefix_of_prefix_length_le (List.take_prefix _ _) (List.takeWhile_prefix _)
          (by rw [List.length_take]; omega)
      exact List.mem_takeWhile_imp (hinitial.subset hc)
    unfold versionCapturesAt at hat
    dsimp only at hat
    split_ifs at hat with hlevel hempty
    · obtain ⟨rfl, rfl⟩ := Prod.mk.inj (Option.some.inj hat)
      exact ⟨by simp, hdigits⟩
    · obtain ⟨rfl, rfl⟩ := Prod.mk.inj (Option.some.inj hat)
      refine ⟨?_, hdigits⟩
      have hjoin := List.take_append_drop (k + 1) rest
      rw [hempty] at hjoin
      rw [Option.getD_none, hjoin]
  · exact absurd h (by simp)

/-- **Accepted texts** denote the version that is returned. -/
theorem Version.denotes_of_fromStr {input : List Char} {v : Version}
    (h : Version.fromStr input = .ok v) : v.Denotes input := by
  unfold Version.fromStr at h
  split at h
  · exact absurd h (by simp)
  · rename_i major level hcaptures
    obtain ⟨rfl, hdigits⟩ := versionCaptures_eq_some hcaptures
    split at h
    · exact absurd h (by simp)
    · rename_i n hn
      have hdecimal := isDecimal_of_parseU64 hdigits hn
      split at h
      · rename_i text
        split at h
        · exact absurd h (by simp)
        · rename_i l hl
          obtain rfl := Except.ok.inj h
          exact .level hdecimal (Level.denotes_of_fromStr hl)
      · obtain rfl := Except.ok.inj h
        rw [Option.getD_none, List.append_nil]
        exact .stable hdecimal

/-! ### The order -/

/-- A version comes before another one: by its major version, or else alpha levels come before
beta levels and these before no level, and equal levels by their numbers. -/
inductive Version.Precedes : Version → Version → Prop
  | major {m m' : ℕ} {level level' : Option Level} (h : m < m') : Precedes ⟨m, level⟩ ⟨m', level'⟩
  | alpha {m n n' : ℕ} (h : n < n') : Precedes ⟨m, some (.alpha n)⟩ ⟨m, some (.alpha n')⟩
  | beta {m n n' : ℕ} (h : n < n') : Precedes ⟨m, some (.beta n)⟩ ⟨m, some (.beta n')⟩
  | alphaBeta {m n n' : ℕ} : Precedes ⟨m, some (.alpha n)⟩ ⟨m, some (.beta n')⟩
  | stable {m : ℕ} {l : Level} : Precedes ⟨m, some l⟩ ⟨m, none⟩

theorem Version.cmp_eq_lt_iff {a b : Version} : Version.cmp a b = .lt ↔ a.Precedes b := by
  obtain ⟨m, level⟩ := a
  obtain ⟨m', level'⟩ := b
  constructor
  · intro h
    unfold Version.cmp at h
    split at h
    · rename_i hmajor
      obtain rfl : m = m' := compare_eq_iff_eq.mp hmajor
      match level, level', h with
      | some (.alpha n), some (.alpha n'), h => exact .alpha (compare_lt_iff_lt.mp h)
      | some (.alpha n), some (.beta n'), _ => exact .alphaBeta
      | some (.beta n), some (.beta n'), h => exact .beta (compare_lt_iff_lt.mp h)
      | some l, none, _ => exact .stable
    · exact .major (compare_lt_iff_lt.mp h)
  · intro h
    have hself : compare m m = .eq := compare_eq_iff_eq.mpr rfl
    cases h with
    | major h => simp only [Version.cmp, compare_lt_iff_lt.mpr h]
    | alpha h => simp only [Version.cmp, hself, Level.cmp, compare_lt_iff_lt.mpr h]
    | beta h => simp only [Version.cmp, hself, Level.cmp, compare_lt_iff_lt.mpr h]
    | alphaBeta => simp only [Version.cmp, hself, Level.cmp]
    | stable => simp only [Version.cmp, hself]

/-- The comparison is a strict total order. -/
theorem Version.isStrictTotalOrder_cmp :
    IsStrictTotalOrder Version fun a b => Version.cmp a b = .lt := by
  have hlt : (fun a b : Version => Version.cmp a b = .lt) = (· < ·) := by
    funext a b
    exact propext Version.lt_iff.symm
  rw [hlt]
  infer_instance

theorem Version.cmp_eq_eq_iff {a b : Version} : Version.cmp a b = .eq ↔ a = b := by
  rw [← Version.compare_eq_cmp, compare_eq_iff_eq]

theorem Version.cmp_ne_gt_iff {a b : Version} : Version.cmp a b ≠ .gt ↔ a ≤ b := by
  rw [← Version.compare_eq_cmp, compare_le_iff_le]

end StackableOperator
