import Mathlib

/-!
# Kubernetes versions

A version consists of a major version and an optional level, as in `v1alpha1`, `v1beta1` and `v1`.
Versions are ordered by major version, then alpha levels before beta levels before none.

`Level.cmp` and `Version.cmp` are the comparisons of the source, which go through the cases. The
linear orders are pulled back along `Level.key` and `Version.key` instead, where a missing level is
the top element, so that their laws need no proof. `Version.compare_eq_cmp` says that the comparison
of the order is the one of the source.

`Version.display` is the text of a version. Numbers are written without leading zeros and end where
the level begins (`toString_append_inj`), so that different versions have different texts
(`Version.display_injective`). Whoever keeps something under the text of a version relies on this.
-/

namespace StackableOperator

/-- A comparison that agrees with a linear order on `<` is the one of this order. -/
theorem compare_eq_of_lt_iff {α : Type} [LinearOrder α] {cmp : α → α → Ordering}
    (hlt : ∀ a b, a < b ↔ cmp a b = .lt) (hswap : ∀ a b, cmp b a = (cmp a b).swap) (a b : α) :
    compare a b = cmp a b := by
  rcases lt_trichotomy a b with h | rfl | h
  · rw [compare_lt_iff_lt.mpr h, (hlt a b).mp h]
  · rw [compare_eq_iff_eq.mpr rfl]
    have hself := hswap a a
    rcases hcmp : cmp a a with _ | _ | _
    · rw [hcmp] at hself
      exact absurd hself (by decide)
    · rfl
    · rw [hcmp] at hself
      exact absurd hself (by decide)
  · rw [compare_gt_iff_gt.mpr h, hswap b a, (hlt b a).mp h]
    rfl

/-! ### Numbers in texts -/

/-- Numbers are written with decimal digits only. -/
theorem isDigit_of_mem_toString {n : ℕ} {c : Char} (h : c ∈ (toString n).toList) :
    c.isDigit = true := by
  rw [Nat.toString_eq_repr, Nat.toList_repr] at h
  exact Nat.isDigit_of_mem_toDigits (by decide) (by decide) h

/-- The digits in front of a text are the number in front of it. -/
theorem takeWhile_isDigit_toString (n : ℕ) {cs : List Char}
    (h : ∀ c ∈ cs.head?, c.isDigit = false) :
    ((toString n).toList ++ cs).takeWhile Char.isDigit = (toString n).toList := by
  rw [List.takeWhile_append_of_pos fun c hc => isDigit_of_mem_toString hc]
  rcases cs with _ | ⟨c, cs⟩
  · simp
  · rw [List.takeWhile_cons_of_neg (by simp [h c rfl]), List.append_nil]

/-- A number ends where the text goes on with something else than a digit. -/
theorem toString_append_inj {m n : ℕ} {cs ds : List Char}
    (hcs : ∀ c ∈ cs.head?, c.isDigit = false) (hds : ∀ c ∈ ds.head?, c.isDigit = false)
    (h : (toString m).toList ++ cs = (toString n).toList ++ ds) : m = n ∧ cs = ds := by
  have hdigits := congrArg (List.takeWhile Char.isDigit) h
  rw [takeWhile_isDigit_toString m hcs, takeWhile_isDigit_toString n hds] at hdigits
  rw [hdigits] at h
  exact ⟨Nat.repr_injective (String.toList_inj.mp hdigits), List.append_cancel_left h⟩

/-! ### Levels and versions -/

/-- A minor version. -/
inductive Level : Type
  | alpha (version : ℕ)
  | beta (version : ℕ)
  deriving DecidableEq, Repr

/-- A version of an API. Without a level it is a stable one. -/
structure Version where
  major : ℕ
  level : Option Level
  deriving DecidableEq, Repr

namespace Level

/-- Any alpha level is less than any beta level. -/
def cmp : Level → Level → Ordering
  | alpha lhs, alpha rhs => compare lhs rhs
  | alpha _, beta _ => .lt
  | beta _, alpha _ => .gt
  | beta lhs, beta rhs => compare lhs rhs

/-- The text of a level, such as `alpha1`. -/
def display : Level → String
  | alpha version => "alpha" ++ toString version
  | beta version => "beta" ++ toString version

theorem display_injective : Function.Injective display := by
  intro a b h
  have hlist := congrArg String.toList h
  rcases a with a | a <;> rcases b with b | b <;>
    simp only [display, String.toList_append] at hlist
  · have htail := String.toList_inj.mp (List.append_cancel_left hlist)
    rw [Nat.repr_injective htail]
  · exact absurd hlist (by simp)
  · exact absurd hlist (by simp)
  · have htail := String.toList_inj.mp (List.append_cancel_left hlist)
    rw [Nat.repr_injective htail]

/-- The text of a level does not continue the number in front of it. -/
theorem isDigit_head?_display (level : Option Level) :
    ∀ c ∈ ((level.map display).getD "").toList.head?, c.isDigit = false := by
  rcases level with _ | (n | n)
  · simp
  · simp [display, String.toList_append]
  · simp [display, String.toList_append]

/-- A level can be told from a missing one. -/
theorem display_ne_empty (level : Level) : level.display ≠ "" := by
  intro h
  have hlist := congrArg String.toList h
  rcases level with n | n <;> simp [display, String.toList_append] at hlist

/-- The order of levels as one of pairs. -/
def key : Level → Lex (Bool × ℕ)
  | alpha version => toLex (false, version)
  | beta version => toLex (true, version)

theorem key_injective : Function.Injective key := by
  rintro (a | a) (b | b) h <;> simp [key] at h <;> rw [h]

instance : LinearOrder Level := LinearOrder.lift' key key_injective

/-- The order of the keys is the comparison of the source. -/
theorem lt_iff {a b : Level} : a < b ↔ cmp a b = .lt := by
  show key a < key b ↔ cmp a b = .lt
  rcases a with a | a <;> rcases b with b | b <;>
    simp [key, cmp, Prod.Lex.toLex_lt_toLex, compare_lt_iff_lt]

/-- Comparing the other way round gives the other result. -/
theorem cmp_swap (a b : Level) : cmp b a = (cmp a b).swap := by
  have hswap (m n : ℕ) : compare n m = (compare m n).swap := Std.OrientedCmp.eq_swap
  rcases a with a | a <;> rcases b with b | b
  · exact hswap a b
  · rfl
  · rfl
  · exact hswap a b

end Level

namespace Version

/-- Versions with the same major version are compared by their levels, and a missing level is the
greatest one. -/
def cmp (self other : Version) : Ordering :=
  match compare self.major other.major with
  | .eq =>
    match self.level, other.level with
    | some lhs, some rhs => lhs.cmp rhs
    | some _, none => .lt
    | none, some _ => .gt
    | none, none => .eq
  | ord => ord

/-- The text of a version, such as `v1alpha1` or `v1`. -/
def display (version : Version) : String :=
  "v" ++ toString version.major ++ (version.level.map Level.display).getD ""

/-- **Different versions have different texts.** -/
theorem display_injective : Function.Injective display := by
  rintro ⟨major, level⟩ ⟨major', level'⟩ h
  have hlist := congrArg String.toList h
  simp only [display, String.toList_append, List.append_assoc] at hlist
  obtain ⟨rfl, hlevel⟩ := toString_append_inj (Level.isDigit_head?_display level)
    (Level.isDigit_head?_display level') (List.append_cancel_left hlist)
  have hdisplay := String.toList_inj.mp hlevel
  rcases level with _ | l <;> rcases level' with _ | l'
  · rfl
  · exact absurd hdisplay.symm (Level.display_ne_empty l')
  · exact absurd hdisplay (Level.display_ne_empty l)
  · rw [Level.display_injective hdisplay]

/-- The order of versions as one of pairs. -/
def key (version : Version) : Lex (ℕ × WithTop Level) := toLex (version.major, version.level)

theorem key_injective : Function.Injective key := by
  rintro ⟨major, level⟩ ⟨major', level'⟩ h
  obtain ⟨hmajor, hlevel⟩ := Prod.mk.inj (toLex.injective h)
  rw [show major = major' from hmajor, show level = level' from hlevel]

instance : LinearOrder Version := LinearOrder.lift' key key_injective

/-- The order of the keys is the comparison of the source, also for a missing level. -/
theorem lt_iff {a b : Version} : a < b ↔ cmp a b = .lt := by
  show key a < key b ↔ cmp a b = .lt
  rw [key, key, Prod.Lex.toLex_lt_toLex, cmp]
  rcases lt_trichotomy a.major b.major with h | h | h
  · simp [compare_lt_iff_lt.mpr h, h]
  · rw [compare_eq_iff_eq.mpr h]
    rcases a.level with _ | lhs <;> rcases b.level with _ | rhs <;> simp [h]
    -- a missing level is the top element
    · exact not_top_lt
    · exact not_top_lt
    · exact WithTop.coe_lt_top lhs
    · exact WithTop.coe_lt_coe.trans Level.lt_iff
  · simp [compare_gt_iff_gt.mpr h, h.ne', h.le]

theorem cmp_swap (a b : Version) : cmp b a = (cmp a b).swap := by
  have hmajor : compare b.major a.major = (compare a.major b.major).swap :=
    Std.OrientedCmp.eq_swap
  rw [cmp, cmp, hmajor]
  rcases compare a.major b.major with _ | _ | _
  · rfl
  · rcases a.level with _ | lhs <;> rcases b.level with _ | rhs
    · rfl
    · rfl
    · rfl
    · exact Level.cmp_swap lhs rhs
  · rfl

/-- **The order of versions is the one that the source computes.** -/
theorem compare_eq_cmp (a b : Version) : compare a b = cmp a b :=
  compare_eq_of_lt_iff (fun _ _ => lt_iff) cmp_swap a b

end Version

end StackableOperator
