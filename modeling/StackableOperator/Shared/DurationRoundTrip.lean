import Mathlib
import StackableOperator.Shared.DurationFromStr

/-!
# Durations written and read again

The text of a duration is the text of the fragments `shown duration`, one for each unit that
occurs. These fragments are determined by the text, so the parser accepts it iff there is a
fragment at all and the whole days fit into `u64` milliseconds
(`Duration.fromStr_display_eq_ok_iff`). A duration below a millisecond has no fragment, and a
parsed one can have too many days.
-/

namespace StackableOperator

/-! ### Texts determine their fragments -/

theorem fragmentsText_cons (fragment : Fragment) (fragments : List Fragment) :
    fragmentsText (fragment :: fragments) =
      fragment.digits ++ (fragment.unit.asRef.toList ++ fragmentsText fragments) := by
  rw [fragmentsText, List.map_cons, List.flatten_cons, Fragment.text, List.append_assoc,
    ← fragmentsText]

theorem head?_fragmentsText (classes : CharClasses) {fragments : List Fragment}
    (h : ∀ fragment ∈ fragments, fragment.IsDecimal) :
    ∀ c ∈ (fragmentsText fragments).head?, classes.isAlphabetic c = false := by
  intro c hc
  cases fragments with
  | nil => simp [fragmentsText] at hc
  | cons fragment fragments =>
    have hdecimal := h fragment List.mem_cons_self
    rw [fragmentsText_cons, List.head?_append_of_ne_nil _ hdecimal.ne_nil] at hc
    exact classes.isAlphabetic_of_isDigit (hdecimal.isDigit c (List.mem_of_mem_head? hc))

theorem fragmentsText_inj {fragments fragments' : List Fragment}
    (h : ∀ fragment ∈ fragments, fragment.IsDecimal)
    (h' : ∀ fragment ∈ fragments', fragment.IsDecimal)
    (htext : fragmentsText fragments = fragmentsText fragments') : fragments = fragments' := by
  induction fragments generalizing fragments' with
  | nil =>
    cases fragments' with
    | nil => rfl
    | cons fragment fragments' =>
      rw [fragmentsText_cons] at htext
      exact absurd (List.append_eq_nil_iff.mp htext.symm).1
        (h' fragment List.mem_cons_self).ne_nil
  | cons fragment fragments ih =>
    cases fragments' with
    | nil =>
      rw [fragmentsText_cons] at htext
      exact absurd (List.append_eq_nil_iff.mp htext).1 (h fragment List.mem_cons_self).ne_nil
    | cons fragment' fragments' =>
      rw [fragmentsText_cons, fragmentsText_cons] at htext
      obtain ⟨hdecimal, h⟩ := List.forall_mem_cons.mp h
      obtain ⟨hdecimal', h'⟩ := List.forall_mem_cons.mp h'
      obtain ⟨hdigits, hunit, hrest⟩ := fragment_append_inj default hdecimal hdecimal'
        (head?_fragmentsText default h) (head?_fragmentsText default h') htext
      rw [ih h h' hrest, Fragment.ext hdigits hunit]

/-! ### The fragments that are written -/

namespace Duration

/-- The fragment of a number. -/
def numbered (whole : ℕ) (unit : DurationUnit) : Fragment where
  digits := (toString whole).toList
  unit := unit

theorem isDecimal_numbered (whole : ℕ) (unit : DurationUnit) :
    (numbered whole unit).IsDecimal := by
  have h := isDecimal_toString whole
  have hvalue : (numbered whole unit).value = whole := h.value
  rw [Fragment.IsDecimal, hvalue]
  exact h

theorem millis_numbered (whole : ℕ) (unit : DurationUnit) :
    (numbered whole unit).millis = whole * unit.millis := by
  have hvalue : (numbered whole unit).value = whole := (isDecimal_toString whole).value
  rw [Fragment.millis, hvalue]
  rfl

/-- The fragments of these milliseconds, from the given unit on. -/
def shownMillis (millis : ℕ) : List DurationUnit → List Fragment
  | [] => []
  | unit :: rest =>
    (if millis / unit.millis > 0 then [numbered (millis / unit.millis) unit] else []) ++
      shownMillis (millis % unit.millis) rest

/-- The fragments of the text of a duration. -/
def shown (duration : Duration) : List Fragment :=
  if duration.asNanos = 0 then [numbered 0 .seconds]
  else shownMillis duration.asMillis DurationUnit.all

theorem fragmentsText_append (fragments fragments' : List Fragment) :
    fragmentsText (fragments ++ fragments') =
      fragmentsText fragments ++ fragmentsText fragments' := by
  rw [fragmentsText, List.map_append, List.flatten_append, fragmentsText, fragmentsText]

theorem toList_displayMillis (millis : ℕ) (units : List DurationUnit) :
    (displayMillis millis (units.map fun unit => (unit.asRef, unit.millis))).toList =
      fragmentsText (shownMillis millis units) := by
  induction units generalizing millis with
  | nil => rfl
  | cons unit rest ih =>
    rw [List.map_cons, displayMillis, shownMillis, String.toList_append, ih, fragmentsText_append]
    congr 1
    split_ifs
    · rw [String.toList_append]
      exact (List.append_nil _).symm
    · rfl

theorem toList_display (duration : Duration) :
    duration.display.toList = fragmentsText duration.shown := by
  rw [display, shown]
  split_ifs
  · rfl
  · exact toList_displayMillis duration.asMillis DurationUnit.all

theorem isDecimal_shownMillis {millis : ℕ} {units : List DurationUnit} :
    ∀ fragment ∈ shownMillis millis units, fragment.IsDecimal := by
  induction units generalizing millis with
  | nil => simp [shownMillis]
  | cons unit rest ih =>
    rw [shownMillis, List.forall_mem_append]
    refine ⟨?_, ih⟩
    split_ifs
    · simpa using isDecimal_numbered _ unit
    · simp

theorem isDecimal_shown (duration : Duration) :
    ∀ fragment ∈ duration.shown, fragment.IsDecimal := by
  rw [shown]
  split_ifs
  · simpa using isDecimal_numbered 0 .seconds
  · exact isDecimal_shownMillis

theorem units_shownMillis (millis : ℕ) (units : List DurationUnit) :
    ((shownMillis millis units).map Fragment.unit).Sublist units := by
  induction units generalizing millis with
  | nil => exact List.Sublist.refl []
  | cons unit rest ih =>
    rw [shownMillis, List.map_append]
    split_ifs
    · exact (ih _).cons_cons unit
    · exact (ih _).cons unit

theorem pairwise_shown (duration : Duration) :
    (duration.shown.map Fragment.unit).Pairwise fun unit next => next.millis < unit.millis := by
  rw [shown]
  split_ifs
  · exact List.pairwise_singleton _ _
  · have hall : DurationUnit.all.Pairwise fun unit next => next.millis < unit.millis := by decide
    exact hall.sublist (units_shownMillis _ _)

/-- What the last unit leaves is missing in the fragments. -/
theorem totalMillis_shownMillis (millis : ℕ) (units : List DurationUnit) :
    totalMillis (shownMillis millis units) +
      units.foldl (fun millis unit => millis % unit.millis) millis = millis := by
  induction units generalizing millis with
  | nil => exact Nat.zero_add millis
  | cons unit rest ih =>
    have hrest := ih (millis % unit.millis)
    have hdivMod := Nat.div_add_mod' millis unit.millis
    rw [List.foldl_cons, shownMillis]
    split_ifs with hwhole
    · rw [List.singleton_append, totalMillis_cons, millis_numbered]
      omega
    · rw [Nat.eq_zero_of_not_pos hwhole, Nat.zero_mul, Nat.zero_add] at hdivMod
      rw [List.nil_append, hrest, hdivMod]

theorem totalMillis_shown (duration : Duration) :
    totalMillis duration.shown = duration.asMillis := by
  rw [shown]
  split_ifs with hzero
  · rw [asMillis, hzero, totalMillis_cons, millis_numbered]
    rfl
  · have htotal := totalMillis_shownMillis duration.asMillis DurationUnit.all
    have hlast : DurationUnit.all.foldl (fun millis unit => millis % unit.millis)
        duration.asMillis = 0 := Nat.mod_one _
    rwa [hlast, Nat.add_zero] at htotal

theorem millis_le_of_mem_shownMillis {millis : ℕ} {units : List DurationUnit} :
    ∀ fragment ∈ shownMillis millis units, fragment.millis ≤ millis := by
  intro fragment hmem
  have hle : fragment.millis ≤ totalMillis (shownMillis millis units) :=
    List.single_le_sum (by simp) _ (List.mem_map_of_mem hmem)
  exact hle.trans (Nat.le.intro (totalMillis_shownMillis millis units))

/-- Only the number of days can be too great. -/
theorem millis_shown_le_iff (duration : Duration) :
    (∀ fragment ∈ duration.shown, fragment.millis ≤ u64Max) ↔
      duration.asMillis / DurationUnit.days.millis * DurationUnit.days.millis ≤ u64Max := by
  rw [shown]
  split_ifs with hzero
  · refine iff_of_true ?_ ?_
    · rw [List.forall_mem_singleton, millis_numbered, Nat.zero_mul]
      exact Nat.zero_le _
    · rw [asMillis, hzero, Nat.zero_div, Nat.zero_div, Nat.zero_mul]
      exact Nat.zero_le _
  · have hrest : ∀ fragment ∈ shownMillis (duration.asMillis % DurationUnit.days.millis)
        [.hours, .minutes, .seconds, .milliseconds], fragment.millis ≤ u64Max := by
      intro fragment hmem
      have hlt : duration.asMillis % DurationUnit.days.millis < DurationUnit.days.millis :=
        Nat.mod_lt _ (by decide)
      have hdays : DurationUnit.days.millis ≤ u64Max := by decide
      exact (millis_le_of_mem_shownMillis fragment hmem).trans (hlt.le.trans hdays)
    rw [DurationUnit.all, shownMillis, List.forall_mem_append, and_iff_left hrest]
    split_ifs with hwhole
    · rw [List.forall_mem_singleton, millis_numbered]
    · rw [Nat.eq_zero_of_not_pos hwhole, Nat.zero_mul]
      exact iff_of_true (by simp) (Nat.zero_le _)

theorem shown_ne_nil_iff (duration : Duration) :
    duration.shown ≠ [] ↔ duration.asNanos = 0 ∨ 0 < duration.asMillis := by
  rw [shown]
  split_ifs with hzero
  · exact iff_of_true (List.cons_ne_nil _ _) (Or.inl hzero)
  · rw [or_iff_right hzero]
    constructor
    · intro hne
      rw [Nat.pos_iff_ne_zero]
      intro hmillis
      rw [hmillis] at hne
      exact hne rfl
    · intro hpos hnil
      have htotal := totalMillis_shown duration
      rw [shown, if_neg hzero, hnil] at htotal
      exact absurd htotal hpos.ne

/-! ### Reading what was written -/

/-- The text of a duration has no other fragments. -/
theorem continues_display_iff {duration : Duration} {fragments : List Fragment} :
    Continues none duration.display.toList fragments ↔ fragments = duration.shown ∧
      duration.asMillis / DurationUnit.days.millis * DurationUnit.days.millis ≤ u64Max := by
  rw [← millis_shown_le_iff]
  constructor
  · intro h
    have htext := h.text_eq
    rw [toList_display] at htext
    obtain rfl := fragmentsText_inj h.isDecimal (isDecimal_shown duration) htext.symm
    exact ⟨rfl, h.millis_le⟩
  · rintro ⟨rfl, hle⟩
    exact ⟨toList_display duration, isDecimal_shown duration, pairwise_shown duration, hle⟩

variable (classes : CharClasses)

/-- When the text of a duration can be read again, and what is read then. -/
theorem fromStr_display_eq_ok_iff {duration d : Duration} :
    fromStr classes duration.display = some (.ok d) ↔
      (duration.asNanos = 0 ∨ 0 < duration.asMillis) ∧
        duration.asMillis / DurationUnit.days.millis * DurationUnit.days.millis ≤ u64Max ∧
          d.asNanos = duration.asMillis * 10 ^ 6 := by
  obtain ⟨r, hr, hgives⟩ := exists_fromStr classes duration.display
  have hnil : duration.display.toList = [] ↔ duration.shown = [] := by
    rw [toList_display]
    constructor
    · intro hnil
      exact fragmentsText_inj (isDecimal_shown duration) (by simp) hnil
    · intro hnil
      rw [hnil]
      rfl
  rw [hr, Option.some.injEq, hgives, ne_eq, hnil, ← ne_eq, shown_ne_nil_iff]
  refine and_congr_right fun _ => ?_
  constructor
  · rintro ⟨fragments, hcontinues, hnanos⟩
    obtain ⟨rfl, hdays⟩ := continues_display_iff.mp hcontinues
    rw [Nat.zero_add, totalMillis_shown] at hnanos
    exact ⟨hdays, hnanos⟩
  · rintro ⟨hdays, hnanos⟩
    refine ⟨duration.shown, continues_display_iff.mpr ⟨rfl, hdays⟩, ?_⟩
    rw [Nat.zero_add, totalMillis_shown, hnanos]

theorem asMillis_of_asNanos {duration : Duration} {millis : ℕ}
    (h : duration.asNanos = millis * 10 ^ 6) : duration.asMillis = millis := by
  rw [asMillis, h, Nat.mul_div_cancel _ (by decide)]

/-- The text of a parsed duration is read as this duration iff the whole days are not too many. -/
theorem fromStr_display_self_iff {d : Duration} {millis : ℕ}
    (h : d.asNanos = millis * 10 ^ 6) :
    fromStr classes d.display = some (.ok d) ↔
      millis / DurationUnit.days.millis * DurationUnit.days.millis ≤ u64Max := by
  rw [fromStr_display_eq_ok_iff, asMillis_of_asNanos h, and_iff_left h, and_iff_right]
  obtain rfl | hpos := Nat.eq_zero_or_pos millis
  · exact Or.inl (by rw [h, Nat.zero_mul])
  · exact Or.inr hpos

/-- **Parsing, writing and parsing again** gives the same duration iff the fragments that were
parsed do not have more whole days together than `u64` milliseconds. -/
theorem fromStr_display_of_fromStr_iff (s : String) :
    (∀ d, fromStr classes s = some (.ok d) → fromStr classes d.display = some (.ok d)) ↔
      ∀ fragments, IsDurationText s.toList fragments →
        totalMillis fragments / DurationUnit.days.millis * DurationUnit.days.millis ≤ u64Max := by
  obtain ⟨r, hr, hgives⟩ := exists_fromStr classes s
  rw [hr]
  constructor
  · intro h fragments hfragments
    obtain ⟨d, hd⟩ := exists_asNanos_eq hfragments
    have hok := (hgives d).mpr (gives_none_iff.mpr ⟨fragments, hfragments, hd⟩)
    exact (fromStr_display_self_iff classes hd).mp (h d (congrArg some hok))
  · intro h d hd
    obtain ⟨fragments, hfragments, hnanos⟩ :=
      gives_none_iff.mp ((hgives d).mp (Option.some.inj hd))
    exact (fromStr_display_self_iff classes hnanos).mpr (h fragments hfragments)

/-- Days and hours that fit on their own are written as more days than fit. -/
theorem fromStr_display_of_fromStr_sample :
    ∃ d, ∀ classes : CharClasses, fromStr classes "213503982334d24h" = some (.ok d) ∧
      fromStr classes d.display ≠ some (.ok d) := by
  have htext : IsDurationText "213503982334d24h".toList
      [numbered 213503982334 .days, numbered 24 .hours] := by
    refine isDurationText_iff.mpr ⟨List.cons_ne_nil _ _, rfl, ?_, by decide, ?_⟩
    · simp [isDecimal_numbered]
    · simp [millis_numbered]
      decide
  obtain ⟨d, hd⟩ := exists_asNanos_eq htext
  refine ⟨d, fun classes => ⟨?_, ?_⟩⟩
  · obtain ⟨r, hr, hgives⟩ := exists_fromStr classes "213503982334d24h"
    rw [hr, (hgives d).mpr (gives_none_iff.mpr ⟨_, htext, hd⟩)]
  · rw [ne_eq, fromStr_display_self_iff classes hd, totalMillis_cons, totalMillis_cons,
      millis_numbered, millis_numbered]
    decide

/-- **Durations up to `u64::MAX` milliseconds** are written as texts that denote their whole
milliseconds iff they are zero or have a whole millisecond at all. -/
theorem fromStr_display_iff {d : Duration} (h : d.asNanos ≤ u64Max * 10 ^ 6) :
    (∃ r, fromStr classes d.display = some (.ok r) ∧
        r.asNanos = d.asNanos / 10 ^ 6 * 10 ^ 6) ↔ d.asNanos = 0 ∨ 10 ^ 6 ≤ d.asNanos := by
  have hmillis : d.asMillis ≤ u64Max := Nat.div_le_of_le_mul (by rwa [Nat.mul_comm])
  have hdays : d.asMillis / DurationUnit.days.millis * DurationUnit.days.millis ≤ u64Max :=
    (Nat.div_mul_le_self _ _).trans hmillis
  have hpos : 0 < d.asMillis ↔ 10 ^ 6 ≤ d.asNanos := Nat.div_pos_iff.trans (by simp)
  rw [← hpos]
  constructor
  · rintro ⟨r, hr, -⟩
    exact ((fromStr_display_eq_ok_iff classes).mp hr).1
  · intro hzero
    refine ⟨fromMillis d.asMillis hmillis, ?_, asNanos_fromMillis hmillis⟩
    exact (fromStr_display_eq_ok_iff classes).mpr ⟨hzero, hdays, asNanos_fromMillis hmillis⟩

theorem fromStr_display_sample :
    ∃ r, fromStr default (display { secs := 1, nanos := 500000 }) = some (.ok r) ∧
      r.asNanos = 10 ^ 9 := by
  obtain ⟨r, hr, hnanos⟩ := (fromStr_display_iff default (d := { secs := 1, nanos := 500000 })
    (by decide)).mpr (Or.inr (by decide))
  exact ⟨r, hr, hnanos⟩

/-- Half a millisecond has no text. -/
theorem fromStr_display_halfMillisecond :
    ∃ d : Duration, d.asNanos = 500000 ∧ d.asNanos ≤ u64Max * 10 ^ 6 ∧ d.display = "" ∧
      ∀ classes : CharClasses, fromStr classes d.display = some (.error .emptyInput) :=
  ⟨{ secs := 0, nanos := 500000 }, by decide, by decide, by decide, fun _ => rfl⟩

end Duration

end StackableOperator
