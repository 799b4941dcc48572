import Mathlib

/-!
# Sharing a resource that is taken as a whole

A computation over a state with a *slot* finds a resource there or not. Several users run one
after the other: the first of them takes the whole resource, and all others find an empty slot.
`Slot.Takes c users x` says when such a computation `c` computes `x`: with an empty slot if all
users are content without the resource, and with a resource if the first user is content with all
of it and the others are content without.

The rules follow the structure of computations: `Takes.pure`, `Takes.map`, `Takes.bind`,
`Takes.mapM`, and `Takes.andTake` for a user after its predecessors.
-/

namespace StackableOperator

/-- A place in a state that holds a resource or is empty. -/
structure Slot (σ R : Type) where
  get? : σ → Option R
  clear : σ → σ
  get?_clear : ∀ s, get? (clear s) = none

namespace Slot

variable {σ R ι ε α β γ : Type}

/-- The first user is content with the resource and the others without it. -/
def FirstContent (Restored : ι → Prop) (Default : ι → Prop) : List ι → Prop
  | [] => False
  | first :: rest => Restored first ∧ ∀ i ∈ rest, Default i

theorem firstContent_append {Restored Default : ι → Prop} {users others : List ι}
    (h : users ≠ []) : FirstContent Restored Default (users ++ others) ↔
      FirstContent Restored Default users ∧ ∀ i ∈ others, Default i := by
  obtain ⟨first, rest, rfl⟩ := List.exists_cons_of_ne_nil h
  simp only [List.cons_append, FirstContent, List.forall_mem_append, and_assoc]

variable (slot : Slot σ R) (Default : ι → Prop) (Restored : R → ι → Prop)

/-- What a computation with some users of the slot does. -/
structure Takes (c : StateT σ (Except ε) α) (users : List ι) (x : α) : Prop where
  of_empty : ∀ s, slot.get? s = none →
    ∃ y, c.run s = .ok (y, s) ∧ (y = x ↔ ∀ i ∈ users, Default i)
  of_no_user : users = [] → ∀ s, c.run s = .ok (x, s)
  eq_clear : users ≠ [] → ∀ s r, slot.get? s = some r →
    ∀ y s', c.run s = .ok (y, s') → s' = slot.clear s
  run_eq_iff : users ≠ [] → ∀ s r, slot.get? s = some r →
    (c.run s = .ok (x, slot.clear s) ↔ FirstContent (Restored r) Default users)

namespace Takes

variable {slot Default Restored} {c : StateT σ (Except ε) α} {d : StateT σ (Except ε) β}
  {users others : List ι} {x : α} {y : β}

theorem pure (x : α) : Takes slot Default Restored (pure x : StateT σ (Except ε) α) [] x where
  of_empty := fun s _ => ⟨x, rfl, by simp⟩
  of_no_user := fun _ _ => rfl
  eq_clear := fun h => absurd rfl h
  run_eq_iff := fun h => absurd rfl h

/-- A computation that finds an empty slot leaves it. -/
theorem run_of_empty (h : Takes slot Default Restored c users x) {s : σ}
    (hs : slot.get? s = none) :
    c.run s = .ok (x, s) ↔ ∀ i ∈ users, Default i := by
  obtain ⟨y, hy, hiff⟩ := h.of_empty s hs
  rw [hy, ← hiff]
  constructor
  · intro heq
    exact (Prod.mk.inj (Except.ok.inj heq)).1
  · rintro rfl
    rfl

/-- The state after a computation. -/
theorem state_eq (h : Takes slot Default Restored c users x) {s s' : σ} {y : α}
    (hrun : c.run s = .ok (y, s')) :
    s' = s ∨ s' = slot.clear s := by
  rcases hs : slot.get? s with _ | r
  · obtain ⟨z, hz, -⟩ := h.of_empty s hs
    exact Or.inl (Prod.mk.inj (Except.ok.inj (hrun.symm.trans hz))).2
  · by_cases husers : users = []
    · exact Or.inl (Prod.mk.inj (Except.ok.inj (hrun.symm.trans (h.of_no_user husers s)))).2
    · exact Or.inr (h.eq_clear husers s r hs y s' hrun)

theorem run_map_eq_ok_iff {f : α → β} {s s' : σ} {z : β} :
    (f <$> c).run s = .ok (z, s') ↔ ∃ y, c.run s = .ok (y, s') ∧ f y = z := by
  rw [StateT.run_map]
  rcases c.run s with e | ⟨y, t⟩
  · simp [Functor.map, Except.map]
  · simp only [Functor.map, Except.map, Except.ok.injEq, Prod.mk.injEq]
    constructor
    · rintro ⟨rfl, rfl⟩
      exact ⟨y, ⟨rfl, rfl⟩, rfl⟩
    · rintro ⟨y', ⟨rfl, rfl⟩, rfl⟩
      exact ⟨rfl, rfl⟩

theorem run_bind_eq_ok_iff {f : α → StateT σ (Except ε) β} {s s' : σ} {z : β} :
    (c >>= f).run s = .ok (z, s') ↔ ∃ y t, c.run s = .ok (y, t) ∧ (f y).run t = .ok (z, s') := by
  rw [StateT.run_bind]
  rcases c.run s with e | ⟨y, t⟩
  · simp [Bind.bind, Except.bind]
  · simp only [Bind.bind, Except.bind, Except.ok.injEq, Prod.mk.injEq]
    constructor
    · intro h
      exact ⟨y, t, ⟨rfl, rfl⟩, h⟩
    · rintro ⟨y', t', ⟨rfl, rfl⟩, h⟩
      exact h

/-- Computations with a function that is injective on their results. -/
theorem map (h : Takes slot Default Restored c users x) {f : α → β}
    (hf : ∀ s s' y, c.run s = .ok (y, s') → f y = f x → y = x) :
    Takes slot Default Restored (f <$> c) users (f x) where
  of_empty := by
    intro s hs
    obtain ⟨y, hy, hiff⟩ := h.of_empty s hs
    refine ⟨f y, run_map_eq_ok_iff.mpr ⟨y, hy, rfl⟩, Iff.trans ⟨hf s s y hy, ?_⟩ hiff⟩
    rintro rfl
    rfl
  of_no_user := fun husers s => run_map_eq_ok_iff.mpr ⟨x, h.of_no_user husers s, rfl⟩
  eq_clear := by
    intro husers s r hs z s' hrun
    obtain ⟨y, hy, -⟩ := run_map_eq_ok_iff.mp hrun
    exact h.eq_clear husers s r hs y s' hy
  run_eq_iff := by
    intro husers s r hs
    rw [← h.run_eq_iff husers s r hs, run_map_eq_ok_iff]
    constructor
    · rintro ⟨y, hy, heq⟩
      rw [← hf s _ y hy heq]
      exact hy
    · intro hx
      exact ⟨x, hx, rfl⟩

/-- **One computation after the other.** -/
theorem bind (hc : Takes slot Default Restored c users x)
    (hd : Takes slot Default Restored d others y) {f : α → β → γ} (hf : Function.Injective2 f) :
    Takes slot Default Restored (c >>= fun a => f a <$> d) (users ++ others) (f x y) := by
  have hrun (s s' : σ) (z : γ) : (c >>= fun a => f a <$> d).run s = .ok (z, s') ↔
      ∃ a t b, c.run s = .ok (a, t) ∧ d.run t = .ok (b, s') ∧ f a b = z := by
    simp only [run_bind_eq_ok_iff, run_map_eq_ok_iff]
    constructor
    · rintro ⟨a, t, ha, b, hb, heq⟩
      exact ⟨a, t, b, ha, hb, heq⟩
    · rintro ⟨a, t, b, ha, hb, heq⟩
      exact ⟨a, t, ha, b, hb, heq⟩
  refine ⟨?_, ?_, ?_, ?_⟩
  · intro s hs
    obtain ⟨a, ha, haiff⟩ := hc.of_empty s hs
    obtain ⟨b, hb, hbiff⟩ := hd.of_empty s hs
    refine ⟨f a b, (hrun s s _).mpr ⟨a, s, b, ha, hb, rfl⟩, ?_⟩
    rw [hf.eq_iff, haiff, hbiff, List.forall_mem_append]
  · intro husers s
    obtain ⟨hnil, hnil'⟩ := List.append_eq_nil_iff.mp husers
    exact (hrun s s _).mpr ⟨x, s, y, hc.of_no_user hnil s, hd.of_no_user hnil' s, rfl⟩
  · intro husers s r hs z s' hz
    obtain ⟨a, t, b, ha, hb, -⟩ := (hrun s s' z).mp hz
    -- whoever comes first finds the resource and takes it
    by_cases hnil : users = []
    · obtain ⟨-, rfl⟩ := Prod.mk.inj (Except.ok.inj ((hc.of_no_user hnil s).symm.trans ha))
      rw [hnil, List.nil_append] at husers
      exact hd.eq_clear husers s r hs b s' hb
    · obtain rfl := hc.eq_clear hnil s r hs a t ha
      obtain ⟨b', hb', -⟩ := hd.of_empty _ (slot.get?_clear s)
      exact (Prod.mk.inj (Except.ok.inj (hb.symm.trans hb'))).2
  · intro husers s r hs
    rw [hrun]
    -- without users in front the second computation decides, else it finds none
    by_cases hnil : users = []
    · rw [hnil, List.nil_append] at husers ⊢
      rw [← hd.run_eq_iff husers s r hs]
      have hx := hc.of_no_user hnil s
      constructor
      · rintro ⟨a, t, b, ha, hb, heq⟩
        obtain ⟨-, rfl⟩ := Prod.mk.inj (Except.ok.inj (hx.symm.trans ha))
        rw [← (hf heq).2]
        exact hb
      · intro hy
        exact ⟨x, s, y, hx, hy, rfl⟩
    · rw [firstContent_append hnil, ← hc.run_eq_iff hnil s r hs,
        ← hd.run_of_empty (slot.get?_clear s)]
      constructor
      · rintro ⟨a, t, b, ha, hb, heq⟩
        obtain rfl := hc.eq_clear hnil s r hs a t ha
        obtain ⟨rfl, rfl⟩ := hf heq
        exact ⟨ha, hb⟩
      · rintro ⟨hx, hy⟩
        exact ⟨x, slot.clear s, y, hx, hy, rfl⟩

/-- The items of a list, one after the other. -/
theorem mapM {δ : Type} {c : δ → StateT σ (Except ε) α} {users : δ → List ι} {x : δ → α}
    {l : List δ} (h : ∀ a ∈ l, Takes slot Default Restored (c a) (users a) (x a)) :
    Takes slot Default Restored (l.mapM c) (l.flatMap users) (l.map x) := by
  induction l with
  | nil => exact Takes.pure []
  | cons a l ih =>
    obtain ⟨ha, hl⟩ := List.forall_mem_cons.mp h
    have hcons : Function.Injective2 (List.cons : α → List α → List α) := by
      intro b b' bs bs' heq
      exact List.cons.inj heq
    have hbind := ha.bind (ih hl) hcons
    simpa only [List.mapM_cons, List.flatMap_cons, List.map_cons, map_eq_pure_bind] using hbind

/-- **A user after its predecessors.** The predecessors leave a wrong result for it (`hout`) unless
it is content without the resource. -/
theorem andTake (h : Takes slot Default Restored c users x)
    {f : α → StateT σ (Except ε) α} {own : ι} {z : α}
    (hout : ∀ s s', c.run s = .ok (z, s') → Default own) (hdefault : Default own → x = z)
    (hempty : ∀ s a, slot.get? s = none → (f a).run s = .ok (a, s))
    (hclear : ∀ s r, slot.get? s = some r →
      ∀ a b s', (f a).run s = .ok (b, s') → s' = slot.clear s)
    (hiff : ∀ s r, slot.get? s = some r →
      ((f x).run s = .ok (z, slot.clear s) ↔ Restored r own)) :
    Takes slot Default Restored (c >>= f) (users ++ [own]) z := by
  have hne : users ++ [own] ≠ [] := by simp
  refine ⟨?_, fun hnil => absurd hnil hne, ?_, ?_⟩
  · intro s hs
    obtain ⟨a, ha, haiff⟩ := h.of_empty s hs
    refine ⟨a, run_bind_eq_ok_iff.mpr ⟨a, s, ha, hempty s a hs⟩, ?_⟩
    rw [List.forall_mem_append, List.forall_mem_singleton, ← haiff]
    constructor
    · rintro rfl
      have hown := hout s s ha
      exact ⟨(hdefault hown).symm, hown⟩
    · rintro ⟨rfl, hown⟩
      exact hdefault hown
  · intro _ s r hs b s' hrun
    obtain ⟨a, t, ha, hb⟩ := run_bind_eq_ok_iff.mp hrun
    -- the last user takes the resource unless a predecessor did
    by_cases hnil : users = []
    · obtain ⟨-, rfl⟩ := Prod.mk.inj (Except.ok.inj ((h.of_no_user hnil s).symm.trans ha))
      exact hclear s r hs a b s' hb
    · obtain rfl := h.eq_clear hnil s r hs a t ha
      exact (Prod.mk.inj (Except.ok.inj
        (hb.symm.trans (hempty _ a (slot.get?_clear s))))).2
  · intro _ s r hs
    rw [run_bind_eq_ok_iff]
    by_cases hnil : users = []
    · have hx := h.of_no_user hnil s
      rw [hnil, List.nil_append, FirstContent, ← hiff s r hs]
      constructor
      · rintro ⟨a, t, ha, hb⟩
        obtain ⟨rfl, rfl⟩ := Prod.mk.inj (Except.ok.inj (hx.symm.trans ha))
        exact ⟨hb, fun _ hmem => absurd hmem List.not_mem_nil⟩
      · rintro ⟨hz, -⟩
        exact ⟨x, s, hx, hz⟩
    · rw [firstContent_append hnil, List.forall_mem_singleton, ← h.run_eq_iff hnil s r hs]
      constructor
      · rintro ⟨a, t, ha, hb⟩
        obtain rfl := h.eq_clear hnil s r hs a t ha
        -- a predecessor took it, so the last user is content only with its default
        have hrun := hempty _ a (slot.get?_clear s)
        obtain ⟨rfl, -⟩ := Prod.mk.inj (Except.ok.inj (hrun.symm.trans hb))
        have hown := hout s _ ha
        rw [hdefault hown]
        exact ⟨ha, hown⟩
      · rintro ⟨hx, hown⟩
        rw [hdefault hown] at hx
        exact ⟨z, _, hx, hempty _ z (slot.get?_clear s)⟩

end Takes

end Slot

end StackableOperator
