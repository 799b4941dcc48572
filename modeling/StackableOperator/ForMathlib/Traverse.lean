import Mathlib
import StackableOperator.ForMathlib.IterMap

/-!
# Fallible traversals that stop at the first error

Two loops over `Except` with an early return: `traverseFin` visits the components of a finite
dependent tuple in the order of their index, `IterMap.traverse` visits the entries of a map in
its iteration order and collects the results under the same keys. Each comes with three
facts: what success says pointwise, that pointwise success suffices, and which visit an error
comes from.
-/

namespace StackableOperator

variable {ε : Type}

/-- Inversion of a successful bind. -/
theorem bind_eq_ok {α β : Type} {x : Except ε α} {f : α → Except ε β} {b : β} :
    (x >>= f) = .ok b ↔ ∃ a, x = .ok a ∧ f a = .ok b := by
  cases x <;> simp [bind, Except.bind]

/-- Inversion of a failing bind: either the first computation fails or the second one. -/
theorem bind_eq_error {α β : Type} {x : Except ε α} {f : α → Except ε β} {e : ε} :
    (x >>= f) = .error e ↔ x = .error e ∨ ∃ a, x = .ok a ∧ f a = .error e := by
  cases x <;> simp [bind, Except.bind]

theorem mapError_eq_ok_iff {ε' α : Type} {f : ε → ε'} {x : Except ε α} {a : α} :
    x.mapError f = .ok a ↔ x = .ok a := by
  match x with
  | .ok _ => simp [Except.mapError]
  | .error _ => simp [Except.mapError]

/-- A computation that does not succeed fails. -/
theorem exists_ok_or_exists_error {α : Type} (x : Except ε α) :
    (∃ a, x = .ok a) ∨ ∃ e, x = .error e := by
  cases x with
  | ok a => exact .inl ⟨a, rfl⟩
  | error e => exact .inr ⟨e, rfl⟩

/-- Related options stay related under a weaker relation. -/
theorem optionRel_imp {α β : Type} {r s : α → β → Prop} (h : ∀ a b, r a b → s a b)
    {x : Option α} {y : Option β} : Option.Rel r x y → Option.Rel s x y
  | .some hab => .some (h _ _ hab)
  | .none => .none

/-! ### Lists -/

section List

variable {α β : Type}

theorem mapM_eq_ok_iff {f : α → Except ε β} {l : List α} {r : List β} :
    l.mapM f = .ok r ↔ List.Forall₂ (fun a b => f a = .ok b) l r := by
  induction l generalizing r with
  | nil =>
    rw [List.mapM_nil, List.forall₂_nil_left_iff]
    exact ⟨fun h => (Except.ok.inj h).symm, fun h => congrArg Except.ok h.symm⟩
  | cons a l ih =>
    rw [List.mapM_cons, bind_eq_ok, List.forall₂_cons_left_iff]
    constructor
    · rintro ⟨b, hb, h⟩
      obtain ⟨bs, hbs, h⟩ := bind_eq_ok.mp h
      obtain rfl : b :: bs = r := Except.ok.inj h
      exact ⟨b, bs, hb, ih.mp hbs, rfl⟩
    · rintro ⟨b, bs, hb, hbs, rfl⟩
      exact ⟨b, hb, bind_eq_ok.mpr ⟨bs, ih.mpr hbs, rfl⟩⟩

theorem mapM_eq_some_iff {f : α → Option β} {l : List α} {r : List β} :
    l.mapM f = some r ↔ List.Forall₂ (fun a b => f a = some b) l r := by
  induction l generalizing r with
  | nil =>
    rw [List.mapM_nil, List.forall₂_nil_left_iff]
    exact ⟨fun h => (Option.some.inj h).symm, fun h => congrArg some h.symm⟩
  | cons a l ih =>
    rw [List.mapM_cons, Option.bind_eq_bind, Option.bind_eq_some_iff, List.forall₂_cons_left_iff]
    constructor
    · rintro ⟨b, hb, h⟩
      obtain ⟨bs, hbs, h⟩ := Option.bind_eq_some_iff.mp h
      obtain rfl : b :: bs = r := Option.some.inj h
      exact ⟨b, bs, hb, ih.mp hbs, rfl⟩
    · rintro ⟨b, bs, hb, hbs, rfl⟩
      exact ⟨b, hb, Option.bind_eq_some_iff.mpr ⟨bs, ih.mpr hbs, rfl⟩⟩

theorem mapM_eq_ok_map {f : α → Except ε β} {g : α → β} {l : List α}
    (h : ∀ a ∈ l, f a = .ok (g a)) : l.mapM f = .ok (l.map g) := by
  rw [mapM_eq_ok_iff, List.forall₂_map_right_iff, List.forall₂_same]
  exact h

/-- A list of computations succeeds if each of them does. -/
theorem exists_mapM_eq_ok_iff {f : α → Except ε β} {l : List α} :
    (∃ r, l.mapM f = .ok r) ↔ ∀ a ∈ l, ∃ b, f a = .ok b := by
  simp only [mapM_eq_ok_iff]
  induction l with
  | nil => simp
  | cons a l ih =>
    rw [List.forall_mem_cons, ← ih]
    constructor
    · rintro ⟨r, h⟩
      obtain ⟨b, bs, hb, hbs, rfl⟩ := List.forall₂_cons_left_iff.mp h
      exact ⟨⟨b, hb⟩, bs, hbs⟩
    · rintro ⟨⟨b, hb⟩, bs, hbs⟩
      exact ⟨b :: bs, .cons hb hbs⟩

theorem mem_of_mapM {f : α → Except ε β} {l : List α} {r : List β}
    (h : List.Forall₂ (fun a b => f a = .ok b) l r) {a : α} {b : β} (ha : a ∈ l)
    (hb : f a = .ok b) : b ∈ r := by
  induction h with
  | nil => exact absurd ha List.not_mem_nil
  | @cons a' b' l r hab _ ih =>
    rcases List.mem_cons.mp ha with rfl | ha
    · obtain rfl := Except.ok.inj (hb.symm.trans hab)
      exact List.mem_cons_self
    · exact List.mem_cons_of_mem b' (ih ha)

theorem exists_of_mem_mapM {f : α → Except ε β} {l : List α} {r : List β}
    (h : List.Forall₂ (fun a b => f a = .ok b) l r) {b : β} (hb : b ∈ r) :
    ∃ a ∈ l, f a = .ok b := by
  induction h with
  | nil => exact absurd hb List.not_mem_nil
  | @cons a' b' l r hab _ ih =>
    rcases List.mem_cons.mp hb with rfl | hb
    · exact ⟨a', List.mem_cons_self, hab⟩
    · obtain ⟨a, ha, hfa⟩ := ih hb
      exact ⟨a, List.mem_cons_of_mem a' ha, hfa⟩

/-- The results of two computations are related one by one iff they are for each item. -/
theorem forall₂_mapM_iff {γ : Type} {f : α → Except ε β} {g : α → Except ε γ} {t : β → γ → Prop}
    {l : List α} {bs : List β} {cs : List γ} (hf : List.Forall₂ (fun a b => f a = .ok b) l bs)
    (hg : List.Forall₂ (fun a c => g a = .ok c) l cs) :
    List.Forall₂ t bs cs ↔ ∀ a ∈ l, ∀ b c, f a = .ok b → g a = .ok c → t b c := by
  induction hf generalizing cs with
  | nil =>
    obtain rfl := List.forall₂_nil_left_iff.mp hg
    simp
  | @cons a b l bs hab _ ih =>
    obtain ⟨c, cs, hac, hcs, rfl⟩ := List.forall₂_cons_left_iff.mp hg
    rw [List.forall₂_cons, List.forall_mem_cons, ih hcs]
    refine and_congr_left fun _ => ⟨?_, fun h => h b c hab hac⟩
    intro h b' c' hb' hc'
    obtain rfl := Except.ok.inj (hab.symm.trans hb')
    obtain rfl := Except.ok.inj (hac.symm.trans hc')
    exact h

/-- A loop whose body may fail, or have no result at all, runs to its end, or up to the first item
at which the body has no value. -/
theorem mapM_exceptT_cases (f : α → Option (Except ε β)) (l : List α) :
    (∃ r, (l.mapM fun a => ExceptT.mk (f a)).run = some (.ok r) ∧
      List.Forall₂ (fun a b => f a = some (.ok b)) l r) ∨
    ∃ front a rest, l = front ++ a :: rest ∧ (∀ a' ∈ front, ∃ b, f a' = some (.ok b)) ∧
      ((∃ e, f a = some (.error e) ∧ (l.mapM fun a => ExceptT.mk (f a)).run = some (.error e)) ∨
        f a = none ∧ (l.mapM fun a => ExceptT.mk (f a)).run = none) := by
  induction l with
  | nil => exact .inl ⟨[], rfl, .nil⟩
  | cons a l ih =>
    rw [List.mapM_cons, ExceptT.run_bind, ExceptT.run_mk]
    cases ha : f a with
    | none =>
      exact .inr ⟨[], a, l, rfl, fun a' hmem => absurd hmem List.not_mem_nil, .inr ⟨ha, rfl⟩⟩
    | some result =>
      cases result with
      | error e =>
        exact .inr ⟨[], a, l, rfl, fun a' hmem => absurd hmem List.not_mem_nil, .inl ⟨e, ha, rfl⟩⟩
      | ok b =>
        simp only [Option.bind_eq_bind, Option.bind_some, ExceptT.run_bind]
        obtain ⟨r, hr, hall⟩ | ⟨front, a', rest, rfl, hfront, hstop⟩ := ih
        · rw [hr]
          exact .inl ⟨b :: r, rfl, .cons ha hall⟩
        · refine .inr ⟨a :: front, a', rest, rfl, List.forall_mem_cons.mpr ⟨⟨b, ha⟩, hfront⟩, ?_⟩
          obtain ⟨e, he, hr⟩ | ⟨hnone, hr⟩ := hstop
          · rw [hr]
            exact .inl ⟨e, he, rfl⟩
          · rw [hr]
            exact .inr ⟨hnone, rfl⟩

/-- Of two lists with values at the same places, the values are related one by one iff they are
place by place. -/
theorem forall₂_reduceOption_iff {r : α → β → Prop} {as : List (Option α)} {bs : List (Option β)}
    (h : List.Forall₂ (fun a b => a.isSome = b.isSome) as bs) :
    List.Forall₂ r as.reduceOption bs.reduceOption ↔ List.Forall₂ (Option.Rel r) as bs := by
  induction h with
  | nil => simp
  | @cons a b as bs hab _ ih =>
    rw [List.forall₂_cons, ← ih]
    rcases a with _ | a <;> rcases b with _ | b
    · simp [List.reduceOption_cons_of_none]
    · simp at hab
    · simp at hab
    · simp [List.reduceOption_cons_of_some]

end List

/-! ### Tuples -/

/-- Evaluate the components of a tuple in the order of their index. -/
def traverseFin : {n : ℕ} → {β : Fin n → Type} → ((i : Fin n) → Except ε (β i)) →
    Except ε ((i : Fin n) → β i)
  | 0, _, _ => .ok fun i => i.elim0
  | n + 1, β, g => do
    let x ← g 0
    let xs ← traverseFin (β := fun i : Fin n => β i.succ) fun i => g i.succ
    return Fin.cons x xs

/-- The traversal of a tuple succeeds with the tuple of the component results. -/
theorem traverseFin_eq_ok {n : ℕ} {β : Fin n → Type} {g : (i : Fin n) → Except ε (β i)}
    {v : (i : Fin n) → β i} : traverseFin g = .ok v ↔ ∀ i, g i = .ok (v i) := by
  induction n with
  | zero =>
    refine ⟨fun _ i => i.elim0, fun _ => ?_⟩
    rw [traverseFin]
    exact congrArg Except.ok (funext fun i => i.elim0)
  | succ n ih =>
    rw [traverseFin, bind_eq_ok, Fin.forall_fin_succ]
    constructor
    · rintro ⟨x, hx, h⟩
      obtain ⟨xs, hxs, h⟩ := bind_eq_ok.mp h
      obtain rfl : Fin.cons x xs = v := Except.ok.inj h
      exact ⟨hx, ih.mp hxs⟩
    · rintro ⟨h0, hs⟩
      refine ⟨v 0, h0, bind_eq_ok.mpr ⟨fun i => v i.succ, ih.mpr hs, ?_⟩⟩
      exact congrArg Except.ok (Fin.cons_self_tail v)

/-- An error of the traversal is the one of the first component that fails. -/
theorem exists_of_traverseFin_eq_error {n : ℕ} {β : Fin n → Type}
    {g : (i : Fin n) → Except ε (β i)} {e : ε} (h : traverseFin g = .error e) :
    ∃ i, g i = .error e ∧ ∀ j < i, ∃ x, g j = .ok x := by
  induction n with
  | zero => simp [traverseFin] at h
  | succ n ih =>
    rw [traverseFin] at h
    rcases bind_eq_error.mp h with h0 | ⟨x, hx, h⟩
    · exact ⟨0, h0, fun j hj => absurd hj (Fin.not_lt_zero j)⟩
    · rcases bind_eq_error.mp h with h | ⟨xs, -, h⟩
      · obtain ⟨i, hi, hlt⟩ := ih h
        refine ⟨i.succ, hi, fun j hj => ?_⟩
        cases j using Fin.cases with
        | zero => exact ⟨x, hx⟩
        | succ j => exact hlt j (Fin.succ_lt_succ_iff.mp hj)
      · cases h

/-! ### Maps -/

section Entries

variable {K V W : Type}

/-- Evaluate the entries of an iterator one after the other, keeping their keys. -/
def traverseEntries (g : K → V → Except ε W) : List (K × V) → Except ε (List (K × W))
  | [] => .ok []
  | (k, v) :: l => do
    let w ← g k v
    let ws ← traverseEntries g l
    return (k, w) :: ws

theorem map_fst_of_traverseEntries_eq_ok {g : K → V → Except ε W} {l : List (K × V)}
    {r : List (K × W)} (h : traverseEntries g l = .ok r) : r.map Prod.fst = l.map Prod.fst := by
  induction l generalizing r with
  | nil =>
    obtain rfl : [] = r := Except.ok.inj h
    rfl
  | cons e l ih =>
    obtain ⟨w, -, h⟩ := bind_eq_ok.mp h
    obtain ⟨ws, hws, h⟩ := bind_eq_ok.mp h
    obtain rfl : (e.1, w) :: ws = r := Except.ok.inj h
    rw [List.map_cons, List.map_cons, ih hws]

theorem mem_of_traverseEntries_eq_ok {g : K → V → Except ε W} {l : List (K × V)}
    {r : List (K × W)} (h : traverseEntries g l = .ok r) (k : K) (w : W) (hw : (k, w) ∈ r) :
    ∃ v, (k, v) ∈ l ∧ g k v = .ok w := by
  induction l generalizing r with
  | nil =>
    obtain rfl : [] = r := Except.ok.inj h
    exact absurd hw List.not_mem_nil
  | cons e l ih =>
    obtain ⟨w', hw', h⟩ := bind_eq_ok.mp h
    obtain ⟨ws, hws, h⟩ := bind_eq_ok.mp h
    obtain rfl : (e.1, w') :: ws = r := Except.ok.inj h
    rcases List.mem_cons.mp hw with heq | hw
    · obtain ⟨rfl, rfl⟩ := Prod.mk.inj heq
      exact ⟨e.2, List.mem_cons_self, hw'⟩
    · obtain ⟨v, hv, hg⟩ := ih hws hw
      exact ⟨v, List.mem_cons_of_mem e hv, hg⟩

theorem exists_of_traverseEntries_eq_error {g : K → V → Except ε W} {l : List (K × V)} {e : ε}
    (h : traverseEntries g l = .error e) :
    ∃ pre k v post, l = pre ++ (k, v) :: post ∧ g k v = .error e ∧
      ∀ k' v', (k', v') ∈ pre → ∃ w, g k' v' = .ok w := by
  induction l with
  | nil => cases h
  | cons x l ih =>
    rcases bind_eq_error.mp h with hx | ⟨w, hw, h⟩
    · exact ⟨[], x.1, x.2, l, rfl, hx, fun k' v' hm => absurd hm List.not_mem_nil⟩
    · rcases bind_eq_error.mp h with h | ⟨ws, -, h⟩
      · obtain ⟨pre, k, v, post, rfl, hg, hpre⟩ := ih h
        refine ⟨x :: pre, k, v, post, rfl, hg, fun k' v' hm => ?_⟩
        rcases List.mem_cons.mp hm with rfl | hm
        · exact ⟨w, hw⟩
        · exact hpre k' v' hm
      · cases h

end Entries

namespace IterMap

variable {K : Type} {M : Type → Type} [IterMap K M] {V W : Type}

/-- Evaluate the entries of a map in iteration order and collect the results. -/
def traverse (g : K → V → Except ε W) (m : M V) : Except ε (M W) := do
  let entries ← traverseEntries g (iter m)
  return collect entries

/-- A successful traversal keeps the keys and evaluates each value. -/
theorem rel_of_traverse_eq_ok {g : K → V → Except ε W} {m : M V} {m' : M W}
    (h : traverse g m = .ok m') (k : K) :
    Option.Rel (fun v w => g k v = .ok w) (get? m k) (get? m' k) := by
  obtain ⟨r, hr, h⟩ := bind_eq_ok.mp h
  obtain rfl : collect r = m' := Except.ok.inj h
  have hkeys := map_fst_of_traverseEntries_eq_ok hr
  have hnodup : (r.map Prod.fst).Nodup := hkeys ▸ nodup_iter m
  cases hw : get? (collect r : M W) k with
  | some w =>
    obtain ⟨v, hv, hg⟩ := mem_of_traverseEntries_eq_ok hr k w ((get?_collect hnodup).mp hw)
    rw [(mem_iter m k v).mp hv]
    exact .some hg
  | none =>
    cases hv : get? m k with
    | none => exact .none
    | some v =>
      have hk : k ∈ r.map Prod.fst := by
        rw [hkeys]
        exact List.mem_map.mpr ⟨(k, v), (mem_iter m k v).mpr hv, rfl⟩
      obtain ⟨x, hx, rfl⟩ := List.mem_map.mp hk
      have hsome : get? (collect r : M W) x.1 = some x.2 := (get?_collect hnodup).mpr hx
      exact absurd (hsome.symm.trans hw) (by simp)

/-- An error of the traversal is the one of the first entry, in iteration order, that cannot
be evaluated. -/
theorem exists_of_traverse_eq_error {g : K → V → Except ε W} {m : M V} {e : ε}
    (h : traverse g m = .error e) :
    ∃ pre k v post, iter m = pre ++ (k, v) :: post ∧ g k v = .error e ∧
      ∀ k' v', (k', v') ∈ pre → ∃ w, g k' v' = .ok w := by
  rcases bind_eq_error.mp h with h | ⟨r, -, h⟩
  · exact exists_of_traverseEntries_eq_error h
  · cases h

end IterMap

/-- In a tree map, the entry whose evaluation fails first has the least key among the
failing ones. -/
theorem BTreeMap.exists_of_traverse_eq_error {K V W : Type} [LinearOrder K]
    {g : K → V → Except ε W} {m : BTreeMap K V} {e : ε}
    (h : IterMap.traverse g m = .error e) :
    ∃ k v, IterMap.get? m k = some v ∧ g k v = .error e ∧
      ∀ k' < k, ∀ v', IterMap.get? m k' = some v' → ∃ w, g k' v' = .ok w := by
  obtain ⟨pre, k, v, post, hiter, hg, hpre⟩ := IterMap.exists_of_traverse_eq_error h
  have hmem : (k, v) ∈ IterMap.iter m := by simp [hiter]
  refine ⟨k, v, (IterMap.mem_iter m k v).mp hmem, hg, fun k' hlt v' hv' => ?_⟩
  have hk' : (k', v') ∈ pre ++ (k, v) :: post := hiter ▸ (IterMap.mem_iter m k' v').mpr hv'
  rcases List.mem_append.mp hk' with hin | hin
  · exact hpre k' v' hin
  · -- an entry after `k` in iteration order has a key above `k`
    have hsorted := BTreeMap.sorted_iter m
    rw [hiter, List.map_append, List.map_cons] at hsorted
    have hgt := (List.pairwise_cons.mp (List.pairwise_append.mp hsorted).2.1).1
    rcases List.mem_cons.mp hin with heq | hin
    · exact absurd hlt (by rw [(Prod.mk.inj heq).1]; exact lt_irrefl k)
    · exact absurd (hgt k' (List.mem_map.mpr ⟨_, hin, rfl⟩)) (not_lt_of_gt hlt)

end StackableOperator
