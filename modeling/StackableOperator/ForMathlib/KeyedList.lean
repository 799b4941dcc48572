import Mathlib

/-!
# Lists with keys

A `KeyedList key` is a list of values with different keys, in the order of insertion. Adding a
value that is already there changes nothing, and adding a different one with the same key fails with
both values. `addAll` adds values one after the other.

`accepted` is what such lists are about, without the lists: of the batches that are offered, each is
accepted up to the first value that differs from an accepted one with the same key. A list to which
the batches were added consists of the accepted values, each at its first place
(`foldl_addEach_values`).
-/

/-- Values with different keys, in the order of their insertion. -/
structure KeyedList {α K : Type*} (key : α → K) where
  values : List α
  nodup : (values.map key).Nodup

namespace KeyedList

variable {α K : Type*} {key : α → K}

@[ext]
theorem ext {l l' : KeyedList key} (h : l.values = l'.values) : l = l' := by
  obtain ⟨values, _⟩ := l
  obtain ⟨values', _⟩ := l'
  obtain rfl : values = values' := h
  rfl

def empty : KeyedList key := ⟨[], List.nodup_nil⟩

/-- Values of a list with the same key are the same. -/
theorem eq_of_key_eq (l : KeyedList key) {a b : α} (ha : a ∈ l.values) (hb : b ∈ l.values)
    (h : key a = key b) : a = b :=
  List.inj_on_of_nodup_map l.nodup ha hb h

variable [DecidableEq K]

/-- The value with this key. -/
def find? (l : KeyedList key) (k : K) : Option α := l.values.find? fun a => key a = k

theorem find?_eq_some_iff {l : KeyedList key} {k : K} {a : α} :
    l.find? k = some a ↔ a ∈ l.values ∧ key a = k := by
  constructor
  · intro h
    exact ⟨List.mem_of_find?_eq_some h, by simpa using List.find?_some h⟩
  · rintro ⟨ha, rfl⟩
    match hfind : l.find? (key a) with
    | none =>
      exact absurd (decide_eq_true rfl) (List.find?_eq_none.mp hfind a ha)
    | some b =>
      have hb := List.mem_of_find?_eq_some hfind
      have hkey : key b = key a := by simpa using List.find?_some hfind
      rw [l.eq_of_key_eq hb ha hkey]

theorem find?_eq_none_iff {l : KeyedList key} {k : K} :
    l.find? k = none ↔ k ∉ l.values.map key := by
  rw [find?, List.find?_eq_none, List.mem_map]
  constructor
  · rintro h ⟨a, ha, rfl⟩
    exact h a ha (decide_eq_true rfl)
  · intro h a ha heq
    exact h ⟨a, ha, of_decide_eq_true heq⟩

variable [DecidableEq α]

/-- Add a value, or fail with the value that has the same key and is different. -/
def add (l : KeyedList key) (a : α) : Except (α × α) (KeyedList key) :=
  match h : l.find? (key a) with
  | some existing => if existing ≠ a then .error (existing, a) else .ok l
  | none =>
    .ok
      { values := l.values ++ [a]
        nodup := by
          rw [List.map_append, List.map_singleton]
          exact List.nodup_append.mpr ⟨l.nodup, List.nodup_singleton _, by
            intro k hk k' hk' heq
            rw [List.mem_singleton.mp hk'] at heq
            exact find?_eq_none_iff.mp h (heq ▸ hk)⟩ }

/-- Add values one after the other. -/
def addAll (l : KeyedList key) (values : List α) : Except (α × α) (KeyedList key) :=
  values.foldlM add l

theorem add_of_mem {l : KeyedList key} {a : α} (h : a ∈ l.values) : l.add a = .ok l := by
  have hfind : l.find? (key a) = some a := find?_eq_some_iff.mpr ⟨h, rfl⟩
  unfold add
  split
  · next existing hexisting =>
    rw [hfind] at hexisting
    rw [if_neg (by simpa using (Option.some.inj hexisting).symm)]
  · next hnone =>
    rw [hfind] at hnone
    exact absurd hnone (by simp)

/-- What is in the list after adding a value. -/
theorem mem_of_add_eq_ok {l r : KeyedList key} {a : α} (h : l.add a = .ok r) {b : α} :
    b ∈ r.values ↔ b ∈ l.values ∨ b = a := by
  unfold add at h
  split at h
  · next existing hexisting =>
    split_ifs at h with hne
    obtain rfl : existing = a := not_not.mp hne
    rw [← Except.ok.inj h]
    have hmem := (find?_eq_some_iff.mp hexisting).1
    constructor
    · exact Or.inl
    · rintro (hb | rfl)
      · exact hb
      · exact hmem
  · rw [← Except.ok.inj h]
    simp

/-- A value with a new key is appended. -/
theorem add_of_notMem {l : KeyedList key} {a : α} (h : key a ∉ l.values.map key) :
    ∃ r, l.add a = .ok r ∧ r.values = l.values ++ [a] := by
  have hfind : l.find? (key a) = none := find?_eq_none_iff.mpr h
  unfold add
  split
  · next existing hexisting =>
    rw [hfind] at hexisting
    exact absurd hexisting (by simp)
  · exact ⟨_, rfl, rfl⟩

/-- Adding several values fails with the first one that cannot be added. -/
theorem addAll_cons (l : KeyedList key) (a : α) (values : List α) :
    l.addAll (a :: values) = (l.add a >>= fun r => r.addAll values) := by
  rw [addAll, List.foldlM_cons]
  rfl

theorem addAll_of_subset {l : KeyedList key} {values : List α} (h : ∀ a ∈ values, a ∈ l.values) :
    l.addAll values = .ok l := by
  induction values with
  | nil => rfl
  | cons a values ih =>
    rw [List.forall_mem_cons] at h
    rw [addAll_cons, add_of_mem h.1]
    exact ih h.2

/-- What is in the list after adding values. -/
theorem mem_of_addAll_eq_ok {l r : KeyedList key} {values : List α} (h : l.addAll values = .ok r)
    {b : α} : b ∈ r.values ↔ b ∈ l.values ∨ b ∈ values := by
  induction values generalizing l with
  | nil =>
    obtain rfl : l = r := Except.ok.inj h
    simp
  | cons a values ih =>
    rw [addAll_cons] at h
    match hadd : l.add a with
    | .error e =>
      rw [hadd] at h
      exact absurd h (by simp [bind, Except.bind])
    | .ok m =>
      rw [hadd] at h
      rw [ih h, mem_of_add_eq_ok hadd, List.mem_cons, or_assoc]

/-- Values with new and different keys are appended. -/
theorem addAll_of_nodup {l : KeyedList key} {values : List α}
    (h : ((l.values ++ values).map key).Nodup) :
    ∃ r, l.addAll values = .ok r ∧ r.values = l.values ++ values := by
  induction values generalizing l with
  | nil => exact ⟨l, rfl, (List.append_nil l.values).symm⟩
  | cons a values ih =>
    have hnew : key a ∉ l.values.map key := by
      rw [List.map_append, List.nodup_append] at h
      intro hmem
      exact h.2.2 _ hmem _ (by simp) rfl
    obtain ⟨m, hm, hvalues⟩ := add_of_notMem hnew
    rw [← List.singleton_append, ← List.append_assoc, ← hvalues] at h
    obtain ⟨r, hr, hrvalues⟩ := ih h
    refine ⟨r, ?_, ?_⟩
    · rw [addAll_cons, hm]
      exact hr
    · rw [hrvalues, hvalues, List.append_assoc, List.singleton_append]

/-! ### Adding with failures -/

/-- Add values one after the other up to the first that cannot be added. What was added before it
stays. -/
def addEach (l : KeyedList key) : List α → KeyedList key × Option (α × α)
  | [] => (l, none)
  | a :: values =>
    match l.add a with
    | .ok r => addEach r values
    | .error e => (l, some e)

theorem addEach_cons_of_ok {l r : KeyedList key} {a : α} (h : l.add a = .ok r) (values : List α) :
    l.addEach (a :: values) = r.addEach values := by
  rw [addEach, h]

theorem addEach_cons_of_error {l : KeyedList key} {a : α} {e : α × α} (h : l.add a = .error e)
    (values : List α) : l.addEach (a :: values) = (l, some e) := by
  rw [addEach, h]

/-- Why a value cannot be added. -/
theorem add_eq_error_iff {l : KeyedList key} {a : α} {e : α × α} :
    l.add a = .error e ↔ e.2 = a ∧ e.1 ∈ l.values ∧ key e.1 = key a ∧ e.1 ≠ a := by
  unfold add
  split
  · next existing hexisting =>
    obtain ⟨hmem, hkey⟩ := find?_eq_some_iff.mp hexisting
    split_ifs with hne
    · rw [Except.error.injEq]
      constructor
      · rintro rfl
        exact ⟨rfl, hmem, hkey, hne⟩
      · rintro ⟨rfl, hmem', hkey', -⟩
        rw [l.eq_of_key_eq hmem hmem' (hkey.trans hkey'.symm)]
    · refine iff_of_false (by simp) ?_
      rintro ⟨-, hmem', hkey', hne'⟩
      rw [l.eq_of_key_eq hmem' hmem (hkey'.trans hkey.symm)] at hne'
      exact hne hne'
  · next hnone =>
    refine iff_of_false (by simp) ?_
    rintro ⟨-, hmem, hkey, -⟩
    exact find?_eq_none_iff.mp hnone (List.mem_map.mpr ⟨e.1, hmem, hkey⟩)

/-- A failure leaves exactly the values in front of the one that cannot be added. -/
theorem addEach_eq_some {l r : KeyedList key} {values : List α} {e : α × α}
    (h : l.addEach values = (r, some e)) :
    ∃ front rest, values = front ++ e.2 :: rest ∧ l.addEach front = (r, none) ∧
      r.add e.2 = .error e := by
  induction values generalizing l with
  | nil => cases h
  | cons a values ih =>
    match hadd : l.add a with
    | .ok m =>
      rw [addEach_cons_of_ok hadd] at h
      obtain ⟨front, rest, rfl, hfront, herror⟩ := ih h
      exact ⟨a :: front, rest, rfl, (addEach_cons_of_ok hadd front).trans hfront, herror⟩
    | .error e' =>
      rw [addEach_cons_of_error hadd] at h
      obtain ⟨rfl, heq⟩ := Prod.mk.inj h
      obtain rfl := Option.some.inj heq
      obtain rfl := (add_eq_error_iff.mp hadd).1
      exact ⟨[], values, rfl, rfl, hadd⟩

/-- Adding values succeeds with the list that adding them one after the other leaves. -/
theorem addEach_eq_none_iff {l r : KeyedList key} {values : List α} :
    l.addEach values = (r, none) ↔ l.addAll values = .ok r := by
  induction values generalizing l with
  | nil =>
    constructor
    · rintro ⟨⟩
      rfl
    · intro h
      rw [addEach, Except.ok.inj h]
  | cons a values ih =>
    rw [addAll_cons]
    match hadd : l.add a with
    | .ok m =>
      rw [addEach_cons_of_ok hadd]
      exact ih
    | .error e =>
      rw [addEach_cons_of_error hadd]
      exact iff_of_false (by simp) (by simp [bind, Except.bind])

/-! ### What lists with keys are about -/

/-- Accept a batch of values, up to the first that differs from an accepted one with its key. -/
def acceptBatch (key : α → K) (accepted : List α) : List α → List α
  | [] => accepted
  | a :: values =>
    if ∀ b ∈ accepted, key b = key a → b = a then acceptBatch key (accepted ++ [a]) values
    else accepted

/-- The values that are accepted from batches of values. -/
def accepted (key : α → K) (batches : List (List α)) : List α :=
  batches.foldl (acceptBatch key) []

theorem eraseDups_concat (l : List α) (a : α) :
    (l ++ [a]).eraseDups = if a ∈ l then l.eraseDups else l.eraseDups ++ [a] := by
  rw [List.eraseDups_append, List.removeAll]
  by_cases ha : a ∈ l <;> simp [ha, List.eraseDups_cons]

theorem addEach_values {l : KeyedList key} {earlier : List α} (h : l.values = earlier.eraseDups)
    (values : List α) :
    (l.addEach values).1.values = (acceptBatch key earlier values).eraseDups := by
  have hmem (b : α) : b ∈ l.values ↔ b ∈ earlier := by rw [h, List.mem_eraseDups]
  induction values generalizing l earlier with
  | nil => exact h
  | cons a values ih =>
    rw [acceptBatch]
    match hadd : l.add a with
    | .error e =>
      obtain ⟨rfl, he, hkey, hne⟩ := add_eq_error_iff.mp hadd
      -- refused: an earlier value with the same key differs
      have hrefused : ¬ ∀ b ∈ earlier, key b = key e.2 → b = e.2 := fun hall =>
        hne (hall e.1 ((hmem e.1).mp he) hkey)
      rw [addEach_cons_of_error hadd, if_neg hrefused]
      exact h
    | .ok r =>
      -- accepted: every earlier value with the same key is the same
      have hallowed : ∀ b ∈ earlier, key b = key a → b = a := by
        intro b hb hkey
        by_contra hne
        have herror : l.add a = .error (b, a) :=
          add_eq_error_iff.mpr ⟨rfl, (hmem b).mpr hb, hkey, hne⟩
        exact absurd (hadd.symm.trans herror) (by simp)
      rw [addEach_cons_of_ok hadd, if_pos hallowed]
      have hvalues : r.values = (earlier ++ [a]).eraseDups := by
        rw [eraseDups_concat, ← h]
        split_ifs with ha
        · rw [add_of_mem ((hmem a).mpr ha)] at hadd
          rw [← Except.ok.inj hadd]
        · have hnew : key a ∉ l.values.map key := by
            intro hkey
            obtain ⟨b, hb, hkey⟩ := List.mem_map.mp hkey
            exact ha (hallowed b ((hmem b).mp hb) hkey ▸ (hmem b).mp hb)
          obtain ⟨r', hr', hvalues⟩ := add_of_notMem hnew
          rw [← hvalues, Except.ok.inj (hadd.symm.trans hr')]
      exact ih hvalues fun b => by rw [hvalues, List.mem_eraseDups]

/-- **After any batches, also after failing ones**, a list consists of the accepted values, each at
its first place. -/
theorem foldl_addEach_values (batches : List (List α)) :
    (batches.foldl (fun (l : KeyedList key) batch => (l.addEach batch).1) empty).values =
      (accepted key batches).eraseDups := by
  induction batches using List.reverseRecOn with
  | nil => rfl
  | append_singleton batches batch ih =>
    rw [List.foldl_concat, accepted, List.foldl_concat]
    exact addEach_values ih batch

end KeyedList
