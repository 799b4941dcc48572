import Mathlib

/-!
# Merging lists whose items have keys

`mergeList` merges a list of new items into a list. A new item is merged into the first item with
the same key, and it is appended if there is none.

`mergedInto_mergeList` says what this gives if the keys of the list are unique and new items replace
old ones: the old items stay where they are, and items with new keys come after them.
-/

namespace StackableOperator

variable {α K : Type*} [DecidableEq K] (key : α → K) (merge : α → α → α)

/-- Merge one item into the first item with the same key, or append it. -/
def mergeItem : List α → α → List α
  | [], new => [new]
  | current :: rest, new =>
    if key current = key new then merge current new :: rest else current :: mergeItem rest new

/-- Merge items one after the other. -/
def mergeList (current new : List α) : List α := new.foldl (mergeItem key merge) current

/-- The last item with this key. -/
def lastWithKey (items : List α) (k : K) : Option α := items.reverse.find? fun item => key item = k

variable {key merge}

theorem key_lastWithKey {items : List α} {k : K} {item : α}
    (h : lastWithKey key items k = some item) : item ∈ items ∧ key item = k := by
  refine ⟨List.mem_reverse.mp (List.mem_of_find?_eq_some h), ?_⟩
  simpa using List.find?_some h

theorem lastWithKey_concat (items : List α) (item : α) (k : K) :
    lastWithKey key (items ++ [item]) k =
      if key item = k then some item else lastWithKey key items k := by
  rw [lastWithKey, List.reverse_concat, List.find?_cons]
  by_cases h : key item = k
  · simp [h]
  · simp [h, lastWithKey]

/-! ### One item -/

variable {new : α}

theorem mergeItem_of_notMem {l : List α} (h : key new ∉ l.map key) :
    mergeItem key merge l new = l ++ [new] := by
  induction l with
  | nil => rfl
  | cons current rest ih =>
    rw [List.map_cons, List.mem_cons, not_or] at h
    rw [mergeItem, if_neg (Ne.symm h.1), ih h.2]
    rfl

/-- Replace the item with the key of a new item. -/
def replaceWith (key : α → K) (new item : α) : α := if key item = key new then new else item

theorem key_replaceWith (key : α → K) (new item : α) :
    key (replaceWith key new item) = key item := by
  rw [replaceWith]
  split_ifs with h
  · exact h.symm
  · rfl

theorem map_key_replaceWith (new : α) (l : List α) :
    (l.map (replaceWith key new)).map key = l.map key := by
  rw [List.map_map]
  exact List.map_congr_left fun item _ => key_replaceWith key new item

/-- If keys are unique, a new item replaces the one with its key. -/
theorem mergeItem_of_mem (hmerge : ∀ current, merge current new = new) {l : List α}
    (hnodup : (l.map key).Nodup) (h : key new ∈ l.map key) :
    mergeItem key merge l new = l.map (replaceWith key new) := by
  induction l with
  | nil => exact absurd h List.not_mem_nil
  | cons current rest ih =>
    rw [List.map_cons, List.nodup_cons] at hnodup
    rw [mergeItem, List.map_cons]
    by_cases hkey : key current = key new
    · -- no other item has this key
      have hrest : rest.map (replaceWith key new) = rest := by
        refine (List.map_congr_left (g := id) fun item hitem => if_neg ?_).trans (List.map_id rest)
        intro heq
        exact hnodup.1 (hkey.trans heq.symm ▸ List.mem_map_of_mem hitem)
      rw [if_pos hkey, replaceWith, if_pos hkey, hmerge, hrest]
    · rw [List.map_cons, List.mem_cons] at h
      rw [if_neg hkey, replaceWith, if_neg hkey, ih hnodup.2 (h.resolve_left (Ne.symm hkey))]

theorem mem_mergeItem_self (hmerge : ∀ current, merge current new = new) (l : List α) :
    new ∈ mergeItem key merge l new := by
  induction l with
  | nil => exact List.mem_singleton_self new
  | cons current rest ih =>
    rw [mergeItem]
    split_ifs
    · rw [hmerge]
      exact List.mem_cons_self
    · exact List.mem_cons_of_mem current ih

/-- Items with other keys stay. -/
theorem mem_mergeItem_of_ne {l : List α} {item : α} (h : item ∈ l) (hne : key item ≠ key new) :
    item ∈ mergeItem key merge l new := by
  induction l with
  | nil => exact absurd h List.not_mem_nil
  | cons current rest ih =>
    rw [mergeItem]
    obtain rfl | h := List.mem_cons.mp h
    · rw [if_neg hne]
      exact List.mem_cons_self
    · split_ifs
      · exact List.mem_cons_of_mem _ h
      · exact List.mem_cons_of_mem _ (ih h)

/-! ### All items -/

/-- The last of the new items with a key is in the merged list. -/
theorem lastWithKey_mem_mergeList (current : List α) {items : List α}
    (hmerge : ∀ item ∈ items, ∀ c, merge c item = item) {k : K} {item : α}
    (h : lastWithKey key items k = some item) : item ∈ mergeList key merge current items := by
  induction items using List.reverseRecOn with
  | nil => exact absurd h (by simp [lastWithKey])
  | append_singleton items last ih =>
    rw [lastWithKey_concat] at h
    rw [mergeList, List.foldl_concat]
    split_ifs at h with hkey
    · obtain rfl := Option.some.inj h
      exact mem_mergeItem_self (hmerge _ (by simp)) _
    · have hmem := ih (fun item hitem => hmerge item (List.mem_append_left _ hitem)) h
      refine mem_mergeItem_of_ne hmem ?_
      rw [(key_lastWithKey h).2]
      exact Ne.symm hkey

/-- The result of a merge: each item with the last new item that has its key, and after them the
new items with other keys. -/
structure MergedInto (key : α → K) (current items appended merged : List α) : Prop where
  eq : merged = current.map (fun item => (lastWithKey key items (key item)).getD item) ++ appended
  appended_last : ∀ item ∈ appended, lastWithKey key items (key item) = some item
  appended_new : ∀ item ∈ appended, key item ∉ current.map key
  nodup : (merged.map key).Nodup

theorem MergedInto.map_key {current items appended merged : List α}
    (h : MergedInto key current items appended merged) :
    merged.map key = current.map key ++ appended.map key := by
  rw [h.eq, List.map_append, List.map_map]
  congr 1
  refine List.map_congr_left fun item _ => ?_
  match hlast : lastWithKey key items (key item) with
  | none => simp [hlast]
  | some last => simpa [hlast] using (key_lastWithKey hlast).2

/-- One more new item replaces what the other new items gave. -/
theorem replaceWith_getD_lastWithKey (items : List α) (new item : α) :
    replaceWith key new ((lastWithKey key items (key item)).getD item) =
      (lastWithKey key (items ++ [new]) (key item)).getD item := by
  have hkey : key ((lastWithKey key items (key item)).getD item) = key item := by
    match hlast : lastWithKey key items (key item) with
    | none => rfl
    | some last => exact (key_lastWithKey hlast).2
  rw [replaceWith, hkey, lastWithKey_concat]
  by_cases h : key item = key new
  · rw [if_pos h, if_pos h.symm, Option.getD_some]
  · rw [if_neg h, if_neg (Ne.symm h)]

/-- The new item has the key of some item. -/
theorem MergedInto.replace {current items appended merged : List α}
    (h : MergedInto key current items appended merged) (new : α) :
    MergedInto key current (items ++ [new]) (appended.map (replaceWith key new))
      (merged.map (replaceWith key new)) where
  eq := by
    rw [h.eq, List.map_append, List.map_map]
    congr 1
    exact List.map_congr_left fun item _ => replaceWith_getD_lastWithKey items new item
  appended_last := by
    intro item hitem
    obtain ⟨old, hold, rfl⟩ := List.mem_map.mp hitem
    rw [key_replaceWith key, lastWithKey_concat, replaceWith, h.appended_last old hold]
    by_cases hkey : key old = key new
    · rw [if_pos hkey, if_pos hkey.symm]
    · rw [if_neg hkey, if_neg (Ne.symm hkey)]
  appended_new := by
    intro item hitem
    obtain ⟨old, hold, rfl⟩ := List.mem_map.mp hitem
    rw [key_replaceWith key]
    exact h.appended_new old hold
  nodup := by
    rw [map_key_replaceWith]
    exact h.nodup

/-- No item has the key of the new item. -/
theorem MergedInto.append {current items appended merged : List α}
    (h : MergedInto key current items appended merged) {new : α}
    (hnew : key new ∉ merged.map key) :
    MergedInto key current (items ++ [new]) (appended ++ [new]) (merged ++ [new]) where
  eq := by
    rw [h.eq, List.append_assoc]
    congr 1
    refine List.map_congr_left fun item hitem => ?_
    rw [lastWithKey_concat, if_neg]
    intro heq
    rw [h.map_key, List.mem_append, not_or] at hnew
    exact hnew.1 (heq ▸ List.mem_map_of_mem hitem)
  appended_last := by
    intro item hitem
    rw [lastWithKey_concat]
    obtain hold | hitem := List.mem_append.mp hitem
    · rw [if_neg, h.appended_last item hold]
      intro heq
      rw [h.map_key, List.mem_append, not_or] at hnew
      exact hnew.2 (heq ▸ List.mem_map_of_mem hold)
    · obtain rfl := List.mem_singleton.mp hitem
      rw [if_pos rfl]
  appended_new := by
    intro item hitem
    obtain hold | hitem := List.mem_append.mp hitem
    · exact h.appended_new item hold
    · obtain rfl := List.mem_singleton.mp hitem
      rw [h.map_key, List.mem_append, not_or] at hnew
      exact hnew.1
  nodup := by
    rw [List.map_append, List.nodup_append]
    refine ⟨h.nodup, List.nodup_singleton _, ?_⟩
    intro k hk k' hk' heq
    rw [List.map_singleton, List.mem_singleton] at hk'
    exact hnew (hk' ▸ heq ▸ hk)

/-- **Merging lists with unique keys.** -/
theorem mergedInto_mergeList {current items : List α}
    (hmerge : ∀ item ∈ items, ∀ c, merge c item = item) (hnodup : (current.map key).Nodup) :
    ∃ appended, MergedInto key current items appended (mergeList key merge current items) := by
  induction items using List.reverseRecOn with
  | nil => exact ⟨[], by simp [mergeList, lastWithKey], by simp, by simp, hnodup⟩
  | append_singleton items new ih =>
    obtain ⟨appended, h⟩ := ih fun item hitem => hmerge item (List.mem_append_left _ hitem)
    have hstep : mergeList key merge current (items ++ [new]) =
        mergeItem key merge (mergeList key merge current items) new := List.foldl_concat ..
    rw [hstep]
    by_cases hmem : key new ∈ (mergeList key merge current items).map key
    · rw [mergeItem_of_mem (hmerge new (by simp)) h.nodup hmem]
      exact ⟨_, h.replace new⟩
    · rw [mergeItem_of_notMem hmem]
      exact ⟨_, h.append hmem⟩

end StackableOperator
