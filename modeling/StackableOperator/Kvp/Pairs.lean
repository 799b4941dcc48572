import Mathlib
import StackableOperator.ForMathlib.LastWins
import StackableOperator.Kvp.Key

/-!
# Key/value pairs

Labels and annotations are pairs of a key and a value. A set of pairs holds one value for each key,
and becomes a map from texts to texts in the metadata of an object.
`get?_collect_display` says what this map is if the texts of the keys are different.
-/

namespace StackableOperator

namespace Kvp

inductive KeyValuePairError (E : Type) : Type
  | invalidKey (source : KeyError) (key : String)
  | invalidValue (source : E) (key value : String)

variable {V : Type}

/-- The texts of a set of pairs. -/
def displayPairs (f : V → String) (pairs : BTreeMap Key V) : BTreeMap String String :=
  IterMap.collect (M := BTreeMap String)
    ((IterMap.iter (M := BTreeMap Key) pairs).map fun e => (e.1.string, f e.2))

/-- **The texts of collected pairs** are those that were listed, if no key is listed twice. -/
theorem get?_displayPairs_collect {f : V → String} {pairs : List (Key × V)}
    (h : (pairs.map fun e => e.1.string).Nodup) {key value : String} :
    IterMap.get? (M := BTreeMap String)
        (displayPairs f (IterMap.collect (M := BTreeMap Key) pairs)) key = some value ↔
      ∃ e ∈ pairs, e.1.string = key ∧ f e.2 = value := by
  have hkeys : (pairs.map Prod.fst).Nodup := by
    rw [show (fun e : Key × V => e.1.string) = Key.string ∘ Prod.fst from rfl,
      ← List.map_map] at h
    exact h.of_map Key.string
  have hiter : ∀ e : Key × V, e ∈ IterMap.iter (M := BTreeMap Key)
      (IterMap.collect (M := BTreeMap Key) pairs) ↔ e ∈ pairs := by
    intro e
    rw [IterMap.mem_iter, IterMap.get?_collect hkeys]
  have hstrings : (((IterMap.iter (M := BTreeMap Key)
      (IterMap.collect (M := BTreeMap Key) pairs)).map
        fun e => (e.1.string, f e.2)).map Prod.fst).Nodup := by
    rw [List.map_map]
    refine List.Nodup.map_on ?_ (List.Nodup.of_map Prod.fst (IterMap.nodup_iter _))
    intro e he e' he' hstring
    exact List.inj_on_of_nodup_map h ((hiter e).mp he) ((hiter e').mp he') hstring
  rw [displayPairs, IterMap.get?_collect hstrings, List.mem_map]
  constructor
  · rintro ⟨e, he, heq⟩
    obtain ⟨hkey, hvalue⟩ := Prod.mk.inj heq
    exact ⟨e, (hiter e).mp he, hkey, hvalue⟩
  · rintro ⟨e, he, rfl, rfl⟩
    exact ⟨e, (hiter e).mpr he, rfl⟩

end Kvp

end StackableOperator
