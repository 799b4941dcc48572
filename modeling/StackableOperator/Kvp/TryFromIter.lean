import Mathlib
import StackableOperator.Kvp.Annotation
import StackableOperator.Kvp.Label

/-!
# Key/value pairs from iterators

`KeyValuePairs.tryFromIter` parses pairs of texts. It collects the pairs into an ordered set before
it builds the map, so that a repeated key gets its greatest value. Inserting pairs one after the
other gives the last one instead; `tryFromIter_iff` says when there is no difference.
-/

namespace StackableOperator

namespace Kvp

/-! ### The model of the source -/

section Model

variable {E V : Type} (fromStr : String → Except E V)

/-- Parse the key first and then the value, with the parser of the value type. -/
def KeyValuePair.tryFrom (pair : String × String) : Except (KeyValuePairError E) (Key × V) :=
  match Key.fromStr pair.1 with
  | .error e => .error (.invalidKey e pair.1)
  | .ok key =>
    match fromStr pair.2 with
    | .error e => .error (.invalidValue e key.string pair.2)
    | .ok value => .ok (key, value)

def KeyValuePairs.fromIter (pairs : List (Key × V)) : BTreeMap Key V :=
  IterMap.collect (M := BTreeMap Key) pairs

/-- Parse all pairs into an ordered set, up to the first error, and collect the set. -/
def KeyValuePairs.tryFromIter [LinearOrder V] (iter : List (String × String)) :
    Except (KeyValuePairError E) (BTreeMap Key V) :=
  match iter.mapM (KeyValuePair.tryFrom fromStr) with
  | .error e => .error e
  | .ok pairs => .ok (KeyValuePairs.fromIter (orderedSet pairs))

/-- Insert a pair, overwriting the one with the same key. -/
def KeyValuePairs.insert (self : BTreeMap Key V) (kvp : Key × V) : BTreeMap Key V :=
  IterMap.insert (M := BTreeMap Key) self kvp.1 kvp.2

end Model

def Labels.tryFromIter (iter : List (String × String)) : Except LabelError Labels :=
  KeyValuePairs.tryFromIter LabelValue.fromStr iter

/-- Every text is the value of an annotation. -/
def AnnotationValue.fromStr (input : String) : Except Empty String := .ok input

def Annotations.tryFromIter (iter : List (String × String)) : Except AnnotationError Annotations :=
  KeyValuePairs.tryFromIter AnnotationValue.fromStr iter

/-- A label is a pair with a label value. -/
theorem Label.tryFrom_eq (key value : String) :
    Label.tryFrom key value =
      (KeyValuePair.tryFrom LabelValue.fromStr (key, value)).map fun kvp => ⟨kvp.1, kvp.2⟩ := by
  unfold Label.tryFrom KeyValuePair.tryFrom
  cases Key.fromStr key with
  | error e => rfl
  | ok k => cases LabelValue.fromStr value <;> rfl

/-- An annotation is a pair with any text. -/
theorem Annotation.tryFrom_eq (key value : String) :
    Annotation.tryFrom key value =
      (KeyValuePair.tryFrom AnnotationValue.fromStr (key, value)).map
        fun kvp => ⟨kvp.1, kvp.2⟩ := by
  unfold Annotation.tryFrom KeyValuePair.tryFrom
  cases Key.fromStr key <;> rfl

/-! ### Repeated keys -/

/-- **Pairs from an iterator**: for pairs with valid keys and values, `tryFromIter` gives the same
set as inserting the pairs one after the other, which has the last value of every key, iff no key
has a greater value than its last one. -/
theorem KeyValuePairs.tryFromIter_iff {E V : Type} [LinearOrder V] {fromStr : String → Except E V}
    {iter : List (String × String)} {pairs : List (Key × V)}
    (h : iter.mapM (KeyValuePair.tryFrom fromStr) = .ok pairs) :
    (∃ set, tryFromIter fromStr iter = .ok set ∧
      set = pairs.foldl insert (IterMap.empty (M := BTreeMap Key)) ∧
      ∀ key, IterMap.get? (M := BTreeMap Key) set key = lastValue pairs key) ↔
    LastIsGreatest pairs := by
  rw [← collect_orderedSet_eq_iff, tryFromIter, h]
  constructor
  · rintro ⟨set, hset, hinsert, -⟩
    exact (Except.ok.inj hset).trans hinsert
  · intro heq
    refine ⟨_, rfl, heq, fun key => ?_⟩
    rw [fromIter, heq, IterMap.get?_collect_eq_lastValue]

def appKey : Key := ⟨"app", none, ⟨"app", by decide⟩⟩

def valueA : LabelValue := ⟨"a", by decide⟩

def valueB : LabelValue := ⟨"b", by decide⟩

/-- If the last value is the greatest one, the label has it. -/
theorem KeyValuePairs.tryFromIter_increasing :
    ∃ set, tryFromIter LabelValue.fromStr [("app", "a"), ("app", "b")] = .ok set ∧
      IterMap.get? (M := BTreeMap Key) set appKey = some valueB := by
  have hpairs : [("app", "a"), ("app", "b")].mapM (KeyValuePair.tryFrom LabelValue.fromStr) =
      .ok [(appKey, valueA), (appKey, valueB)] := by rfl
  have hlast : LastIsGreatest [(appKey, valueA), (appKey, valueB)] := by
    unfold LastIsGreatest
    decide
  obtain ⟨set, hset, -, hget⟩ := (tryFromIter_iff hpairs).mpr hlast
  exact ⟨set, hset, hget appKey⟩

/-- A label with a smaller value does not replace one with the same key. -/
theorem KeyValuePairs.tryFromIter_decreasing :
    ∃ pairs, [("app", "b"), ("app", "a")].mapM (KeyValuePair.tryFrom LabelValue.fromStr) =
        .ok pairs ∧
      ¬ ∃ set, Labels.tryFromIter [("app", "b"), ("app", "a")] = .ok set ∧
        set = pairs.foldl insert (IterMap.empty (M := BTreeMap Key)) := by
  have hpairs : [("app", "b"), ("app", "a")].mapM (KeyValuePair.tryFrom LabelValue.fromStr) =
      .ok [(appKey, valueB), (appKey, valueA)] := by rfl
  refine ⟨_, hpairs, ?_⟩
  rintro ⟨set, hset, hinsert⟩
  rw [Labels.tryFromIter, tryFromIter, hpairs] at hset
  have heq := (collect_orderedSet_eq_iff _).mp ((Except.ok.inj hset).trans hinsert)
  have hle : valueB ≤ valueA := heq (appKey, valueB) (by decide) valueA (by decide)
  exact absurd hle (by decide)

end Kvp

end StackableOperator
