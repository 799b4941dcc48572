import Mathlib
import StackableOperator.ForMathlib.IterMap
import StackableOperator.ForMathlib.Traverse
import StackableOperator.Json

/-!
# Reading values from JSON documents

A `Deserialize` reads a value of some type from a JSON document. Fields of an object are read by
their names: a missing field is an error, unless it is optional or has a default.
-/

namespace StackableOperator

inductive DeserializeError : Type
  | invalidType (expected : String)
  | invalidValue (expected : String)
  | missingField (field : String)
  deriving DecidableEq

/-- A function that reads a value from a JSON document. -/
abbrev Deserialize (α : Type) : Type := Value → Except DeserializeError α

namespace Deserialize

variable {α : Type}

def string : Deserialize String
  | .string s => .ok s
  | _ => .error (.invalidType "a string")

def bool : Deserialize Bool
  | .bool b => .ok b
  | _ => .error (.invalidType "a boolean")

def i32 : Deserialize Int32
  | .number literal =>
    match literal.toInt? with
    | some n =>
      if -2 ^ 31 ≤ n ∧ n < 2 ^ 31 then .ok (Int32.ofInt n) else .error (.invalidValue "i32")
    | none => .error (.invalidType "i32")
  | _ => .error (.invalidType "i32")

/-- A null stands for a missing value. -/
def option (read : Deserialize α) : Deserialize (Option α)
  | .null => .ok none
  | v => (read v).map some

def list (read : Deserialize α) : Deserialize (List α)
  | .array items => items.mapM read
  | _ => .error (.invalidType "a sequence")

/-- Read the entries of an object one after the other. -/
def entries (read : Deserialize α) (get : String → Option Value) (keys : List String) :
    Except DeserializeError (List (String × α)) :=
  keys.mapM fun k => do
    let value ← read ((get k).getD .null)
    return (k, value)

def map (read : Deserialize α) : Deserialize (BTreeMap String α)
  | .object keys values => do
    let entries ← entries read (Value.object keys values).get? (keys.sort (· ≤ ·))
    return IterMap.collect (M := BTreeMap String) entries
  | _ => .error (.invalidType "a map")

/-- A text for each of the values. -/
def enum (variants : List (String × α)) : Deserialize α := fun v => do
  let s ← string v
  match variants.lookup s with
  | some a => .ok a
  | none => .error (.invalidValue s)

/-- A field of an object with a default. -/
def fieldOr (default : Except DeserializeError α) (read : Deserialize α) (name : String) :
    Deserialize α
  | .object keys values =>
    match (Value.object keys values).get? name with
    | some v => read v
    | none => default
  | _ => .error (.invalidType "a struct")

def field (read : Deserialize α) (name : String) : Deserialize α :=
  fieldOr (.error (.missingField name)) read name

def optionField (read : Deserialize α) (name : String) : Deserialize (Option α) :=
  fieldOr (.ok none) (option read) name

/-! ### Objects with some fields -/

/-- The object with the fields that have a value. -/
def objectOfFields (fields : List (String × Option Value)) : Value :=
  .objectOf (fields.map Prod.fst).toFinset fun k => (fields.lookup k).join

theorem get?_objectOfFields (fields : List (String × Option Value)) (k : String) :
    (objectOfFields fields).get? k = (fields.lookup k).join := by
  rw [objectOfFields, Value.get?_objectOf]
  split
  · rfl
  · next h =>
    have hnone : fields.lookup k = none := by
      rw [List.lookup_eq_none_iff]
      intro e he
      have hne : k ≠ e.1 := fun heq =>
        h (List.mem_toFinset.mpr (heq ▸ List.mem_map_of_mem he))
      simpa using hne
    rw [hnone]
    rfl

/-- What is read from a field of an object. -/
theorem fieldOr_objectOfFields (default : Except DeserializeError α) (read : Deserialize α)
    (name : String) (fields : List (String × Option Value)) :
    fieldOr default read name (objectOfFields fields) =
      ((fields.lookup name).join.map read).getD default := by
  have hget := get?_objectOfFields fields name
  rw [objectOfFields, Value.objectOf] at hget ⊢
  rw [fieldOr, hget]
  cases (fields.lookup name).join <;> rfl

/-! ### Documents of values -/

theorem option_of_ok {read : Deserialize α} {v : Value} {a : α} (h : read v = .ok a)
    (hnull : v ≠ .null) : option read v = .ok (some a) := by
  match v with
  | .null => exact absurd rfl hnull
  | .bool _ | .number _ | .string _ | .array _ | .object _ _ =>
    rw [option, h]
    · rfl
    · simp

theorem i32_number (n : Int32) : i32 (.number (toString n.toInt)) = .ok n := by
  have hparse : (toString n.toInt).toInt? = some n.toInt := Int.toInt?_repr n.toInt
  have hbounds : -2 ^ 31 ≤ n.toInt ∧ n.toInt < 2 ^ 31 := ⟨n.le_toInt, n.toInt_lt⟩
  simp only [i32, hparse]
  rw [if_pos hbounds, Int32.ofInt_toInt]

/-- The object with the entries of a map. -/
def objectOfMap (write : α → Value) (m : BTreeMap String α) : Value :=
  .objectOf (IterMap.keys (M := BTreeMap String) m) fun k =>
    (IterMap.get? (M := BTreeMap String) m k).map write

theorem map_objectOfMap {read : Deserialize α} {write : α → Value} (m : BTreeMap String α)
    (h : ∀ a, read (write a) = .ok a) : map read (objectOfMap write m) = .ok m := by
  have hget (k : String) : (objectOfMap write m).get? k =
      (IterMap.get? (M := BTreeMap String) m k).map write := by
    rw [objectOfMap, Value.get?_objectOf]
    split
    · rfl
    · next hk =>
      rw [IterMap.mem_keys, Bool.not_eq_true, Option.isSome_eq_false_iff,
        Option.isNone_iff_eq_none] at hk
      rw [hk]
      rfl
  have hkeys : (IterMap.keys (M := BTreeMap String) m).filter
      (fun k => ((IterMap.get? (M := BTreeMap String) m k).map write).isSome = true) =
      IterMap.keys (M := BTreeMap String) m := by
    refine Finset.filter_true_of_mem fun k hk => ?_
    rw [Option.isSome_map]
    exact IterMap.mem_keys.mp hk
  have hsort : ((IterMap.keys (M := BTreeMap String) m).filter
      (fun k => ((IterMap.get? (M := BTreeMap String) m k).map write).isSome = true)).sort (· ≤ ·) =
      (IterMap.iter (M := BTreeMap String) m).map Prod.fst := by
    rw [hkeys]
    exact (List.toFinset_sort _ (IterMap.nodup_iter m)).mpr
      ((BTreeMap.sorted_iter m).imp fun hlt => le_of_lt hlt)
  have hcollect : IterMap.collect (M := BTreeMap String) (IterMap.iter (M := BTreeMap String) m) =
      m := by
    refine BTreeMap.ext_get? fun k => Option.ext fun a => ?_
    rw [IterMap.get?_collect (IterMap.nodup_iter m)]
    exact IterMap.mem_iter m k a
  have hentries : entries read (objectOfMap write m).get?
      ((IterMap.iter (M := BTreeMap String) m).map Prod.fst) =
        .ok (IterMap.iter (M := BTreeMap String) m) := by
    rw [entries, mapM_eq_ok_iff, List.forall₂_map_left_iff, List.forall₂_same]
    intro e he
    rw [hget, (IterMap.mem_iter m e.1 e.2).mp he, Option.map_some, Option.getD_some, h]
    rfl
  rw [objectOfMap, Value.objectOf] at hentries ⊢
  rw [map, hsort, hentries]
  exact congrArg Except.ok hcollect

end Deserialize

end StackableOperator
