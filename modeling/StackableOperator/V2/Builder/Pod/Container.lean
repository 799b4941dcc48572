import Mathlib
import StackableOperator.ForMathlib.IterMap
import StackableOperator.ForMathlib.SortKey
import StackableOperator.ForMathlib.Walk
import StackableOperator.V2.Types.Kubernetes

/-!
# Sets of environment variables

An `EnvVarSet` holds environment variables under their names. The values may reference other
variables of the set, as in `$(NAME)`. `calculateClosure` follows these references down to a
maximum depth, and the set is converted into a list by sorting it with keys that are made of
these closures.

`isSome_calculateClosureRec_iff` says when a closure can be computed, and
`mem_calculateClosureRec_iff` that it consists of the names of the variables that are referenced
directly or transitively.
-/

namespace StackableOperator

namespace V2

/-! ### Environment variables -/

/-- Characters of environment variable names: printable ASCII other than `=`. -/
def isEnvVarNameChar (c : Char) : Bool :=
  (' ' ≤ c && c ≤ '<') || ('>' ≤ c && c ≤ '~')

/-- The name of an environment variable. -/
abbrev EnvVarName : Type := { name : String // name ≠ "" ∧ name.toList.all isEnvVarNameChar }

def EnvVarName.fromStr (s : String) : Except AttributedStringError EnvVarName :=
  if hlength : s = "" then .error (.minimumLengthNotMet s.utf8ByteSize 1)
  else if hregex : s.toList.all isEnvVarNameChar then .ok ⟨s, hlength, hregex⟩
  else .error (.regexNotMatched s "^[ -<>-~]+$")

/-- A parsed name is the parsed string. -/
theorem EnvVarName.eq_of_fromStr_eq_ok {s : String} {name : EnvVarName}
    (h : EnvVarName.fromStr s = .ok name) : name.1 = s := by
  unfold EnvVarName.fromStr at h
  split_ifs at h
  rw [← Except.ok.inj h]

theorem EnvVarSet.isEnvVarName_a : "A" ≠ "" ∧ "A".toList.all isEnvVarNameChar = true := by decide

structure ObjectFieldSelector where
  apiVersion : Option String
  fieldPath : String
  deriving DecidableEq

/-- The key of a ConfigMap or of a Secret. -/
structure KeySelector where
  key : String
  name : String
  optional : Option Bool
  deriving DecidableEq

structure EnvVarSource where
  configMapKeyRef : Option KeySelector
  fieldRef : Option ObjectFieldSelector
  secretKeyRef : Option KeySelector
  deriving DecidableEq

structure EnvVar where
  name : String
  value : Option String
  valueFrom : Option EnvVarSource
  deriving DecidableEq

inductive FieldPathEnvVar : Type
  | name
  | «namespace»
  | uid
  | labels (name : String)
  | annotations (name : String)

def FieldPathEnvVar.toString : FieldPathEnvVar → String
  | .name => "metadata.name"
  | .namespace => "metadata.namespace"
  | .uid => "metadata.uid"
  | .labels label => "metadata.labels['" ++ label ++ "']"
  | .annotations annotation => "metadata.annotations['" ++ annotation ++ "']"

/-- The name of a variable is not a valid name. -/
inductive EnvVarSet.Error : Type
  | parseEnvVarName (source : AttributedStringError)

/-- A set of environment variables, each under its own name. -/
structure EnvVarSet where
  envVars : BTreeMap EnvVarName EnvVar
  name_eq : ∀ name envVar, IterMap.get? (M := BTreeMap EnvVarName) envVars name = some envVar →
    envVar.name = name.1

namespace EnvVarSet

/-! ### Building sets -/

def new : EnvVarSet where
  envVars := IterMap.empty (M := BTreeMap EnvVarName)
  name_eq name envVar h := by
    rw [IterMap.get?_empty] at h
    simp at h

def get (self : EnvVarSet) (envVarName : EnvVarName) : Option EnvVar :=
  IterMap.get? (M := BTreeMap EnvVarName) self.envVars envVarName

/-- Insert a variable under its name, replacing the one with the same name. -/
def insert (self : EnvVarSet) (name : EnvVarName) (envVar : EnvVar)
    (hname : envVar.name = name.1) : EnvVarSet where
  envVars := IterMap.insert (M := BTreeMap EnvVarName) self.envVars name envVar
  name_eq name' envVar' h := by
    by_cases heq : name' = name
    · subst heq
      rw [IterMap.get?_insert_self] at h
      rw [← Option.some.inj h]
      exact hname
    · rw [IterMap.get?_insert_of_ne _ _ heq] at h
      exact self.name_eq name' envVar' h

/-- Move all variables of the other set into this one. -/
def merge (self envVarSet : EnvVarSet) : EnvVarSet where
  envVars := IterMap.extend (M := BTreeMap EnvVarName) self.envVars envVarSet.envVars
  name_eq name envVar h := by
    rw [IterMap.get?_extend, Option.or_eq_some_iff] at h
    rcases h with h | ⟨-, h⟩
    · exact envVarSet.name_eq name envVar h
    · exact self.name_eq name envVar h

def withEnvVar (self : EnvVarSet) (envVar : EnvVar) : Except Error EnvVarSet :=
  match hname : EnvVarName.fromStr envVar.name with
  | .ok name => .ok (self.insert name envVar (EnvVarName.eq_of_fromStr_eq_ok hname).symm)
  | .error e => .error (.parseEnvVarName e)

def withValue (self : EnvVarSet) (name : EnvVarName) (value : String) : EnvVarSet :=
  self.insert name { name := name.1, value := some value, valueFrom := none } rfl

def withValues (self : EnvVarSet) (envVars : List (EnvVarName × String)) : EnvVarSet :=
  envVars.foldl (fun extendedEnvVars e => extendedEnvVars.withValue e.1 e.2) self

/-- Add a variable whose value comes from elsewhere. -/
def withSource (self : EnvVarSet) (name : EnvVarName) (source : EnvVarSource) : EnvVarSet :=
  self.insert name { name := name.1, value := none, valueFrom := some source } rfl

def withFieldPath (self : EnvVarSet) (name : EnvVarName) (fieldPath : FieldPathEnvVar) :
    EnvVarSet :=
  self.withSource name ⟨none, some ⟨none, fieldPath.toString⟩, none⟩

def withConfigMapKeyRef (self : EnvVarSet) (name : EnvVarName) (configMapName : ConfigMapName)
    (configMapKey : ConfigMapKey) : EnvVarSet :=
  self.withSource name ⟨some ⟨configMapKey.1, configMapName.1, none⟩, none, none⟩

def withSecretKeyRef (self : EnvVarSet) (name : EnvVarName) (secretName : SecretName)
    (secretKey : SecretKey) : EnvVarSet :=
  self.withSource name ⟨none, none, some ⟨secretKey.1, secretName.1, none⟩⟩

/-- The variables, in the order of their names. -/
def values (self : EnvVarSet) : List EnvVar :=
  (IterMap.iter (M := BTreeMap EnvVarName) self.envVars).map Prod.snd

theorem mem_values_iff {self : EnvVarSet} {envVar : EnvVar} :
    envVar ∈ self.values ↔ ∃ name, self.get name = some envVar := by
  rw [values, List.mem_map]
  constructor
  · rintro ⟨e, he, rfl⟩
    exact ⟨e.1, (IterMap.mem_iter (M := BTreeMap EnvVarName) self.envVars e.1 e.2).mp he⟩
  · rintro ⟨name, hname⟩
    exact ⟨(name, envVar),
      (IterMap.mem_iter (M := BTreeMap EnvVarName) self.envVars name envVar).mpr hname, rfl⟩

/-- A variable is determined by its name. -/
theorem eq_of_name_eq {self : EnvVarSet} {a b : EnvVar} (ha : a ∈ self.values)
    (hb : b ∈ self.values) (h : a.name = b.name) : a = b := by
  obtain ⟨n, hn⟩ := mem_values_iff.mp ha
  obtain ⟨m, hm⟩ := mem_values_iff.mp hb
  have hnm : n = m := by
    apply Subtype.ext
    rw [← self.name_eq n a hn, ← self.name_eq m b hm, h]
  subst hnm
  exact Option.some.inj (hn.symm.trans hm)

/-- The names in the list of variables are the keys of the set. -/
theorem map_name_values (self : EnvVarSet) :
    self.values.map EnvVar.name =
      (IterMap.iter (M := BTreeMap EnvVarName) self.envVars).map fun e => e.1.1 := by
  rw [values, List.map_map]
  refine List.map_congr_left fun e he => ?_
  exact self.name_eq e.1 e.2 ((IterMap.mem_iter (M := BTreeMap EnvVarName) _ _ _).mp he)

theorem nodup_map_name_values (self : EnvVarSet) : (self.values.map EnvVar.name).Nodup := by
  rw [map_name_values]
  have hkeys := IterMap.nodup_iter (M := BTreeMap EnvVarName) self.envVars
  have hnames := hkeys.map (f := Subtype.val) Subtype.val_injective
  rw [List.map_map] at hnames
  exact hnames

/-! ### References -/

/-- Remove all escaped dollar signs `$$`, from left to right. -/
def removeEscapedDollarSigns : List Char → List Char
  | '$' :: '$' :: cs => removeEscapedDollarSigns cs
  | c :: cs => c :: removeEscapedDollarSigns cs
  | [] => []

/-- The groups of the matches of `\$\(([^\)]+)\)`, from left to right. Behind `$(` the group is
read until the next closing parenthesis; without one nothing matches any more. -/
def referencedEnvVarNames : Option (List Char) → List Char → List String
  | none, '$' :: '(' :: cs => referencedEnvVarNames (some []) cs
  | none, _ :: cs => referencedEnvVarNames none cs
  | some [], ')' :: cs => referencedEnvVarNames none cs
  | some name, ')' :: cs => String.ofList name.reverse :: referencedEnvVarNames none cs
  | some name, c :: cs => referencedEnvVarNames (some (c :: name)) cs
  | _, [] => []

/-- The directly referenced variables of a value. -/
def referencedEnvVars (self : EnvVarSet) (value : String) : List EnvVar :=
  ((referencedEnvVarNames none (removeEscapedDollarSigns value.toList)).filterMap
    fun name => (EnvVarName.fromStr name).toOption).filterMap self.get

/-- The value of one variable references another one. -/
def References (self : EnvVarSet) (a b : EnvVar) : Prop :=
  ∃ value, a.value = some value ∧ b ∈ self.referencedEnvVars value

variable {self : EnvVarSet} {a b : EnvVar}

theorem References.mem_values (h : self.References a b) : b ∈ self.values := by
  obtain ⟨value, -, hb⟩ := h
  obtain ⟨name, -, hname⟩ := List.mem_filterMap.mp hb
  exact mem_values_iff.mpr ⟨name, hname⟩

theorem mem_values_of_transGen (h : Relation.TransGen self.References a b) : b ∈ self.values := by
  induction h with
  | single h => exact h.mem_values
  | tail _ h _ => exact h.mem_values

theorem not_references_of_value_eq_none (ha : a.value = none) : ¬ self.References a b := by
  rintro ⟨value, hvalue, -⟩
  rw [ha] at hvalue
  simp at hvalue

theorem references_iff_of_value {value : String} (ha : a.value = some value) :
    self.References a b ↔ b ∈ self.referencedEnvVars value := by
  constructor
  · rintro ⟨value', hvalue', hb⟩
    obtain rfl := Option.some.inj (ha.symm.trans hvalue')
    exact hb
  · intro hb
    exact ⟨value, ha, hb⟩

/-! ### Closures -/

/-- Add the names of referenced variables and of the variables that these reference. -/
def extendClosure (calculateClosure : EnvVar → Option (BTreeSet String)) :
    List EnvVar → BTreeSet String → Option (BTreeSet String)
  | [], closure => some closure
  | referencedEnvVar :: rest, closure =>
    match calculateClosure referencedEnvVar with
    | none => none
    | some inner =>
      extendClosure calculateClosure rest (closure.insert referencedEnvVar.name ∪ inner)

def calculateClosureRec (self : EnvVarSet) : ℕ → EnvVar → Option (BTreeSet String)
  | 0, envVar =>
    match envVar.value with
    | none => some ∅
    | some _ => none
  | remainingRecursionDepth + 1, envVar =>
    match envVar.value with
    | none => some ∅
    | some value =>
      extendClosure (self.calculateClosureRec remainingRecursionDepth)
        (self.referencedEnvVars value) ∅

def envVarDependencyResolverMaxRecursionDepth : ℕ := 10

/-- The names of the variables that a variable references directly or transitively. -/
def calculateClosure (self : EnvVarSet) (envVar : EnvVar) : Option (BTreeSet String) :=
  self.calculateClosureRec envVarDependencyResolverMaxRecursionDepth envVar

def sortKey (self : EnvVarSet) (envVar : EnvVar) : List String :=
  match self.calculateClosure envVar with
  -- the name makes the key unique
  | some closure => BTreeSet.descending (closure.insert envVar.name)
  | none => [envVar.name]

/-- The variables as a list, sorted by their keys. -/
def toVec (self : EnvVarSet) : List EnvVar := sortByCachedKey self.sortKey self.values

theorem isSome_extendClosure_iff {f : EnvVar → Option (BTreeSet String)} {l : List EnvVar}
    {closure : BTreeSet String} :
    (extendClosure f l closure).isSome = true ↔ ∀ b ∈ l, (f b).isSome = true := by
  induction l generalizing closure with
  | nil => simp [extendClosure]
  | cons b l ih =>
    rw [List.forall_mem_cons, extendClosure]
    cases f b with
    | none => simp
    | some inner => simpa using ih

theorem mem_extendClosure_iff {f : EnvVar → Option (BTreeSet String)} {l : List EnvVar}
    {closure closure' : BTreeSet String} (h : extendClosure f l closure = some closure')
    {x : String} :
    x ∈ closure' ↔ x ∈ closure ∨ ∃ b ∈ l, x = b.name ∨ ∃ inner, f b = some inner ∧ x ∈ inner := by
  induction l generalizing closure with
  | nil =>
    obtain rfl := Option.some.inj h
    simp
  | cons b l ih =>
    rw [extendClosure] at h
    cases hb : f b with
    | none =>
      rw [hb] at h
      simp at h
    | some inner =>
      rw [hb] at h
      rw [ih h, Std.ExtTreeSet.mem_union_iff, BTreeSet.mem_insert_iff]
      simp only [List.mem_cons, exists_eq_or_imp, hb, Option.some.injEq, exists_eq_left']
      rw [or_comm (a := x = b.name), or_assoc, or_assoc, or_assoc]

/-- A closure can be computed iff walks along the references of the given length only end in
variables without a literal value. -/
theorem isSome_calculateClosureRec_iff {depth : ℕ} :
    (self.calculateClosureRec depth a).isSome = true ↔
      ∀ b, Walk self.References depth a b → b.value = none := by
  induction depth generalizing a with
  | zero =>
    simp only [Walk.zero_iff, forall_eq, calculateClosureRec]
    cases a.value <;> simp
  | succ depth ih =>
    simp only [Walk.succ_iff, calculateClosureRec]
    cases hvalue : a.value with
    | none =>
      simp only [Option.isSome_some, true_iff]
      rintro c ⟨b, hab, -⟩
      exact absurd hab (not_references_of_value_eq_none hvalue)
    | some value =>
      simp only [isSome_extendClosure_iff, ih, references_iff_of_value hvalue]
      constructor
      · rintro h c ⟨b, hb, hbc⟩
        exact h b hb c hbc
      · intro h b hb c hbc
        exact h c ⟨b, hb, hbc⟩

/-- A variable without a value has the empty closure. -/
theorem mem_empty_iff_of_value_eq_none (ha : a.value = none) {x : String} :
    x ∈ (∅ : BTreeSet String) ↔
      ∃ b, Relation.TransGen self.References a b ∧ b.name = x := by
  refine ⟨fun hx => absurd hx Std.ExtTreeSet.not_mem_empty, ?_⟩
  rintro ⟨b, hab, -⟩
  obtain ⟨c, hac, -⟩ := Relation.TransGen.head'_iff.mp hab
  exact absurd hac (not_references_of_value_eq_none ha)

/-- A computed closure consists of the names of all variables that are referenced directly or
transitively. -/
theorem mem_calculateClosureRec_iff {depth : ℕ} {closure : BTreeSet String}
    (h : self.calculateClosureRec depth a = some closure) {x : String} :
    x ∈ closure ↔ ∃ b, Relation.TransGen self.References a b ∧ b.name = x := by
  induction depth generalizing a closure with
  | zero =>
    rw [calculateClosureRec] at h
    -- at depth zero only a variable without a value has a closure
    cases hvalue : a.value with
    | some value =>
      rw [hvalue] at h
      simp at h
    | none =>
      rw [hvalue] at h
      obtain rfl := Option.some.inj h
      exact mem_empty_iff_of_value_eq_none hvalue
  | succ depth ih =>
    rw [calculateClosureRec] at h
    cases hvalue : a.value with
    | none =>
      rw [hvalue] at h
      obtain rfl := Option.some.inj h
      exact mem_empty_iff_of_value_eq_none hvalue
    | some value =>
      rw [hvalue] at h
      -- the closures of the referenced variables are computed one level below
      have hsome := isSome_extendClosure_iff.mp (Option.isSome_iff_exists.mpr ⟨closure, h⟩)
      rw [mem_extendClosure_iff h]
      simp only [Std.ExtTreeSet.not_mem_empty, false_or]
      constructor
      · rintro ⟨b, hb, hx⟩
        have hab := (references_iff_of_value hvalue).mpr hb
        rcases hx with rfl | ⟨inner, hinner, hx⟩
        · exact ⟨b, .single hab, rfl⟩
        · obtain ⟨c, hbc, rfl⟩ := (ih hinner).mp hx
          exact ⟨c, .head hab hbc, rfl⟩
      · rintro ⟨c, hac, rfl⟩
        obtain ⟨b, hab, hbc⟩ := Relation.TransGen.head'_iff.mp hac
        have hb := (references_iff_of_value hvalue).mp hab
        refine ⟨b, hb, ?_⟩
        rcases Relation.reflTransGen_iff_eq_or_transGen.mp hbc with rfl | hbc
        · exact Or.inl rfl
        · obtain ⟨inner, hinner⟩ := Option.isSome_iff_exists.mp (hsome b hb)
          exact Or.inr ⟨inner, hinner, (ih hinner).mpr ⟨c, hbc, rfl⟩⟩

end EnvVarSet

end V2

end StackableOperator
