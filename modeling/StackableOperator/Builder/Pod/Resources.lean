import Mathlib
import StackableOperator.ForMathlib.LastWins

/-!
# Resource requirements

`ResourceRequirementsBuilder` collects requests and limits. The CPU and the memory have methods of
their own, which can be called once: the builder's type says which of them were called. All other
resources are set by `withResource`.

`Built` are the sequences of calls. In the end every setting has the value that was given last
(`Built.tracks`, `value_build`), so that it has the one that was given first iff no later call
gives another resource than CPU and memory a different value (`build_firstValue_iff`).
-/

namespace StackableOperator

namespace Resources

/-- `k8s_openapi::apimachinery::pkg::api::resource::Quantity` -/
structure Quantity where
  text : String
  deriving DecidableEq

inductive ResourceRequirementsType : Type
  | requests
  | limits
  deriving DecidableEq

namespace ResourceRequirementsType

def toNat : ResourceRequirementsType → ℕ
  | requests => 0
  | limits => 1

theorem toNat_injective : Function.Injective toNat := by
  intro a b h
  cases a <;> cases b <;> first | rfl | exact absurd h (by decide)

instance : LinearOrder ResourceRequirementsType := LinearOrder.lift' toNat toNat_injective

end ResourceRequirementsType

def resourceDenylist : List String := ["cpu", "memory"]

/-- A field of the builder, which is `()` until it is set. -/
def Slot : Bool → Type
  | true => Quantity
  | false => Unit

def Slot.toOption : {isSet : Bool} → Slot isSet → Option Quantity
  | true, quantity => some quantity
  | false, _ => none

/-- The quantity of a field that is set. -/
def Slot.quantity (slot : Slot true) : Quantity := slot

/-- The builder. Its parameters say which of the CPU request, the CPU limit, the memory request and
the memory limit are set. -/
structure ResourceRequirementsBuilder (cr cl mr ml : Bool) where
  other : BTreeMap String (BTreeMap ResourceRequirementsType Quantity)
  cpuRequest : Slot cr
  memRequest : Slot mr
  memLimit : Slot ml
  cpuLimit : Slot cl

structure ResourceRequirements where
  limits : Option (BTreeMap String Quantity)
  requests : Option (BTreeMap String Quantity)

/-- What is set: a request or a limit of a resource. -/
abbrev Setting : Type := ResourceRequirementsType × String

/-! ### The builder -/

namespace ResourceRequirementsBuilder

open IterMap

variable {cr cl mr ml : Bool} {F E E' : Type}

def new : ResourceRequirementsBuilder false false false false where
  other := empty
  cpuRequest := ()
  memRequest := ()
  memLimit := ()
  cpuLimit := ()

def withCpuRequest (self : ResourceRequirementsBuilder false cl mr ml) (request : String) :
    ResourceRequirementsBuilder true cl mr ml where
  other := self.other
  cpuRequest := Quantity.mk request
  memRequest := self.memRequest
  memLimit := self.memLimit
  cpuLimit := self.cpuLimit

/-- Set the CPU request, and the limit as a multiple of it. The computation on CPU quantities is
done by `cpuRange`. -/
def withCpuRange (cpuRange : String → F → Except E (Quantity × Quantity))
    (self : ResourceRequirementsBuilder false cl mr ml) (request : String) (factor : F) :
    Except E (ResourceRequirementsBuilder true true mr ml) :=
  match cpuRange request factor with
  | .error e => .error e
  | .ok (request, limit) => .ok {
      other := self.other
      cpuRequest := request
      memRequest := self.memRequest
      memLimit := self.memLimit
      cpuLimit := limit }

def withCpuLimit (self : ResourceRequirementsBuilder true false mr ml) (limit : String) :
    ResourceRequirementsBuilder true true mr ml where
  other := self.other
  cpuRequest := self.cpuRequest
  memRequest := self.memRequest
  memLimit := self.memLimit
  cpuLimit := Quantity.mk limit

def withMemoryRequest (self : ResourceRequirementsBuilder cr cl false ml) (request : String) :
    ResourceRequirementsBuilder cr cl true ml where
  other := self.other
  cpuRequest := self.cpuRequest
  memRequest := Quantity.mk request
  memLimit := self.memLimit
  cpuLimit := self.cpuLimit

/-- Set the memory request, and the limit as a multiple of it. -/
def withMemoryRange (memoryRange : String → F → Except E' (Quantity × Quantity))
    (self : ResourceRequirementsBuilder cr cl false ml) (request : String) (factor : F) :
    Except E' (ResourceRequirementsBuilder cr cl true true) :=
  match memoryRange request factor with
  | .error e => .error e
  | .ok (request, limit) => .ok {
      other := self.other
      cpuRequest := self.cpuRequest
      memRequest := request
      memLimit := limit
      cpuLimit := self.cpuLimit }

def withMemoryLimit (self : ResourceRequirementsBuilder cr cl true false) (limit : String) :
    ResourceRequirementsBuilder cr cl true true where
  other := self.other
  cpuRequest := self.cpuRequest
  memRequest := self.memRequest
  memLimit := Quantity.mk limit
  cpuLimit := self.cpuLimit

/-- Set any resource but the CPU and the memory. The warning that a value is not overwritten is
only logged. -/
def withResource (self : ResourceRequirementsBuilder cr cl mr ml)
    (rrType : ResourceRequirementsType) (resource quantity : String) :
    ResourceRequirementsBuilder cr cl mr ml :=
  if resource ∈ resourceDenylist then self
  else
    match get? self.other resource with
    | some types =>
      { self with other := insert self.other resource (insert types rrType ⟨quantity⟩) }
    | none =>
      let types : BTreeMap ResourceRequirementsType Quantity := collect [(rrType, ⟨quantity⟩)]
      { self with other := insert self.other resource types }

/-- Insert one quantity into the limits or the requests. -/
def insertSetting (maps : BTreeMap String Quantity × BTreeMap String Quantity)
    (e : Setting × Quantity) : BTreeMap String Quantity × BTreeMap String Quantity :=
  match e.1.1 with
  | .limits => (insert maps.1 e.1.2 e.2, maps.2)
  | .requests => (maps.1, insert maps.2 e.1.2 e.2)

def build (self : ResourceRequirementsBuilder true true true true) : ResourceRequirements :=
  let limits : BTreeMap String Quantity := insert empty "cpu" self.cpuLimit.quantity
  let requests : BTreeMap String Quantity := insert empty "cpu" self.cpuRequest.quantity
  let limits := insert limits "memory" self.memLimit.quantity
  let requests := insert requests "memory" self.memRequest.quantity
  let (limits, requests) := (iter self.other).foldl (fun maps resource =>
    (iter resource.2).foldl (fun maps type =>
      insertSetting maps ((type.1, resource.1), type.2)) maps) (limits, requests)
  { limits := if (iter limits).isEmpty then none else some limits
    requests := if (iter requests).isEmpty then none else some requests }

end ResourceRequirementsBuilder

/-- The quantity of a setting. -/
def ResourceRequirements.get (self : ResourceRequirements) (s : Setting) : Option Quantity :=
  match s.1 with
  | .limits => self.limits.bind fun limits => IterMap.get? limits s.2
  | .requests => self.requests.bind fun requests => IterMap.get? requests s.2

namespace ResourceRequirementsBuilder

open IterMap

variable {cr cl mr ml : Bool} {F E E' : Type}

/-! ### What is set -/

/-- The quantity that is set at the moment. -/
def value (self : ResourceRequirementsBuilder cr cl mr ml) (s : Setting) : Option Quantity :=
  if s.2 = "cpu" then
    match s.1 with
    | .requests => self.cpuRequest.toOption
    | .limits => self.cpuLimit.toOption
  else if s.2 = "memory" then
    match s.1 with
    | .requests => self.memRequest.toOption
    | .limits => self.memLimit.toOption
  else (get? self.other s.2).bind fun types => get? types s.1

theorem value_new (s : Setting) : new.value s = none := by
  obtain ⟨rrType, resource⟩ := s
  rw [value]
  split_ifs
  · cases rrType <;> rfl
  · cases rrType <;> rfl
  · rw [new, get?_empty, Option.bind_none]

/-- Two builders with the same other resources differ at most in the CPU and the memory: a method
that leaves the others alone is described by what it does to these. -/
theorem value_eq_of_compute {cr' cl' mr' ml' : Bool}
    (self : ResourceRequirementsBuilder cr cl mr ml)
    {self' : ResourceRequirementsBuilder cr' cl' mr' ml'} (hother : self'.other = self.other)
    {value' : Setting → Option Quantity}
    (hcompute : ∀ ty, self'.value (ty, "cpu") = value' (ty, "cpu") ∧
      self'.value (ty, "memory") = value' (ty, "memory"))
    (hrest : ∀ s : Setting, s.2 ∉ resourceDenylist → value' s = self.value s) (s : Setting) :
    self'.value s = value' s := by
  obtain ⟨ty, name⟩ := s
  by_cases hcpu : name = "cpu"
  · exact hcpu ▸ (hcompute ty).1
  by_cases hmemory : name = "memory"
  · exact hmemory ▸ (hcompute ty).2
  rw [hrest (ty, name) (by simp [resourceDenylist, hcpu, hmemory])]
  simp only [value, if_neg hcpu, if_neg hmemory, hother]

/-- **A method that fills the field of one setting** of the CPU or the memory gives this setting
its quantity. -/
theorem value_of_fills {cr' cl' mr' ml' : Bool} (self : ResourceRequirementsBuilder cr cl mr ml)
    (self' : ResourceRequirementsBuilder cr' cl' mr' ml') (hother : self'.other = self.other)
    {s : Setting} (hs : s.2 ∈ resourceDenylist) {quantity : Quantity}
    (hfills : ∀ ty, self'.value (ty, "cpu") =
        (if (ty, "cpu") = s then some quantity else self.value (ty, "cpu")) ∧
      self'.value (ty, "memory") =
        if (ty, "memory") = s then some quantity else self.value (ty, "memory")) :
    ∀ s', self'.value s' = if s' = s then some quantity else self.value s' := by
  refine value_eq_of_compute self hother hfills fun s' hs' => if_neg ?_
  rintro rfl
  exact hs' hs

/-- **A method that fills both fields of a resource**, the request and the limit. -/
theorem value_of_range {cr' cl' mr' ml' : Bool} (self : ResourceRequirementsBuilder cr cl mr ml)
    (self' : ResourceRequirementsBuilder cr' cl' mr' ml') (hother : self'.other = self.other)
    {name : String} (hname : name ∈ resourceDenylist) {request limit : Quantity}
    (hfills : ∀ ty,
      (self'.value (ty, "cpu") = if (ty, "cpu") = (.limits, name) then some limit
        else if (ty, "cpu") = (.requests, name) then some request else self.value (ty, "cpu")) ∧
      self'.value (ty, "memory") = if (ty, "memory") = (.limits, name) then some limit
        else if (ty, "memory") = (.requests, name) then some request
        else self.value (ty, "memory")) :
    ∀ s, self'.value s = if s = (.limits, name) then some limit
      else if s = (.requests, name) then some request else self.value s := by
  refine value_eq_of_compute self hother hfills fun s hs => ?_
  have hne : ∀ ty, s ≠ (ty, name) := by
    rintro ty rfl
    exact hs hname
  rw [if_neg (hne _), if_neg (hne _)]

theorem value_withCpuRange {cpuRange : String → F → Except E (Quantity × Quantity)}
    {self : ResourceRequirementsBuilder false cl mr ml} {request : String} {factor : F}
    {self' : ResourceRequirementsBuilder true true mr ml}
    (h : self.withCpuRange cpuRange request factor = .ok self') :
    ∃ quantities, cpuRange request factor = .ok quantities ∧ self'.other = self.other ∧
      ∀ s, self'.value s = if s = (.limits, "cpu") then some quantities.2
        else if s = (.requests, "cpu") then some quantities.1 else self.value s := by
  rw [withCpuRange] at h
  match hrange : cpuRange request factor with
  | .error e => simp [hrange] at h
  | .ok (request, limit) =>
    rw [hrange] at h
    obtain rfl := Except.ok.inj h
    refine ⟨(request, limit), rfl, rfl, value_of_range self _ ?_ ?_ ?_⟩
    · rfl
    · decide
    · rintro (_ | _) <;> exact ⟨rfl, rfl⟩

theorem value_withMemoryRange {memoryRange : String → F → Except E' (Quantity × Quantity)}
    {self : ResourceRequirementsBuilder cr cl false ml} {request : String} {factor : F}
    {self' : ResourceRequirementsBuilder cr cl true true}
    (h : self.withMemoryRange memoryRange request factor = .ok self') :
    ∃ quantities, memoryRange request factor = .ok quantities ∧ self'.other = self.other ∧
      ∀ s, self'.value s = if s = (.limits, "memory") then some quantities.2
        else if s = (.requests, "memory") then some quantities.1 else self.value s := by
  rw [withMemoryRange] at h
  match hrange : memoryRange request factor with
  | .error e => simp [hrange] at h
  | .ok (request, limit) =>
    rw [hrange] at h
    obtain rfl := Except.ok.inj h
    refine ⟨(request, limit), rfl, rfl, value_of_range self _ ?_ ?_ ?_⟩
    · rfl
    · decide
    · rintro (_ | _) <;> exact ⟨rfl, rfl⟩

/-- CPU and memory are left alone. -/
theorem withResource_of_mem (self : ResourceRequirementsBuilder cr cl mr ml)
    {rrType : ResourceRequirementsType} {resource quantity : String}
    (h : resource ∈ resourceDenylist) : self.withResource rrType resource quantity = self :=
  if_pos h

/-- **A setting that already has a quantity is overwritten**, whatever the warning says. -/
theorem value_withResource (self : ResourceRequirementsBuilder cr cl mr ml)
    {rrType : ResourceRequirementsType} {resource quantity : String}
    (h : resource ∉ resourceDenylist) (s : Setting) :
    (self.withResource rrType resource quantity).value s =
      if s = (rrType, resource) then some ⟨quantity⟩ else self.value s := by
  have hother : ∃ types : BTreeMap ResourceRequirementsType Quantity,
      self.withResource rrType resource quantity =
          { self with other := insert self.other resource types } ∧
        ∀ ty, get? types ty = if ty = rrType then some ⟨quantity⟩
          else (get? self.other resource).bind fun types => get? types ty := by
    rw [withResource, if_neg h]
    match get? self.other resource with
    | some types =>
      refine ⟨insert types rrType ⟨quantity⟩, rfl, fun ty => ?_⟩
      split_ifs with hty
      · rw [hty, get?_insert_self]
      · rw [get?_insert_of_ne _ _ hty, Option.bind_some]
    | none =>
      refine ⟨collect [(rrType, ⟨quantity⟩)], rfl, fun ty => ?_⟩
      rw [get?_collect_eq_lastValue, ← List.nil_append [_], lastValue_concat]
      rfl
  obtain ⟨types, heq, htypes⟩ := hother
  obtain ⟨ty, name⟩ := s
  rw [resourceDenylist, List.mem_pair, not_or] at h
  rw [heq, value, value]
  by_cases hname : name = resource
  · subst hname
    rw [if_neg h.1, if_neg h.2, if_neg h.1, if_neg h.2]
    dsimp only
    rw [get?_insert_self, Option.bind_some, htypes]
    simp
  · dsimp only
    rw [get?_insert_of_ne _ _ hname, if_neg (fun hs => hname (Prod.mk.inj hs).2)]

theorem get?_other_withResource (self : ResourceRequirementsBuilder cr cl mr ml)
    {rrType : ResourceRequirementsType} {resource quantity : String} {name : String}
    (hname : name ∈ resourceDenylist) :
    get? (self.withResource rrType resource quantity).other name = get? self.other name := by
  rw [withResource]
  split_ifs with h
  · rfl
  · have hne : name ≠ resource := fun heq => h (heq ▸ hname)
    match get? self.other resource with
    | some types => exact get?_insert_of_ne _ _ hne
    | none => exact get?_insert_of_ne _ _ hne

/-! ### What is built -/

/-- The quantity of a setting in the maps of limits and requests. -/
def lookup (maps : BTreeMap String Quantity × BTreeMap String Quantity) (s : Setting) :
    Option Quantity :=
  match s.1 with
  | .limits => get? maps.1 s.2
  | .requests => get? maps.2 s.2

theorem lookup_insertSetting (maps : BTreeMap String Quantity × BTreeMap String Quantity)
    (e : Setting × Quantity) (s : Setting) :
    lookup (insertSetting maps e) s = if s = e.1 then some e.2 else lookup maps s := by
  obtain ⟨⟨ty, name⟩, quantity⟩ := e
  obtain ⟨ty', name'⟩ := s
  by_cases hname : name' = name
  · subst hname
    cases ty <;> cases ty' <;> simp [lookup, insertSetting, get?_insert_self]
  · cases ty <;> cases ty' <;>
      simp [lookup, insertSetting, get?_insert_of_ne _ _ hname, hname]

theorem lookup_foldl_insertSetting
    (maps : BTreeMap String Quantity × BTreeMap String Quantity) (l : List (Setting × Quantity))
    (s : Setting) :
    lookup (l.foldl insertSetting maps) s = (lastValue l s).or (lookup maps s) := by
  induction l using List.reverseRecOn with
  | nil => rfl
  | append_singleton l e ih =>
    rw [List.foldl_concat, lookup_insertSetting, ih, lastValue_concat]
    split_ifs <;> rfl

/-- The settings of all other resources. -/
def otherSettings (self : ResourceRequirementsBuilder cr cl mr ml) : List (Setting × Quantity) :=
  (iter self.other).flatMap fun resource =>
    (iter resource.2).map fun type => ((type.1, resource.1), type.2)

theorem lastValue_otherSettings (self : ResourceRequirementsBuilder cr cl mr ml) (s : Setting) :
    lastValue self.otherSettings s = (get? self.other s.2).bind fun types => get? types s.1 := by
  obtain ⟨ty, name⟩ := s
  have hmem (quantity : Quantity) : ((ty, name), quantity) ∈ self.otherSettings ↔
      ((get? self.other name).bind fun types => get? types ty) = some quantity := by
    rw [otherSettings, List.mem_flatMap, Option.bind_eq_some_iff]
    constructor
    · rintro ⟨⟨name', types⟩, hresource, htype⟩
      obtain ⟨⟨ty', quantity'⟩, hentry, heq⟩ := List.mem_map.mp htype
      cases heq
      exact ⟨types, (mem_iter _ _ _).mp hresource, (mem_iter _ _ _).mp hentry⟩
    · rintro ⟨types, hresource, hentry⟩
      exact ⟨(name, types), (mem_iter _ _ _).mpr hresource,
        List.mem_map.mpr ⟨(ty, quantity), (mem_iter _ _ _).mpr hentry, rfl⟩⟩
  have hnodup : (self.otherSettings.map Prod.fst).Nodup := by
    rw [otherSettings, List.map_flatMap, List.nodup_flatMap]
    constructor
    · intro resource _
      rw [List.map_map]
      have hinjective : Function.Injective fun type : ResourceRequirementsType =>
          (type, resource.1) := fun a b hab => (Prod.mk.inj hab).1
      have hkeys := (nodup_iter resource.2).map hinjective
      rwa [List.map_map] at hkeys
    · refine (List.pairwise_map.mp (nodup_iter self.other)).imp fun {a b} hne => ?_
      rw [Function.onFun, List.disjoint_left]
      intro setting ha hb
      simp only [List.map_map, List.mem_map, Function.comp_apply] at ha hb
      obtain ⟨_, -, rfl⟩ := ha
      obtain ⟨_, -, heq⟩ := hb
      exact hne (Prod.mk.inj heq).2.symm
  refine Option.ext fun quantity => ?_
  rw [lastValue_eq_some_iff_mem hnodup, hmem]

/-- Maps without entries are left out, which changes no quantity. -/
theorem bind_get?_of_isEmpty (m : BTreeMap String Quantity) (name : String) :
    ((if (iter m).isEmpty then none else some m).bind fun m => get? m name) = get? m name := by
  split_ifs with h
  · rw [List.isEmpty_iff] at h
    match hget : get? m name with
    | none => rfl
    | some quantity =>
      have hmem := (mem_iter m name quantity).mpr hget
      exact absurd (h ▸ hmem) List.not_mem_nil
  · rfl

/-- The CPU and the memory, before the other resources are inserted. -/
def computeSettings (self : ResourceRequirementsBuilder true true true true) :
    BTreeMap String Quantity × BTreeMap String Quantity :=
  (insert (insert empty "cpu" self.cpuLimit.quantity) "memory" self.memLimit.quantity,
    insert (insert empty "cpu" self.cpuRequest.quantity) "memory" self.memRequest.quantity)

theorem get_build_eq_lookup (self : ResourceRequirementsBuilder true true true true)
    (s : Setting) :
    self.build.get s = lookup (self.otherSettings.foldl insertSetting self.computeSettings) s := by
  have hfold : self.otherSettings.foldl insertSetting self.computeSettings =
      (iter self.other).foldl (fun maps resource => (iter resource.2).foldl (fun maps type =>
        insertSetting maps ((type.1, resource.1), type.2)) maps) self.computeSettings := by
    rw [otherSettings, List.foldl_flatMap]
    simp only [List.foldl_map]
  obtain ⟨ty, name⟩ := s
  rw [hfold]
  cases ty with
  | limits => exact bind_get?_of_isEmpty _ name
  | requests => exact bind_get?_of_isEmpty _ name

/-- The quantities of the CPU and the memory. -/
theorem get?_compute (cpu memory : Quantity) (name : String) :
    get? (insert (insert empty "cpu" cpu) "memory" memory : BTreeMap String Quantity) name =
      if name = "cpu" then some cpu else if name = "memory" then some memory else none := by
  have hne : "cpu" ≠ "memory" := by decide
  split_ifs with hcpu hmemory
  · rw [hcpu, get?_insert_of_ne _ _ hne, get?_insert_self]
  · rw [hmemory, get?_insert_self]
  · rw [get?_insert_of_ne _ _ hmemory, get?_insert_of_ne _ _ hcpu, get?_empty]

/-- **The built requirements have what is set.** -/
theorem get_build (self : ResourceRequirementsBuilder true true true true)
    (hother : ∀ name ∈ resourceDenylist, get? self.other name = none) (s : Setting) :
    self.build.get s = self.value s := by
  rw [get_build_eq_lookup, lookup_foldl_insertSetting, lastValue_otherSettings, value]
  obtain ⟨ty, name⟩ := s
  dsimp only
  have hlookup : lookup self.computeSettings (ty, name) =
      match ty with
      | .limits => if name = "cpu" then some self.cpuLimit.quantity
        else if name = "memory" then some self.memLimit.quantity else none
      | .requests => if name = "cpu" then some self.cpuRequest.quantity
        else if name = "memory" then some self.memRequest.quantity else none := by
    cases ty <;> exact get?_compute _ _ name
  rw [hlookup]
  split_ifs with hcpu hmemory
  · rw [hcpu, hother "cpu" (by decide), Option.bind_none, Option.none_or]
    cases ty <;> rfl
  · rw [hmemory, hother "memory" (by decide), Option.bind_none, Option.none_or]
    cases ty <;> rfl
  · cases ty <;> rw [Option.or_none]

end ResourceRequirementsBuilder

/-! ### Sequences of calls -/

/-- A call of a method of the builder. -/
inductive Call (F : Type) : Type
  | withCpuRequest (request : String)
  | withCpuRange (request : String) (factor : F)
  | withCpuLimit (limit : String)
  | withMemoryRequest (request : String)
  | withMemoryRange (request : String) (factor : F)
  | withMemoryLimit (limit : String)
  | withResource (rrType : ResourceRequirementsType) (resource quantity : String)

section Calls

variable {F E E' : Type} (cpuRange : String → F → Except E (Quantity × Quantity))
  (memoryRange : String → F → Except E' (Quantity × Quantity))

/-- The settings that a call gives a quantity. `withResource` is refused for the CPU and the
memory. -/
def Call.given : Call F → List (Setting × Quantity)
  | withCpuRequest request => [((.requests, "cpu"), ⟨request⟩)]
  | withCpuRange request factor =>
    match cpuRange request factor with
    | .ok (request, limit) => [((.requests, "cpu"), request), ((.limits, "cpu"), limit)]
    | .error _ => []
  | withCpuLimit limit => [((.limits, "cpu"), ⟨limit⟩)]
  | withMemoryRequest request => [((.requests, "memory"), ⟨request⟩)]
  | withMemoryRange request factor =>
    match memoryRange request factor with
    | .ok (request, limit) => [((.requests, "memory"), request), ((.limits, "memory"), limit)]
    | .error _ => []
  | withMemoryLimit limit => [((.limits, "memory"), ⟨limit⟩)]
  | withResource rrType resource quantity =>
    if resource ∈ resourceDenylist then [] else [((rrType, resource), ⟨quantity⟩)]

/-- All quantities that are given, one after the other. -/
def given (calls : List (Call F)) : List (Setting × Quantity) :=
  calls.flatMap (Call.given cpuRange memoryRange)

open ResourceRequirementsBuilder in
/-- The builders after a sequence of calls. -/
inductive Built : {cr cl mr ml : Bool} → List (Call F) →
    ResourceRequirementsBuilder cr cl mr ml → Prop
  | new : Built [] new
  | withCpuRequest {cl mr ml calls} {self : ResourceRequirementsBuilder false cl mr ml}
    (h : Built calls self) (request : String) :
    Built (calls ++ [.withCpuRequest request]) (self.withCpuRequest request)
  | withCpuRange {cl mr ml calls} {self : ResourceRequirementsBuilder false cl mr ml}
    (h : Built calls self) {request : String} {factor : F}
    {self' : ResourceRequirementsBuilder true true mr ml}
    (hok : self.withCpuRange cpuRange request factor = .ok self') :
    Built (calls ++ [.withCpuRange request factor]) self'
  | withCpuLimit {mr ml calls} {self : ResourceRequirementsBuilder true false mr ml}
    (h : Built calls self) (limit : String) :
    Built (calls ++ [.withCpuLimit limit]) (self.withCpuLimit limit)
  | withMemoryRequest {cr cl ml calls} {self : ResourceRequirementsBuilder cr cl false ml}
    (h : Built calls self) (request : String) :
    Built (calls ++ [.withMemoryRequest request]) (self.withMemoryRequest request)
  | withMemoryRange {cr cl ml calls} {self : ResourceRequirementsBuilder cr cl false ml}
    (h : Built calls self) {request : String} {factor : F}
    {self' : ResourceRequirementsBuilder cr cl true true}
    (hok : self.withMemoryRange memoryRange request factor = .ok self') :
    Built (calls ++ [.withMemoryRange request factor]) self'
  | withMemoryLimit {cr cl calls} {self : ResourceRequirementsBuilder cr cl true false}
    (h : Built calls self) (limit : String) :
    Built (calls ++ [.withMemoryLimit limit]) (self.withMemoryLimit limit)
  | withResource {cr cl mr ml calls} {self : ResourceRequirementsBuilder cr cl mr ml}
    (h : Built calls self) (rrType : ResourceRequirementsType) (resource quantity : String) :
    Built (calls ++ [.withResource rrType resource quantity])
      (self.withResource rrType resource quantity)

end Calls

/-- Every setting has the quantity that it was given last. The CPU and the memory were given a
quantity only once. -/
structure Tracks (value : Setting → Option Quantity) (given : List (Setting × Quantity)) :
    Prop where
  last : ∀ s, value s = lastValue given s
  once : ∀ s : Setting, s.2 ∈ resourceDenylist → firstValue given s = lastValue given s

theorem Tracks.concat {value value' : Setting → Option Quantity}
    {given : List (Setting × Quantity)} (h : Tracks value given) {s : Setting}
    {quantity : Quantity} (hvalue : ∀ s', value' s' = if s' = s then some quantity else value s')
    (hnone : s.2 ∈ resourceDenylist → value s = none) :
    Tracks value' (given ++ [(s, quantity)]) := by
  refine ⟨fun s' => ?_, fun s' hs' => ?_⟩
  · rw [hvalue, lastValue_concat, h.last]
  · rw [firstValue_concat, lastValue_concat, h.once s' hs']
    by_cases heq : s' = s
    · subst heq
      rw [← h.last, hnone hs', if_pos rfl]
      rfl
    · rw [if_neg heq, if_neg heq, Option.or_none]

/-- A range gives a request and then a limit, neither of which was set before. -/
theorem Tracks.concat_range {value value' : Setting → Option Quantity}
    {given : List (Setting × Quantity)} (h : Tracks value given) {name : String}
    {request limit : Quantity}
    (hvalue : ∀ s, value' s = if s = (.limits, name) then some limit
      else if s = (.requests, name) then some request else value s)
    (hrequest : value (.requests, name) = none) (hlimit : value (.limits, name) = none) :
    Tracks value' (given ++ [((.requests, name), request), ((.limits, name), limit)]) := by
  have hbetween : Tracks (fun s => if s = (.requests, name) then some request else value s)
      (given ++ [((.requests, name), request)]) :=
    h.concat (fun _ => rfl) fun _ => hrequest
  have hboth := hbetween.concat hvalue fun _ => by simpa using hlimit
  rwa [List.append_assoc] at hboth

section Run

variable {F E E' : Type} {cpuRange : String → F → Except E (Quantity × Quantity)}
  {memoryRange : String → F → Except E' (Quantity × Quantity)} {cr cl mr ml : Bool}
  {calls : List (Call F)} {self : ResourceRequirementsBuilder cr cl mr ml}

theorem given_concat (calls : List (Call F)) (call : Call F) :
    given cpuRange memoryRange (calls ++ [call]) =
      given cpuRange memoryRange calls ++ call.given cpuRange memoryRange := by
  simp [given]

open ResourceRequirementsBuilder IterMap

/-- CPU and memory are never among the other resources. -/
theorem Built.get?_other (h : Built cpuRange memoryRange calls self) :
    ∀ name ∈ resourceDenylist, get? self.other name = none := by
  intro name hname
  induction h with
  | new => exact get?_empty name
  | withCpuRange _ hok ih =>
    obtain ⟨_, -, hother, -⟩ := value_withCpuRange hok
    rw [hother, ih]
  | withMemoryRange _ hok ih =>
    obtain ⟨_, -, hother, -⟩ := value_withMemoryRange hok
    rw [hother, ih]
  | withResource _ _ _ _ ih => rw [get?_other_withResource _ hname, ih]
  | _ => assumption

/-- Limits are set with or after the requests. -/
theorem Built.unset (h : Built cpuRange memoryRange calls self) :
    (cr = false → cl = false) ∧ (mr = false → ml = false) := by
  induction h with
  | new => exact ⟨fun _ => rfl, fun _ => rfl⟩
  | withCpuRequest _ _ ih => exact ⟨Bool.noConfusion, ih.2⟩
  | withCpuRange _ _ ih => exact ⟨Bool.noConfusion, ih.2⟩
  | withCpuLimit _ _ ih => exact ⟨Bool.noConfusion, ih.2⟩
  | withMemoryRequest _ _ ih => exact ⟨ih.1, Bool.noConfusion⟩
  | withMemoryRange _ _ ih => exact ⟨ih.1, Bool.noConfusion⟩
  | withMemoryLimit _ _ ih => exact ⟨ih.1, Bool.noConfusion⟩
  | withResource _ _ _ _ ih => exact ih

/-- **After any calls every setting has the quantity that it was given last.** -/
theorem Built.tracks (h : Built cpuRange memoryRange calls self) :
    Tracks self.value (given cpuRange memoryRange calls) := by
  induction h with
  | new => exact ⟨value_new, fun _ _ => rfl⟩
  | @withCpuRequest _ _ _ _ self _ request ih =>
    rw [given_concat]
    refine ih.concat (value_of_fills self (self.withCpuRequest request) rfl ?_ ?_) fun _ => rfl
    · decide
    · rintro (_ | _) <;> exact ⟨rfl, rfl⟩
  | @withCpuLimit _ _ _ self _ limit ih =>
    rw [given_concat]
    refine ih.concat (value_of_fills self (self.withCpuLimit limit) rfl ?_ ?_) fun _ => rfl
    · decide
    · rintro (_ | _) <;> exact ⟨rfl, rfl⟩
  | @withMemoryRequest _ _ _ _ self _ request ih =>
    rw [given_concat]
    refine ih.concat (value_of_fills self (self.withMemoryRequest request) rfl ?_ ?_) fun _ => rfl
    · decide
    · rintro (_ | _) <;> exact ⟨rfl, rfl⟩
  | @withMemoryLimit _ _ _ self _ limit ih =>
    rw [given_concat]
    refine ih.concat (value_of_fills self (self.withMemoryLimit limit) rfl ?_ ?_) fun _ => rfl
    · decide
    · rintro (_ | _) <;> exact ⟨rfl, rfl⟩
  | @withCpuRange _ _ _ calls self h _ _ _ hok ih =>
    obtain ⟨quantities, hrange, -, hvalue⟩ := value_withCpuRange hok
    have hunset : self.value (.limits, "cpu") = none := by
      obtain rfl := h.unset.1 rfl
      rfl
    rw [given_concat, Call.given, hrange]
    exact ih.concat_range hvalue rfl hunset
  | @withMemoryRange _ _ _ calls self h _ _ _ hok ih =>
    obtain ⟨quantities, hrange, -, hvalue⟩ := value_withMemoryRange hok
    have hunset : self.value (.limits, "memory") = none := by
      obtain rfl := h.unset.2 rfl
      rfl
    rw [given_concat, Call.given, hrange]
    exact ih.concat_range hvalue rfl hunset
  | @withResource _ _ _ _ _ self _ rrType resource quantity ih =>
    rw [given_concat, Call.given]
    split_ifs with hdenied
    · rw [List.append_nil, withResource_of_mem self hdenied]
      exact ih
    · exact ih.concat (self.value_withResource hdenied) fun h => absurd h hdenied

/-- **The first given quantity stays** for every setting iff no other resource than the CPU and the
memory is given another quantity last than first. -/
theorem build_firstValue_iff {self : ResourceRequirementsBuilder true true true true}
    (h : Built cpuRange memoryRange calls self) :
    (∀ s, self.build.get s = firstValue (given cpuRange memoryRange calls) s) ↔
      ∀ s : Setting, s.2 ∉ resourceDenylist →
        lastValue (given cpuRange memoryRange calls) s =
          firstValue (given cpuRange memoryRange calls) s := by
  have hget (s : Setting) : self.build.get s = lastValue (given cpuRange memoryRange calls) s :=
    (get_build self h.get?_other s).trans (h.tracks.last s)
  simp only [hget]
  constructor
  · intro hall s _
    exact hall s
  · intro hall s
    by_cases hs : s.2 ∈ resourceDenylist
    · exact (h.tracks.once s hs).symm
    · exact hall s hs

end Run

section Examples

open ResourceRequirementsBuilder

/-- Ranges are not computed here. -/
def noRange (_ : String) (_ : Unit) : Except Unit (Quantity × Quantity) := .error ()

/-- CPU and memory are set, and after them the resource. -/
def computeCalls (resource : String) (quantities : List String) : List (Call Unit) :=
  [.withCpuRequest "500m", .withCpuLimit "1", .withMemoryRequest "64Mi",
    .withMemoryLimit "128Mi"] ++ quantities.map (.withResource .limits resource)

/-- A builder after these calls. -/
def computeBuilder (resource : String) (quantities : List String) :
    ResourceRequirementsBuilder true true true true :=
  quantities.foldl (fun self quantity => self.withResource .limits resource quantity)
    ((((new.withCpuRequest "500m").withCpuLimit "1").withMemoryRequest "64Mi").withMemoryLimit
      "128Mi")

theorem built_computeBuilder (resource : String) (quantities : List String) :
    Built noRange noRange (computeCalls resource quantities)
      (computeBuilder resource quantities) := by
  induction quantities using List.reverseRecOn with
  | nil =>
    exact (((Built.new.withCpuRequest "500m").withCpuLimit "1").withMemoryRequest
      "64Mi").withMemoryLimit "128Mi"
  | append_singleton quantities quantity ih =>
    rw [computeCalls, List.map_append, ← List.append_assoc, computeBuilder, List.foldl_concat]
    exact ih.withResource .limits resource quantity

/-- The same quantity given twice is the first and the last one. -/
theorem lastValue_eq_firstValue_computeCalls {resource quantity : String} {s : Setting}
    (hs : s.2 ∉ resourceDenylist) :
    lastValue (given noRange noRange (computeCalls resource [quantity, quantity])) s =
      firstValue (given noRange noRange (computeCalls resource [quantity, quantity])) s := by
  obtain ⟨ty, name⟩ := s
  rw [resourceDenylist, List.mem_pair, not_or] at hs
  have hcpu (ty' : ResourceRequirementsType) : ¬(ty', "cpu") = (ty, name) :=
    fun heq => hs.1 (Prod.mk.inj heq).2.symm
  have hmemory (ty' : ResourceRequirementsType) : ¬(ty', "memory") = (ty, name) :=
    fun heq => hs.2 (Prod.mk.inj heq).2.symm
  by_cases hdenied : resource ∈ resourceDenylist
  · simp [given, computeCalls, Call.given, lastValue, firstValue, hdenied, hcpu, hmemory]
  · simp [given, computeCalls, Call.given, lastValue, firstValue, hdenied, List.find?_cons, hcpu,
      hmemory]

/-- Two GPUs stay the limit when they are set a second time. -/
theorem build_firstValue_gpu :
    (computeBuilder "nvidia.com/gpu" ["2", "2"]).build.get (.limits, "nvidia.com/gpu") =
      firstValue (given noRange noRange (computeCalls "nvidia.com/gpu" ["2", "2"]))
        (.limits, "nvidia.com/gpu") :=
  (build_firstValue_iff (built_computeBuilder "nvidia.com/gpu" ["2", "2"])).mpr
    (fun _ hs => lastValue_eq_firstValue_computeCalls hs) (.limits, "nvidia.com/gpu")

/-- The second number of GPUs overwrites the first one. -/
theorem build_gpu_overwritten : ¬ ∀ (calls : List (Call Unit))
    (self : ResourceRequirementsBuilder true true true true), Built noRange noRange calls self →
      ∀ s, self.build.get s = firstValue (given noRange noRange calls) s := by
  intro h
  have hget := h _ _ (built_computeBuilder "nvidia.com/gpu" ["2", "3"]) (.limits, "nvidia.com/gpu")
  exact absurd hget (by decide +kernel)

end Examples

end Resources

end StackableOperator
