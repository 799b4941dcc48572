import Mathlib
import StackableOperator.ForMathlib.Traverse
import StackableOperator.Kube.Object
import StackableOperator.Kube.SelectorGrammar

/-!
# Label selectors in queries

`LabelSelector.toQueryString` writes a label selector as the text that the Kubernetes API takes. It
succeeds iff the expressions are well formed, and the API reads back the requirements of the
selector (`toQueryString_parse`).
-/

namespace StackableOperator

open SelectorGrammar

/-! ### The model of the source -/

inductive SelectorError : Type
  | labelSelectorBinaryOperatorWithoutValues (operator : String)
  | labelSelectorUnaryOperatorWithValues (operator : String)
  | labelSelectorInvalidOperator (operator : String)
  deriving DecidableEq

/-- The text of one expression. -/
def LabelSelectorRequirement.toQuery (requirement : LabelSelectorRequirement) :
    Except SelectorError String :=
  let operator := requirement.operator
  if operator = "In" ∨ operator = "NotIn" then
    match requirement.values with
    | some (value :: values) =>
      .ok (requirement.key ++ " " ++ operator.toLower ++ " (" ++
        ", ".intercalate (value :: values) ++ ")")
    | _ => .error (.labelSelectorBinaryOperatorWithoutValues operator)
  else if operator = "Exists" then
    match requirement.values with
    | some (_ :: _) => .error (.labelSelectorUnaryOperatorWithValues operator)
    | _ => .ok requirement.key
  else if operator = "DoesNotExist" then
    match requirement.values with
    | some (_ :: _) => .error (.labelSelectorUnaryOperatorWithValues operator)
    | _ => .ok ("!" ++ requirement.key)
  else .error (.labelSelectorInvalidOperator operator)

/-- The labels, and then the expressions up to the first error. -/
def LabelSelector.toQueryString (self : LabelSelector) : Except SelectorError String := do
  let queryString :=
    match self.matchLabels with
    | some labelMap => ",".intercalate
        ((IterMap.iter (M := BTreeMap String) labelMap).map fun e => e.1 ++ "=" ++ e.2)
    | none => ""
  match self.matchExpressions with
  | none => return queryString
  | some requirements =>
    let queryString :=
      if !requirements.isEmpty && !queryString.isEmpty then queryString ++ "," else queryString
    let expressions ← requirements.mapM LabelSelectorRequirement.toQuery
    return queryString ++ ",".intercalate expressions

/-! ### What a selector requires -/

/-- `In` and `NotIn` have values, `Exists` and `DoesNotExist` have none. -/
def LabelSelectorRequirement.IsWellFormed (self : LabelSelectorRequirement) : Prop :=
  ((self.operator = "In" ∨ self.operator = "NotIn") ∧ self.values.getD [] ≠ []) ∨
    ((self.operator = "Exists" ∨ self.operator = "DoesNotExist") ∧ self.values.getD [] = [])

def operator? (operator : String) : Option Operator :=
  if operator = "In" then some .inSet
  else if operator = "NotIn" then some .notInSet
  else if operator = "Exists" then some .exist
  else if operator = "DoesNotExist" then some .doesNotExist
  else none

/-- The requirement of an expression, unless its operator is invalid. -/
def LabelSelectorRequirement.requirement? (self : LabelSelectorRequirement) : Option Requirement :=
  (operator? self.operator).map fun operator => ⟨self.key, operator, self.values.getD []⟩

/-- The entries of the labels to match. -/
def LabelSelector.labels (self : LabelSelector) : List (String × String) :=
  (self.matchLabels.map (IterMap.iter (M := BTreeMap String))).getD []

/-- The requirements of a selector: labels have to equal their value. -/
def LabelSelector.requirements (self : LabelSelector) : List Requirement :=
  (self.labels.map fun e => ⟨e.1, .equals, [e.2]⟩) ++
    (self.matchExpressions.getD []).filterMap LabelSelectorRequirement.requirement?

/-- Keys and values are those of labels. -/
structure LabelSelectorRequirement.IsValid (requirement : LabelSelectorRequirement) : Prop where
  key : isLabelKey requirement.key = true
  values : ∀ v ∈ requirement.values.getD [], isLabelValue v = true

structure LabelSelector.IsValid (selector : LabelSelector) : Prop where
  expressions : ∀ e ∈ selector.matchExpressions.getD [], e.IsValid
  labels : ∀ e ∈ selector.labels, isLabelKey e.1 = true ∧ isLabelValue e.2 = true

/-! ### Keys and values in texts -/

theorem isWordChar_of_isNameChar {c : Char} (h : Kvp.isNameChar c = true) :
    isWordChar c = true := by
  have hspecial : ∀ d ∈ [' ', '\t', '\r', '\n', '=', '!', '(', ')', ',', '>', '<'], c ≠ d := by
    rintro d hd rfl
    simp only [List.mem_cons, List.not_mem_nil, or_false] at hd
    obtain rfl | rfl | rfl | rfl | rfl | rfl | rfl | rfl | rfl | rfl | rfl := hd <;> cases h
  simp only [List.forall_mem_cons] at hspecial
  simp [isWordChar, isBlank, specialSymbols, hspecial]

theorem isWord_of_matchesName {s : List Char} (h : Kvp.matchesName s = true) : IsWord s :=
  fun c hc => isWordChar_of_isNameChar (Kvp.isNameChar_of_matchesName h c hc)

theorem isWord_of_isLabelValue {v : String} (h : isLabelValue v = true) : IsWord v.toList := by
  rw [isLabelValue, Bool.or_eq_true, String.isEmpty_iff] at h
  obtain rfl | hname := h
  · rintro c ⟨⟩
  · rw [isQualifiedNamePart, Bool.and_eq_true] at hname
    exact isWord_of_matchesName hname.1

theorem isWord_of_subdomain {s : List Char}
    (h : Validation.matchesLowercaseRfc1123Subdomain s = true) : IsWord s := by
  intro c hc
  obtain rfl | ⟨label, hlabel, hmem⟩ := eq_or_exists_mem_splitOn (a := '.') hc
  · decide
  · have hmatch := List.all_eq_true.mp h label hlabel
    have hinner := all_of_isSegment Validation.isLowerAlphanumOrDash_of_isLowerAlphanum
      Validation.isLowerAlphanumOrDash_of_isLowerAlphanum hmatch c hmem
    refine isWordChar_of_isNameChar ?_
    rw [Validation.isLowerAlphanumOrDash, Bool.or_eq_true, beq_iff_eq] at hinner
    obtain rfl | hlower := hinner
    · decide
    · rw [Kvp.isNameChar, Validation.isAlphanum_of_isLowerAlphanum c hlower]
      rfl

/-- A key is a word, and not the empty one. -/
theorem isWord_of_isLabelKey {key : String} (h : isLabelKey key = true) :
    key.toList ≠ [] ∧ IsWord key.toList := by
  have hjoin : ['/'].intercalate (key.toList.splitOn '/') = key.toList :=
    List.intercalate_splitOn '/'
  have hname (name : List Char) (hpart : isQualifiedNamePart name = true) :
      name ≠ [] ∧ IsWord name := by
    rw [isQualifiedNamePart, Bool.and_eq_true] at hpart
    refine ⟨?_, isWord_of_matchesName hpart.1⟩
    rintro rfl
    exact absurd hpart.1 (by decide)
  unfold isLabelKey at h
  split at h
  · rename_i name hsplit
    rw [hsplit] at hjoin
    have hkey : key.toList = name := by simpa using hjoin.symm
    rw [hkey]
    exact hname name h
  · rename_i front name hsplit
    rw [hsplit] at hjoin
    have hkey : key.toList = front ++ '/' :: name := by simpa using hjoin.symm
    rw [Bool.and_eq_true, Bool.and_eq_true] at h
    rw [hkey]
    refine ⟨by simp, ?_⟩
    exact List.forall_mem_append.mpr ⟨isWord_of_subdomain h.1.1,
      List.forall_mem_cons.mpr ⟨by decide, (hname name h.2).2⟩⟩
  · cases h

theorem lex_value {v : String} (h : isLabelValue v = true) : lex v.toList = valueTokens v := by
  by_cases hv : v = ""
  · subst hv
    rfl
  · have hne : v.toList ≠ [] := by
      intro hnil
      exact hv (String.toList_eq_nil_iff.mp hnil)
    rw [lex_isWord hne (isWord_of_isLabelValue h), valueTokens, if_neg hv, String.ofList_toList]

theorem lex_key {key : String} (h : isLabelKey key = true) : lex key.toList = [.word key] := by
  obtain ⟨hne, hword⟩ := isWord_of_isLabelKey h
  rw [lex_isWord hne hword, String.ofList_toList]

/-- Texts between separators that leave a comma. -/
theorem lex_intercalate {sep : List Char}
    (hsep : ∀ xs ys, lex (xs ++ (sep ++ ys)) = lex xs ++ .comma :: lex ys)
    (parts : List (List Char)) :
    lex (sep.intercalate parts) = [.comma].intercalate (parts.map lex) := by
  induction parts with
  | nil => rfl
  | cons part parts ih =>
    match parts with
    | [] => simp
    | next :: parts =>
      rw [List.intercalate_cons_cons, List.append_assoc, hsep, ih]
      simp [List.intercalate_cons_cons]

theorem lex_append_comma (xs ys : List Char) :
    lex (xs ++ ([','] ++ ys)) = lex xs ++ .comma :: lex ys :=
  lex_append_cons (c := ',') rfl (by decide) (by decide) xs ys

theorem lex_append_comma_blank (xs ys : List Char) :
    lex (xs ++ ([',', ' '] ++ ys)) = lex xs ++ .comma :: lex ys := by
  have hblank : lex (' ' :: ys) = lex ys :=
    lex_append_cons (c := ' ') rfl (by decide) (by decide) [] ys
  have hcomma := lex_append_comma xs (' ' :: ys)
  rwa [hblank] at hcomma

/-! ### Expressions -/

section Expressions

variable {key value word : String} {values : List String}

theorem lex_intercalate_values (hvalues : ∀ v ∈ values, isLabelValue v = true) :
    lex (", ".intercalate values).toList = valuesTokens values := by
  have hmap : (values.map String.toList).map lex = values.map valueTokens := by
    rw [List.map_map]
    exact List.map_congr_left fun v hv => lex_value (hvalues v hv)
  rw [String.toList_intercalate]
  exact (lex_intercalate lex_append_comma_blank _).trans (hmap ▸ rfl)

/-- A key, a word and values in parentheses. -/
theorem lex_set (hkey : isLabelKey key = true) (hword : isLabelKey word = true)
    (hvalues : ∀ v ∈ values, isLabelValue v = true) :
    lex (key ++ " " ++ word ++ " (" ++ ", ".intercalate values ++ ")").toList =
      .word key :: .word word :: .openPar :: (valuesTokens values ++ [.closedPar]) := by
  have htext : (key ++ " " ++ word ++ " (" ++ ", ".intercalate values ++ ")").toList =
      key.toList ++ ' ' :: (word.toList ++ ' ' ::
        ([] ++ '(' :: ((", ".intercalate values).toList ++ ')' :: []))) := by
    simp
  have hblank (xs ys : List Char) : lex (xs ++ ' ' :: ys) = lex xs ++ lex ys :=
    lex_append_cons (c := ' ') rfl (by decide) (by decide) xs ys
  have hopen (xs ys : List Char) : lex (xs ++ '(' :: ys) = lex xs ++ .openPar :: lex ys :=
    lex_append_cons (c := '(') rfl (by decide) (by decide) xs ys
  have hclosed (xs ys : List Char) : lex (xs ++ ')' :: ys) = lex xs ++ .closedPar :: lex ys :=
    lex_append_cons (c := ')') rfl (by decide) (by decide) xs ys
  rw [htext, hblank, hblank, hopen, hclosed, lex_key hkey, lex_key hword,
    lex_intercalate_values hvalues]
  rfl

/-- A key and a value with an equals sign in between. -/
theorem lex_equals (hkey : isLabelKey key = true) (hvalue : isLabelValue value = true) :
    lex (key ++ "=" ++ value).toList = .word key :: .equals :: valuesTokens [value] := by
  obtain ⟨hne, hword⟩ := isWord_of_isLabelKey hkey
  have htext : (key ++ "=" ++ value).toList = key.toList ++ '=' :: value.toList := by simp
  have hhead : ∀ c ∈ ('=' :: value.toList).head?, isWordChar c = false := by
    rintro c ⟨⟩
    decide
  rw [htext, lex_isWord_append hne hword hhead, String.ofList_toList,
    lex_cons_isWord (c := '=') rfl (isWord_of_isLabelValue hvalue), lex_value hvalue]
  simp [valuesTokens, token?]

/-- A key behind an exclamation mark. -/
theorem lex_not (hkey : isLabelKey key = true) :
    lex ("!" ++ key).toList = [.doesNotExist, .word key] := by
  have htext : ("!" ++ key).toList = '!' :: key.toList := by simp
  rw [htext, lex_cons_isWord (c := '!') rfl (isWord_of_isLabelKey hkey).2, lex_key hkey]
  rfl

end Expressions

namespace LabelSelectorRequirement

variable {key : String}

/-- Operators with values need some. -/
theorem not_isWellFormed_of_set {operator : String} {values : Option (List String)}
    (hoperator : operator = "In" ∨ operator = "NotIn") (hnil : values.getD [] = []) :
    ¬ IsWellFormed ⟨key, operator, values⟩ := by
  obtain rfl | rfl := hoperator <;> simp [IsWellFormed, hnil]

/-- Operators without values must not have any. -/
theorem not_isWellFormed_of_exists {operator value : String} {values : List String}
    (hoperator : operator = "Exists" ∨ operator = "DoesNotExist") :
    ¬ IsWellFormed ⟨key, operator, some (value :: values)⟩ := by
  obtain rfl | rfl := hoperator <;> simp [IsWellFormed]

/-- **The text of an expression**: there is one iff the expression is well formed, and it spells
the requirement. -/
theorem toQuery_cases (self : LabelSelectorRequirement) :
    (¬ self.IsWellFormed ∧ ∃ e, self.toQuery = .error e) ∨
      (self.IsWellFormed ∧ ∃ text r, self.toQuery = .ok text ∧ self.requirement? = some r ∧
        (self.IsValid → r.IsValid ∧ lex text.toList = r.tokens)) := by
  obtain ⟨key, operator, values⟩ := self
  by_cases hin : operator = "In"
  · subst hin
    -- a set operator needs values, and is written in lower case
    have hlower : "In".toLower = "in" := by decide +kernel
    match values with
    | none => exact .inl ⟨not_isWellFormed_of_set (.inl rfl) rfl, _, rfl⟩
    | some [] => exact .inl ⟨not_isWellFormed_of_set (.inl rfl) rfl, _, rfl⟩
    | some (v :: vs) =>
      refine .inr ⟨.inl ⟨.inl rfl, List.cons_ne_nil v vs⟩, _, _, rfl, rfl, ?_⟩
      rintro ⟨hkey, hvalues⟩
      refine ⟨⟨hkey, hvalues, List.cons_ne_nil v vs⟩, ?_⟩
      rw [hlower]
      exact lex_set hkey (by decide +kernel) hvalues
  by_cases hnotin : operator = "NotIn"
  · subst hnotin
    have hlower : "NotIn".toLower = "notin" := by decide +kernel
    match values with
    | none => exact .inl ⟨not_isWellFormed_of_set (.inr rfl) rfl, _, rfl⟩
    | some [] => exact .inl ⟨not_isWellFormed_of_set (.inr rfl) rfl, _, rfl⟩
    | some (v :: vs) =>
      refine .inr ⟨.inl ⟨.inr rfl, List.cons_ne_nil v vs⟩, _, _, rfl, rfl, ?_⟩
      rintro ⟨hkey, hvalues⟩
      refine ⟨⟨hkey, hvalues, List.cons_ne_nil v vs⟩, ?_⟩
      rw [hlower]
      exact lex_set hkey (by decide +kernel) hvalues
  by_cases hexists : operator = "Exists"
  -- the other operators take no values
  · subst hexists
    match values with
    | some (v :: vs) => exact .inl ⟨not_isWellFormed_of_exists (.inl rfl), _, rfl⟩
    | none =>
      exact .inr ⟨.inr ⟨.inl rfl, rfl⟩, _, _, rfl, rfl, fun ⟨hkey, hvalues⟩ =>
        ⟨⟨hkey, hvalues, rfl⟩, lex_key hkey⟩⟩
    | some [] =>
      exact .inr ⟨.inr ⟨.inl rfl, rfl⟩, _, _, rfl, rfl, fun ⟨hkey, hvalues⟩ =>
        ⟨⟨hkey, hvalues, rfl⟩, lex_key hkey⟩⟩
  by_cases hnot : operator = "DoesNotExist"
  · subst hnot
    match values with
    | some (v :: vs) => exact .inl ⟨not_isWellFormed_of_exists (.inr rfl), _, rfl⟩
    | none =>
      exact .inr ⟨.inr ⟨.inr rfl, rfl⟩, _, _, rfl, rfl, fun ⟨hkey, hvalues⟩ =>
        ⟨⟨hkey, hvalues, rfl⟩, lex_not hkey⟩⟩
    | some [] =>
      exact .inr ⟨.inr ⟨.inr rfl, rfl⟩, _, _, rfl, rfl, fun ⟨hkey, hvalues⟩ =>
        ⟨⟨hkey, hvalues, rfl⟩, lex_not hkey⟩⟩
  -- no other operator is known
  · refine .inl ⟨by simp [IsWellFormed, hin, hnotin, hexists, hnot], ?_⟩
    rw [toQuery, if_neg (by simp [hin, hnotin]), if_neg hexists, if_neg hnot]
    exact ⟨_, rfl⟩

theorem exists_toQuery_iff {self : LabelSelectorRequirement} :
    (∃ text, self.toQuery = .ok text) ↔ self.IsWellFormed := by
  obtain ⟨hno, e, he⟩ | ⟨hyes, text, r, htext, -⟩ := self.toQuery_cases
  · refine iff_of_false ?_ hno
    rintro ⟨text, htext⟩
    rw [he] at htext
    cases htext
  · exact iff_of_true ⟨text, htext⟩ hyes

/-- The requirement of a well-formed expression says the same as the expression. -/
theorem matches_iff {self : LabelSelectorRequirement} {r : Requirement}
    (h : self.requirement? = some r) (metadata : ObjectMeta) :
    r.Matches metadata.label? ↔ self.Matches metadata := by
  obtain ⟨op, hop, rfl⟩ := Option.map_eq_some_iff.mp h
  unfold operator? at hop
  unfold Matches
  split_ifs at hop ⊢ <;> obtain rfl := Option.some.inj hop <;> exact Iff.rfl

end LabelSelectorRequirement

/-! ### Selectors -/

namespace LabelSelector

variable {self : LabelSelector}

/-- The texts of the labels to match. -/
def labelTexts (self : LabelSelector) : List String := self.labels.map fun e => e.1 ++ "=" ++ e.2

theorem intercalate_labelTexts_isEmpty :
    (",".intercalate self.labelTexts).isEmpty = self.labelTexts.isEmpty := by
  rw [labelTexts]
  match self.labels with
  | [] => rfl
  | [e] => simp
  | e :: next :: rest => simp [String.intercalate_cons_cons]

/-- A comma stands between labels and expressions, but not if one of them is missing. -/
theorem labelTexts_append (self : LabelSelector) (texts : List String) :
    (if !texts.isEmpty && !(",".intercalate self.labelTexts).isEmpty then
      ",".intercalate self.labelTexts ++ "," else ",".intercalate self.labelTexts) ++
        ",".intercalate texts = ",".intercalate (self.labelTexts ++ texts) := by
  rw [intercalate_labelTexts_isEmpty]
  match self.labelTexts, texts with
  | [], texts => simp
  | label :: labels, [] => simp
  | label :: labels, text :: texts =>
    rw [String.intercalate_append_of_ne_nil (List.cons_ne_nil label labels)
      (List.cons_ne_nil text texts)]
    rfl

/-- **The text of a selector** has the texts of its labels and expressions between commas. -/
theorem toQueryString_eq_ok_iff {text : String} : self.toQueryString = .ok text ↔
    ∃ texts, (self.matchExpressions.getD []).mapM LabelSelectorRequirement.toQuery = .ok texts ∧
      text = ",".intercalate (self.labelTexts ++ texts) := by
  obtain ⟨expressions, labels⟩ := self
  match expressions with
  | none =>
    have hquery : toQueryString ⟨none, labels⟩ =
        .ok (",".intercalate (labelTexts ⟨none, labels⟩)) := by
      cases labels <;> rfl
    rw [hquery]
    constructor
    · intro h
      exact ⟨[], rfl, by rw [List.append_nil, Except.ok.inj h]⟩
    · rintro ⟨texts, htexts, rfl⟩
      obtain rfl : [] = texts := Except.ok.inj htexts
      rw [List.append_nil]
  | some requirements =>
    have hquery : toQueryString ⟨some requirements, labels⟩ = (do
        let texts ← requirements.mapM LabelSelectorRequirement.toQuery
        let front := ",".intercalate (labelTexts ⟨some requirements, labels⟩)
        return (if !requirements.isEmpty && !front.isEmpty then front ++ "," else front) ++
          ",".intercalate texts) := by
      cases labels <;> rfl
    rw [hquery, bind_eq_ok]
    refine exists_congr fun texts => and_congr_right fun htexts => ?_
    -- there are as many texts as expressions
    have hempty : requirements.isEmpty = texts.isEmpty := by
      cases mapM_eq_ok_iff.mp htexts <;> rfl
    rw [hempty, ← labelTexts_append]
    constructor
    · intro h
      exact (Except.ok.inj h).symm
    · rintro rfl
      rfl

/-- The expressions of a text are lexed to their requirements. -/
theorem lex_expressions {expressions : List LabelSelectorRequirement} {texts : List String}
    (htexts : expressions.mapM LabelSelectorRequirement.toQuery = .ok texts)
    (hvalid : ∀ e ∈ expressions, e.IsValid) :
    texts.map (fun text => lex text.toList) =
        (expressions.filterMap LabelSelectorRequirement.requirement?).map Requirement.tokens ∧
      ∀ r ∈ expressions.filterMap LabelSelectorRequirement.requirement?, r.IsValid := by
  rw [mapM_eq_ok_iff] at htexts
  induction htexts with
  | nil => exact ⟨rfl, by simp⟩
  | @cons e text expressions texts htext _ ih =>
    rw [List.forall_mem_cons] at hvalid
    obtain ⟨htokens, hrequirements⟩ := ih hvalid.2
    obtain ⟨-, error, herror⟩ | ⟨-, text', r, htext', hr, hlex⟩ := e.toQuery_cases
    · rw [htext] at herror
      cases herror
    · obtain rfl : text = text' := Except.ok.inj (htext.symm.trans htext')
      obtain ⟨hrvalid, hlex⟩ := hlex hvalid.1
      rw [List.filterMap_cons_some hr, List.map_cons, List.map_cons, htokens, hlex]
      exact ⟨rfl, List.forall_mem_cons.mpr ⟨hrvalid, hrequirements⟩⟩

/-- The labels of a text are lexed to their requirements. -/
theorem lex_labels (hvalid : self.IsValid) :
    self.labelTexts.map (fun text => lex text.toList) =
        (self.labels.map fun e => (⟨e.1, .equals, [e.2]⟩ : Requirement)).map Requirement.tokens ∧
      ∀ r ∈ self.labels.map fun e => (⟨e.1, .equals, [e.2]⟩ : Requirement), r.IsValid := by
  rw [labelTexts, List.map_map, List.map_map]
  refine ⟨List.map_congr_left fun e he => ?_, List.forall_mem_map.mpr fun e he => ?_⟩
  · obtain ⟨hkey, hvalue⟩ := hvalid.labels e he
    exact lex_equals hkey hvalue
  · obtain ⟨hkey, hvalue⟩ := hvalid.labels e he
    exact ⟨hkey, by simpa using hvalue, e.2, rfl⟩

/-- **The text of a selector is read back** as its requirements. -/
theorem parse_of_toQueryString (hvalid : self.IsValid) {text : String}
    (htext : self.toQueryString = .ok text) : parse text.toList = some self.requirements := by
  obtain ⟨texts, htexts, rfl⟩ := toQueryString_eq_ok_iff.mp htext
  obtain ⟨hlabels, hlabelsValid⟩ := lex_labels hvalid
  obtain ⟨hexpressions, hexpressionsValid⟩ := lex_expressions htexts hvalid.expressions
  refine parse_of_lex (List.forall_mem_append.mpr ⟨hlabelsValid, hexpressionsValid⟩) ?_
  have htokens : ((self.labelTexts ++ texts).map String.toList).map lex =
      self.requirements.map Requirement.tokens := by
    rw [List.map_map, requirements, List.map_append, List.map_append, ← hlabels, ← hexpressions]
    rfl
  rw [String.toList_intercalate, ← htokens]
  exact lex_intercalate lex_append_comma _

/-- Labels equal their value. -/
theorem forall_matches_labels_iff (metadata : ObjectMeta) :
    (∀ r ∈ self.labels.map fun e => (⟨e.1, .equals, [e.2]⟩ : Requirement),
        r.Matches metadata.label?) ↔
      ∀ labels ∈ self.matchLabels, ∀ e ∈ IterMap.iter (M := BTreeMap String) labels,
        metadata.label? e.1 = some e.2 := by
  rw [List.forall_mem_map, labels]
  match self.matchLabels with
  | none => simp
  | some labels => simp [Requirement.Matches]

/-- Well-formed expressions have a requirement that says the same. -/
theorem forall_matches_expressions_iff (metadata : ObjectMeta)
    {expressions : List LabelSelectorRequirement} (h : ∀ e ∈ expressions, e.IsWellFormed) :
    (∀ r ∈ expressions.filterMap LabelSelectorRequirement.requirement?,
        r.Matches metadata.label?) ↔ ∀ e ∈ expressions, e.Matches metadata := by
  induction expressions with
  | nil => simp
  | cons e expressions ih =>
    rw [List.forall_mem_cons] at h
    obtain ⟨hno, -⟩ | ⟨-, text, r, -, hr, -⟩ := e.toQuery_cases
    · exact absurd h.1 hno
    · rw [List.filterMap_cons_some hr, List.forall_mem_cons, List.forall_mem_cons, ih h.2,
        LabelSelectorRequirement.matches_iff hr]

/-- **Selectors survive their text**: there is a text iff all expressions are well formed, and it is
read back as the requirements of the selector. They hold for what the selector selects. -/
theorem toQueryString_parse (hvalid : self.IsValid) :
    ((∃ text, self.toQueryString = .ok text) ↔
      ∀ e ∈ self.matchExpressions.getD [], e.IsWellFormed) ∧
    ∀ text, self.toQueryString = .ok text → parse text.toList = some self.requirements ∧
      ∀ metadata, (∀ r ∈ self.requirements, r.Matches metadata.label?) ↔
        self.Matches metadata := by
  have hsome : (∃ text, self.toQueryString = .ok text) ↔
      ∀ e ∈ self.matchExpressions.getD [], e.IsWellFormed := by
    rw [← forall₂_congr fun e _ => LabelSelectorRequirement.exists_toQuery_iff,
      ← exists_mapM_eq_ok_iff]
    constructor
    · rintro ⟨text, htext⟩
      obtain ⟨texts, htexts, -⟩ := toQueryString_eq_ok_iff.mp htext
      exact ⟨texts, htexts⟩
    · rintro ⟨texts, htexts⟩
      exact ⟨_, toQueryString_eq_ok_iff.mpr ⟨texts, htexts, rfl⟩⟩
  refine ⟨hsome, fun text htext => ⟨parse_of_toQueryString hvalid htext, fun metadata => ?_⟩⟩
  have hexpressions := forall_matches_expressions_iff metadata (hsome.mp ⟨text, htext⟩)
  rw [requirements, List.forall_mem_append, hexpressions, forall_matches_labels_iff, and_comm]
  exact Iff.rfl

/-- A value may be empty, and it may be the name of an operator. -/
def shopSelector : LabelSelector where
  matchExpressions := some [⟨"tier", "NotIn", some ["", "in"]⟩, ⟨"debug", "DoesNotExist", none⟩]
  matchLabels := some (IterMap.collect [("role", "web"), ("app", "shop")])

theorem parse_shopSelector : shopSelector.IsValid ∧
    parse "app=shop,role=web,tier notin (, in),!debug".toList = some shopSelector.requirements := by
  have hvalid : shopSelector.IsValid := by
    refine ⟨?_, by decide +kernel⟩
    refine List.forall_mem_cons.mpr ⟨⟨by decide +kernel, by decide +kernel⟩, ?_⟩
    exact List.forall_mem_singleton.mpr ⟨by decide +kernel, by decide +kernel⟩
  have htext : shopSelector.toQueryString =
      .ok "app=shop,role=web,tier notin (, in),!debug" := by
    decide +kernel
  exact ⟨hvalid, ((toQueryString_parse hvalid).2 _ htext).1⟩

end LabelSelector

end StackableOperator
