import Mathlib
import StackableOperator.Readers.Combinator

/-!
# Feature gates of the API server

The metrics of the API server have one line for each sample. The samples of the metric
`kubernetes_feature_enabled` are the feature gates; `parseFromMetrics` reads them.

`MetricsLine` are the lines that a metrics text consists of. The feature gates are read completely
unless another metric's name begins with the name of theirs (`parseFromMetrics_iff`).
-/

namespace StackableOperator

/-- `str::lines` -/
def lines (s : List Char) : List (List Char) :=
  let pieces := s.splitOn '\n'
  let lines := pieces.dropLast.map fun line =>
    if line.getLast? = some '\r' then line.dropLast else line
  match pieces.getLast? with
  | some (c :: cs) => lines ++ [c :: cs]
  | _ => lines

namespace Client

open TextParser

/-- A feature can be in one of four different stages. -/
inductive FeatureStage : Type
  | alpha
  | beta
  | generalAvailability
  | deprecated
  deriving DecidableEq

/-- The text of a stage in the metrics. -/
def FeatureStage.toText : FeatureStage → List Char
  | alpha => "ALPHA".toList
  | beta => "BETA".toList
  | generalAvailability => []
  | deprecated => "DEPRECATED".toList

def FeatureStage.fromStr (s : List Char) : Option FeatureStage :=
  [alpha, beta, generalAvailability, deprecated].find? fun stage => stage.toText = s

structure FeatureGate : Type where
  name : List Char
  stage : FeatureStage
  enabled : Bool
  deriving DecidableEq

namespace FeatureGate

def metricName : List Char := "kubernetes_feature_enabled".toList

/-- Spaces and tabs. -/
def isBlank (c : Char) : Bool := c == ' ' || c == '\t'

/-- Parse the well-known, static metric name. -/
def parseMetricName : TextParser Unit := literal metricName

/-- One label. Its value can be empty. -/
def parseLabel : TextParser (List Char × List Char) := do
  let key ← takeWhile1 Char.isAlphanum
  literal ['=']
  literal ['"']
  let value ← takeWhile Char.isAlphanum
  literal ['"']
  return (key, value)

/-- There might be spaces between labels. -/
def parseLabelSeparator : TextParser Unit := do
  literal [',']
  let _ ← takeWhile isBlank
  return ()

/-- The labels, at least two of them. -/
def parseLabels : TextParser (List (List Char × List Char)) :=
  separated 2 parseLabel parseLabelSeparator

/-- The value of a label. Later labels replace earlier ones. -/
def label (labels : List (List Char × List Char)) (key : String) : Option (List Char) :=
  labels.reverse.lookup key.toList

/-- The feature gate of the labels and the value of a sample. -/
def ofLabels (sample : List (List Char × List Char) × List Char) : Option FeatureGate := do
  let name ← label sample.1 "name"
  let stage ← label sample.1 "stage"
  let stage ← FeatureStage.fromStr stage
  let count ← (parseUnsigned (2 ^ 8) sample.2).toOption
  return ⟨name, stage, count ≠ 0⟩

/-- Parse a feature gate from a line. -/
def parseFromMetric : TextParser FeatureGate :=
  tryMap (do
    parseMetricName
    literal ['{']
    let labels ← parseLabels
    literal ['}']
    let _ ← takeWhile1 isBlank
    let count ← takeWhile1 Char.isDigit
    return (labels, count)) ofLabels

def fromStr (s : List Char) : Option FeatureGate := parseFromMetric.parse s

/-- Parse the relevant feature gate metrics of a complete body. -/
def parseFromMetrics (body : List Char) : Option (List FeatureGate) :=
  ((lines body).filter metricName.isPrefixOf).mapM fromStr

/-! ### The lines of a metrics text -/

/-- The characters of metric names. -/
def isMetricChar (c : Char) : Bool := c.isAlphanum || c == '_' || c == ':'

/-- A sample of the feature gate metric. -/
structure Sample : Type where
  gate : FeatureGate
  /-- The name comes before the stage. -/
  nameFirst : Bool
  /-- What stands behind the comma. -/
  gap : List Char
  /-- What stands in front of the value. -/
  space : List Char
  isAlphanum_name : ∀ c ∈ gate.name, c.isAlphanum = true
  isBlank_gap : ∀ c ∈ gap, isBlank c = true
  isBlank_space : ∀ c ∈ space, isBlank c = true
  space_ne_nil : space ≠ []

def labelText (key value : List Char) : List Char := key ++ (['='] ++ (['"'] ++ (value ++ ['"'])))

/-- The labels of a sample in their order. -/
def Sample.labels (self : Sample) : (List Char × List Char) × (List Char × List Char) :=
  let name := ("name".toList, self.gate.name)
  let stage := ("stage".toList, self.gate.stage.toText)
  if self.nameFirst then (name, stage) else (stage, name)

def Sample.text (self : Sample) : List Char :=
  metricName ++ (['{'] ++ (labelText self.labels.1.1 self.labels.1.2 ++
    ([','] ++ (self.gap ++ (labelText self.labels.2.1 self.labels.2.2 ++
      (['}'] ++ (self.space ++ [if self.gate.enabled then '1' else '0'])))))))

/-- A line of a metrics text. -/
inductive MetricsLine : Type
  | comment (blanks text : List Char) (hblanks : ∀ c ∈ blanks, isBlank c = true)
  | blank (blanks : List Char) (hblanks : ∀ c ∈ blanks, isBlank c = true)
  /-- A sample of another metric. Its labels and its value can be anything. -/
  | other (name rest : List Char) (hname : ∀ c ∈ name, isMetricChar c = true)
    (hne : name ≠ metricName) (hrest : EndsRun isMetricChar rest)
  | featureGate (sample : Sample)

def MetricsLine.text : MetricsLine → List Char
  | comment blanks text _ => blanks ++ '#' :: text
  | blank blanks _ => blanks
  | other name rest _ _ _ => name ++ rest
  | featureGate sample => sample.text

/-- The feature gate that a line is a sample of. -/
def MetricsLine.gate : MetricsLine → Option FeatureGate
  | featureGate sample => some sample.gate
  | _ => none

/-- The line is not a sample of another metric whose name begins like that of feature gates. -/
def MetricsLine.IsTold : MetricsLine → Prop
  | other name _ _ _ _ => ¬ metricName <+: name
  | _ => True

/-! ### Samples are read -/

/-- A run of characters ends where a character of another class stands. -/
theorem endsRun_cons {p : Char → Bool} {c : Char} (h : p c = false) (s : List Char) :
    EndsRun p (c :: s) := by
  rintro d ⟨⟩
  exact h

theorem reads_parseLabel {key value : List Char} (hkey : ∀ c ∈ key, c.isAlphanum = true)
    (hne : key ≠ []) (hvalue : ∀ c ∈ value, c.isAlphanum = true) :
    Reads parseLabel (labelText key value) (key, value) fun _ => True := by
  refine (reads_takeWhile1 hkey hne).bind ?_ fun rest _ => endsRun_cons (by decide) _
  refine (reads_literal ['=']).bind ?_ fun _ _ => trivial
  refine (reads_literal ['"']).bind ?_ fun _ _ => trivial
  refine (reads_takeWhile hvalue).bind ?_ fun rest _ => endsRun_cons (by decide) _
  exact (reads_literal ['"']).bind_pure

theorem isAlphanum_of_toText (stage : FeatureStage) : ∀ c ∈ stage.toText, c.isAlphanum = true := by
  cases stage <;> exact List.all_eq_true.mp rfl

theorem fromStr_toText (stage : FeatureStage) : FeatureStage.fromStr stage.toText = some stage := by
  cases stage <;> decide

namespace Sample

variable (self : Sample)

theorem reads_labels : Reads parseLabel (labelText self.labels.1.1 self.labels.1.2)
      self.labels.1 (fun _ => True) ∧
    Reads parseLabel (labelText self.labels.2.1 self.labels.2.2)
      self.labels.2 fun _ => True := by
  have hname : Reads parseLabel (labelText "name".toList self.gate.name) _ fun _ => True :=
    reads_parseLabel (List.all_eq_true.mp rfl) (by decide +kernel) self.isAlphanum_name
  have hstage : Reads parseLabel (labelText "stage".toList self.gate.stage.toText) _
      fun _ => True :=
    reads_parseLabel (List.all_eq_true.mp rfl) (by decide +kernel)
      (isAlphanum_of_toText self.gate.stage)
  rw [labels]
  split_ifs
  · exact ⟨hname, hstage⟩
  · exact ⟨hstage, hname⟩

/-- The second label begins with a letter, which ends the blanks behind the comma. -/
theorem endsRun_labelText (rest : List Char) :
    EndsRun isBlank (labelText self.labels.2.1 self.labels.2.2 ++ rest) := by
  rw [labels]
  split_ifs
  · exact endsRun_cons (by decide) _
  · exact endsRun_cons (by decide) _

theorem reads_parseLabels : Reads parseLabels
    (labelText self.labels.1.1 self.labels.1.2 ++
      ([','] ++ (self.gap ++ labelText self.labels.2.1 self.labels.2.2)))
    [self.labels.1, self.labels.2] fun rest => rest.head? = some '}' := by
  have hsecond : Separated parseLabel parseLabelSeparator (fun _ => True)
      ([','] ++ (self.gap ++ labelText self.labels.2.1 self.labels.2.2)) self.labels.2 := by
    refine ⟨?_, List.cons_ne_nil _ _, fun _ => trivial⟩
    have hgap : Reads parseLabelSeparator ([','] ++ self.gap) () (EndsRun isBlank) := by
      refine (reads_literal [',']).bind ?_ fun _ _ => trivial
      exact (reads_takeWhile self.isBlank_gap).bind_pure
    have hboth := hgap.bind (f := fun _ => parseLabel) self.reads_labels.2
      fun rest _ => self.endsRun_labelText rest
    rwa [List.append_assoc] at hboth
  have hitems : ∀ item ∈ [([','] ++ (self.gap ++ labelText self.labels.2.1 self.labels.2.2),
      self.labels.2)], Separated parseLabel parseLabelSeparator (fun _ => True) item.1 item.2 :=
    List.forall_mem_singleton.mpr hsecond
  intro rest hrest
  have hlabels := reads_separated self.reads_labels.1 hitems le_rfl rest
  simp only [List.flatMap_cons, List.flatMap_nil, List.append_nil] at hlabels
  refine hlabels ⟨trivial, ?_⟩
  obtain ⟨rest, rfl⟩ : ∃ rest', rest = '}' :: rest' := List.head?_eq_some_iff.mp hrest
  rw [parseLabelSeparator, bind_assoc]
  exact run_literal_bind_eq_none (by decide)

/-- The labels in either order have the name and the stage. -/
theorem ofLabels_labels : ofLabels
    ([self.labels.1, self.labels.2], [if self.gate.enabled then '1' else '0']) =
      some self.gate := by
  have hname : label [self.labels.1, self.labels.2] "name" = some self.gate.name := by
    rw [labels]
    split_ifs <;> rfl
  have hstage : label [self.labels.1, self.labels.2] "stage" = some self.gate.stage.toText := by
    rw [labels]
    split_ifs <;> rfl
  have hcount : (parseUnsigned (2 ^ 8) [if self.gate.enabled then '1' else '0']).toOption =
      some (if self.gate.enabled then 1 else 0) := by
    split_ifs <;> rfl
  rw [ofLabels, hname, hstage, Option.bind_eq_bind, Option.bind_some, Option.bind_eq_bind,
    Option.bind_some, fromStr_toText, Option.bind_eq_bind, Option.bind_some, hcount]
  cases henabled : self.gate.enabled <;> simp [← henabled]

/-- **A sample is read as its feature gate.** -/
theorem fromStr_text : fromStr self.text = some self.gate := by
  have htext : self.text = metricName ++ (['{'] ++
      ((labelText self.labels.1.1 self.labels.1.2 ++
        ([','] ++ (self.gap ++ labelText self.labels.2.1 self.labels.2.2))) ++
      (['}'] ++ (self.space ++ [if self.gate.enabled then '1' else '0'])))) := by
    simp [text]
  have hdigit : ∀ c ∈ [if self.gate.enabled then '1' else '0'], c.isDigit = true := by
    rw [List.forall_mem_singleton]
    split_ifs <;> rfl
  have hblank (rest : List Char) :
      EndsRun isBlank ([if self.gate.enabled then '1' else '0'] ++ rest) := by
    split_ifs <;> exact endsRun_cons (by decide) rest
  have hstop : EndsRun Char.isDigit [] := fun _ h => absurd h (by simp)
  rw [htext]
  refine Reads.parse (Reads.tryMap ?_ self.ofLabels_labels) hstop
  refine (reads_literal metricName).bind ?_ fun _ _ => trivial
  refine (reads_literal ['{']).bind ?_ fun _ _ => trivial
  refine self.reads_parseLabels.bind ?_ fun _ _ => rfl
  refine (reads_literal ['}']).bind ?_ fun _ _ => trivial
  refine (reads_takeWhile1 self.isBlank_space self.space_ne_nil).bind ?_ fun rest _ => hblank rest
  exact (reads_takeWhile1 hdigit (List.cons_ne_nil _ [])).bind_pure

end Sample

/-! ### The lines of the feature gates -/

theorem isMetricChar_metricName : ∀ c ∈ metricName, isMetricChar c = true :=
  List.all_eq_true.mp rfl

/-- A metric's name ends where the feature gate metric's name would go on. -/
theorem metricName_isPrefix_append_iff {name rest : List Char}
    (hrest : EndsRun isMetricChar rest) :
    metricName <+: name ++ rest ↔ metricName <+: name := by
  refine ⟨fun h => ?_, fun h => h.trans (List.prefix_append name rest)⟩
  obtain h | ⟨t, ht⟩ := List.prefix_or_prefix_of_prefix h (List.prefix_append name rest)
  · exact h
  · -- the metric's name is a part, so its rest begins with the next character
    rw [← ht, List.prefix_append_right_inj] at h
    match t with
    | [] =>
      rw [List.append_nil] at ht
      exact ht ▸ List.prefix_refl name
    | c :: t =>
      obtain ⟨u, rfl⟩ := h
      have hc : isMetricChar c = true :=
        isMetricChar_metricName c (ht ▸ List.mem_append_right name List.mem_cons_self)
      exact absurd (hrest c rfl) (by simp [hc])

/-- **A sample of a metric whose name is longer is not read.** -/
theorem fromStr_eq_none {c : Char} (hc : isMetricChar c = true) (s : List Char) :
    fromStr (metricName ++ c :: s) = none := by
  have hne : '{' ≠ c := by
    rintro rfl
    exact absurd hc (by decide)
  refine parse_eq_none ?_
  rw [parseFromMetric, tryMap, bind_assoc, StateT.run_bind, parseMetricName,
    reads_literal metricName _ trivial, bind_assoc, Option.bind_eq_bind, Option.bind_some]
  exact run_literal_bind_eq_none hne

namespace MetricsLine

/-- Lines without samples are passed over. -/
theorem not_isPrefix_of_blanks {blanks s : List Char} (hblanks : ∀ c ∈ blanks, isBlank c = true)
    (hs : ∀ c ∈ s.head?, c ≠ 'k') : ¬ metricName <+: blanks ++ s := by
  intro h
  have hhead : (blanks ++ s).head? = some 'k' := by
    obtain ⟨t, ht⟩ := h
    rw [← ht]
    rfl
  match blanks with
  | [] => exact hs 'k' hhead rfl
  | c :: blanks =>
    obtain rfl : c = 'k' := Option.some.inj hhead
    exact absurd (hblanks 'k' List.mem_cons_self) (by decide)

/-- What happens to a line: it is passed over, read, or it fails. -/
theorem text_cases (line : MetricsLine) :
    (line.IsTold ∧ line.gate = none ∧ ¬ metricName <+: line.text) ∨
      (∃ gate, line.IsTold ∧ line.gate = some gate ∧ metricName <+: line.text ∧
        fromStr line.text = some gate) ∨
      (¬ line.IsTold ∧ metricName <+: line.text ∧ fromStr line.text = none) := by
  cases line with
  | comment blanks text hblanks =>
    exact .inl ⟨trivial, rfl, not_isPrefix_of_blanks hblanks (by rintro c ⟨⟩; decide)⟩
  | blank blanks hblanks =>
    have hnot := not_isPrefix_of_blanks (s := []) hblanks (by simp)
    rw [List.append_nil] at hnot
    exact .inl ⟨trivial, rfl, hnot⟩
  | other name rest hname hne hrest =>
    by_cases hstarts : metricName <+: name
    · refine .inr (.inr ⟨not_not_intro hstarts, hstarts.trans (List.prefix_append name rest), ?_⟩)
      obtain ⟨t, rfl⟩ := hstarts
      match t with
      | [] => exact absurd (List.append_nil metricName) hne
      | c :: t =>
        have hc : isMetricChar c = true := hname c (by simp)
        have heq : (other (metricName ++ c :: t) rest hname hne hrest).text =
            metricName ++ c :: (t ++ rest) := by simp [text]
        rw [heq]
        exact fromStr_eq_none hc (t ++ rest)
    · exact .inl ⟨hstarts, rfl, fun h => hstarts ((metricName_isPrefix_append_iff hrest).mp h)⟩
  | featureGate sample =>
    refine .inr (.inl ⟨sample.gate, trivial, rfl, ?_, sample.fromStr_text⟩)
    rw [text, Sample.text]
    exact List.prefix_append metricName _

/-- The lines are read if no name begins like that of feature gates, otherwise they are not. -/
theorem mapM_fromStr (body : List MetricsLine) :
    ((body.map text).filter metricName.isPrefixOf).mapM fromStr =
        some (body.filterMap gate) ∧ (∀ line ∈ body, line.IsTold) ∨
      ((body.map text).filter metricName.isPrefixOf).mapM fromStr = none ∧
        ¬ ∀ line ∈ body, line.IsTold := by
  induction body with
  | nil => exact .inl ⟨rfl, by simp⟩
  | cons line body ih =>
    rw [List.forall_mem_cons, List.map_cons]
    obtain ⟨htold, hgate, hstarts⟩ | ⟨gate, htold, hgate, hstarts, hread⟩ |
        ⟨htold, hstarts, hread⟩ :=
      line.text_cases
    · rw [List.filter_cons_of_neg (by simpa using hstarts), List.filterMap_cons_none hgate,
        and_iff_right htold]
      exact ih
    · rw [List.filter_cons_of_pos (by simpa using hstarts), List.filterMap_cons_some hgate,
        and_iff_right htold, List.mapM_cons, hread]
      obtain ⟨hrest, hall⟩ | ⟨hrest, hall⟩ := ih
      · exact .inl ⟨by rw [hrest]; rfl, hall⟩
      · exact .inr ⟨by rw [hrest]; rfl, hall⟩
    · rw [List.filter_cons_of_pos (by simpa using hstarts), List.mapM_cons, hread]
      exact .inr ⟨rfl, fun h => htold h.1⟩

end MetricsLine

/-- **The feature gates of a metrics text are read completely, unless the name of another metric
begins with the name of theirs.** -/
theorem parseFromMetrics_iff (body : List Char) (metrics : List MetricsLine)
    (hbody : lines body = metrics.map MetricsLine.text) :
    parseFromMetrics body = some (metrics.filterMap MetricsLine.gate) ↔
      ∀ line ∈ metrics, line.IsTold := by
  rw [parseFromMetrics, hbody]
  obtain ⟨hread, hall⟩ | ⟨hread, hall⟩ := MetricsLine.mapM_fromStr metrics
  · exact iff_of_true hread hall
  · exact iff_of_false (by simp [hread]) hall

/-- The gate of all alpha features, which is off. -/
def allAlpha : Sample where
  gate := ⟨"AllAlpha".toList, .alpha, false⟩
  nameFirst := true
  gap := []
  space := [' ']
  isAlphanum_name := List.all_eq_true.mp rfl
  isBlank_gap := List.all_eq_true.mp rfl
  isBlank_space := List.all_eq_true.mp rfl
  space_ne_nil := List.cons_ne_nil ' ' []

/-- A text with a comment and one feature gate. -/
theorem parseFromMetrics_allAlpha :
    parseFromMetrics (("# HELP\n".toList ++ allAlpha.text) ++ ['\n']) = some [allAlpha.gate] :=
  (parseFromMetrics_iff _ [.comment [] " HELP".toList (by simp), .featureGate allAlpha]
    (by decide +kernel)).mpr (by simp [MetricsLine.IsTold])

/-- A counter next to the gauge of the feature gates makes the whole text fail. -/
theorem parseFromMetrics_total : ¬ ∀ (body : List Char) (metrics : List MetricsLine),
    lines body = metrics.map MetricsLine.text →
      parseFromMetrics body = some (metrics.filterMap MetricsLine.gate) := by
  intro h
  let counter : MetricsLine := .other "kubernetes_feature_enabled_total".toList " 1".toList
    (List.all_eq_true.mp rfl) (by decide +kernel) (endsRun_cons rfl _)
  have hparse := h "kubernetes_feature_enabled_total 1".toList [counter] (by decide +kernel)
  exact absurd hparse (by decide +kernel)

end FeatureGate

end Client

end StackableOperator
