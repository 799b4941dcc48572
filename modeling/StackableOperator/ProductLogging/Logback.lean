import Mathlib
import StackableOperator.RustStd.EscapeDefault
import StackableOperator.Readers.Xml
import StackableOperator.ProductLogging.Log4j

/-!
# Configuration files of Logback

`createLogbackConfig` writes every logger as an element with its name, with the default escapes of
Rust, in an attribute. The elements of the file are those of the configuration iff all names consist
of characters that need neither these escapes nor the ones of XML
(`hasChildren_createLogbackConfig_iff`).
-/

namespace StackableOperator

namespace LogLevel

/-- The level in the words of Logback. -/
def toLogbackLiteral : LogLevel → String
  | .trace => "TRACE"
  | .debug => "DEBUG"
  | .info => "INFO"
  | .warn => "WARN"
  | .error => "ERROR"
  | .fatal => "ERROR"
  | .none => "OFF"

end LogLevel

/-- The element of a logger in a line. -/
def logbackLogger (name : String) (level : LogLevel) : String :=
  "  <logger name=\"" ++ String.ofList (escapeDefault name.toList) ++ "\" level=\"" ++
    level.toLogbackLiteral ++ "\" />\n"

/-- The appenders in a Logback configuration file. -/
def logbackAppenders (logDir logFile : String) (maxSizeInMib : UInt32)
    (consoleConversionPattern : String) (config : AutomaticContainerLogConfig) : String :=
  let numberOfArchivedLogFiles : UInt32 := 1
  let maxLogFileSizeInMib := max 1 (maxSizeInMib / (1 + numberOfArchivedLogFiles))
  "<configuration>
  <appender name=\"CONSOLE\" class=\"ch.qos.logback.core.ConsoleAppender\">
    <encoder>
      <pattern>" ++ consoleConversionPattern ++ "</pattern>
    </encoder>
    <filter class=\"ch.qos.logback.classic.filter.ThresholdFilter\">
      <level>" ++ (AppenderConfig.levelOrDefault config.console).toLogbackLiteral ++ "</level>
    </filter>
  </appender>

  <appender name=\"FILE\" class=\"ch.qos.logback.core.rolling.RollingFileAppender\">
    <File>" ++ logDir ++ "/" ++ logFile ++ "</File>
    <encoder class=\"ch.qos.logback.core.encoder.LayoutWrappingEncoder\">
      <layout class=\"ch.qos.logback.classic.log4j.XMLLayout\" />
    </encoder>
    <filter class=\"ch.qos.logback.classic.filter.ThresholdFilter\">
      <level>" ++ (AppenderConfig.levelOrDefault config.file).toLogbackLiteral ++ "</level>
    </filter>
    <rollingPolicy class=\"ch.qos.logback.core.rolling.FixedWindowRollingPolicy\">
      <minIndex>1</minIndex>
      <maxIndex>" ++ toString numberOfArchivedLogFiles.toNat ++ "</maxIndex>
      <FileNamePattern>" ++ logDir ++ "/" ++ logFile ++ ".%i</FileNamePattern>
    </rollingPolicy>
    <triggeringPolicy class=\"ch.qos.logback.core.rolling.SizeBasedTriggeringPolicy\">
      <MaxFileSize>" ++ toString maxLogFileSizeInMib.toNat ++ "MB</MaxFileSize>
      <!--
        checkIncrement defines how often file sizes are checked, because
        checking them is a relatively costly operation.
        checkIncrement was introduced in the SizeBasedTriggeringPolicy in
        logback 1.3.6/1.4.6 as an Integer representing milliseconds. In logback
        1.3.12/1.4.12, it was changed to a Duration, also accepting a unit.
        Without a given unit, milliseconds are assumed. The logback manual is
        misleading: In logback 1.5.8, checkIncrement is no longer used for the
        SizeAndTimeBasedFileNamingAndTriggeringPolicy, but it is still used for
        the SizeBasedTriggeringPolicy!
        In prior versions of logback, setting this option has no effect.
      -->
      <checkIncrement>5000</checkIncrement>
    </triggeringPolicy>
  </appender>

"

/-- The element of the root logger at the end of a Logback configuration file. -/
def logbackRoot (level : LogLevel) : String :=
  "  <root level=\"" ++ level.toLogbackLiteral ++ "\">
    <appender-ref ref=\"CONSOLE\" />
    <appender-ref ref=\"FILE\" />
  </root>
</configuration>
"

/-- Create the content of a Logback configuration file. -/
def createLogbackConfig (logDir logFile : String) (maxSizeInMib : UInt32)
    (consoleConversionPattern : String) (config : AutomaticContainerLogConfig)
    (additionalConfig : Option String) : String :=
  let loggers := config.otherLoggers.foldl
    (fun output logger => output ++ logbackLogger logger.1 logger.2.level) ""
  logbackAppenders logDir logFile maxSizeInMib consoleConversionPattern config ++ loggers ++
    "\n" ++ additionalConfig.getD "" ++ "\n" ++ logbackRoot config.rootLogLevel

/-! ### Names in values -/

open Xml

/-- Characters that are neither escaped nor part of the markup. -/
def isVerbatim (c : Char) : Bool :=
  isPrintable c && c != '\'' && c != '"' && c != '\\' && c != '<' && c != '&'

/-- Characters without an escape. -/
def isUnescaped (c : Char) : Bool := isPrintable c && c != '\'' && c != '"' && c != '\\'

theorem isUnescaped_iff {c : Char} :
    isUnescaped c = true ↔ isPrintable c = true ∧ c ≠ '\'' ∧ c ≠ '"' ∧ c ≠ '\\' := by
  simp [isUnescaped, and_assoc]

theorem isUnescaped_of_isVerbatim {c : Char} (h : isVerbatim c = true) : isUnescaped c = true := by
  simp only [isVerbatim, Bool.and_eq_true] at h
  simp only [isUnescaped, Bool.and_eq_true]
  exact h.1.1

theorem escapeDefaultChar_of_isUnescaped {c : Char} (h : isUnescaped c = true) :
    escapeDefaultChar c = [c] := by
  obtain ⟨hprintable, hne⟩ := isUnescaped_iff.mp h
  have hescaped := escapedAs_escapeDefaultChar c
  generalize escapeDefaultChar c = escape at hescaped
  cases hescaped with
  | same => rfl
  | quoted hquoted => exact absurd hquoted (by simp [hne])
  | blank letter hmem =>
    simp only [List.mem_cons, Prod.mk.injEq, List.not_mem_nil, or_false] at hmem
    obtain ⟨rfl, -⟩ | ⟨rfl, -⟩ | ⟨rfl, -⟩ := hmem <;> cases hprintable
  | number hnot => exact absurd (hnot.symm.trans hprintable) Bool.false_ne_true

/-- All other escapes begin with a backslash. -/
theorem exists_escapeDefaultChar_eq_cons {c : Char} (h : isUnescaped c = false) :
    ∃ rest, escapeDefaultChar c = '\\' :: rest ∧ (c = '\\' → rest = ['\\']) := by
  have hescaped := escapedAs_escapeDefaultChar c
  generalize escapeDefaultChar c = escape at hescaped
  cases hescaped with
  | same hprintable hne => exact absurd (isUnescaped_iff.mpr ⟨hprintable, hne⟩) (by simp [h])
  | quoted hquoted => exact ⟨[c], rfl, fun hc => by rw [hc]⟩
  | blank letter hmem =>
    refine ⟨[letter], rfl, ?_⟩
    rintro rfl
    simp at hmem
  | number hnot =>
    refine ⟨_, rfl, ?_⟩
    rintro rfl
    cases hnot

theorem escapeDefault_of_all {s : List Char} (h : s.all isUnescaped = true) :
    escapeDefault s = s := by
  induction s with
  | nil => rfl
  | cons c s ih =>
    rw [List.all_cons, Bool.and_eq_true_iff] at h
    rw [escapeDefault_cons, escapeDefaultChar_of_isUnescaped h.1, ih h.2, List.singleton_append]

theorem isChar_of_isPrintable {c : Char} (h : isPrintable c = true) : isChar c = true := by
  simp only [isPrintable, Bool.and_eq_true, decide_eq_true_eq] at h
  have hle : 0x20 ≤ c.toNat := h.1
  have hlast : c.toNat ≠ 0xfffe ∧ c.toNat ≠ 0xffff := by omega
  simp [isChar, hle, hlast]

theorem normalized_of_isPrintable {c : Char} (h : isPrintable c = true) : normalized c = c := by
  rw [normalized]
  split_ifs with hspace
  · simp only [isSpace, Bool.or_eq_true, beq_iff_eq] at hspace
    obtain ((rfl | rfl) | rfl) | rfl := hspace
    · rfl
    · cases h
    · cases h
    · cases h
  · rfl

/-- A value with such characters is read back. -/
theorem readValue_of_isVerbatim {s rest : List Char} (h : s.all isVerbatim = true) :
    readValue '"' none (s ++ '"' :: rest) = some (s, rest) := by
  induction s with
  | nil => simp [readValue]
  | cons c s ih =>
    rw [List.all_cons, Bool.and_eq_true_iff] at h
    obtain ⟨hc, hs⟩ := h
    simp only [isVerbatim, Bool.and_eq_true, bne_iff_ne, ne_eq] at hc
    obtain ⟨⟨⟨⟨⟨hprintable, -⟩, hquote⟩, -⟩, hopen⟩, hreference⟩ := hc
    rw [List.cons_append, readValue, if_neg hquote, if_neg hreference,
      if_neg (by simp [hopen, isChar_of_isPrintable hprintable]), ih hs, Option.map_some,
      normalized_of_isPrintable hprintable]

/-- Without escapes, a text is read as a value that is not longer, because of references, and
otherwise the same. What follows begins with a character that is not part of a reference. -/
theorem readValue_unescaped {s rest value end_ : List Char} {c : Char}
    {reference : Option (List Char)} (hs : s.all isUnescaped = true)
    (hc : isReferenceChar c = false ∧ c ≠ ';')
    (h : readValue '"' reference (s ++ c :: rest) = some (value, end_)) :
    ∃ front back, value = front ++ back ∧ readValue '"' none (c :: rest) = some (back, end_) ∧
      front.length ≤ s.length ∧
      (reference = none → front.length = s.length → front = s ∧ s.all isVerbatim = true) := by
  induction s generalizing value reference with
  | nil =>
    cases reference with
    | none => exact ⟨[], value, rfl, h, Nat.le_refl _, fun _ _ => ⟨rfl, rfl⟩⟩
    | some letters =>
      rw [List.nil_append, readValue, if_neg hc.2, hc.1, if_neg Bool.false_ne_true] at h
      cases h
  | cons d s ih =>
    rw [List.all_cons, Bool.and_eq_true_iff] at hs
    obtain ⟨hd, hs⟩ := hs
    obtain ⟨hprintable, hapostrophe, hquote, hbackslash⟩ := isUnescaped_iff.mp hd
    cases reference with
    | none =>
      rw [List.cons_append, readValue, if_neg hquote] at h
      split_ifs at h with hreference hbad
      · obtain ⟨front, back, rfl, hback, hle, -⟩ := ih hs h
        refine ⟨front, back, rfl, hback, Nat.le_succ_of_le hle, fun _ heq => ?_⟩
        rw [List.length_cons] at heq
        omega
      · obtain ⟨⟨value', end'⟩, hvalue, heq⟩ := Option.map_eq_some_iff.mp h
        obtain ⟨rfl, rfl⟩ := Prod.mk.inj heq
        obtain ⟨front, back, rfl, hback, hle, hsame⟩ := ih hs hvalue
        refine ⟨normalized d :: front, back, rfl, hback, Nat.succ_le_succ hle, fun _ heq => ?_⟩
        obtain ⟨rfl, hall⟩ := hsame rfl (Nat.succ.inj heq)
        refine ⟨by rw [normalized_of_isPrintable hprintable], ?_⟩
        rw [not_or] at hbad
        simp [isVerbatim, hprintable, hapostrophe, hquote, hbackslash, hbad.1, hreference, hall]
    | some letters =>
      rw [List.cons_append, readValue] at h
      split_ifs at h with hend hletter
      · obtain ⟨e, -, hmap⟩ := Option.bind_eq_some_iff.mp h
        obtain ⟨⟨value', end'⟩, hvalue, heq⟩ := Option.map_eq_some_iff.mp hmap
        obtain ⟨rfl, rfl⟩ := Prod.mk.inj heq
        obtain ⟨front, back, rfl, hback, hle, -⟩ := ih hs hvalue
        exact ⟨e :: front, back, rfl, hback, Nat.succ_le_succ hle, fun hnone => by cases hnone⟩
      · obtain ⟨front, back, rfl, hback, hle, -⟩ := ih hs h
        exact ⟨front, back, rfl, hback, Nat.le_succ_of_le hle, fun hnone => by cases hnone⟩

theorem readValue_backslash (text : List Char) :
    readValue '"' none ('\\' :: text) =
      (readValue '"' none text).map fun r => ('\\' :: r.1, r.2) := by
  rw [readValue, if_neg (by decide), if_neg (by decide), if_neg (by decide)]
  rfl

/-- Behind a backslash that is too much, a text is not read back. -/
theorem ne_of_readValue_backslashes {s rest value end_ : List Char} {n : ℕ}
    (h : readValue '"' none (List.replicate (n + 1) '\\' ++ (escapeDefault s ++ '"' :: rest)) =
      some (value, end_)) : value ≠ s := by
  induction s generalizing n value with
  | nil =>
    rw [List.replicate_succ, List.cons_append, readValue_backslash] at h
    obtain ⟨r, -, heq⟩ := Option.map_eq_some_iff.mp h
    rintro rfl
    cases heq
  | cons c s ih =>
    rw [List.replicate_succ, List.cons_append, readValue_backslash] at h
    obtain ⟨⟨value', end'⟩, hvalue, heq⟩ := Option.map_eq_some_iff.mp h
    obtain ⟨rfl, rfl⟩ := Prod.mk.inj heq
    rintro heq
    obtain ⟨rfl, rfl⟩ := List.cons.inj heq
    -- the value goes on with the two backslashes for the next one
    have hnext : List.replicate n '\\' ++ (escapeDefault ('\\' :: value') ++ '"' :: rest) =
        List.replicate (n + 1 + 1) '\\' ++ (escapeDefault value' ++ '"' :: rest) := by
      rw [escapeDefault_cons, show escapeDefaultChar '\\' = ['\\', '\\'] from rfl,
        List.replicate_succ', List.replicate_succ']
      simp
    rw [hnext] at hvalue
    exact ih hvalue rfl

/-- **A name that is read back needs no escapes.** -/
theorem isVerbatim_of_readValue {s rest end_ : List Char}
    (h : readValue '"' none (escapeDefault s ++ '"' :: rest) = some (s, end_)) :
    s.all isVerbatim = true := by
  have hsplit := List.takeWhile_append_dropWhile (p := isUnescaped) (l := s)
  have hfront : (s.takeWhile isUnescaped).all isUnescaped = true := List.all_takeWhile
  cases htail : s.dropWhile isUnescaped with
  | nil =>
    rw [htail, List.append_nil] at hsplit
    rw [hsplit] at hfront
    rw [escapeDefault_of_all hfront] at h
    obtain ⟨front, back, hs, hback, hle, hsame⟩ := readValue_unescaped hfront (by decide) h
    have hnil : back = [] := by
      rw [readValue, if_pos rfl] at hback
      exact ((Prod.mk.inj (Option.some.inj hback)).1).symm
    rw [hnil, List.append_nil] at hs
    exact (hsame rfl (congrArg List.length hs).symm).2
  | cons c tail =>
    have hc : isUnescaped c = false := by
      have hhead := List.head?_dropWhile_not isUnescaped s
      rw [htail] at hhead
      exact hhead
    obtain ⟨escape, hescape, hbackslash⟩ := exists_escapeDefaultChar_eq_cons hc
    rw [htail] at hsplit
    have htext : escapeDefault s ++ '"' :: rest = s.takeWhile isUnescaped ++
        '\\' :: (escape ++ (escapeDefault tail ++ '"' :: rest)) := by
      conv_lhs => rw [← hsplit]
      rw [escapeDefault, List.flatMap_append, ← escapeDefault, ← escapeDefault,
        escapeDefault_of_all hfront, escapeDefault_cons, hescape]
      simp
    rw [htext] at h
    obtain ⟨front, back, hs, hback, hle, -⟩ := readValue_unescaped hfront (by decide) h
    rw [readValue_backslash] at hback
    obtain ⟨⟨value', end'⟩, hvalue, heq⟩ := Option.map_eq_some_iff.mp hback
    obtain ⟨rfl, rfl⟩ := Prod.mk.inj heq
    rw [← hsplit] at hs
    -- the first character with an escape is read as a backslash
    obtain ⟨hfronts, hcs⟩ := List.append_inj hs (by
      by_contra hne
      have hlt : front.length < (s.takeWhile isUnescaped).length := by omega
      have hmem : '\\' ∈ s.takeWhile isUnescaped := by
        have hget := congrArg (fun l => l[front.length]?) hs
        simp only [List.getElem?_append_left hlt, List.getElem?_append_right (Nat.le_refl _),
          Nat.sub_self, List.getElem?_cons_zero] at hget
        exact List.mem_of_getElem? hget
      exact absurd (List.all_eq_true.mp hfront _ hmem) (by decide))
    obtain ⟨rfl, rfl⟩ := List.cons.inj hcs
    rw [hbackslash rfl] at hvalue
    exact absurd rfl (ne_of_readValue_backslashes (n := 0) hvalue)

/-! ### Elements of the file -/

/-- The element of a logger. -/
def loggerElement (logger : String × LoggerConfig) : Name × Attributes :=
  ("logger".toList, [("name".toList, logger.1.toList),
    ("level".toList, logger.2.level.toLogbackLiteral.toList)])

def appenderElement (name class_ : String) : Name × Attributes :=
  ("appender".toList, [("name".toList, name.toList), ("class".toList, class_.toList)])

/-- The element of the root logger. -/
def rootElement (level : LogLevel) : Name × Attributes :=
  ("root".toList, [("level".toList, level.toLogbackLiteral.toList)])

/-- The elements in the root element that the configuration stands for. -/
def logbackElements (config : AutomaticContainerLogConfig)
    (additional : List (Name × Attributes)) : List (Name × Attributes) :=
  [appenderElement "CONSOLE" "ch.qos.logback.core.ConsoleAppender",
    appenderElement "FILE" "ch.qos.logback.core.rolling.RollingFileAppender"] ++
    (config.otherLoggers.map loggerElement ++ (additional ++ [rootElement config.rootLogLevel]))

/-- In the root element of a configuration file. -/
def inConfiguration (brackets : ℕ) : State :=
  ⟨.content brackets, ["configuration".toList], true⟩

/-- The value of the name of a logger begins. -/
def inLoggerName : State :=
  ⟨.value ⟨"logger".toList, []⟩ "name".toList '"' [] none, ["configuration".toList], true⟩

theorem isVerbatim_toLogbackLiteral (level : LogLevel) :
    level.toLogbackLiteral.toList.all isVerbatim = true := by
  cases level <;> rfl

theorem isCharacterData_toLogbackLiteral (level : LogLevel) :
    IsCharacterData level.toLogbackLiteral.toList :=
  isCharacterData_of_all (by cases level <;> rfl)

theorem isCharacterData_toString (n : ℕ) : IsCharacterData (toString n).toList := by
  refine isCharacterData_of_all (List.all_eq_true.mpr fun c hc => ?_)
  rw [Nat.toString_eq_repr, Nat.toList_repr] at hc
  have hdigit : c.isDigit = true := Nat.isDigit_of_mem_toDigits (by decide) (by decide) hc
  have hne {d : Char} (hd : d.isDigit = false) : c ≠ d := by
    rintro rfl
    cases hd.symm.trans hdigit
  have hbounds : 48 ≤ c.toNat ∧ c.toNat ≤ 57 := by
    simpa [Char.isDigit, UInt32.le_iff_toNat_le] using hdigit
  have hchar : isChar c = true := isChar_of_isPrintable (by simp [isPrintable]; omega)
  have hopen : c ≠ '<' := hne rfl
  have hreference : c ≠ '&' := hne rfl
  have hbracket : c ≠ ']' := hne rfl
  have hclose : c ≠ '>' := hne rfl
  simp [Xml.isPlain, hchar, hopen, hreference, hbracket, hclose]

/-! ### Loggers -/

/-- A value without escapes is read into the attributes of its tag. -/
theorem reads_verbatim_iff {parents opened : List Name} {started : Bool} {tag : Tag} {name : Name}
    {value rest : List Char} {s' : State} {elements : List (Name × Attributes)}
    (hname : name ∉ tag.attributes.map Prod.fst) (h : value.all isVerbatim = true) :
    Reads parents ⟨.value tag name '"' [] none, opened, started⟩ (value ++ '"' :: rest) s'
        elements ↔
      Reads parents ⟨.attributes ⟨tag.name, tag.attributes ++ [(name, value)]⟩ false, opened,
        started⟩ rest s' elements :=
  reads_value_iff hname (readValue_of_isVerbatim h)

/-- The beginning of a line. -/
theorem reads_loggerStart :
    Reads ["configuration".toList] (inConfiguration 0) "  <logger name=\"".toList inLoggerName
      [] := by
  apply Reads.ofList
  decide

theorem toList_quote_cons (l : List Char) :
    (String.ofList ('"' :: l)).toList = '"' :: (String.ofList l).toList := by
  rw [String.toList_ofList, String.toList_ofList]

theorem toList_levelStart : "\" level=\"".toList = '"' :: " level=\"".toList :=
  toList_quote_cons _

theorem toList_loggerEnd : "\" />\n".toList = '"' :: " />\n".toList := toList_quote_cons _

theorem toList_logbackLogger (name : String) (level : LogLevel) :
    (logbackLogger name level).toList = "  <logger name=\"".toList ++
      (escapeDefault name.toList ++ '"' :: (" level=\"".toList ++
        (level.toLogbackLiteral.toList ++ '"' :: " />\n".toList))) := by
  have hname : (String.ofList (escapeDefault name.toList)).toList = escapeDefault name.toList :=
    String.toList_ofList
  show ("  <logger name=\"" ++ String.ofList (escapeDefault name.toList) ++ "\" level=\"" ++
    level.toLogbackLiteral ++ "\" />\n").toList = _
  rw [String.toList_append, String.toList_append, String.toList_append, String.toList_append,
    hname, toList_levelStart, toList_loggerEnd, List.append_assoc, List.append_assoc,
    List.append_assoc, List.cons_append]

/-- The line of a logger is read as its element. -/
theorem reads_logbackLogger {logger : String × LoggerConfig}
    (h : logger.1.toList.all isVerbatim = true) :
    Reads ["configuration".toList] (inConfiguration 0)
      (logbackLogger logger.1 logger.2.level).toList (inConfiguration 0)
      [loggerElement logger] := by
  have hname : logger.1.toList.all isUnescaped = true :=
    List.all_eq_true.mpr fun c hc => isUnescaped_of_isVerbatim (List.all_eq_true.mp h c hc)
  have hlevel : Reads ["configuration".toList]
      ⟨.attributes ⟨"logger".toList, [("name".toList, logger.1.toList)]⟩ false,
        ["configuration".toList], true⟩ " level=\"".toList
      ⟨.value ⟨"logger".toList, [("name".toList, logger.1.toList)]⟩ "level".toList '"' [] none,
        ["configuration".toList], true⟩ [] := by
    apply Reads.ofList
    rw [reads_iff]
    rfl
  rw [toList_logbackLogger, escapeDefault_of_all hname]
  refine reads_loggerStart.append ((reads_verbatim_iff (by decide) h).mpr ?_)
  refine hlevel.append ((reads_verbatim_iff (by simp) (isVerbatim_toLogbackLiteral _)).mpr ?_)
  apply Reads.ofList
  rw [reads_iff]
  rfl

/-- Lines are read back as the elements of their loggers only if no name needs an escape. -/
theorem all_isVerbatim_of_reads {loggers : List (String × LoggerConfig)} {text : List Char}
    {s' : State} {elements : List (Name × Attributes)} (hend : s'.mode.tag? = none)
    (h : Reads ["configuration".toList] (inConfiguration 0)
      ((loggers.flatMap fun logger => (logbackLogger logger.1 logger.2.level).toList) ++ text) s'
      (loggers.map loggerElement ++ elements)) :
    ∀ logger ∈ loggers, logger.1.toList.all isVerbatim = true := by
  induction loggers with
  | nil => simp
  | cons logger loggers ih =>
    rw [List.flatMap_cons, List.append_assoc, List.map_cons, List.cons_append] at h
    have hlogger : logger.1.toList.all isVerbatim = true := by
      rw [toList_logbackLogger, List.append_assoc] at h
      obtain ⟨rest, hrest, heq⟩ := reads_loggerStart.of_append h
      rw [List.append_assoc, List.cons_append] at hrest
      obtain ⟨value, end_, attributes, rest', hvalue, hprefix, rfl⟩ := hrest.of_value (by simp) hend
      obtain ⟨helement, -⟩ := List.cons.inj heq
      obtain ⟨-, rfl⟩ := Prod.mk.inj helement
      obtain ⟨hname, -⟩ := List.cons_prefix_cons.mp hprefix
      obtain ⟨-, rfl⟩ := Prod.mk.inj hname
      exact isVerbatim_of_readValue hvalue
    refine List.forall_mem_cons.mpr ⟨hlogger, ?_⟩
    obtain ⟨rest, hrest, heq⟩ := (reads_logbackLogger hlogger).of_append h
    obtain ⟨-, rfl⟩ := List.cons.inj heq
    exact ih hrest

/-- Without escapes, the lines are read back. -/
theorem reads_loggers {loggers : List (String × LoggerConfig)}
    (h : ∀ logger ∈ loggers, logger.1.toList.all isVerbatim = true) :
    Reads ["configuration".toList] (inConfiguration 0)
      (loggers.flatMap fun logger => (logbackLogger logger.1 logger.2.level).toList)
      (inConfiguration 0) (loggers.map loggerElement) := by
  induction loggers with
  | nil => exact ⟨[], rfl, rfl⟩
  | cons logger loggers ih =>
    obtain ⟨hlogger, hloggers⟩ := List.forall_mem_cons.mp h
    exact (reads_logbackLogger hlogger).append (ih hloggers)

/-! ### The other elements -/

/-- A literal behind what was read. -/
theorem reads_literal_append {parents : List Name} {s s'' : State} {l text : List Char}
    {elements' : List (Name × Attributes)} (s' : State) (elements : List (Name × Attributes))
    (hliteral : Reads parents s l s' elements) (hrest : Reads parents s' text s'' elements') :
    Reads parents s ((String.ofList l).toList ++ text) s'' (elements ++ elements') :=
  hliteral.ofList.append hrest

theorem reads_lineFeed :
    Reads ["configuration".toList] (inConfiguration 0) ['\n'] (inConfiguration 0) [] := by
  decide

/-- The element of the root logger is the last one. -/
theorem reads_logbackRoot (level : LogLevel) {brackets : ℕ} :
    Reads ["configuration".toList] (inConfiguration brackets) ('\n' :: (logbackRoot level).toList)
      ⟨.content 0, [], true⟩ [rootElement level] := by
  refine (reads_content_iff (by decide)).mpr ?_
  show Reads _ _ (['\n'] ++ (logbackRoot level).toList) _ ([] ++ [rootElement level])
  refine reads_lineFeed.append ?_
  delta logbackRoot
  rw [String.toList_append, String.toList_append, List.append_assoc]
  refine reads_literal_append ⟨.value ⟨"root".toList, []⟩ "level".toList '"' [] none,
    ["configuration".toList], true⟩ [] (by decide +kernel) ?_
  rw [toList_quote_cons]
  refine (reads_verbatim_iff (by simp) (isVerbatim_toLogbackLiteral level)).mpr ?_
  apply Reads.ofList
  cases level <;> decide +kernel

/-- In elements of the root element. -/
def inElement (opened : List String) : State :=
  ⟨.content 0, opened.map String.toList ++ ["configuration".toList], true⟩

/-- The appenders are read as their elements. -/
theorem reads_logbackAppenders {logDir logFile consoleConversionPattern : String}
    (hfile : IsCharacterData (logDir ++ "/" ++ logFile).toList)
    (hpattern : IsCharacterData consoleConversionPattern.toList) (maxSizeInMib : UInt32)
    (config : AutomaticContainerLogConfig) :
    Reads ["configuration".toList] .init
      (logbackAppenders logDir logFile maxSizeInMib consoleConversionPattern config).toList
      (inConfiguration 0)
      [appenderElement "CONSOLE" "ch.qos.logback.core.ConsoleAppender",
        appenderElement "FILE" "ch.qos.logback.core.rolling.RollingFileAppender"] := by
  have hpath (rest : List Char) : logDir.toList ++ ("/".toList ++ (logFile.toList ++ rest)) =
      (logDir ++ "/" ++ logFile).toList ++ rest := by
    rw [String.toList_append, String.toList_append, List.append_assoc, List.append_assoc]
  delta logbackAppenders
  simp only [String.toList_append, List.append_assoc, -String.reduceToList]
  rw [hpath, hpath]
  have hlevel := isCharacterData_toLogbackLiteral
  have hnumber := isCharacterData_toString
  refine reads_literal_append (inElement ["pattern", "encoder", "appender"])
    [appenderElement "CONSOLE" "ch.qos.logback.core.ConsoleAppender"] (by decide +kernel) ?_
  refine hpattern.reads_append (by simp)
    (inElement ["level", "filter", "appender"]) [] (fun _ => ?_) ?_
  · apply Reads.ofList_content
    · decide +kernel
    · rfl
  refine (hlevel _).reads_append (by simp)
    (inElement ["File", "appender"])
    [appenderElement "FILE" "ch.qos.logback.core.rolling.RollingFileAppender"] (fun _ => ?_) ?_
  · apply Reads.ofList_content
    · decide +kernel
    · rfl
  refine hfile.reads_append (by simp)
    (inElement ["level", "filter", "appender"]) [] (fun _ => ?_) ?_
  · apply Reads.ofList_content
    · decide +kernel
    · rfl
  refine (hlevel _).reads_append (by simp)
    (inElement ["maxIndex", "rollingPolicy", "appender"]) [] (fun _ => ?_) ?_
  · apply Reads.ofList_content
    · decide +kernel
    · rfl
  refine (hnumber _).reads_append (by simp)
    (inElement ["FileNamePattern", "rollingPolicy", "appender"]) [] (fun _ => ?_) ?_
  · apply Reads.ofList_content
    · decide +kernel
    · rfl
  refine hfile.reads_append (by simp)
    (inElement ["MaxFileSize", "triggeringPolicy", "appender"]) [] (fun _ => ?_) ?_
  · apply Reads.ofList_content
    · decide +kernel
    · rfl
  obtain ⟨brackets, hsize⟩ := (hnumber (max 1 (maxSizeInMib / (1 + 1))).toNat).reads
    ["configuration".toList] (List.cons_ne_nil _ _)
  refine hsize.append ?_
  apply Reads.ofList_content
  · decide +kernel
  · rfl

/-! ### Files -/

section Config

variable {logDir logFile consoleConversionPattern : String} {maxSizeInMib : UInt32}
  {config : AutomaticContainerLogConfig} {additionalConfig : Option String}

theorem toList_createLogbackConfig :
    (createLogbackConfig logDir logFile maxSizeInMib consoleConversionPattern config
        additionalConfig).toList =
      (logbackAppenders logDir logFile maxSizeInMib consoleConversionPattern config).toList ++
        ((config.otherLoggers.flatMap fun logger =>
            (logbackLogger logger.1 logger.2.level).toList) ++
          '\n' :: ((additionalConfig.getD "").toList ++
            '\n' :: (logbackRoot config.rootLogLevel).toList)) := by
  have hblank : "\n".toList = ['\n'] := rfl
  delta createLogbackConfig
  simp only [String.toList_append, toList_foldl_append, hblank, String.toList_empty,
    List.append_assoc, List.cons_append, List.nil_append]

/-- **A Logback file has its elements iff no name needs an escape.** -/
theorem hasChildren_createLogbackConfig_iff {additional : List (Name × Attributes)} {brackets : ℕ}
    (hfile : IsCharacterData (logDir ++ "/" ++ logFile).toList)
    (hpattern : IsCharacterData consoleConversionPattern.toList)
    (hadditional : Reads ["configuration".toList] (inConfiguration 0)
      (additionalConfig.getD "").toList (inConfiguration brackets) additional) :
    HasChildren (createLogbackConfig logDir logFile maxSizeInMib consoleConversionPattern config
        additionalConfig).toList "configuration".toList (logbackElements config additional) ↔
      ∀ logger ∈ config.otherLoggers, logger.1.toList.all isVerbatim = true := by
  have happenders := reads_logbackAppenders hfile hpattern maxSizeInMib config
  rw [toList_createLogbackConfig, logbackElements]
  constructor
  · rintro ⟨s', ⟨⟨n, hmode⟩, -⟩, hreads⟩
    obtain ⟨rest, hrest, heq⟩ := happenders.of_append hreads
    rw [← List.append_cancel_left heq] at hrest
    exact all_isVerbatim_of_reads (by rw [hmode]; rfl) hrest
  · intro h
    refine ⟨⟨.content 0, [], true⟩, ⟨⟨0, rfl⟩, rfl, rfl⟩,
      happenders.append ((reads_loggers h).append ?_)⟩
    exact reads_lineFeed.append (hadditional.append (reads_logbackRoot _))

end Config

/-! ### Both kinds of files -/

/-- **Files are faithful iff the escapes of all names are read back.** The two formats differ in
which escapes they read. -/
theorem logging_configs_faithful_iff {logDir logFile consoleConversionPattern : String}
    {maxSizeInMib : UInt32} {config : AutomaticContainerLogConfig}
    {additionalConfig : Option String} {additional : List (Name × Attributes)} {brackets : ℕ}
    (hfile : JavaProperties.IsPlainValue (logDir ++ "/" ++ logFile).toList)
    (hpattern : JavaProperties.IsPlainValue consoleConversionPattern.toList)
    (hfile' : IsCharacterData (logDir ++ "/" ++ logFile).toList)
    (hpattern' : IsCharacterData consoleConversionPattern.toList)
    (hadditional : Reads ["configuration".toList] (inConfiguration 0)
      (additionalConfig.getD "").toList (inConfiguration brackets) additional) :
    (V2.Loads (createLog4jConfig logDir logFile maxSizeInMib consoleConversionPattern config)
        (log4jSettings logDir logFile maxSizeInMib consoleConversionPattern config) ↔
      ∀ logger ∈ config.otherLoggers, logger.1.toList.all isLoaded = true) ∧
    (HasChildren (createLogbackConfig logDir logFile maxSizeInMib consoleConversionPattern config
        additionalConfig).toList "configuration".toList (logbackElements config additional) ↔
      ∀ logger ∈ config.otherLoggers, logger.1.toList.all isVerbatim = true) :=
  ⟨loads_createLog4jConfig_iff hfile hpattern,
    hasChildren_createLogbackConfig_iff hfile' hpattern' hadditional⟩

/-- A configuration with one logger. -/
def oneLogger (name : String) : AutomaticContainerLogConfig where
  loggers := IterMap.collect [(name, ⟨.debug⟩)]
  console := none
  file := none

theorem mem_otherLoggers_oneLogger {name : String} (hname : name ≠ "ROOT")
    {logger : String × LoggerConfig} :
    logger ∈ (oneLogger name).otherLoggers ↔ logger = (name, ⟨.debug⟩) := by
  have hget : (IterMap.get? (M := BTreeMap String) (oneLogger name).loggers logger.1 =
      some logger.2) ↔ logger ∈ [(name, (⟨.debug⟩ : LoggerConfig))] :=
    IterMap.get?_collect (M := BTreeMap String) (by simp)
  rw [AutomaticContainerLogConfig.otherLoggers, List.mem_filter, IterMap.mem_iter, hget,
    List.mem_singleton]
  refine ⟨And.left, fun heq => ⟨heq, ?_⟩⟩
  rw [heq]
  exact decide_eq_true hname

/-- A logger of a Java package. -/
theorem logging_configs_faithful_package :
    V2.Loads (createLog4jConfig "/stackable/log" "app.xml" 10 "%d %p %m%n"
        (oneLogger "org.apache"))
      (log4jSettings "/stackable/log" "app.xml" 10 "%d %p %m%n" (oneLogger "org.apache")) ∧
    HasChildren (createLogbackConfig "/stackable/log" "app.xml" 10 "%d %p %m%n"
        (oneLogger "org.apache") none).toList "configuration".toList
      (logbackElements (oneLogger "org.apache") []) := by
  have hadditional : Reads ["configuration".toList] (inConfiguration 0)
      ((none : Option String).getD "").toList (inConfiguration 0) [] := ⟨[], rfl, rfl⟩
  have hiff := @logging_configs_faithful_iff "/stackable/log" "app.xml" "%d %p %m%n" 10
    (oneLogger "org.apache") none [] 0 ⟨by decide, by decide⟩
    ⟨by decide, by decide⟩ (isCharacterData_of_all (by decide))
    (isCharacterData_of_all (by decide)) hadditional
  refine ⟨hiff.1.mpr fun logger hmem => ?_, hiff.2.mpr fun logger hmem => ?_⟩
  · rw [(mem_otherLoggers_oneLogger (by decide)).mp hmem]
    decide
  · rw [(mem_otherLoggers_oneLogger (by decide)).mp hmem]
    decide

/-- A space ends the key of the logger, and an umlaut makes the name of an element another one. -/
theorem not_logging_configs_faithful :
    (¬ ∀ config : AutomaticContainerLogConfig,
      V2.Loads (createLog4jConfig "/stackable/log" "app.xml" 10 "%d %p %m%n" config)
        (log4jSettings "/stackable/log" "app.xml" 10 "%d %p %m%n" config)) ∧
    ¬ ∀ config : AutomaticContainerLogConfig,
      HasChildren (createLogbackConfig "/stackable/log" "app.xml" 10 "%d %p %m%n" config
        none).toList "configuration".toList (logbackElements config []) := by
  have hadditional : Reads ["configuration".toList] (inConfiguration 0)
      ((none : Option String).getD "").toList (inConfiguration 0) [] := ⟨[], rfl, rfl⟩
  constructor
  · intro h
    have hall := (loads_createLog4jConfig_iff ⟨by decide, by decide⟩
      ⟨by decide, by decide⟩).mp (h (oneLogger "a b"))
    exact absurd (hall _ ((mem_otherLoggers_oneLogger (by decide)).mpr rfl)) (by decide)
  · intro h
    have hall := (hasChildren_createLogbackConfig_iff
      (isCharacterData_of_all (by decide)) (isCharacterData_of_all (by decide))
      hadditional).mp (h (oneLogger "ä"))
    exact absurd (hall _ ((mem_otherLoggers_oneLogger (by decide)).mpr rfl)) (by decide)

end StackableOperator
