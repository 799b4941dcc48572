import Mathlib
import StackableOperator.RustStd.EscapeDefault
import StackableOperator.Readers.ReadNumber
import StackableOperator.ForMathlib.Traverse
import StackableOperator.ProductLogging.Framework
import StackableOperator.V2.ConfigFileWriter

/-!
# Configuration files of Log4j

`createLog4jConfig` writes every logger as a property whose key contains the name, with the default
escapes of Rust. The file is loaded to the settings of the configuration iff all names consist of
characters with an escape that is loaded to them (`loads_createLog4jConfig_iff`).
-/

namespace StackableOperator

namespace LogLevel

/-- The level in the words of Log4j. -/
def toLog4jLiteral : LogLevel → String
  | .trace => "TRACE"
  | .debug => "DEBUG"
  | .info => "INFO"
  | .warn => "WARN"
  | .error => "ERROR"
  | .fatal => "FATAL"
  | .none => "OFF"

end LogLevel

/-- The loggers other than the root logger. -/
def AutomaticContainerLogConfig.otherLoggers (self : AutomaticContainerLogConfig) :
    List (String × LoggerConfig) :=
  (IterMap.iter (M := BTreeMap String) self.loggers).filter fun logger => logger.1 ≠ "ROOT"

/-- The level of an appender, which has a default. -/
def AppenderConfig.levelOrDefault (appender : Option AppenderConfig) : LogLevel :=
  (appender.bind AppenderConfig.level).getD default

/-- The line of a property. -/
def property (key value : String) : String := key ++ "=" ++ value ++ "\n"

/-- The line of a logger. -/
def log4jLogger (name : String) (level : LogLevel) : String :=
  property ("log4j.logger." ++ String.ofList (escapeDefault name.toList)) level.toLog4jLiteral

/-- Create the content of a Log4j properties file. -/
def createLog4jConfig (logDir logFile : String) (maxSizeInMib : UInt32)
    (consoleConversionPattern : String) (config : AutomaticContainerLogConfig) : String :=
  let numberOfArchivedLogFiles : UInt32 := 1
  let loggers := config.otherLoggers.foldl
    (fun output logger => output ++ log4jLogger logger.1 logger.2.level) ""
  let maxLogFileSizeInMib := max 1 (maxSizeInMib / (1 + numberOfArchivedLogFiles))
  property "log4j.rootLogger" (config.rootLogLevel.toLog4jLiteral ++ ", CONSOLE, FILE") ++ "\n" ++
  property "log4j.appender.CONSOLE" "org.apache.log4j.ConsoleAppender" ++
  property "log4j.appender.CONSOLE.Threshold"
    (AppenderConfig.levelOrDefault config.console).toLog4jLiteral ++
  property "log4j.appender.CONSOLE.layout" "org.apache.log4j.PatternLayout" ++
  property "log4j.appender.CONSOLE.layout.ConversionPattern" consoleConversionPattern ++ "\n" ++
  property "log4j.appender.FILE" "org.apache.log4j.RollingFileAppender" ++
  property "log4j.appender.FILE.Threshold"
    (AppenderConfig.levelOrDefault config.file).toLog4jLiteral ++
  property "log4j.appender.FILE.File" (logDir ++ "/" ++ logFile) ++
  property "log4j.appender.FILE.MaxFileSize" (toString maxLogFileSizeInMib.toNat ++ "MB") ++
  property "log4j.appender.FILE.MaxBackupIndex" (toString numberOfArchivedLogFiles.toNat) ++
  property "log4j.appender.FILE.layout" "org.apache.log4j.xml.XMLLayout" ++ "\n" ++
  loggers

/-! ### Keys with default escapes -/

open JavaProperties

/-- The escape of the character is loaded to it and does not end a key. -/
def isLoaded (c : Char) : Bool :=
  (isPrintable c && c != ' ' && c != ':' && c != '=') || c == '\t' || c == '\n' || c == '\r'

theorem isTerminator_of_isPrintable {c : Char} (h : isPrintable c = true) :
    isTerminator c = false := by
  by_contra hterminator
  simp only [isTerminator, Bool.not_eq_false, Bool.or_eq_true, beq_iff_eq] at hterminator
  obtain rfl | rfl := hterminator <;> cases h

/-- A printable character separates a key from its value iff it is not loaded. -/
theorem isSeparator_eq_of_isPrintable {c : Char} (h : isPrintable c = true) :
    (isBlank c || c == '=' || c == ':') = !isLoaded c := by
  rw [Bool.eq_iff_iff]
  constructor
  · intro hseparator
    simp only [isBlank, Bool.or_eq_true, beq_iff_eq] at hseparator
    obtain (((rfl | rfl) | rfl) | rfl) | rfl := hseparator
    · rfl
    · cases h
    · cases h
    · rfl
    · rfl
  · intro hloaded
    simp only [isLoaded, h, Bool.true_and, Bool.not_eq_true', Bool.or_eq_false_iff,
      Bool.and_eq_false_iff, bne_eq_false_iff_eq] at hloaded
    obtain ⟨⟨⟨(rfl | rfl) | rfl, -⟩, -⟩, -⟩ := hloaded <;> rfl

theorem isPlain_of_isSome_toDigit {c : Char} (h : (toDigit 16 c).isSome) : isPlain c = true := by
  by_contra hplain
  obtain rfl | rfl | rfl := isPlain_eq_false_iff.mp ((Bool.not_eq_true _).mp hplain) <;> cases h

theorem unbroken_escapeDefault (s : List Char) : Unbroken (escapeDefault s) := by
  induction s with
  | nil => exact fun _ _ => rfl
  | cons c s ih =>
    rw [escapeDefault_cons]
    refine Unbroken.append ?_ ih
    have hescaped := escapedAs_escapeDefaultChar c
    generalize escapeDefaultChar c = escape at hescaped
    cases hescaped with
    | same hprintable hne =>
      refine unbroken_of_all ?_
      simp [isPlain, isTerminator_of_isPrintable hprintable, hne.2.2]
    | quoted h =>
      refine unbroken_escaped ?_
      obtain rfl | rfl | rfl := h <;> rfl
    | blank letter hmem =>
      refine unbroken_escaped ?_
      simp only [List.mem_cons, Prod.mk.injEq, List.not_mem_nil, or_false] at hmem
      obtain ⟨-, rfl⟩ | ⟨-, rfl⟩ | ⟨-, rfl⟩ := hmem <;> rfl
    | number _ _ =>
      refine Unbroken.append (s := ['\\', 'u']) (unbroken_escaped (by decide))
        (unbroken_of_all ?_)
      rw [List.all_cons, List.all_append]
      refine Bool.and_eq_true_iff.mpr ⟨by decide, Bool.and_eq_true_iff.mpr ⟨?_, by decide⟩⟩
      refine List.all_eq_true.mpr fun d hd => isPlain_of_isSome_toDigit ?_
      exact (toDigits_spec (by decide) (by decide) c.toNat).1 d hd

/-- A key goes on behind the escape of a loaded character. -/
theorem splitKey_escapeDefaultChar {c : Char} (h : isLoaded c = true) (rest : List Char) :
    splitKey (escapeDefaultChar c ++ rest) =
      (escapeDefaultChar c ++ (splitKey rest).1, (splitKey rest).2) := by
  have hescaped := escapedAs_escapeDefaultChar c
  generalize escapeDefaultChar c = escape at hescaped
  cases hescaped with
  | same hprintable hne =>
    have hbackslash := hne.2.2
    rw [List.singleton_append, splitKey.eq_4 c rest (by simp [hbackslash]) (by simp [hbackslash]),
      isSeparator_eq_of_isPrintable hprintable, h, if_neg (by decide), List.singleton_append]
  | quoted _ => rfl
  | blank letter _ => rfl
  | number hprintable hne =>
    simp [isLoaded, hprintable, hne] at h

/-- The escape of a loaded character is loaded to it. -/
theorem loadConvert_escapeDefaultChar {c : Char} (h : isLoaded c = true) (rest : List Char) :
    loadConvert (escapeDefaultChar c ++ rest) = (loadConvert rest).map (utf16Char c ++ ·) := by
  have hescaped := escapedAs_escapeDefaultChar c
  generalize escapeDefaultChar c = escape at hescaped
  cases hescaped with
  | same hprintable hne => exact loadConvert_plain hne.2.2 rest
  | quoted hquoted =>
    obtain rfl | rfl | rfl := hquoted <;> exact loadConvert_letter (by decide) rest
  | blank letter hmem =>
    simp only [List.mem_cons, Prod.mk.injEq, List.not_mem_nil, or_false] at hmem
    obtain ⟨rfl, rfl⟩ | ⟨rfl, rfl⟩ | ⟨rfl, rfl⟩ := hmem <;>
      exact loadConvert_letter (by decide) rest
  | number hprintable hne =>
    simp [isLoaded, hprintable, hne] at h

/-- A number in braces is not a code unit. -/
theorem loadConvert_number (rest : List Char) :
    loadConvert ('\\' :: 'u' :: '{' :: rest) = none := by
  rcases rest with _ | ⟨d₂, _ | ⟨d₃, _ | ⟨d₄, rest⟩⟩⟩
  · rfl
  · rfl
  · rfl
  · have hvalue : hexValue ['{', d₂, d₃, d₄] = none := rfl
    rw [loadConvert, hvalue]
    rfl

/-- Any other character ends the key or makes it malformed. -/
theorem splitKey_escapeDefaultChar_of_not {c : Char} (h : isLoaded c = false) (rest : List Char) :
    (splitKey (escapeDefaultChar c ++ rest)).1 = [] ∨
      loadConvert (splitKey (escapeDefaultChar c ++ rest)).1 = none := by
  have hescaped := escapedAs_escapeDefaultChar c
  generalize escapeDefaultChar c = escape at hescaped
  cases hescaped with
  | same hprintable hne =>
    have hbackslash := hne.2.2
    rw [List.singleton_append, splitKey.eq_4 c rest (by simp [hbackslash]) (by simp [hbackslash]),
      isSeparator_eq_of_isPrintable hprintable, h, if_pos (by decide)]
    exact .inl rfl
  | quoted hquoted => obtain rfl | rfl | rfl := hquoted <;> cases h
  | blank letter hmem =>
    simp only [List.mem_cons, Prod.mk.injEq, List.not_mem_nil, or_false] at hmem
    obtain ⟨rfl, -⟩ | ⟨rfl, -⟩ | ⟨rfl, -⟩ := hmem <;> cases h
  | number _ _ => exact .inr (loadConvert_number _)

/-- A key ends before a separator. -/
theorem splitKey_separator {c : Char} (h : (isBlank c || c == '=' || c == ':') = true)
    (rest : List Char) : splitKey (c :: rest) = ([], c :: rest) := by
  have hbackslash : c ≠ '\\' := by
    rintro rfl
    cases h
  rw [splitKey.eq_4 c rest (by simp [hbackslash]) (by simp [hbackslash]), if_pos h]

theorem splitKey_escapeDefault {s : List Char} (h : s.all isLoaded = true) {c : Char}
    (hc : (isBlank c || c == '=' || c == ':') = true) (rest : List Char) :
    splitKey (escapeDefault s ++ c :: rest) = (escapeDefault s, c :: rest) := by
  induction s with
  | nil => exact splitKey_separator hc rest
  | cons d s ih =>
    rw [List.all_cons, Bool.and_eq_true_iff] at h
    rw [escapeDefault_cons, List.append_assoc, splitKey_escapeDefaultChar h.1, ih h.2]

theorem loadConvert_escapeDefault {s : List Char} (h : s.all isLoaded = true) :
    loadConvert (escapeDefault s) = some (utf16 s) := by
  induction s with
  | nil => rfl
  | cons c s ih =>
    rw [List.all_cons, Bool.and_eq_true_iff] at h
    rw [escapeDefault_cons, loadConvert_escapeDefaultChar h.1, ih h.2, Option.map_some, utf16_cons]

/-- The key that is read is a part of the key that was written, and the whole key only if all its
characters are loaded. -/
theorem exists_prefix_of_loadConvert {s rest : List Char} {u : List ℕ} {c : Char}
    (hc : (isBlank c || c == '=' || c == ':') = true)
    (h : loadConvert (splitKey (escapeDefault s ++ c :: rest)).1 = some u) :
    ∃ front back, s = front ++ back ∧ u = utf16 front ∧ (back = [] → s.all isLoaded = true) := by
  induction s generalizing u with
  | nil =>
    have hnil : escapeDefault [] ++ c :: rest = c :: rest := rfl
    rw [hnil, splitKey_separator hc] at h
    exact ⟨[], [], rfl, (Option.some.inj h).symm, fun _ => rfl⟩
  | cons d s ih =>
    rw [escapeDefault_cons, List.append_assoc] at h
    by_cases hd : isLoaded d = true
    · rw [splitKey_escapeDefaultChar hd, loadConvert_escapeDefaultChar hd,
        Option.map_eq_some_iff] at h
      obtain ⟨v, hv, rfl⟩ := h
      obtain ⟨front, back, rfl, rfl, hall⟩ := ih hv
      refine ⟨d :: front, back, rfl, (utf16_cons d front).symm, fun hback => ?_⟩
      rw [List.all_cons, hd, hall hback, Bool.true_and]
    · refine ⟨[], d :: s, rfl, ?_, fun hback => by cases hback⟩
      obtain hnil | hnone := splitKey_escapeDefaultChar_of_not
        ((Bool.not_eq_true _).mp hd) (escapeDefault s ++ c :: rest)
      · rw [hnil] at h
        exact (Option.some.inj h).symm
      · cases h.symm.trans hnone

/-! ### Settings of a file -/

/-- The line of a setting. -/
def line (p : String × String) : List Char := escapeDefault p.1.toList ++ '=' :: p.2.toList

/-- Settings whose lines are read one by one. -/
structure IsLog4jSetting (p : String × String) : Prop where
  key : "log4j.".toList <+: p.1.toList
  value : IsPlainValue p.2.toList

theorem readLines_start_line {p : String × String} (h : IsLog4jSetting p) (text : List Char) :
    readLines .start (line p ++ '\n' :: text) = line p :: readLines .start text := by
  obtain ⟨rest, hkey⟩ := h.key
  have hescape : escapeDefault p.1.toList = 'l' :: escapeDefault ("og4j.".toList ++ rest) := by
    rw [← hkey]
    rfl
  have hunbroken := unbroken_escapeDefault p.1.toList
  rw [hescape] at hunbroken
  have hread := readLines_start_of_unbroken (by decide) hunbroken h.value text
  rw [line, hescape]
  simpa using hread

/-- The lines are read one after the other. -/
theorem readLines_start_lines {settings : List (String × String)}
    (h : ∀ p ∈ settings, IsLog4jSetting p) (text : List Char) :
    readLines .start ((settings.flatMap fun p => line p ++ ['\n']) ++ text) =
      settings.map line ++ readLines .start text := by
  induction settings with
  | nil => rfl
  | cons p settings ih =>
    obtain ⟨hp, hsettings⟩ := List.forall_mem_cons.mp h
    rw [List.flatMap_cons, List.append_assoc, List.append_assoc, List.singleton_append,
      readLines_start_line hp, ih hsettings, List.map_cons, List.cons_append]

theorem loadLine_line_of_all {p : String × String} (h : IsLog4jSetting p)
    (hall : p.1.toList.all isLoaded = true) : loadLine (line p) = some (V2.units p) := by
  rw [loadLine, line, splitKey_escapeDefault hall rfl, loadConvert_escapeDefault hall]
  dsimp only
  rw [h.value.skipSeparator, h.value.loadConvert]
  rfl

/-! ### Loading lines with escaped keys -/

/-- The code units of the keys. -/
def keySize (settings : List (List ℕ × List ℕ)) : ℕ := (settings.map fun s => s.1.length).sum

section Lines

variable {P : Type} {write : P → List Char} {setting : P → String × String}

/-- The line of a setting begins with the escaped key and a separator. -/
def HasEscapedKey (write : P → List Char) (setting : P → String × String) (p : P) : Prop :=
  ∃ c rest, (isBlank c || c == '=' || c == ':') = true ∧
    write p = escapeDefault (setting p).1.toList ++ c :: rest

/-- Such a line is loaded to its key, or to a shorter one. -/
theorem HasEscapedKey.key {p : P} (h : HasEscapedKey write setting p) {s : List ℕ × List ℕ}
    (hload : loadLine (write p) = some s) :
    ((setting p).1.toList.all isLoaded = true ∧ s.1 = (V2.units (setting p)).1) ∨
      s.1.length < (V2.units (setting p)).1.length := by
  rw [loadLine, Option.bind_eq_bind, Option.bind_eq_some_iff] at hload
  obtain ⟨key, hkey, hload⟩ := hload
  obtain ⟨value, -, hs⟩ := Option.bind_eq_some_iff.mp hload
  obtain rfl := Option.some.inj hs
  obtain ⟨c, rest, hc, hwrite⟩ := h
  rw [hwrite] at hkey
  obtain ⟨front, back, hp, rfl, hall⟩ := exists_prefix_of_loadConvert hc hkey
  cases back with
  | nil => exact .inl ⟨hall rfl, by rw [V2.units, hp, List.append_nil]⟩
  | cons d back =>
    refine .inr ?_
    have hpos := List.length_pos_iff.mpr (utf16Char_ne_nil d)
    rw [V2.units, hp, utf16_append, utf16_cons, List.length_append, List.length_append]
    show (utf16 front).length < _
    omega

/-- With a key that is not loaded, fewer code units are read than were written. -/
theorem keySize_le {ps : List P} {loaded : List (List ℕ × List ℕ)}
    (h : ∀ p ∈ ps, HasEscapedKey write setting p)
    (hloaded : List.Forall₂ (fun p s => loadLine (write p) = some s) ps loaded) :
    keySize loaded ≤ keySize ((ps.map setting).map V2.units) ∧
      ((∃ p ∈ ps, (setting p).1.toList.all isLoaded = false) →
        keySize loaded < keySize ((ps.map setting).map V2.units)) := by
  unfold keySize
  induction hloaded with
  | nil => simp
  | @cons p s ps loaded hline _ ih =>
    obtain ⟨hp, hps⟩ := List.forall_mem_cons.mp h
    have ih := ih hps
    simp only [List.map_cons, List.sum_cons] at ih ⊢
    obtain ⟨hall, hkey⟩ | hlt := hp.key hline
    · rw [hkey]
      refine ⟨by omega, ?_⟩
      rintro ⟨q, hq, hnot⟩
      obtain rfl | hq := List.mem_cons.mp hq
      · cases hnot.symm.trans hall
      · have := ih.2 ⟨q, hq, hnot⟩
        omega
    · exact ⟨by omega, fun _ => by omega⟩

/-- **The lines are loaded to their settings iff all keys are loaded**, as long as the values are
loaded when the keys are. -/
theorem loads_iff_of_hasEscapedKey {text : String} {ps : List P}
    (hlines : readLines .start text.toList = ps.map write)
    (h : ∀ p ∈ ps, HasEscapedKey write setting p)
    (hvalues : (∀ p ∈ ps, (setting p).1.toList.all isLoaded = true) →
      ∀ p ∈ ps, loadLine (write p) = some (V2.units (setting p)))
    (hkeys : ((ps.map setting).map Prod.fst).Nodup) :
    V2.Loads text (ps.map setting) ↔ ∀ p ∈ ps, (setting p).1.toList.all isLoaded = true := by
  have hload : load text.toList = ps.mapM fun p => loadLine (write p) := by
    rw [load, hlines, List.mapM_map]
    rfl
  have hunits : ((ps.map setting).map V2.units).map Prod.fst =
      ((ps.map setting).map Prod.fst).map fun k => utf16 k.toList := by
    rw [List.map_map, List.map_map, List.map_map, List.map_map]
    rfl
  have hnodup : (((ps.map setting).map V2.units).map Prod.fst).Nodup := by
    rw [hunits]
    exact hkeys.map fun k k' heq => String.toList_inj.mp (utf16_injective heq)
  constructor
  · rintro ⟨loaded, hloaded, hsettings⟩
    rw [hload, mapM_eq_some_iff] at hloaded
    -- all settings are among the loaded ones, of which there are not more
    have hsubset : (ps.map setting).map V2.units ⊆ loaded := fun s hs =>
      mem_of_lastValue_eq_some ((hsettings s.1 s.2).mpr hs)
    have hperm : ((ps.map setting).map V2.units).Perm loaded := by
      refine (List.subperm_of_subset hnodup.of_map hsubset).perm_of_length_le ?_
      rw [List.length_map, List.length_map, hloaded.length_eq]
    intro p hp
    by_contra hnot
    have hlt := (keySize_le h hloaded).2 ⟨p, hp, (Bool.not_eq_true _).mp hnot⟩
    rw [keySize, keySize, (hperm.map fun s => s.1.length).sum_eq] at hlt
    exact absurd hlt (Nat.lt_irrefl _)
  · intro hall
    refine ⟨(ps.map setting).map V2.units, ?_, fun k v => lastValue_eq_some_iff_mem hnodup⟩
    rw [hload, mapM_eq_some_iff, List.map_map, List.forall₂_map_right_iff, List.forall₂_same]
    exact fun p hp => hvalues hall p hp

end Lines

/-- The lines of Log4j are loaded to their settings iff all keys are loaded. -/
theorem loads_iff {text : String} {settings : List (String × String)}
    (hlines : readLines .start text.toList = settings.map line)
    (h : ∀ p ∈ settings, IsLog4jSetting p) (hkeys : (settings.map Prod.fst).Nodup) :
    V2.Loads text settings ↔ ∀ p ∈ settings, p.1.toList.all isLoaded = true := by
  have hloads := @loads_iff_of_hasEscapedKey (String × String) line id text settings hlines
    (fun p _ => ⟨'=', p.2.toList, rfl, rfl⟩)
    (fun hall p hp => loadLine_line_of_all (h p hp) (hall p hp)) (by rwa [List.map_id])
  rwa [List.map_id] at hloads

/-! ### The settings of a configuration -/

/-- The setting of the root logger. -/
def log4jRoot (config : AutomaticContainerLogConfig) : List (String × String) :=
  [("log4j.rootLogger", config.rootLogLevel.toLog4jLiteral ++ ", CONSOLE, FILE")]

/-- The settings of the console appender. -/
def log4jConsole (consoleConversionPattern : String) (config : AutomaticContainerLogConfig) :
    List (String × String) :=
  [("log4j.appender.CONSOLE", "org.apache.log4j.ConsoleAppender"),
    ("log4j.appender.CONSOLE.Threshold",
      (AppenderConfig.levelOrDefault config.console).toLog4jLiteral),
    ("log4j.appender.CONSOLE.layout", "org.apache.log4j.PatternLayout"),
    ("log4j.appender.CONSOLE.layout.ConversionPattern", consoleConversionPattern)]

/-- The settings of the file appender. -/
def log4jFile (logDir logFile : String) (maxSizeInMib : UInt32)
    (config : AutomaticContainerLogConfig) : List (String × String) :=
  [("log4j.appender.FILE", "org.apache.log4j.RollingFileAppender"),
    ("log4j.appender.FILE.Threshold", (AppenderConfig.levelOrDefault config.file).toLog4jLiteral),
    ("log4j.appender.FILE.File", logDir ++ "/" ++ logFile),
    ("log4j.appender.FILE.MaxFileSize", toString (max 1 (maxSizeInMib / (1 + 1))).toNat ++ "MB"),
    ("log4j.appender.FILE.MaxBackupIndex", toString (1 : UInt32).toNat),
    ("log4j.appender.FILE.layout", "org.apache.log4j.xml.XMLLayout")]

/-- The settings other than the loggers. -/
def log4jAppenders (logDir logFile : String) (maxSizeInMib : UInt32)
    (consoleConversionPattern : String) (config : AutomaticContainerLogConfig) :
    List (String × String) :=
  log4jRoot config ++ log4jConsole consoleConversionPattern config ++
    log4jFile logDir logFile maxSizeInMib config

/-- The setting of a logger. -/
def log4jLoggerSetting (logger : String × LoggerConfig) : String × String :=
  ("log4j.logger." ++ logger.1, logger.2.level.toLog4jLiteral)

/-- The settings that the configuration stands for. -/
def log4jSettings (logDir logFile : String) (maxSizeInMib : UInt32)
    (consoleConversionPattern : String) (config : AutomaticContainerLogConfig) :
    List (String × String) :=
  log4jAppenders logDir logFile maxSizeInMib consoleConversionPattern config ++
    config.otherLoggers.map log4jLoggerSetting

theorem isPlainValue_toLog4jLiteral (level : LogLevel) :
    IsPlainValue level.toLog4jLiteral.toList := by
  cases level <;> exact ⟨by decide, by decide⟩

theorem isPlainValue_rootLogger (level : LogLevel) :
    IsPlainValue (level.toLog4jLiteral ++ ", CONSOLE, FILE").toList := by
  cases level <;> exact ⟨by decide, by decide⟩

theorem isPlainValue_size (n : ℕ) : IsPlainValue (toString n ++ "MB").toList := by
  have hdigit : ∀ c ∈ (toString n).toList, c.isDigit = true := by
    intro c hc
    rw [Nat.toString_eq_repr, Nat.toList_repr] at hc
    exact Nat.isDigit_of_mem_toDigits (by decide) (by decide) hc
  rw [String.toList_append]
  refine ⟨?_, ?_⟩
  · rw [List.all_append, Bool.and_eq_true_iff]
    refine ⟨List.all_eq_true.mpr fun c hc => ?_, by decide⟩
    have hc := hdigit c hc
    by_contra hplain
    obtain rfl | rfl | rfl := isPlain_eq_false_iff.mp ((Bool.not_eq_true _).mp hplain) <;> cases hc
  · rw [List.head?_append]
    cases hhead : (toString n).toList.head? with
    | none => rfl
    | some c =>
      have hc := hdigit c (List.mem_of_head? hhead)
      by_contra hblank
      simp only [Option.some_or, Option.any_some, isBlank, Bool.not_eq_false, Bool.or_eq_true,
        beq_iff_eq] at hblank
      obtain (rfl | rfl) | rfl := hblank <;> cases hc

/-- The keys of the settings other than the loggers. -/
def log4jKeys : List String :=
  ["log4j.rootLogger", "log4j.appender.CONSOLE", "log4j.appender.CONSOLE.Threshold",
    "log4j.appender.CONSOLE.layout", "log4j.appender.CONSOLE.layout.ConversionPattern",
    "log4j.appender.FILE", "log4j.appender.FILE.Threshold", "log4j.appender.FILE.File",
    "log4j.appender.FILE.MaxFileSize", "log4j.appender.FILE.MaxBackupIndex",
    "log4j.appender.FILE.layout"]

theorem log4jKeys_spec : ∀ k ∈ log4jKeys, "log4j.".toList <+: k.toList ∧
    ¬ "log4j.logger.".toList <+: k.toList ∧ escapeDefault k.toList = k.toList ∧
      k.toList.all isLoaded = true := by
  decide

theorem nodup_log4jKeys : log4jKeys.Nodup := by
  decide

section Config

variable {logDir logFile consoleConversionPattern : String} {maxSizeInMib : UInt32}
  {config : AutomaticContainerLogConfig}

theorem map_fst_log4jAppenders :
    (log4jAppenders logDir logFile maxSizeInMib consoleConversionPattern config).map Prod.fst =
      log4jKeys := rfl

/-- The settings other than the loggers are read one by one. -/
theorem isLog4jSetting_of_mem_log4jAppenders
    (hfile : IsPlainValue (logDir ++ "/" ++ logFile).toList)
    (hpattern : IsPlainValue consoleConversionPattern.toList) {p : String × String}
    (hp : p ∈ log4jAppenders logDir logFile maxSizeInMib consoleConversionPattern config) :
    IsLog4jSetting p := by
  have hkey : p.1 ∈ log4jKeys := by
    show p.1 ∈ (log4jAppenders logDir logFile maxSizeInMib consoleConversionPattern config).map
      Prod.fst
    exact List.mem_map_of_mem hp
  refine ⟨(log4jKeys_spec p.1 hkey).1, ?_⟩
  simp only [log4jAppenders, log4jRoot, log4jConsole, log4jFile, List.cons_append,
    List.nil_append, List.mem_cons, List.not_mem_nil, or_false] at hp
  obtain rfl | rfl | rfl | rfl | rfl | rfl | rfl | rfl | rfl | rfl | rfl := hp
  · exact isPlainValue_rootLogger _
  · exact ⟨by decide, by decide⟩
  · exact isPlainValue_toLog4jLiteral _
  · exact ⟨by decide, by decide⟩
  · exact hpattern
  · exact ⟨by decide, by decide⟩
  · exact isPlainValue_toLog4jLiteral _
  · exact hfile
  · exact isPlainValue_size _
  · exact ⟨by decide, by decide⟩
  · exact ⟨by decide, by decide⟩

theorem toList_log4jLogger (logger : String × LoggerConfig) :
    (log4jLogger logger.1 logger.2.level).toList = line (log4jLoggerSetting logger) ++ ['\n'] := by
  have hescape : escapeDefault ("log4j.logger." ++ logger.1).toList =
      "log4j.logger.".toList ++ escapeDefault logger.1.toList := by
    rw [String.toList_append, escapeDefault, List.flatMap_append]
    rfl
  rw [line, log4jLoggerSetting, hescape]
  simp [log4jLogger, property]

theorem toList_property {key : String} (h : key ∈ log4jKeys) (value : String) :
    (property key value).toList = line (key, value) ++ ['\n'] := by
  rw [line, (log4jKeys_spec key h).2.2.1]
  simp [property]

theorem toList_foldl_append {α : Type} (f : α → String) (l : List α) (output : String) :
    (l.foldl (fun output a => output ++ f a) output).toList =
      output.toList ++ l.flatMap fun a => (f a).toList := by
  induction l generalizing output with
  | nil => simp
  | cons a l ih => rw [List.foldl_cons, ih, String.toList_append, List.flatMap_cons,
      List.append_assoc]

/-- The text of the lines of settings. -/
def linesText (settings : List (String × String)) : List Char :=
  settings.flatMap fun p => line p ++ ['\n']

/-- The lines of a file are those of its settings, with blank lines between some of them. -/
theorem toList_createLog4jConfig :
    (createLog4jConfig logDir logFile maxSizeInMib consoleConversionPattern config).toList =
      linesText (log4jRoot config) ++ '\n' :: (linesText (log4jConsole consoleConversionPattern
        config) ++ '\n' :: (linesText (log4jFile logDir logFile maxSizeInMib config) ++ '\n' ::
          linesText (config.otherLoggers.map log4jLoggerSetting))) := by
  have hloggers : linesText (config.otherLoggers.map log4jLoggerSetting) =
      config.otherLoggers.flatMap fun logger =>
        (log4jLogger logger.1 logger.2.level).toList := by
    rw [linesText, List.flatMap_map]
    exact congrArg (config.otherLoggers.flatMap ·) (funext fun logger =>
      (toList_log4jLogger logger).symm)
  have hblank : "\n".toList = ['\n'] := rfl
  rw [hloggers, createLog4jConfig]
  simp only [String.toList_append, toList_foldl_append, hblank, linesText, log4jRoot,
    log4jConsole, log4jFile, List.flatMap_cons, List.flatMap_nil, List.append_nil]
  iterate 11 rw [toList_property (by decide)]
  simp only [List.append_assoc, List.cons_append, List.nil_append, String.toList_empty]

theorem isLog4jSetting_logger (logger : String × LoggerConfig) :
    IsLog4jSetting (log4jLoggerSetting logger) := by
  refine ⟨?_, isPlainValue_toLog4jLiteral _⟩
  rw [log4jLoggerSetting, String.toList_append]
  exact List.IsPrefix.trans ⟨"logger.".toList, by decide⟩ (List.prefix_append _ _)

variable (hfile : IsPlainValue (logDir ++ "/" ++ logFile).toList)
  (hpattern : IsPlainValue consoleConversionPattern.toList)

include hfile hpattern

theorem isLog4jSetting_of_mem {p : String × String}
    (hp : p ∈ log4jSettings logDir logFile maxSizeInMib consoleConversionPattern config) :
    IsLog4jSetting p := by
  obtain hp | hp := List.mem_append.mp hp
  · exact isLog4jSetting_of_mem_log4jAppenders hfile hpattern hp
  · obtain ⟨logger, -, rfl⟩ := List.mem_map.mp hp
    exact isLog4jSetting_logger logger

/-- The lines of a file are those of its settings. -/
theorem readLines_createLog4jConfig :
    readLines .start (createLog4jConfig logDir logFile maxSizeInMib consoleConversionPattern
        config).toList =
      (log4jSettings logDir logFile maxSizeInMib consoleConversionPattern config).map line := by
  have hsetting (p : String × String)
      (hp : p ∈ log4jAppenders logDir logFile maxSizeInMib consoleConversionPattern config) :=
    isLog4jSetting_of_mem_log4jAppenders hfile hpattern hp
  obtain ⟨hfront, hfileSettings⟩ := List.forall_mem_append.mp hsetting
  obtain ⟨hroot, hconsole⟩ := List.forall_mem_append.mp hfront
  have hloggers : ∀ p ∈ config.otherLoggers.map log4jLoggerSetting, IsLog4jSetting p :=
    List.forall_mem_map.mpr fun logger _ => isLog4jSetting_logger logger
  have hblank (text : List Char) : readLines .start ('\n' :: text) = readLines .start text := rfl
  have hend := readLines_start_lines hloggers []
  rw [List.append_nil] at hend
  rw [toList_createLog4jConfig, linesText, readLines_start_lines hroot, hblank, linesText,
    readLines_start_lines hconsole, hblank, linesText, readLines_start_lines hfileSettings, hblank,
    linesText, hend, log4jSettings, log4jAppenders, List.map_append, List.map_append,
    List.map_append, readLines]
  simp

omit hfile hpattern

theorem nodup_keys_log4jSettings :
    ((log4jSettings logDir logFile maxSizeInMib consoleConversionPattern config).map
      Prod.fst).Nodup := by
  rw [log4jSettings, List.map_append, map_fst_log4jAppenders, List.nodup_append]
  have hloggers : (config.otherLoggers.map log4jLoggerSetting).map Prod.fst =
      (config.otherLoggers.map Prod.fst).map fun name => "log4j.logger." ++ name := by
    rw [List.map_map, List.map_map]
    rfl
  have hnames : (config.otherLoggers.map Prod.fst).Nodup :=
    (IterMap.nodup_iter (M := BTreeMap String) config.loggers).sublist
      (List.filter_sublist.map Prod.fst)
  refine ⟨nodup_log4jKeys, ?_, ?_⟩
  · rw [hloggers]
    exact hnames.map fun _ _ heq => String.append_right_inj _ |>.mp heq
  · intro k hk k' hk' heq
    rw [hloggers] at hk'
    obtain ⟨name, -, rfl⟩ := List.mem_map.mp hk'
    refine (log4jKeys_spec k hk).2.1 ?_
    rw [heq, String.toList_append]
    exact List.prefix_append _ _

include hfile hpattern

/-- **A Log4j file is loaded to its settings iff all names are loaded.** -/
theorem loads_createLog4jConfig_iff :
    V2.Loads (createLog4jConfig logDir logFile maxSizeInMib consoleConversionPattern config)
        (log4jSettings logDir logFile maxSizeInMib consoleConversionPattern config) ↔
      ∀ logger ∈ config.otherLoggers, logger.1.toList.all isLoaded = true := by
  rw [loads_iff (readLines_createLog4jConfig hfile hpattern)
    (fun p hp => isLog4jSetting_of_mem hfile hpattern hp) nodup_keys_log4jSettings]
  have hlogger (logger : String × LoggerConfig) :
      (log4jLoggerSetting logger).1.toList.all isLoaded = logger.1.toList.all isLoaded := by
    have hfront : "log4j.logger.".toList.all isLoaded = true := by decide
    rw [log4jLoggerSetting, String.toList_append, List.all_append, hfront, Bool.true_and]
  constructor
  · intro h logger hmem
    rw [← hlogger]
    exact h _ (List.mem_append_right _ (List.mem_map_of_mem hmem))
  · intro h p hp
    obtain hp | hp := List.mem_append.mp hp
    · refine (log4jKeys_spec p.1 ?_).2.2.2
      exact map_fst_log4jAppenders ▸ List.mem_map_of_mem hp
    · obtain ⟨logger, hmem, rfl⟩ := List.mem_map.mp hp
      rw [hlogger]
      exact h logger hmem

end Config

end StackableOperator
