import Mathlib
import StackableOperator.Crd.GitSync.CommandLine

/-!
# The CA certificates in a script of git-sync

The path of a CA certificate gets into the shell script as an entry of the Git config, in the middle
of options that the user has pasted into the same text. `caInfos` reads the script without knowing
how it was made: it finds every occurrence of the key and the path behind it.

`mem_caInfos_createGitSyncShellScript` says that all paths are read back from a script that are not
from the user are the path that the script was made with.
-/

namespace StackableOperator

namespace GitSyncResources

/-! ### Reading -/

/-- What is in front of the path of a CA certificate in a Git config. -/
def caInfoKey : List Char := "http.sslCAInfo:".toList

/-- Blanks, commas and quotes are behind a path. -/
def endsPath (c : Char) : Bool := " ,'\n".toList.elem c

/-- The paths behind all occurrences of the key in a text. -/
def caInfos : List Char → List String
  | [] => []
  | c :: cs =>
    if caInfoKey.isPrefixOf (c :: cs) then
      String.ofList (((c :: cs).drop caInfoKey.length).takeWhile fun d => !endsPath d) :: caInfos cs
    else caInfos cs

theorem caInfos_cons (c : Char) (cs : List Char) : caInfos (c :: cs) =
    if caInfoKey.isPrefixOf (c :: cs) then
      String.ofList (((c :: cs).drop caInfoKey.length).takeWhile fun d => !endsPath d) :: caInfos cs
    else caInfos cs := rfl

/-- A text without a character of the key has no occurrence of the key. -/
theorem caInfos_eq_nil {c : Char} (hc : c ∈ caInfoKey) {cs : List Char} (h : c ∉ cs) :
    caInfos cs = [] := by
  induction cs with
  | nil => rfl
  | cons d cs ih =>
    rw [caInfos_cons, if_neg, ih fun hmem => h (List.mem_cons_of_mem d hmem)]
    intro hprefix
    exact h ((List.isPrefixOf_iff_prefix.mp hprefix).subset hc)

theorem isPrefixOf_append_cons {key : List Char} {c : Char} (cs ds : List Char) (hc : c ∉ key) :
    key.isPrefixOf (cs ++ c :: ds) = key.isPrefixOf cs := by
  induction key generalizing cs with
  | nil => simp
  | cons k key ih =>
    rw [List.mem_cons, not_or] at hc
    cases cs with
    | nil => simp [List.isPrefixOf, Ne.symm hc.1]
    | cons d cs => rw [List.cons_append, List.isPrefixOf, List.isPrefixOf, ih _ hc.2]

theorem endsPath_of_mem_caInfoKey {c : Char} (h : c ∈ caInfoKey) : endsPath c = false := by
  have hall : caInfoKey.all (fun c => !endsPath c) = true := by decide
  simpa using List.all_eq_true.mp hall c h

/-- What ends a path also ends the reading of a key. -/
theorem caInfos_append {c : Char} (hc : endsPath c = true) (cs ds : List Char) :
    caInfos (cs ++ c :: ds) = caInfos cs ++ caInfos ds := by
  have hkey : c ∉ caInfoKey := fun hmem =>
    absurd (hc.symm.trans (endsPath_of_mem_caInfoKey hmem)) (by decide)
  induction cs with
  | nil =>
    have hprefix : caInfoKey.isPrefixOf (c :: ds) = false :=
      (isPrefixOf_append_cons [] ds hkey).trans (by decide)
    rw [List.nil_append, caInfos_cons, hprefix]
    rfl
  | cons d cs ih =>
    have hprefix : caInfoKey.isPrefixOf (d :: (cs ++ c :: ds)) = caInfoKey.isPrefixOf (d :: cs) :=
      isPrefixOf_append_cons (d :: cs) ds hkey
    rw [List.cons_append, caInfos_cons, caInfos_cons d cs, hprefix, ih]
    split_ifs with hif
    · -- the path ends before what comes next
      obtain ⟨path, hpath⟩ := List.isPrefixOf_iff_prefix.mp hif
      have hsplit : d :: (cs ++ c :: ds) = caInfoKey ++ (path ++ c :: ds) := by
        rw [← List.append_assoc, hpath, List.cons_append]
      have hends : (path ++ c :: ds).takeWhile (fun d => !endsPath d) =
          path.takeWhile fun d => !endsPath d := by
        rw [List.takeWhile_append, List.takeWhile_cons_of_neg (by simp [hc]), List.append_nil]
        split_ifs with hlength
        · exact ((List.takeWhile_prefix _).eq_of_length hlength).symm
        · rfl
      rw [hsplit, ← hpath, List.drop_left, List.drop_left, hends, List.cons_append]
    · rfl

theorem caInfos_intercalate {c : Char} (hc : endsPath c = true) (pieces : List (List Char)) :
    caInfos ([c].intercalate pieces) = pieces.flatMap caInfos := by
  induction pieces with
  | nil => rfl
  | cons piece pieces ih =>
    cases pieces with
    | nil => simp
    | cons next pieces =>
      rw [List.intercalate_cons_cons, List.append_assoc, List.singleton_append, caInfos_append hc,
        ih]
      rfl

/-- A path is read back. -/
theorem caInfos_key_append {path : String} (hpath : ∀ c ∈ path.toList, endsPath c = false)
    (hh : 'h' ∉ path.toList) : caInfos (caInfoKey ++ path.toList) = [path] := by
  have hkey : caInfoKey = 'h' :: caInfoKey.tail := by decide
  have hrest : caInfos (caInfoKey.tail ++ path.toList) = [] := by
    refine caInfos_eq_nil (c := 'h') (by decide) ?_
    rw [List.mem_append, not_or]
    exact ⟨by decide, hh⟩
  have hread : caInfos (caInfoKey ++ path.toList) =
      String.ofList (path.toList.takeWhile fun c => !endsPath c) ::
        caInfos (caInfoKey.tail ++ path.toList) := by
    conv_lhs => rw [hkey, List.cons_append, caInfos_cons]
    rw [← List.cons_append, ← hkey, if_pos (by simp), List.drop_left]
  rw [hread, hrest, List.takeWhile_eq_self_iff.mpr (by simpa using hpath), String.ofList_toList]

/-! ### The texts in a script -/

/-- The options with texts of the user. -/
def userTexts (gitSync : GitSync) : List String :=
  ("--ref=" ++ gitSync.branch) :: ("--repo=" ++ gitSync.repo.asStr) ::
    (IterMap.iter (M := BTreeMap String) gitSync.gitSyncConf).map fun e => e.1 ++ "=" ++ e.2

/-- A CA certificate that the texts of the user name. -/
def IsNamedByUser (gitSync : GitSync) (caInfo : String) : Prop :=
  ∃ text ∈ userTexts gitSync, caInfo ∈ caInfos text.toList

theorem mem_caInfos_append {cs ds : List Char} {caInfo : String} (h : caInfo ∈ caInfos ds) :
    caInfo ∈ caInfos (cs ++ ds) := by
  induction cs with
  | nil => exact h
  | cons c cs ih =>
    rw [List.cons_append, caInfos_cons]
    split_ifs
    · exact List.mem_cons_of_mem _ ih
    · exact ih

/-- The shell functions and the logging of a script have no `A`. -/
theorem notMem_captureShellOutput {container : String} (h : 'A' ∉ container.toList)
    (logConfig : AutomaticContainerLogConfig) :
    'A' ∉ (captureShellOutput logVolumeMountPath container logConfig).toList := by
  have hdir : 'A' ∉ logVolumeMountPath.toList := by decide
  have hfile : ∀ front back : String, 'A' ∉ front.toList → 'A' ∉ back.toList →
      'A' ∉ (front ++ (logVolumeMountPath ++ "/" ++ container) ++ back).toList := by
    intro front back hfront hback
    simp [String.toList_append, hfront, hback, hdir, h]
  have hexec : ∀ out err : String, 'A' ∉ out.toList → 'A' ∉ err.toList →
      'A' ∉ (if out = "" ∧ err = "" then ":" else "exec" ++ out ++ err).toList := by
    intro out err hout herr
    split_ifs
    · decide
    · simp [String.toList_append, hout, herr]
  intro hmem
  rw [captureShellOutput, String.toList_intercalate] at hmem
  obtain hsep | ⟨piece, hpiece, hmem⟩ := mem_intercalate hmem
  · exact absurd hsep (by decide)
  · obtain ⟨text, htext, rfl⟩ := List.mem_map.mp hpiece
    obtain htext | htext := List.mem_append.mp htext
    · split at htext
      · obtain rfl := List.mem_singleton.mp htext
        exact hfile "mkdir --parents " "" (by decide) (by decide) (by simpa using hmem)
      · cases htext
    · obtain rfl := List.mem_singleton.mp htext
      refine hexec _ _ ?_ ?_ hmem
      · split
        · exact hfile " > >(tee " "/container.stdout.log)" (by decide) (by decide)
        · decide
        · exact hfile " > " "/container.stdout.log" (by decide) (by decide)
        · decide
      · split
        · exact hfile " 2> >(tee " "/container.stderr.log >&2)" (by decide) (by decide)
        · decide
        · exact hfile " 2> " "/container.stderr.log" (by decide) (by decide)
        · decide

/-- Lines without a character have no such character in between. -/
theorem notMem_intercalate_lines {c : Char} (hc : c ≠ '\n') {lines : List String}
    (h : ∀ line ∈ lines, c ∉ line.toList) : c ∉ ("\n".intercalate lines).toList := by
  rw [String.toList_intercalate]
  intro hmem
  obtain hsep | ⟨line, hline, hmem⟩ := mem_intercalate hmem
  · exact hc (List.mem_singleton.mp hsep)
  · obtain ⟨text, htext, rfl⟩ := List.mem_map.mp hline
    exact h text htext hmem

theorem notMem_commonBashTrapFunctions : 'A' ∉ commonBashTrapFunctions.toList := by
  refine notMem_intercalate_lines (by decide) ?_
  simp only [List.forall_mem_cons, List.not_mem_nil, false_imp_iff, implies_true, and_true]
  and_intros <;> decide

/-! ### The paths in a script -/

section Script

variable {gitSync : GitSync} {i : ℕ} {path : Option String} {caInfo : String}

/-- The path of the CA certificate in the Git config. -/
theorem get?_internalGitConfig_sslCaInfo (gitSync : GitSync) (caCertPath : Option String) :
    IterMap.get? (M := BTreeMap String) (internalGitConfig gitSync caCertPath)
      gitSslCaInfoConfigKey = caCertPath := by
  have hverify : gitSslCaInfoConfigKey ≠ gitSslVerify := by decide
  have hsafe : gitSslCaInfoConfigKey ≠ gitSyncSafeDirOption := by decide
  have hinitial : IterMap.get? (M := BTreeMap String)
      (IterMap.collect [(gitSyncSafeDirOption, gitSyncRootDir)]) gitSslCaInfoConfigKey = none := by
    rw [IterMap.collect, List.foldl_cons, List.foldl_nil, IterMap.get?_insert_of_ne _ _ hsafe,
      IterMap.get?_empty]
  unfold internalGitConfig
  cases caCertPath with
  | none =>
    dsimp only
    split
    · rw [IterMap.get?_insert_of_ne _ _ hverify, hinitial]
    · exact hinitial
  | some path =>
    dsimp only
    split
    · rw [IterMap.get?_insert_of_ne _ _ hverify, IterMap.get?_insert_self]
    · rw [IterMap.get?_insert_self]

/-- The path of a certificate can be read back. -/
theorem caInfos_of_caCertPath_eq_ok (h : caCertPath i gitSync = .ok (some caInfo)) :
    caInfos (caInfoKey ++ caInfo.toList) = [caInfo] := by
  obtain ⟨-, rfl⟩ := eq_of_caCertPath_eq_ok h
  have hchars : ∀ c ∈ (indexed caCertMountPathPrefix i ++ "/ca.crt").toList,
      endsPath c = false ∧ c ≠ 'h' := by
    have hfixed : (caCertMountPathPrefix ++ "-" ++ "/ca.crt").toList.all
        (fun c => !endsPath c && c ≠ 'h') = true := by decide
    have hmem : ∀ c ∈ (caCertMountPathPrefix ++ "-" ++ "/ca.crt").toList,
        endsPath c = false ∧ c ≠ 'h' := by
      simpa using List.all_eq_true.mp hfixed
    intro c hc
    simp only [indexed, String.toList_append, List.mem_append] at hc hmem
    obtain (hc | hc) | hc := hc
    · exact hmem c (.inl hc)
    · have hdigit := isDigit_of_mem_toString_nat hc
      refine ⟨?_, ?_⟩
      · have hall : " ,'\n".toList.all (fun d => !d.isDigit) = true := by decide
        by_contra hends
        have hmem := List.elem_iff.mp (Bool.eq_true_of_not_eq_false hends)
        have hnot := List.all_eq_true.mp hall c hmem
        rw [hdigit] at hnot
        cases hnot
      · rintro rfl
        exact absurd hdigit (by decide)
    · exact hmem c (.inr hc)
  exact caInfos_key_append (fun c hc => (hchars c hc).1) fun hc => (hchars 'h' hc).2 rfl

theorem caInfoKey_eq : caInfoKey = gitSslCaInfoConfigKey.toList ++ ":".toList := by decide

/-- The paths in the Git config: the one that it was made with, and those of the user. -/
theorem mem_caInfos_gitConfig_iff (hpath : caCertPath i gitSync = .ok path) :
    caInfo ∈ caInfos (gitConfig gitSync path).toList ↔ path = some caInfo ∨
      ∃ config, IterMap.get? (M := BTreeMap String) gitSync.gitSyncConf "--git-config" =
        some config ∧ caInfo ∈ caInfos config.toList := by
  have hkey : ∀ v : String, caInfos (gitSslCaInfoConfigKey ++ ":" ++ v).toList =
      caInfos (caInfoKey ++ v.toList) := fun v => by
    rw [caInfoKey_eq, String.toList_append, String.toList_append]
  rw [gitConfig, String.toList_intercalate, show ",".toList = [','] from rfl,
    caInfos_intercalate rfl, List.mem_flatMap]
  simp only [List.map_append, List.map_map, List.mem_append, List.mem_map, Function.comp_apply,
    Option.mem_toList]
  have hverify : caInfos (gitSslVerify ++ ":" ++ "false").toList = [] := by decide
  have hsafe : caInfos (gitSyncSafeDirOption ++ ":" ++ gitSyncRootDir).toList = [] := by decide
  constructor
  · rintro ⟨piece, ⟨⟨k, v⟩, he, rfl⟩ | ⟨config, hconfig, rfl⟩, hread⟩
    · have hget := (IterMap.mem_iter (M := BTreeMap String) _ k v).mp he
      obtain heq | ⟨rfl, rfl⟩ | heq := mem_internalGitConfig hget
      · obtain ⟨rfl, rfl⟩ := Prod.mk.inj heq
        rw [hverify] at hread
        cases hread
      · rw [hkey, caInfos_of_caCertPath_eq_ok hpath, List.mem_singleton] at hread
        exact .inl (by rw [hread])
      · obtain ⟨rfl, rfl⟩ := Prod.mk.inj heq
        rw [hsafe] at hread
        cases hread
    · exact .inr ⟨config, hconfig, hread⟩
  · rintro (rfl | ⟨config, hconfig, hread⟩)
    · refine ⟨_, .inl ⟨(gitSslCaInfoConfigKey, caInfo), ?_, rfl⟩, ?_⟩
      · exact (IterMap.mem_iter (M := BTreeMap String) _ _ _).mpr
          (get?_internalGitConfig_sslCaInfo gitSync _)
      · rw [hkey, caInfos_of_caCertPath_eq_ok hpath]
        exact List.mem_singleton_self _
    · exact ⟨_, .inr ⟨config, hconfig, rfl⟩, hread⟩

/-- An option of the command is internal, from the user, or the Git config. -/
theorem mem_args {oneTime : Bool} {k v : String}
    (h : IterMap.get? (M := BTreeMap String) (args gitSync oneTime path) k = some v) :
    (k, v) = ("--git-config", "'" ++ gitConfig gitSync path ++ "'") ∨
      IterMap.get? (M := BTreeMap String) gitSync.gitSyncConf k = some v ∨
      IterMap.get? (M := BTreeMap String) (internalArgs gitSync oneTime) k = some v := by
  rw [args] at h
  by_cases hk : k = "--git-config"
  · subst hk
    rw [IterMap.get?_insert_self] at h
    exact .inl (by rw [Option.some.inj h])
  · rw [IterMap.get?_insert_of_ne _ _ hk, IterMap.get?_extend, Option.or_eq_some_iff] at h
    obtain h | ⟨-, h⟩ := h
    · have huser : (k, v) ∈ userDefinedArgs gitSync oneTime := by
        refine (IterMap.get?_collect (M := BTreeMap String) ?_).mp h
        exact (List.filter_sublist.map Prod.fst).nodup (IterMap.nodup_iter (M := BTreeMap String) _)
      have hconf := (IterMap.mem_iter (M := BTreeMap String) _ k v).mp (List.mem_filter.mp huser).1
      rw [BTreeMap.get?_remove_of_ne _ hk] at hconf
      exact .inr (.inl hconf)
    · exact .inr (.inr h)

theorem toList_optionWord_gitConfig :
    optionWord ("--git-config", "'" ++ gitConfig gitSync path ++ "'") =
      "--git-config=".toList ++ '\'' :: ((gitConfig gitSync path).toList ++ ['\'']) := by
  simp [optionWord, String.toList_append]

/-- An internal option names no path, unless it has a text of the user. -/
theorem isNamedByUser_of_internalArgs {oneTime : Bool} {k v : String}
    (h : IterMap.get? (M := BTreeMap String) (internalArgs gitSync oneTime) k = some v)
    (hread : caInfo ∈ caInfos (optionWord (k, v))) : IsNamedByUser gitSync caInfo := by
  have hmem := (IterMap.get?_collect (M := BTreeMap String)
    (by simp only [List.map_cons, List.map_nil]; decide)).mp h
  have hnumber : ∀ (key suffix : String) (n : ℕ), 'C' ∉ key.toList → 'C' ∉ suffix.toList →
      caInfos (optionWord (key, toString n ++ suffix)) = [] := by
    intro key suffix n hkey hsuffix
    have hn : 'C' ∉ (toString n).toList := fun hc =>
      absurd (isDigit_of_mem_toString_nat hc) (by decide)
    refine caInfos_eq_nil (c := 'C') (by decide) ?_
    simp only [optionWord, String.toList_append, List.mem_append, hkey, hn, hsuffix]
    decide
  have hdepth := hnumber "--depth" "" gitSync.depth.toNat (by decide) (by decide)
  have hperiod := hnumber "--period" "s" gitSync.wait.asSecs (by decide) (by decide)
  have honeTime :
      caInfos (optionWord ("--one-time", if oneTime then "true" else "false")) = [] := by
    cases oneTime <;> decide
  have hlink : caInfos (optionWord ("--link", gitSyncLink)) = [] := by decide
  have hroot : caInfos (optionWord ("--root", gitSyncRootDir)) = [] := by decide
  rw [String.append_empty] at hdepth
  simp only [List.mem_cons, Prod.mk.injEq, List.not_mem_nil, or_false] at hmem
  obtain ⟨rfl, rfl⟩ | ⟨rfl, rfl⟩ | ⟨rfl, rfl⟩ | ⟨rfl, rfl⟩ | ⟨rfl, rfl⟩ | ⟨rfl, rfl⟩ |
    ⟨rfl, rfl⟩ := hmem
  · exact ⟨"--repo=" ++ gitSync.repo.asStr, by simp [userTexts], hread⟩
  · exact ⟨"--ref=" ++ gitSync.branch, by simp [userTexts], hread⟩
  · rw [hdepth] at hread
    cases hread
  · rw [hperiod] at hread
    cases hread
  · rw [hlink] at hread
    cases hread
  · rw [hroot] at hread
    cases hread
  · rw [honeTime] at hread
    cases hread

/-- **The paths in the command**: the one that it was made with, and some of the user. -/
theorem mem_caInfos_gitSyncCommand (hpath : caCertPath i gitSync = .ok path) (oneTime : Bool) :
    (caInfo ∈ caInfos (gitSyncCommand gitSync oneTime path).toList →
      path = some caInfo ∨ IsNamedByUser gitSync caInfo) ∧
    (path = some caInfo → caInfo ∈ caInfos (gitSyncCommand gitSync oneTime path).toList) := by
  have hconfig : caInfos (optionWord ("--git-config", "'" ++ gitConfig gitSync path ++ "'")) =
      caInfos (gitConfig gitSync path).toList := by
    rw [toList_optionWord_gitConfig, caInfos_append rfl, caInfos_append rfl,
      show caInfos "--git-config=".toList = [] by decide]
    exact List.append_nil _
  have hwords : caInfos (gitSyncCommand gitSync oneTime path).toList =
      ((IterMap.iter (M := BTreeMap String) (args gitSync oneTime path)).map
        optionWord).flatMap caInfos := by
    have hcommand : "/stackable/git-sync ".toList = "/stackable/git-sync".toList ++ [' '] := by
      decide
    unfold gitSyncCommand
    dsimp only
    rw [String.toList_append, hcommand, List.append_assoc, List.singleton_append,
      caInfos_append rfl, String.toList_intercalate, show " ".toList = [' '] from rfl,
      caInfos_intercalate rfl, show caInfos "/stackable/git-sync".toList = [] by decide,
      List.map_map]
    rfl
  rw [hwords, List.mem_flatMap]
  constructor
  · rintro ⟨word, hword, hread⟩
    obtain ⟨⟨k, v⟩, he, rfl⟩ := List.mem_map.mp hword
    obtain heq | huser | hinternal :=
      mem_args ((IterMap.mem_iter (M := BTreeMap String) _ k v).mp he)
    · rw [heq, hconfig, mem_caInfos_gitConfig_iff hpath] at hread
      refine hread.imp_right fun ⟨config, hget, hread⟩ => ?_
      refine ⟨"--git-config" ++ "=" ++ config, ?_, ?_⟩
      · exact List.mem_cons_of_mem _ (List.mem_cons_of_mem _ (List.mem_map.mpr
          ⟨_, (IterMap.mem_iter (M := BTreeMap String) _ _ _).mpr hget, rfl⟩))
      · rw [String.toList_append]
        exact mem_caInfos_append hread
    · exact .inr ⟨k ++ "=" ++ v, List.mem_cons_of_mem _ (List.mem_cons_of_mem _ (List.mem_map.mpr
        ⟨_, (IterMap.mem_iter (M := BTreeMap String) _ _ _).mpr huser, rfl⟩)), hread⟩
    · exact .inr (isNamedByUser_of_internalArgs hinternal hread)
  · intro hsome
    refine ⟨_, List.mem_map_of_mem ((IterMap.mem_iter (M := BTreeMap String) _ "--git-config"
      ("'" ++ gitConfig gitSync path ++ "'")).mpr ?_), ?_⟩
    · rw [args, IterMap.get?_insert_self]
    · rw [hconfig, mem_caInfos_gitConfig_iff hpath]
      exact .inl hsome

/-- What is around the command in a script names no path. -/
theorem caInfos_createGitSyncShellScript {containerName : String} (h : 'A' ∉ containerName.toList)
    (oneTime : Bool) (containerLogConfig : ContainerLogConfig) :
    caInfos
        (createGitSyncShellScript containerName gitSync oneTime containerLogConfig path).toList =
      caInfos (gitSyncCommand gitSync oneTime path).toList := by
  -- the logging is empty, or it ends with a line feed
  have hlogging : ∃ logging : String, (∀ rest, caInfos (logging.toList ++ rest) = caInfos rest) ∧
      createGitSyncShellScript containerName gitSync oneTime containerLogConfig path =
        if oneTime then logging ++ gitSyncCommand gitSync oneTime path
        else logging ++ commonBashTrapFunctions ++ "\nprepare_signal_handlers\n" ++
          gitSyncCommand gitSync oneTime path ++ " &\nwait_for_termination $!" := by
    refine ⟨_, ?_, rfl⟩
    intro rest
    split
    · next logConfig _ =>
      rw [String.toList_append, List.append_assoc, show "\n".toList = ['\n'] from rfl,
        List.singleton_append, caInfos_append rfl,
        caInfos_eq_nil (c := 'A') (by decide) (notMem_captureShellOutput h logConfig),
        List.nil_append]
    · rfl
  have hfunctions : 'A' ∉ (commonBashTrapFunctions ++ "\nprepare_signal_handlers").toList := by
    rw [String.toList_append, List.mem_append, not_or]
    exact ⟨notMem_commonBashTrapFunctions, by decide⟩
  have hsplit : (commonBashTrapFunctions ++ "\nprepare_signal_handlers\n" ++
      gitSyncCommand gitSync oneTime path ++ " &\nwait_for_termination $!").toList =
      (commonBashTrapFunctions ++ "\nprepare_signal_handlers").toList ++ '\n' ::
        ((gitSyncCommand gitSync oneTime path).toList ++ ' ' ::
          "&\nwait_for_termination $!".toList) := by
    simp [String.toList_append]
  obtain ⟨logging, hrest, hscript⟩ := hlogging
  rw [hscript]
  split
  · rw [String.toList_append, hrest]
  · rw [String.append_assoc, String.append_assoc, String.append_assoc, String.toList_append, hrest,
      ← String.append_assoc, ← String.append_assoc, hsplit, caInfos_append rfl, caInfos_append rfl,
      caInfos_eq_nil (c := 'A') (by decide) hfunctions,
      show caInfos "&\nwait_for_termination $!".toList = [] by decide, List.append_nil,
      List.nil_append]

end Script

end GitSyncResources

end StackableOperator
