import Mathlib
import StackableOperator.Crd.GitSync.Resources
import StackableOperator.Readers.ShellWords

/-!
# The command line of git-sync

The branch and the URL of a repository are pasted into the command line without quotes.
`gitSyncCommand_faithful_iff` says that a shell reads the command line as the command with its
options iff the branch and the URL have no character with a meaning for the shell.
-/

namespace StackableOperator

namespace GitSyncResources

/-- The options in the order of their names, without quotes. -/
def options (gitSync : GitSync) (oneTime : Bool) (caCertPath : Option String) :
    List (String × String) :=
  [("--depth", toString gitSync.depth.toNat), ("--git-config", gitConfig gitSync caCertPath),
    ("--link", gitSyncLink), ("--one-time", if oneTime then "true" else "false"),
    ("--period", toString gitSync.wait.asSecs ++ "s"), ("--ref", gitSync.branch),
    ("--repo", gitSync.repo.asStr), ("--root", gitSyncRootDir)]

def optionWord (option : String × String) : List Char := (option.1 ++ "=" ++ option.2).toList

/-- The words that the command line should have. -/
def commandWords (gitSync : GitSync) (oneTime : Bool) (caCertPath : Option String) :
    List (List Char) :=
  "/stackable/git-sync".toList :: (options gitSync oneTime caCertPath).map optionWord

/-- Whether a part occurs in a text. -/
def hasPart (part cs : List Char) : Bool := cs.tails.any part.isPrefixOf

/-- The name of a branch by the rules of Git, for the part of the reference after `refs/heads/`. -/
def isBranchName (branch : String) : Bool :=
  let cs := branch.toList
  let components := cs.splitOn '/'
  components.all (fun component => !component.isEmpty && component.head? ≠ some '.' &&
    !(".lock".toList.isSuffixOf component)) &&
  cs.all (fun c => 0x20 < c.toNat && c.toNat ≠ 0x7f && !"~^:?*[\\".toList.elem c) &&
  !hasPart ['.', '.'] cs && !hasPart ['@', '\x7b'] cs && cs.getLast? ≠ some '.' &&
  cs.head? ≠ some '-' && cs ≠ ['@']

/-! ### The options -/

/-- The options of a repository without user-defined ones. -/
theorem iter_args {gitSync : GitSync} (hconf : gitSync.gitSyncConf = ∅) (oneTime : Bool)
    (caCertPath : Option String) :
    IterMap.iter (M := BTreeMap String) (args gitSync oneTime caCertPath) =
      [("--depth", toString gitSync.depth.toNat),
        ("--git-config", "'" ++ gitConfig gitSync caCertPath ++ "'"), ("--link", gitSyncLink),
        ("--one-time", if oneTime then "true" else "false"),
        ("--period", toString gitSync.wait.asSecs ++ "s"), ("--ref", gitSync.branch),
        ("--repo", gitSync.repo.asStr), ("--root", gitSyncRootDir)] := by
  have huser : userDefinedArgs gitSync oneTime = [] := by
    rw [userDefinedArgs, hconf]
    rfl
  refine BTreeMap.iter_eq_of_sorted (by simp only [List.map_cons, List.map_nil]; decide) ?_
  intro k v
  have hinternal : IterMap.get? (M := BTreeMap String) (internalArgs gitSync oneTime) k = some v ↔
      (k, v) ∈ [("--repo", gitSync.repo.asStr), ("--ref", gitSync.branch),
        ("--depth", toString gitSync.depth.toNat),
        ("--period", toString gitSync.wait.asSecs ++ "s"), ("--link", gitSyncLink),
        ("--root", gitSyncRootDir), ("--one-time", if oneTime then "true" else "false")] :=
    IterMap.get?_collect (M := BTreeMap String) (by simp only [List.map_cons, List.map_nil]; decide)
  have hextend : IterMap.extend (M := BTreeMap String) (internalArgs gitSync oneTime)
      (IterMap.collect (userDefinedArgs gitSync oneTime)) = internalArgs gitSync oneTime := by
    rw [huser]
    rfl
  rw [args, hextend]
  by_cases hk : k = "--git-config"
  · subst hk
    rw [IterMap.get?_insert_self]
    simp [eq_comm]
  · rw [IterMap.get?_insert_of_ne _ _ hk, hinternal]
    simp only [List.mem_cons, Prod.mk.injEq, hk, false_and, false_or, List.not_mem_nil, or_false]
    grind

/-- The entries of the Git config. -/
theorem mem_internalGitConfig {gitSync : GitSync} {caCertPath : Option String} {k v : String}
    (h : IterMap.get? (M := BTreeMap String) (internalGitConfig gitSync caCertPath) k = some v) :
    (k, v) = (gitSslVerify, "false") ∨
      (k = gitSslCaInfoConfigKey ∧ caCertPath = some v) ∨
      (k, v) = (gitSyncSafeDirOption, gitSyncRootDir) := by
  have hinsert {config : BTreeMap String String} {k' v' : String}
      (h : IterMap.get? (M := BTreeMap String)
        (IterMap.insert (M := BTreeMap String) config k' v') k = some v) :
      (k, v) = (k', v') ∨ IterMap.get? (M := BTreeMap String) config k = some v := by
    by_cases hk : k = k'
    · subst hk
      rw [IterMap.get?_insert_self] at h
      exact Or.inl (by rw [Option.some.inj h])
    · rw [IterMap.get?_insert_of_ne _ _ hk] at h
      exact Or.inr h
  have hsafe (h : IterMap.get? (M := BTreeMap String)
      (IterMap.collect [(gitSyncSafeDirOption, gitSyncRootDir)]) k = some v) :
      (k, v) = (gitSyncSafeDirOption, gitSyncRootDir) := by
    have hmem := (IterMap.get?_collect (M := BTreeMap String) (by simp)).mp h
    exact List.mem_singleton.mp hmem
  have hpath {path : String} (h : IterMap.get? (M := BTreeMap String)
      (IterMap.insert (M := BTreeMap String)
        (IterMap.collect [(gitSyncSafeDirOption, gitSyncRootDir)]) gitSslCaInfoConfigKey path) k =
          some v) :
      (k = gitSslCaInfoConfigKey ∧ some path = some v) ∨
        (k, v) = (gitSyncSafeDirOption, gitSyncRootDir) := by
    obtain heq | h := hinsert h
    · obtain ⟨rfl, rfl⟩ := Prod.mk.inj heq
      exact Or.inl ⟨rfl, rfl⟩
    · exact Or.inr (hsafe h)
  unfold internalGitConfig at h
  cases caCertPath with
  | none =>
    dsimp only at h
    split at h
    · exact (hinsert h).imp_right fun h => Or.inr (hsafe h)
    · exact Or.inr (Or.inr (hsafe h))
  | some path =>
    dsimp only at h
    split at h
    · exact (hinsert h).imp_right hpath
    · exact Or.inr (hpath h)

/-- The number in a name is written with digits. -/
theorem isDigit_of_mem_toString_nat {n : ℕ} {c : Char} (h : c ∈ (toString n).toList) :
    c.isDigit = true := by
  rw [Nat.toString_eq_repr, Nat.toList_repr] at h
  exact Nat.isDigit_of_mem_toDigits (by omega) (by omega) h

/-- The path of a CA certificate needs no quotes. -/
theorem quote_notMem_caCertPath {i : ℕ} {gitSync : GitSync} {path : String}
    (h : caCertPath i gitSync = .ok (some path)) : '\'' ∉ path.toList := by
  obtain ⟨-, rfl⟩ := eq_of_caCertPath_eq_ok h
  have hfront : '\'' ∉ caCertMountPathPrefix.toList := by decide
  intro hquote
  simp only [indexed, String.toList_append, List.mem_append] at hquote
  obtain ((hquote | hquote) | hquote) | hquote := hquote
  · exact hfront hquote
  · exact absurd hquote (by decide)
  · exact absurd (isDigit_of_mem_toString_nat hquote) (by decide)
  · exact absurd hquote (by decide)

/-- The Git config can be put into single quotes. -/
theorem quote_notMem_gitConfig {gitSync : GitSync} (hconf : gitSync.gitSyncConf = ∅) {i : ℕ}
    {path : Option String} (h : caCertPath i gitSync = .ok path) :
    '\'' ∉ (gitConfig gitSync path).toList := by
  have huser : (IterMap.get? (M := BTreeMap String) gitSync.gitSyncConf "--git-config").toList =
      [] := by
    rw [hconf]
    rfl
  intro hquote
  rw [gitConfig, huser, List.append_nil, String.toList_intercalate, List.map_map] at hquote
  obtain hcomma | ⟨piece, hpiece, hpart⟩ := mem_intercalate hquote
  · exact absurd hcomma (by decide)
  · obtain ⟨⟨k, v⟩, he, rfl⟩ := List.mem_map.mp hpiece
    have hget := (IterMap.mem_iter (M := BTreeMap String) _ k v).mp he
    simp only [Function.comp_apply, String.toList_append, List.mem_append] at hpart
    obtain heq | ⟨rfl, rfl⟩ | heq := mem_internalGitConfig hget
    · obtain ⟨rfl, rfl⟩ := Prod.mk.inj heq
      exact absurd hpart (by decide)
    · obtain (hpart | hpart) | hpart := hpart
      · exact absurd hpart (by decide)
      · exact absurd hpart (by decide)
      · exact quote_notMem_caCertPath h hpart
    · obtain ⟨rfl, rfl⟩ := Prod.mk.inj heq
      exact absurd hpart (by decide)

/-! ### The words -/

open Shell

/-- Digits have no meaning for the shell. -/
theorem isPlain_toString (n : ℕ) : isPlain (toString n).toList = true := by
  refine isPlain_of_forall_notMem fun c hc hspecial => ?_
  have hall : specialChars.all (fun d => !d.isDigit) = true := by decide
  have hnot := List.all_eq_true.mp hall c hspecial
  rw [isDigit_of_mem_toString_nat hc] at hnot
  exact absurd hnot (by decide)

/-- The text of the command line, with the quotes. -/
theorem toList_gitSyncCommand {gitSync : GitSync} (hconf : gitSync.gitSyncConf = ∅)
    (oneTime : Bool) (path : Option String) :
    (gitSyncCommand gitSync oneTime path).toList =
      "/stackable/git-sync".toList ++ ' ' ::
        (optionWord ("--depth", toString gitSync.depth.toNat) ++ ' ' ::
          (optionWord ("--git-config", "") ++ '\'' ::
            ((gitConfig gitSync path).toList ++ '\'' :: ' ' ::
              [' '].intercalate (((options gitSync oneTime path).drop 2).map optionWord)))) := by
  have hcommand : "/stackable/git-sync ".toList = "/stackable/git-sync".toList ++ [' '] := by
    decide
  have hspace : " ".toList = [' '] := rfl
  have hquote : "'".toList = ['\''] := rfl
  have hempty : "".toList = [] := rfl
  unfold gitSyncCommand
  dsimp only
  rw [iter_args hconf, String.toList_append, hcommand, String.toList_intercalate]
  simp only [options, optionWord, List.drop_succ_cons, List.drop_zero, List.map_cons, List.map_nil]
  simp only [hspace, List.intercalate_cons_cons, String.toList_append, hquote, hempty]
  simp only [List.append_assoc, List.append_nil, List.nil_append, List.cons_append]

/-- A word of an option whose value is plain. -/
theorem isPlainWord_optionWord_iff (key : String) {value : String}
    (hhead : key.toList.head? = some '-') (hdollar : '$' ∉ key.toList)
    (hkey : isPlain key.toList = true) :
    IsPlainWord (optionWord (key, value)) ↔ isPlain value.toList = true := by
  have hword : optionWord (key, value) = (key.toList ++ ['=']) ++ value.toList := by
    simp only [optionWord, String.toList_append]
    rfl
  have hdollar' : '$' ∉ key.toList ++ ['='] := by simpa using hdollar
  have hfront : isPlain (key.toList ++ ['=']) = true := (isPlain_append hdollar).mpr ⟨hkey, rfl⟩
  have hhead' : (optionWord (key, value)).head? = some '-' := by
    rw [hword, List.append_assoc, List.head?_append, hhead, Option.some_or]
  have hne : optionWord (key, value) ≠ [] := by
    intro hnil
    rw [hnil] at hhead'
    exact absurd hhead' (by simp)
  rw [IsPlainWord, hhead', hword, isPlain_append hdollar', hfront]
  simp

/-- **The command line of git-sync.** A shell reads it as the command with its options iff the
branch and the URL are plain. -/
theorem gitSyncCommand_faithful_iff {gitSync : GitSync} (hconf : gitSync.gitSyncConf = ∅) {i : ℕ}
    {path : Option String} (hpath : caCertPath i gitSync = .ok path) (oneTime : Bool) :
    words (gitSyncCommand gitSync oneTime path).toList = .ok (commandWords gitSync oneTime path) ↔
      isPlain gitSync.branch.toList = true ∧ isPlain gitSync.repo.asStr.toList = true := by
  have hcommand : IsPlainWord "/stackable/git-sync".toList := ⟨by decide, by decide, by decide⟩
  have hdepth : IsPlainWord (optionWord ("--depth", toString gitSync.depth.toNat)) :=
    (isPlainWord_optionWord_iff "--depth" rfl (by decide) (by decide)).mpr (isPlain_toString _)
  have hconfig : IsPlainWord (optionWord ("--git-config", "")) := ⟨by decide, by decide, by decide⟩
  have hperiod : isPlain (toString gitSync.wait.asSecs ++ "s").toList = true := by
    have hdollar : '$' ∉ (toString gitSync.wait.asSecs).toList := fun hmem =>
      absurd (isDigit_of_mem_toString_nat hmem) (by decide)
    rw [String.toList_append, isPlain_append hdollar]
    exact ⟨isPlain_toString _, by decide⟩
  have honeTime : isPlain (if oneTime then "true" else "false").toList = true := by
    cases oneTime <;> decide
  have hwords : commandWords gitSync oneTime path =
      ["/stackable/git-sync".toList, optionWord ("--depth", toString gitSync.depth.toNat),
        optionWord ("--git-config", "") ++ (gitConfig gitSync path).toList] ++
        ((options gitSync oneTime path).drop 2).map optionWord := by
    simp only [commandWords, options, optionWord, List.drop_succ_cons, List.drop_zero,
      List.map_cons, List.map_nil, String.toList_append, List.append_assoc]
    rfl
  rw [toList_gitSyncCommand hconf, words, wordsFrom_plainWord rfl rfl hcommand,
    wordsFrom_plainWord rfl rfl hdepth,
    wordsFrom_quoted rfl rfl hconfig (by decide) (quote_notMem_gitConfig hconf hpath), hwords]
  refine (wordsFrom_intercalate_iff rfl rfl).trans ?_
  simp only [options, List.drop_succ_cons, List.drop_zero, List.map_cons, List.map_nil,
    List.forall_mem_cons, List.not_mem_nil, false_imp_iff, implies_true, and_true]
  rw [isPlainWord_optionWord_iff "--link" rfl (by decide) (by decide),
    isPlainWord_optionWord_iff "--one-time" rfl (by decide) (by decide),
    isPlainWord_optionWord_iff "--period" rfl (by decide) (by decide),
    isPlainWord_optionWord_iff "--ref" rfl (by decide) (by decide),
    isPlainWord_optionWord_iff "--repo" rfl (by decide) (by decide),
    isPlainWord_optionWord_iff "--root" rfl (by decide) (by decide)]
  have hlink : isPlain gitSyncLink.toList = true := by decide
  have hroot : isPlain gitSyncRootDir.toList = true := by decide
  simp only [hlink, honeTime, hperiod, hroot, true_and, and_true]

/-- A repository without further settings. -/
def gitSyncOf (branch : String) : GitSync :=
  { repo := ⟨"https", "https://example.com/repo"⟩, branch := branch }

theorem caCertPath_gitSyncOf (branch : String) : caCertPath 0 (gitSyncOf branch) = .ok none := by
  rfl

theorem gitSyncCommand_faithful_main :
    words (gitSyncCommand (gitSyncOf "main") true none).toList =
      .ok (commandWords (gitSyncOf "main") true none) :=
  (gitSyncCommand_faithful_iff rfl (caCertPath_gitSyncOf "main") true).mpr
    ⟨by decide, by decide⟩

/-- With the branch `a&b` the command runs in the background. -/
theorem gitSyncCommand_not_faithful : ¬∀ (gitSync : GitSync) (i : ℕ) (path : Option String)
    (oneTime : Bool), gitSync.gitSyncConf = ∅ → isBranchName gitSync.branch = true →
      caCertPath i gitSync = .ok path →
        words (gitSyncCommand gitSync oneTime path).toList =
          .ok (commandWords gitSync oneTime path) := by
  intro h
  have hpath := caCertPath_gitSyncOf "a&b"
  have hwords := h (gitSyncOf "a&b") 0 none true rfl (by decide) hpath
  obtain ⟨hbranch, -⟩ := (gitSyncCommand_faithful_iff rfl hpath true).mp hwords
  exact absurd hbranch (by decide)

end GitSyncResources

end StackableOperator
