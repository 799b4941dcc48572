import Mathlib
import StackableOperator.RustStd.CharBoundary

/-!
# Kubernetes events of errors

`errorToEvent` joins the messages of an error and its sources, and truncates them
(`truncateWithEllipsis`). A panic is `none`. No text and no limit leads to one, and the texts that
do not fit keep what fits in front of the ellipsis (`truncateWithEllipsis_eq`).
-/

namespace StackableOperator

namespace K8sEvents

/-! ### Truncated messages -/

/-- Search backwards for a character boundary. The decrement panics at zero. -/
def findStartOfChar (s : List Char) (pos : ℕ) : Option ℕ :=
  if isCharBoundary s pos then some pos
  else
    match pos with
    | 0 => none
    | pos + 1 => findStartOfChar s pos

def ellipsis : Char := '…'

def ellipsisLen : ℕ := ellipsis.utf8Size

/-- Truncate a message to a number of bytes. -/
def truncateWithEllipsis (msg : String) (maxLen : ℕ) : Option String := do
  let msg ←
    if msg.utf8ByteSize > maxLen then do
      let startOfTruncChar ← findStartOfChar msg.toList (maxLen - ellipsisLen)
      let msg ← truncate msg.toList startOfTruncChar
      pure (if ellipsisLen ≤ maxLen then (String.ofList msg).push ellipsis else String.ofList msg)
    else pure msg
  -- the assertion of the debug builds
  guard (msg.utf8ByteSize ≤ maxLen)
  return msg

theorem isCharBoundary_zero (cs : List Char) : isCharBoundary cs 0 = true := by
  cases cs <;> rfl

/-- **The search finds the greatest boundary** and never passes zero. -/
theorem findStartOfChar_eq (cs : List Char) (pos : ℕ) :
    findStartOfChar cs pos = some (floorCharBoundary cs pos) := by
  induction pos with
  | zero =>
    rw [findStartOfChar, if_pos (isCharBoundary_zero cs)]
    rfl
  | succ pos ih =>
    rw [findStartOfChar, floorCharBoundary, Nat.findGreatest_succ]
    split_ifs with hboundary
    · rfl
    · exact ih

/-- What is left of a message that does not fit. -/
def truncated (cs : List Char) (maxLen : ℕ) : List Char :=
  if ellipsisLen ≤ maxLen then fitting (maxLen - ellipsisLen) cs ++ [ellipsis] else []

theorem utf8Size_truncated_le (cs : List Char) (maxLen : ℕ) :
    utf8Size (truncated cs maxLen) ≤ maxLen := by
  unfold truncated
  split_ifs with hellipsis
  · have hfitting := utf8Size_fitting_le (maxLen - ellipsisLen) cs
    have hone : utf8Size [ellipsis] = ellipsisLen := rfl
    rw [utf8Size_append, hone]
    omega
  · exact Nat.zero_le maxLen

/-- No character fits into zero bytes. -/
theorem fitting_zero (cs : List Char) : fitting 0 cs = [] := by
  cases cs with
  | nil => rfl
  | cons c cs => rw [fitting, if_neg (by have := c.utf8Size_pos; omega)]

/-- **There is no panic**, and the message is unchanged or truncated. -/
theorem truncateWithEllipsis_eq (msg : String) (maxLen : ℕ) :
    truncateWithEllipsis msg maxLen = some (if msg.utf8ByteSize ≤ maxLen then msg
      else String.ofList (truncated msg.toList maxLen)) := by
  by_cases hfits : msg.utf8ByteSize ≤ maxLen
  · rw [truncateWithEllipsis, if_neg (Nat.not_lt.mpr hfits), if_pos hfits]
    simp [hfits]
  · have hcut : (if ellipsisLen ≤ maxLen then
          (String.ofList (fitting (maxLen - ellipsisLen) msg.toList)).push ellipsis
        else String.ofList (fitting (maxLen - ellipsisLen) msg.toList)) =
        String.ofList (truncated msg.toList maxLen) := by
      apply String.toList_inj.mp
      unfold truncated
      split_ifs with hellipsis
      · simp
      · rw [Nat.sub_eq_zero_of_le (Nat.le_of_not_le hellipsis), fitting_zero]
    have hle : (String.ofList (truncated msg.toList maxLen)).utf8ByteSize ≤ maxLen := by
      rw [utf8ByteSize_ofList]
      exact utf8Size_truncated_le msg.toList maxLen
    rw [truncateWithEllipsis, if_pos (Nat.not_le.mp hfits), if_neg hfits, findStartOfChar_eq]
    simp [truncate_floorCharBoundary, hcut, hle]

/-! ### Events -/

/-- An error with its message, and perhaps its source. -/
inductive Error : Type
  | root (display : String)
  | caused (display : String) (source : Error)

namespace Error

def display : Error → String
  | root display => display
  | caused display _ => display

/-- Append the messages of the sources. -/
def writeSources (error : String) : Error → String
  | root _ => error
  | caused _ source => writeSources (error ++ (": " ++ source.display)) source

end Error

structure ReconcilerError (ObjectRef : Type) where
  error : Error
  /-- The name of the category of the error. -/
  category : String
  /-- The object on which the error happened, if it is another one. -/
  secondaryObject : Option ObjectRef

inductive EventType : Type
  | normal
  | warning

structure Event (ObjectReference : Type) where
  type_ : EventType
  reason : String
  note : Option String
  action : String
  secondary : Option ObjectReference

/-- The event of an error. -/
def errorToEvent {ObjectRef ObjectReference : Type} (into : ObjectRef → ObjectReference)
    (err : ReconcilerError ObjectRef) : Option (Event ObjectReference) := do
  let error := err.error.writeSources err.error.display
  let error ← truncateWithEllipsis error 1024
  return {
    type_ := .warning
    reason := err.category
    note := some error
    action := "Reconcile"
    secondary := err.secondaryObject.map into }

/-- The prefix in front of the ellipsis ends at the greatest boundary that leaves room for it. -/
theorem exists_kept {cs : List Char} {maxLen : ℕ} (h : ellipsisLen ≤ maxLen) :
    ∃ kept : String, String.ofList (truncated cs maxLen) = kept.push ellipsis ∧
      kept.toList <+: cs ∧ isCharBoundary cs kept.utf8ByteSize = true ∧
      kept.utf8ByteSize + ellipsisLen ≤ maxLen ∧
      ∀ i, isCharBoundary cs i = true → i + ellipsisLen ≤ maxLen → i ≤ kept.utf8ByteSize := by
  have hsize : (String.ofList (fitting (maxLen - ellipsisLen) cs)).utf8ByteSize =
      floorCharBoundary cs (maxLen - ellipsisLen) := by
    rw [utf8ByteSize_ofList, floorCharBoundary_eq]
  refine ⟨String.ofList (fitting (maxLen - ellipsisLen) cs), ?_, ?_, ?_, ?_, ?_⟩
  · apply String.toList_inj.mp
    rw [truncated, if_pos h]
    simp
  · rw [String.toList_ofList]
    exact fitting_isPrefix (maxLen - ellipsisLen) cs
  · rw [hsize]
    exact Nat.findGreatest_spec (P := fun i => isCharBoundary cs i = true) (Nat.zero_le _)
      (isCharBoundary_zero cs)
  · have hle : floorCharBoundary cs (maxLen - ellipsisLen) ≤ maxLen - ellipsisLen :=
      Nat.findGreatest_le (maxLen - ellipsisLen)
    rw [hsize]
    omega
  · intro i hboundary hroom
    rw [hsize]
    exact Nat.le_findGreatest (by omega) hboundary

theorem exists_truncateWithEllipsis (msg : String) (maxLen : ℕ) :
    ∃ result, truncateWithEllipsis msg maxLen = some result ∧ result.utf8ByteSize ≤ maxLen := by
  refine ⟨_, truncateWithEllipsis_eq msg maxLen, ?_⟩
  split_ifs with hfits
  · exact hfits
  · rw [utf8ByteSize_ofList]
    exact utf8Size_truncated_le msg.toList maxLen

/-- **Messages are truncated safely**, and the note of an event has at most 1024 bytes. -/
theorem truncateWithEllipsis_safe {ObjectRef ObjectReference : Type} (msg : String) (maxLen : ℕ)
    (into : ObjectRef → ObjectReference) (err : ReconcilerError ObjectRef) :
    (∃ result, truncateWithEllipsis msg maxLen = some result ∧ result.utf8ByteSize ≤ maxLen ∧
      (msg.utf8ByteSize ≤ maxLen → result = msg) ∧
      (maxLen < msg.utf8ByteSize → 3 ≤ maxLen → ∃ kept : String,
        result = kept.push '…' ∧ kept.toList <+: msg.toList ∧
        isCharBoundary msg.toList kept.utf8ByteSize = true ∧ kept.utf8ByteSize + 3 ≤ maxLen ∧
        ∀ i, isCharBoundary msg.toList i = true → i + 3 ≤ maxLen → i ≤ kept.utf8ByteSize)) ∧
    ∃ event note, errorToEvent into err = some event ∧ event.note = some note ∧
      note.utf8ByteSize ≤ 1024 := by
  constructor
  · obtain ⟨result, hresult, hle⟩ := exists_truncateWithEllipsis msg maxLen
    have heq := hresult.symm.trans (truncateWithEllipsis_eq msg maxLen)
    refine ⟨result, hresult, hle, fun hfits => ?_, fun hlong hroom => ?_⟩
    · rw [if_pos hfits] at heq
      exact Option.some.inj heq
    · rw [if_neg (Nat.not_le.mpr hlong)] at heq
      rw [Option.some.inj heq]
      exact exists_kept hroom
  · obtain ⟨note, hnote, hle⟩ :=
      exists_truncateWithEllipsis (err.error.writeSources err.error.display) 1024
    refine ⟨⟨.warning, err.category, some note, "Reconcile", err.secondaryObject.map into⟩, note,
      ?_, rfl, hle⟩
    rw [errorToEvent, hnote]
    rfl

/-- A character of four bytes is kept or dropped as a whole. -/
example : truncateWithEllipsis "hello🙋" 8 = some "hello…" := by decide +kernel

end K8sEvents

end StackableOperator
