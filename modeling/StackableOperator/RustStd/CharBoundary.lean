import Mathlib
import StackableOperator.RustStd.CharIndices

/-!
# Truncating texts at character boundaries

A byte offset of a text is a character boundary if the text can be cut there. `truncate` cuts a
text at a byte offset and panics (`none`) inside of a character; at the greatest boundary up to an
offset it keeps the characters that fit (`truncate_floorCharBoundary`).
-/

namespace StackableOperator

/-! ### Bytes of strings -/

theorem utf8ByteSize_ofList (cs : List Char) : (String.ofList cs).utf8ByteSize = utf8Size cs := by
  induction cs with
  | nil => rfl
  | cons c cs ih =>
    have hcons : String.ofList (c :: cs) = String.singleton c ++ String.ofList cs := by
      apply String.toList_inj.mp
      simp
    rw [hcons, String.utf8ByteSize_append, String.utf8ByteSize_singleton, ih, utf8Size_cons]

theorem utf8ByteSize_eq_utf8Size (s : String) : s.utf8ByteSize = utf8Size s.toList := by
  rw [← utf8ByteSize_ofList, String.ofList_toList]

/-- ASCII characters have one byte each. -/
theorem utf8Size_eq_length {cs : List Char} (h : ∀ c ∈ cs, c.toNat < 128) :
    utf8Size cs = cs.length := by
  have hone : cs.map Char.utf8Size = cs.map fun _ => 1 := by
    apply List.map_congr_left
    intro c hc
    have hle : c.toNat ≤ 127 := Nat.le_of_lt_succ (h c hc)
    exact Char.utf8Size_eq_one_iff.mpr hle
  rw [utf8Size, hone, List.map_const', List.sum_replicate, smul_eq_mul, mul_one]

/-- A string of ASCII characters has one byte for each. -/
theorem utf8ByteSize_eq_length {s : String} (h : ∀ c ∈ s.toList, c.toNat < 128) :
    s.utf8ByteSize = s.length := by
  rw [utf8ByteSize_eq_utf8Size, utf8Size_eq_length h, String.length_toList]

/-! ### Cutting a text -/

/-- `str::is_char_boundary` -/
def isCharBoundary (cs : List Char) (i : ℕ) : Bool := (splitAtByte cs i).isSome

/-- The greatest character boundary up to an offset. -/
def floorCharBoundary (cs : List Char) (i : ℕ) : ℕ :=
  Nat.findGreatest (fun j => isCharBoundary cs j = true) i

/-- `String::truncate` -/
def truncate (cs : List Char) (n : ℕ) : Option (List Char) :=
  if utf8Size cs ≤ n then some cs else (splitAtByte cs n).map Prod.fst

/-- The first characters of a text that fit into some bytes. -/
def fitting : ℕ → List Char → List Char
  | _, [] => []
  | n, c :: cs => if c.utf8Size ≤ n then c :: fitting (n - c.utf8Size) cs else []

theorem fitting_isPrefix (n : ℕ) (cs : List Char) : fitting n cs <+: cs := by
  induction cs generalizing n with
  | nil => exact List.nil_prefix
  | cons c cs ih =>
    rw [fitting]
    split
    · exact (List.prefix_cons_inj c).mpr (ih _)
    · exact List.nil_prefix

theorem utf8Size_fitting_le (n : ℕ) (cs : List Char) : utf8Size (fitting n cs) ≤ n := by
  induction cs generalizing n with
  | nil => exact Nat.zero_le n
  | cons c cs ih =>
    rw [fitting]
    split
    · have hrest := ih (n - c.utf8Size)
      rw [utf8Size_cons]
      omega
    · exact Nat.zero_le n

/-- **What fits is the longest prefix that does.** -/
theorem prefix_fitting {n : ℕ} {cs ds : List Char} (h : ds <+: cs) (hsize : utf8Size ds ≤ n) :
    ds <+: fitting n cs := by
  induction cs generalizing n ds with
  | nil => exact h
  | cons c cs ih =>
    match ds with
    | [] => exact List.nil_prefix
    | d :: ds =>
      obtain ⟨rfl, htail⟩ := List.cons_prefix_cons.mp h
      rw [utf8Size_cons] at hsize
      rw [fitting, if_pos (by omega)]
      exact (List.prefix_cons_inj d).mpr (ih htail (by omega))

theorem fitting_eq_self {n : ℕ} {cs : List Char} (h : utf8Size cs ≤ n) : fitting n cs = cs :=
  (fitting_isPrefix n cs).eq_of_length_le (prefix_fitting (List.prefix_refl cs) h).length_le

/-- Of ASCII characters, as many fit as there are bytes. -/
theorem fitting_eq_take {n : ℕ} {cs : List Char} (h : ∀ c ∈ cs, c.toNat < 128) :
    fitting n cs = cs.take n := by
  induction cs generalizing n with
  | nil => rw [fitting, List.take_nil]
  | cons c cs ih =>
    rw [List.forall_mem_cons] at h
    have hone : c.utf8Size = 1 := Char.utf8Size_eq_one_iff.mpr (Nat.le_of_lt_succ h.1)
    rw [fitting, hone]
    match n with
    | 0 => rfl
    | n + 1 => rw [if_pos (by omega), Nat.add_sub_cancel, ih h.2, List.take_succ_cons]

/-- The parts of a text that is cut at an offset. -/
theorem append_eq_of_splitAtByte {cs l r : List Char} {i : ℕ}
    (h : splitAtByte cs i = some (l, r)) : cs = l ++ r ∧ utf8Size l = i := by
  induction cs generalizing i l with
  | nil =>
    match i with
    | 0 =>
      obtain ⟨rfl, rfl⟩ := Prod.mk.inj (Option.some.inj h)
      exact ⟨rfl, rfl⟩
    | i + 1 => cases h
  | cons c cs ih =>
    match i with
    | 0 =>
      obtain ⟨rfl, rfl⟩ := Prod.mk.inj (Option.some.inj h)
      exact ⟨rfl, rfl⟩
    | i + 1 =>
      rw [splitAtByte] at h
      split at h
      · obtain ⟨⟨l', r'⟩, hsplit, heq⟩ := Option.map_eq_some_iff.mp h
        obtain ⟨rfl, rfl⟩ := Prod.mk.inj heq
        obtain ⟨rfl, hsize⟩ := ih hsplit
        refine ⟨rfl, ?_⟩
        rw [utf8Size_cons, hsize]
        omega
      · cases h

/-- What fits ends at the greatest character boundary. -/
theorem floorCharBoundary_eq (cs : List Char) (n : ℕ) :
    floorCharBoundary cs n = utf8Size (fitting n cs) := by
  obtain ⟨rest, hrest⟩ := fitting_isPrefix n cs
  refine (Nat.findGreatest_eq_iff).mpr ⟨utf8Size_fitting_le n cs, fun _ => ?_, ?_⟩
  · have hsplit := splitAtByte_append (fitting n cs) rest
    rw [hrest] at hsplit
    rw [isCharBoundary, hsplit]
    rfl
  · intro k hlt hle hboundary
    obtain ⟨⟨l, r⟩, hsplit⟩ := Option.isSome_iff_exists.mp hboundary
    obtain ⟨hcs, hsize⟩ := append_eq_of_splitAtByte hsplit
    have hprefix : l <+: fitting n cs := prefix_fitting ⟨r, hcs.symm⟩ (by omega)
    obtain ⟨more, hmore⟩ := hprefix
    rw [← hmore, utf8Size_append] at hlt
    omega

/-- **Truncating at a character boundary** does not panic and keeps what fits. -/
theorem truncate_floorCharBoundary (cs : List Char) (n : ℕ) :
    truncate cs (floorCharBoundary cs n) = some (fitting n cs) := by
  obtain ⟨rest, hrest⟩ := fitting_isPrefix n cs
  rw [floorCharBoundary_eq, truncate]
  split
  · rename_i hle
    have hall : fitting n cs = cs :=
      fitting_eq_self (hle.trans (utf8Size_fitting_le n cs))
    rw [hall]
  · have hsplit := splitAtByte_append (fitting n cs) rest
    rw [hrest] at hsplit
    rw [hsplit]
    rfl

/-- Truncating ASCII characters. -/
theorem truncate_eq_take {cs : List Char} (h : ∀ c ∈ cs, c.toNat < 128) {n : ℕ}
    (hn : n ≤ cs.length) : truncate cs n = some (cs.take n) := by
  have hboundary : floorCharBoundary cs n = n := by
    rw [floorCharBoundary_eq, fitting_eq_take h,
      utf8Size_eq_length fun c hc => h c (List.mem_of_mem_take hc), List.length_take]
    omega
  have htruncate := truncate_floorCharBoundary cs n
  rw [hboundary, fitting_eq_take h] at htruncate
  exact htruncate

end StackableOperator
