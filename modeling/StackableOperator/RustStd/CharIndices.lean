import Mathlib

/-!
# Characters at their byte offsets

`charIndices` lists the characters of a text with the byte offsets where they begin, and `slice?`
cuts a text at byte offsets, which panics (`none`) at offsets inside of a character. `takeGroup`
reads the next characters of a class in this way. `takeGroup_charIndices` says that it never
panics, and that it reads the longest group.
-/

namespace StackableOperator

/-- The bytes of some characters. -/
def utf8Size (cs : List Char) : ℕ := (cs.map Char.utf8Size).sum

/-- The characters and their byte offsets, of a text that begins at an offset. -/
def charIndices : List Char → ℕ → List (ℕ × Char)
  | [], _ => []
  | c :: cs, i => (i, c) :: charIndices cs (i + c.utf8Size)

/-- Split a text at a byte offset. -/
def splitAtByte : List Char → ℕ → Option (List Char × List Char)
  | cs, 0 => some ([], cs)
  | [], _ + 1 => none
  | c :: cs, i + 1 =>
    if c.utf8Size ≤ i + 1 then
      (splitAtByte cs (i + 1 - c.utf8Size)).map fun e => (c :: e.1, e.2)
    else none

/-- The text between two byte offsets. -/
def slice? (input : List Char) (first last : ℕ) : Option (List Char) := do
  let e ← splitAtByte input last
  let e' ← splitAtByte e.1 first
  return e'.2

/-- The next group of characters of a class, if there is one, and the characters behind it. -/
def takeGroup (input : List Char) (f : Char → Bool) (chars : List (ℕ × Char)) :
    Option (Option (List Char) × List (ℕ × Char)) :=
  match chars with
  | [] => some (none, [])
  | (first, _) :: _ =>
    match (chars.takeWhile fun e => f e.2).getLast? with
    | none => some (none, chars)
    | some (last, lastChar) =>
      (slice? input first (last + lastChar.utf8Size)).map fun group =>
        (some group, chars.dropWhile fun e => f e.2)

/-! ### Offsets -/

@[simp] theorem utf8Size_nil : utf8Size [] = 0 := rfl

@[simp] theorem utf8Size_cons (c : Char) (cs : List Char) :
    utf8Size (c :: cs) = c.utf8Size + utf8Size cs := by
  simp [utf8Size]

@[simp] theorem utf8Size_append (cs ds : List Char) :
    utf8Size (cs ++ ds) = utf8Size cs + utf8Size ds := by
  simp [utf8Size]

theorem splitAtByte_append (cs ds : List Char) :
    splitAtByte (cs ++ ds) (utf8Size cs) = some (cs, ds) := by
  induction cs with
  | nil => simp [splitAtByte]
  | cons c cs ih =>
    have hpos := c.utf8Size_pos
    obtain ⟨n, hn⟩ : ∃ n, utf8Size (c :: cs) = n + 1 := ⟨utf8Size (c :: cs) - 1, by
      rw [utf8Size_cons]
      omega⟩
    rw [List.cons_append, hn, splitAtByte, ← hn, if_pos (by rw [utf8Size_cons]; omega),
      utf8Size_cons, Nat.add_sub_cancel_left, ih, Option.map_some]

/-- Cutting at the offsets of the parts of a text gives the part in between. -/
theorem slice?_append (cs group rest : List Char) :
    slice? (cs ++ (group ++ rest)) (utf8Size cs) (utf8Size cs + utf8Size group) = some group := by
  have hlast := splitAtByte_append (cs ++ group) rest
  rw [utf8Size_append, List.append_assoc] at hlast
  rw [slice?, hlast, Option.bind_eq_bind, Option.bind_some]
  dsimp only
  rw [splitAtByte_append]
  rfl

theorem map_snd_charIndices (cs : List Char) (i : ℕ) : (charIndices cs i).map Prod.snd = cs := by
  induction cs generalizing i with
  | nil => rfl
  | cons c cs ih => rw [charIndices, List.map_cons, ih]

theorem charIndices_append (cs ds : List Char) (i : ℕ) :
    charIndices (cs ++ ds) i = charIndices cs i ++ charIndices ds (i + utf8Size cs) := by
  induction cs generalizing i with
  | nil => simp [charIndices]
  | cons c cs ih => rw [List.cons_append, charIndices, ih, charIndices, List.cons_append,
      utf8Size_cons, Nat.add_assoc]

theorem forall_mem_charIndices {f : Char → Bool} {cs : List Char} (h : ∀ c ∈ cs, f c = true)
    (i : ℕ) : ∀ e ∈ charIndices cs i, f e.2 = true := by
  intro e he
  refine h e.2 ?_
  rw [← map_snd_charIndices cs i]
  exact List.mem_map_of_mem he

/-- The last character of a text ends where the text ends. -/
theorem getLast?_charIndices {cs : List Char} (hne : cs ≠ []) (i : ℕ) :
    ∃ last c, (charIndices cs i).getLast? = some (last, c) ∧
      last + c.utf8Size = i + utf8Size cs := by
  obtain ⟨front, c, rfl⟩ := (List.eq_nil_or_concat' cs).resolve_left hne
  refine ⟨i + utf8Size front, c, ?_, ?_⟩
  · rw [charIndices_append]
    exact List.getLast?_concat
  · rw [utf8Size_append, utf8Size_cons, utf8Size_nil]
    omega

theorem head?_dropWhile_eq_false (f : Char → Bool) (cs : List Char) :
    ∀ c ∈ (cs.dropWhile f).head?, f c = false := by
  intro c hc
  have h := List.head?_dropWhile_not f cs
  rw [Option.mem_def.mp hc] at h
  simpa using h

/-- What takes part in a group when characters are taken with their offsets. -/
theorem takeWhile_charIndices {f : Char → Bool} {group rest : List Char}
    (hgroup : ∀ c ∈ group, f c = true) (hrest : ∀ c ∈ rest.head?, f c = false) (i : ℕ) :
    ((charIndices (group ++ rest) i).takeWhile fun e => f e.2) = charIndices group i ∧
      ((charIndices (group ++ rest) i).dropWhile fun e => f e.2) =
        charIndices rest (i + utf8Size group) := by
  rw [charIndices_append, List.takeWhile_append_of_pos (forall_mem_charIndices hgroup i),
    List.dropWhile_append_of_pos (forall_mem_charIndices hgroup i)]
  match rest with
  | [] => simp [charIndices]
  | c :: rest =>
    have hc : f c = false := hrest c rfl
    simp [charIndices, hc]

/-- **The next group** is the longest one, and reading it does not panic. -/
theorem takeGroup_charIndices (f : Char → Bool) (front group rest : List Char)
    (hgroup : ∀ c ∈ group, f c = true) (hrest : ∀ c ∈ rest.head?, f c = false) :
    takeGroup (front ++ (group ++ rest)) f (charIndices (group ++ rest) (utf8Size front)) =
      some (if group = [] then none else some group,
        charIndices rest (utf8Size (front ++ group))) := by
  obtain ⟨htake, hdrop⟩ := takeWhile_charIndices hgroup hrest (utf8Size front)
  match group, rest with
  | [], [] => simp [takeGroup, charIndices]
  | [], c :: rest =>
    have hc : f c = false := hrest c rfl
    simp [takeGroup, charIndices, hc]
  | c :: group, rest =>
    obtain ⟨last, lastChar, hlast, hend⟩ :=
      getLast?_charIndices (List.cons_ne_nil c group) (utf8Size front)
    have hcons : charIndices (c :: group ++ rest) (utf8Size front) = (utf8Size front, c) ::
        charIndices (group ++ rest) (utf8Size front + c.utf8Size) := rfl
    rw [hcons] at htake hdrop ⊢
    simp only [takeGroup, htake, hdrop, hlast, hend, slice?_append, Option.map_some,
      if_neg (List.cons_ne_nil c group), utf8Size_append]

end StackableOperator
