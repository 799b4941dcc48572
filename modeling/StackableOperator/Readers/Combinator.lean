import Mathlib
import StackableOperator.RustStd.ParseUnsigned
import StackableOperator.ForMathlib.SplitOn

/-!
# Parser combinators

A parser takes a value off the front of a text, or it fails. `Reads p text a stop` says that `p`
reads `text` as `a`, if what follows satisfies `stop`; the lemmas about it go along the combinators.
-/

namespace StackableOperator

/-- A parser keeps the rest of the text as its state. -/
abbrev TextParser (α : Type) : Type := StateT (List Char) Option α

namespace TextParser

variable {α β : Type}

/-- Exactly this text. -/
def literal (text : List Char) : TextParser Unit := fun s =>
  (text.isPrefixOf? s).map fun rest => ((), rest)

/-- All characters of a class at the front. -/
def takeWhile (p : Char → Bool) : TextParser (List Char) := fun s =>
  some (s.takeWhile p, s.dropWhile p)

/-- All characters of a class at the front, at least one. -/
def takeWhile1 (p : Char → Bool) : TextParser (List Char) := fun s =>
  if (s.takeWhile p).isEmpty then none else some (s.takeWhile p, s.dropWhile p)

/-- Values with separators in front of them, as long as both can be read. -/
def separatedRest (p : TextParser α) (sep : TextParser β) :
    ℕ → List Char → List α × List Char
  | 0, s => ([], s)
  | fuel + 1, s =>
    match (sep >>= fun _ => p).run s with
    | none => ([], s)
    | some (a, rest) => (separatedRest p sep fuel rest).map (a :: ·) id

/-- At least `min` values with separators between them. Every round reads at least one
character. -/
def separated (min : ℕ) (p : TextParser α) (sep : TextParser β) : TextParser (List α) := fun s =>
  match p.run s with
  | none => if min = 0 then some ([], s) else none
  | some (a, rest) =>
    let (as, rest) := separatedRest p sep rest.length rest
    if min ≤ (a :: as).length then some (a :: as, rest) else none

/-- A parser whose value is converted. -/
def tryMap (p : TextParser α) (f : α → Option β) : TextParser β := do
  let a ← p
  StateT.lift (f a)

/-- Read the complete text. -/
def parse (p : TextParser α) (s : List Char) : Option α :=
  match p.run s with
  | some (a, []) => some a
  | _ => none

/-! ### What parsers read -/

/-- The parser reads this text as the value, if it is followed by a text with the property. -/
def Reads (p : TextParser α) (text : List Char) (a : α) (stop : List Char → Prop) : Prop :=
  ∀ rest, stop rest → p.run (text ++ rest) = some (a, rest)

/-- The text does not begin with a character of the class. -/
def EndsRun (p : Char → Bool) (s : List Char) : Prop := ∀ c ∈ s.head?, p c = false

variable {p : TextParser α} {text text' : List Char} {a : α} {stop stop' : List Char → Prop}

theorem Reads.bind {f : α → TextParser β} {b : β} (hp : Reads p text a stop)
    (hf : Reads (f a) text' b stop') (h : ∀ rest, stop' rest → stop (text' ++ rest)) :
    Reads (p >>= f) (text ++ text') b stop' := by
  intro rest hrest
  rw [StateT.run_bind, List.append_assoc, hp _ (h rest hrest)]
  exact hf rest hrest

theorem Reads.bind_pure {f : α → β} (hp : Reads p text a stop) :
    Reads (p >>= fun a => pure (f a)) text (f a) stop := by
  intro rest hrest
  rw [StateT.run_bind, hp rest hrest]
  rfl

theorem Reads.tryMap {f : α → Option β} {b : β} (hp : Reads p text a stop) (hf : f a = some b) :
    Reads (p.tryMap f) text b stop := by
  intro rest hrest
  rw [TextParser.tryMap, StateT.run_bind, hp rest hrest]
  change (StateT.lift (f a)).run rest = some (b, rest)
  rw [hf]
  rfl

theorem Reads.parse (hp : Reads p text a stop) (hstop : stop []) : p.parse text = some a := by
  have hrun := hp [] hstop
  rw [List.append_nil] at hrun
  rw [TextParser.parse, hrun]

theorem reads_literal (text : List Char) : Reads (literal text) text () fun _ => True := by
  intro rest _
  change (text.isPrefixOf? (text ++ rest)).map _ = _
  rw [isPrefixOf?_append]
  rfl

theorem run_literal_bind_eq_none {f : Unit → TextParser β} {c d : Char} {s : List Char}
    (h : c ≠ d) : (literal [c] >>= f).run (d :: s) = none := by
  have hnone : (literal [c]).run (d :: s) = none := by
    change ([c].isPrefixOf? (d :: s)).map _ = none
    simp [List.isPrefixOf?, h]
  rw [StateT.run_bind, hnone]
  rfl

theorem parse_eq_none (h : p.run text = none) : p.parse text = none := by
  rw [TextParser.parse, h]

theorem dropWhile_append_of_endsRun {p : Char → Bool} {s rest : List Char}
    (hs : ∀ c ∈ s, p c = true) (hrest : EndsRun p rest) : (s ++ rest).dropWhile p = rest := by
  rw [List.dropWhile_append_of_pos hs]
  match rest with
  | [] => rfl
  | c :: rest => exact List.dropWhile_cons_of_neg (by simp [hrest c rfl])

theorem reads_takeWhile {p : Char → Bool} (h : ∀ c ∈ text, p c = true) :
    Reads (takeWhile p) text text (EndsRun p) := by
  intro rest hrest
  change some _ = _
  rw [takeWhile_append_of_head? h hrest, dropWhile_append_of_endsRun h hrest]

theorem reads_takeWhile1 {p : Char → Bool} (h : ∀ c ∈ text, p c = true) (hne : text ≠ []) :
    Reads (takeWhile1 p) text text (EndsRun p) := by
  intro rest hrest
  change (if _ then _ else _) = _
  rw [takeWhile_append_of_head? h hrest, dropWhile_append_of_endsRun h hrest,
    if_neg (by simpa using hne)]

/-- A value behind a separator. -/
structure Separated (p : TextParser α) (sep : TextParser β) (stop : List Char → Prop)
    (text : List Char) (a : α) : Prop where
  reads : Reads (sep >>= fun _ => p) text a stop
  ne_nil : text ≠ []
  stop : ∀ rest, stop (text ++ rest)

theorem separatedRest_append {sep : TextParser β} {items : List (List Char × α)}
    (hitems : ∀ item ∈ items, Separated p sep stop item.1 item.2) {rest : List Char}
    (hrest : stop rest) (hsep : (sep >>= fun _ => p).run rest = none) {fuel : ℕ}
    (hfuel : items.length ≤ fuel) :
    separatedRest p sep fuel (items.flatMap Prod.fst ++ rest) = (items.map Prod.snd, rest) := by
  induction items generalizing fuel with
  | nil =>
    match fuel with
    | 0 => rfl
    | fuel + 1 =>
      rw [List.flatMap_nil, List.nil_append, separatedRest, hsep]
      rfl
  | cons item items ih =>
    obtain ⟨hitem, htail⟩ := List.forall_mem_cons.mp hitems
    obtain ⟨fuel, rfl⟩ := Nat.exists_eq_add_of_le' (Nat.one_le_of_lt hfuel)
    have hstop : stop (items.flatMap Prod.fst ++ rest) := by
      match items with
      | [] => exact hrest
      | next :: _ =>
        rw [List.flatMap_cons, List.append_assoc]
        exact (List.forall_mem_cons.mp htail).1.stop _
    rw [List.flatMap_cons, List.append_assoc, separatedRest, hitem.reads _ hstop]
    dsimp only
    rw [ih htail (Nat.le_of_succ_le_succ hfuel)]
    rfl

/-- **A list of values with separators between them.** -/
theorem reads_separated {sep : TextParser β} {items : List (List Char × α)} {min : ℕ}
    (hfirst : Reads p text a stop) (hitems : ∀ item ∈ items, Separated p sep stop item.1 item.2)
    (hmin : min ≤ items.length + 1) :
    Reads (separated min p sep) (text ++ items.flatMap Prod.fst) (a :: items.map Prod.snd)
      fun rest => stop rest ∧ (sep >>= fun _ => p).run rest = none := by
  rintro rest ⟨hrest, hsep⟩
  have hstop : stop (items.flatMap Prod.fst ++ rest) := by
    match items with
    | [] => exact hrest
    | next :: _ =>
      rw [List.flatMap_cons, List.append_assoc]
      exact (List.forall_mem_cons.mp hitems).1.stop _
  have hlength : items.length ≤ (items.flatMap Prod.fst ++ rest).length := by
    have hsum : (items.map fun _ => 1).sum ≤ (items.map fun item => item.1.length).sum :=
      List.sum_le_sum fun item hitem => List.length_pos_of_ne_nil (hitems item hitem).ne_nil
    rw [List.length_append, List.length_flatMap]
    rw [List.map_const', List.sum_replicate, smul_eq_mul, mul_one] at hsum
    omega
  rw [StateT.run, separated, List.append_assoc]
  dsimp only
  rw [hfirst _ hstop]
  dsimp only
  rw [separatedRest_append hitems hrest hsep hlength]
  exact if_pos (by simpa using hmin)

end TextParser

end StackableOperator
