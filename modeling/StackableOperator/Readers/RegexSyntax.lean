import Mathlib

/-!
# The syntax of regular expressions with anchors

`RegexTree` are regular expressions with look-around assertions, and `RegexTree.Matches` says which
part of a text they match. `RegexGrammar.parse` reads a tree from left to right: alternatives are
separated by `|`, which binds weaker than concatenation, repetitions apply to the piece before them,
and groups are kept on a stack. All other items (escapes, classes, groups with flags and so on) are
read by a function of the grammar, of which only is required that it does not care about a dollar
sign at the end of the text.

Anchors in front of the text become the first piece of the first alternative (`run_addFirst`), and
dollar signs behind the text become the last pieces of the last alternative, unless the text ends in
a backslash or in a comment (`run_append_dollars`).
-/

namespace StackableOperator

/-! ### Matches -/

/-- A regular expression. -/
inductive RegexTree : Type
  | empty
  | char (p : Char → Bool)
  /-- A condition on the texts before and after the current position. -/
  | look (p : List Char → List Char → Bool)
  | concat (r s : RegexTree)
  | alternate (r s : RegexTree)
  | repeated (min : ℕ) (max : Option ℕ) (r : RegexTree)

/-- Matches one after the other. -/
def Times (M : List Char → List Char → List Char → Prop) :
    ℕ → List Char → List Char → List Char → Prop
  | 0, _, w, _ => w = []
  | n + 1, b, w, a => ∃ u v, w = u ++ v ∧ M b u (v ++ a) ∧ Times M n (b ++ u) v a

namespace RegexTree

/-- The expression matches `w` between the texts `b` and `a`. -/
def Matches : RegexTree → List Char → List Char → List Char → Prop
  | empty, _, w, _ => w = []
  | char p, _, w, _ => ∃ c, w = [c] ∧ p c = true
  | look p, b, w, a => w = [] ∧ p b a = true
  | concat r s, b, w, a => ∃ u v, w = u ++ v ∧ r.Matches b u (v ++ a) ∧ s.Matches (b ++ u) v a
  | alternate r s, b, w, a => r.Matches b w a ∨ s.Matches b w a
  | repeated min max r, b, w, a =>
    ∃ n, min ≤ n ∧ (∀ m ∈ max, n ≤ m) ∧ Times r.Matches n b w a

/-- Some part of the text is matched. -/
def IsMatch (r : RegexTree) (text : List Char) : Prop :=
  ∃ b w a, text = b ++ w ++ a ∧ r.Matches b w a

/-- The complete text is matched. -/
def FullMatch (r : RegexTree) (text : List Char) : Prop := r.Matches [] text []

end RegexTree

/-! ### Alternatives -/

/-- A piece of a concatenation. There is none where flags were set, which cannot be repeated. -/
abbrev Piece : Type := Option RegexTree

/-- A concatenation, with its last piece first. -/
def concatTree : List Piece → RegexTree
  | [] => .empty
  | piece :: pieces => .concat (concatTree pieces) (piece.getD .empty)

/-- Change the last item of a list. -/
def mapLast {α : Type*} (f : α → α) : List α → List α
  | [] => []
  | [a] => [f a]
  | a :: b :: l => a :: mapLast f (b :: l)

/-- Alternatives that are read. The last piece and the last alternative come first. -/
structure Alternatives where
  concat : List Piece
  finished : List (List Piece)

namespace Alternatives

def all (self : Alternatives) : List (List Piece) := self.concat :: self.finished

def tree (self : Alternatives) : RegexTree :=
  self.finished.foldr (fun pieces r => .alternate (concatTree pieces) r) (concatTree self.concat)

theorem matches_tree_iff {self : Alternatives} {b w a : List Char} :
    self.tree.Matches b w a ↔ ∃ pieces ∈ self.all, (concatTree pieces).Matches b w a := by
  obtain ⟨concat, finished⟩ := self
  simp only [tree, all, List.exists_mem_cons_iff]
  induction finished with
  | nil => simp
  | cons pieces finished ih =>
    rw [List.foldr_cons, RegexTree.Matches, ih, List.exists_mem_cons_iff]
    tauto

def new : Alternatives := ⟨[], []⟩

def push (self : Alternatives) (piece : Piece) : Alternatives :=
  ⟨piece :: self.concat, self.finished⟩

/-- Begin the next alternative. -/
def bar (self : Alternatives) : Alternatives := ⟨[], self.concat :: self.finished⟩

/-- Add a piece at the front of the first alternative. -/
def addFirst (self : Alternatives) (piece : Piece) : Alternatives :=
  match self.finished with
  | [] => ⟨self.concat ++ [piece], []⟩
  | pieces :: finished =>
    ⟨self.concat, mapLast (fun pieces => pieces ++ [piece]) (pieces :: finished)⟩

/-- Repeat the last piece. -/
def repeatLast (self : Alternatives) (min : ℕ) (max : Option ℕ) : Option Alternatives :=
  match self.concat with
  | some r :: pieces => some ⟨some (.repeated min max r) :: pieces, self.finished⟩
  | _ => none

end Alternatives

/-! ### Parsing -/

/-- The flags that can be set within an expression. -/
structure Flags where
  caseInsensitive : Bool
  multiLine : Bool
  dotMatchesNewLine : Bool
  swapGreed : Bool
  unicode : Bool
  crlf : Bool
  ignoreWhitespace : Bool

def Flags.new : Flags where
  caseInsensitive := false
  multiLine := false
  dotMatchesNewLine := false
  swapGreed := false
  unicode := true
  crlf := false
  ignoreWhitespace := false

/-- `^` -/
def Flags.startAnchor (flags : Flags) (b a : List Char) : Bool :=
  b.isEmpty || flags.multiLine && (b.getLast? == some '\n' ||
    flags.crlf && b.getLast? == some '\r' && a.head? != some '\n')

/-- `$` -/
def Flags.endAnchor (flags : Flags) (b a : List Char) : Bool :=
  a.isEmpty || flags.multiLine && (a.head? == some '\r' && flags.crlf ||
    a.head? == some '\n' && !(flags.crlf && b.getLast? == some '\r'))

/-- What is read at once. -/
inductive Token : Type
  | piece (r : RegexTree)
  | bar
  /-- A group, with the flags that hold in it. -/
  | opened (flags : Flags)
  | closed
  /-- Flags for the rest of the group. -/
  | setFlags (flags : Flags)
  | repeated (min : ℕ) (max : Option ℕ)
  /-- White space in verbose mode. -/
  | nothing

/-- The alternatives of the current group, and those of the groups around it with the flags that
hold there again. -/
structure ParserState where
  flags : Flags
  alternatives : Alternatives
  outer : List (Alternatives × Flags)

namespace ParserState

def new : ParserState := ⟨.new, .new, []⟩

def push (self : ParserState) (piece : Piece) : ParserState :=
  { self with alternatives := self.alternatives.push piece }

/-- Add a piece at the front of the whole expression. -/
def addFirst (self : ParserState) (piece : Piece) : ParserState :=
  match self.outer with
  | [] => { self with alternatives := self.alternatives.addFirst piece }
  | group :: outer =>
    { self with outer := mapLast (fun group => (group.1.addFirst piece, group.2)) (group :: outer) }

/-- What a token does. -/
def apply (self : ParserState) : Token → Option ParserState
  | .piece r => some (self.push (some r))
  | .bar => some { self with alternatives := self.alternatives.bar }
  | .opened flags => some ⟨flags, .new, (self.alternatives, self.flags) :: self.outer⟩
  | .closed =>
    match self.outer with
    | [] => none
    | (alternatives, flags) :: outer =>
      some ⟨flags, alternatives.push (some self.alternatives.tree), outer⟩
  | .setFlags flags => some { self.push none with flags := flags }
  | .repeated min max =>
    (self.alternatives.repeatLast min max).map fun alternatives =>
      { self with alternatives := alternatives }
  | .nothing => some self

end ParserState

/-- The items of a grammar beside anchors, alternatives, comments and simple repetitions. An item
begins with a character and may take more of the text behind it. -/
structure RegexGrammar where
  item : Flags → Char → List Char → Option (Token × List Char)
  length_le : ∀ {flags c cs token rest}, item flags c cs = some (token, rest) →
    rest.length ≤ cs.length
  /-- A dollar sign at the end does not belong to the item before it, unless it is escaped. -/
  item_append_dollar : ∀ flags c cs, (c = '\\' → cs ≠ []) →
    item flags c (cs ++ ['$']) = (item flags c cs).map fun t => (t.1, t.2 ++ ['$'])
  item_escaped_dollar : ∀ flags cs,
    item flags '\\' ('$' :: cs) = some (.piece (.char (· = '$')), cs)
  item_backslash : ∀ flags, item flags '\\' [] = none

namespace RegexGrammar

variable (g : RegexGrammar)

/-- A question mark behind a repetition makes it lazy. -/
def dropLazy : List Char → List Char
  | '?' :: cs => cs
  | cs => cs

/-- The text behind a comment. -/
def dropComment (cs : List Char) : List Char := (cs.dropWhile (· ≠ '\n')).tail

def readToken (flags : Flags) (c : Char) (cs : List Char) : Option (Token × List Char) :=
  if c = '^' then some (.piece (.look flags.startAnchor), cs)
  else if c = '$' then some (.piece (.look flags.endAnchor), cs)
  else if c = '|' then some (.bar, cs)
  else if c = ')' then some (.closed, cs)
  else if c = '*' then some (.repeated 0 none, dropLazy cs)
  else if c = '+' then some (.repeated 1 none, dropLazy cs)
  else if c = '?' then some (.repeated 0 (some 1), dropLazy cs)
  else if c = '#' ∧ flags.ignoreWhitespace then some (.nothing, dropComment cs)
  else g.item flags c cs

theorem length_dropLazy_le (cs : List Char) : (dropLazy cs).length ≤ cs.length := by
  unfold dropLazy
  split <;> simp

theorem length_dropComment_le (cs : List Char) : (dropComment cs).length ≤ cs.length := by
  rw [dropComment, List.length_tail]
  exact (Nat.sub_le _ _).trans (List.length_dropWhile_le _ _)

theorem length_le_of_readToken {flags : Flags} {c : Char} {cs rest : List Char} {token : Token}
    (h : g.readToken flags c cs = some (token, rest)) : rest.length ≤ cs.length := by
  unfold readToken at h
  split_ifs at h
  all_goals first
    | exact g.length_le h
    | obtain ⟨-, rfl⟩ := Prod.mk.inj (Option.some.inj h)
      first
        | exact le_rfl
        | exact length_dropLazy_le cs
        | exact length_dropComment_le cs

/-- Read the whole text. -/
def run (state : ParserState) : List Char → Option ParserState
  | [] => some state
  | c :: cs =>
    match _h : g.readToken state.flags c cs with
    | none => none
    | some (token, rest) =>
      match state.apply token with
      | none => none
      | some next => run next rest
termination_by cs => cs.length
decreasing_by
  exact Nat.lt_succ_of_le (g.length_le_of_readToken _h)

/-- How a text ends. -/
inductive Ending : Type
  | boundary
  /-- A backslash is left. -/
  | backslash
  | comment
  deriving DecidableEq

/-- Read a text up to an item that it does not complete. -/
def runOpen (state : ParserState) : List Char → Option (ParserState × Ending)
  | [] => some (state, .boundary)
  | c :: cs =>
    if c = '\\' ∧ cs = [] then some (state, .backslash)
    else if c = '#' ∧ state.flags.ignoreWhitespace ∧ '\n' ∉ cs then some (state, .comment)
    else
      match _h : g.readToken state.flags c cs with
      | none => none
      | some (token, rest) =>
        match state.apply token with
        | none => none
        | some next => runOpen next rest
termination_by cs => cs.length
decreasing_by
  exact Nat.lt_succ_of_le (g.length_le_of_readToken _h)

/-- The tree of an expression. All groups must be closed. -/
def parse (text : List Char) : Option RegexTree :=
  match g.run .new text with
  | some ⟨_, alternatives, []⟩ => some alternatives.tree
  | _ => none

/-! ### Steps -/

theorem run_nil (state : ParserState) : g.run state [] = some state := by
  rw [run]

theorem run_cons (state : ParserState) (c : Char) (cs : List Char) :
    g.run state (c :: cs) = (g.readToken state.flags c cs).bind fun t =>
      (state.apply t.1).bind fun next => g.run next t.2 := by
  rw [run]
  split
  · next h => rw [h, Option.bind_none]
  · next token rest h =>
    rw [h, Option.bind_some]
    cases state.apply token <;> rfl

theorem runOpen_nil (state : ParserState) : g.runOpen state [] = some (state, .boundary) := by
  rw [runOpen]

theorem runOpen_cons {state : ParserState} {c : Char} {cs : List Char}
    (hbackslash : ¬(c = '\\' ∧ cs = []))
    (hcomment : ¬(c = '#' ∧ state.flags.ignoreWhitespace = true ∧ '\n' ∉ cs)) :
    g.runOpen state (c :: cs) = (g.readToken state.flags c cs).bind fun t =>
      (state.apply t.1).bind fun next => g.runOpen next t.2 := by
  rw [runOpen, if_neg hbackslash, if_neg hcomment]
  split
  · next h => rw [h, Option.bind_none]
  · next token rest h =>
    rw [h, Option.bind_some]
    cases state.apply token <;> rfl

/-! ### Dollar signs behind a text -/

theorem dropLazy_append_dollar (cs : List Char) :
    dropLazy (cs ++ ['$']) = dropLazy cs ++ ['$'] := by
  match cs with
  | [] => rfl
  | c :: cs =>
    unfold dropLazy
    split
    · next h =>
      obtain ⟨rfl, rfl⟩ := List.cons.inj h
      rfl
    · next h =>
      have hc : c ≠ '?' := by
        rintro rfl
        exact h _ rfl
      split
      · next h' => exact absurd (List.cons.inj h').1 hc
      · rfl

theorem dropComment_append_dollar {cs : List Char} (h : '\n' ∈ cs) :
    dropComment (cs ++ ['$']) = dropComment cs ++ ['$'] := by
  have hne : cs.dropWhile (· ≠ '\n') ≠ [] := by
    rw [ne_eq, List.dropWhile_eq_nil_iff]
    intro hall
    simpa using hall _ h
  rw [dropComment, dropComment, List.dropWhile_append, if_neg (by simpa using hne),
    List.tail_append_of_ne_nil hne]

variable {g}

theorem readToken_append_dollar {flags : Flags} {c : Char} {cs : List Char}
    (hbackslash : ¬(c = '\\' ∧ cs = []))
    (hcomment : ¬(c = '#' ∧ flags.ignoreWhitespace = true ∧ '\n' ∉ cs)) :
    g.readToken flags c (cs ++ ['$']) =
      (g.readToken flags c cs).map fun t => (t.1, t.2 ++ ['$']) := by
  unfold readToken
  split_ifs with _ _ _ _ _ _ _ hverbose
  all_goals try rfl
  · rw [dropLazy_append_dollar]
    rfl
  · rw [dropLazy_append_dollar]
    rfl
  · rw [dropLazy_append_dollar]
    rfl
  · have hmem : '\n' ∈ cs := by
      by_contra hmem
      exact hcomment ⟨hverbose.1, hverbose.2, hmem⟩
    rw [dropComment_append_dollar hmem]
    rfl
  · exact g.item_append_dollar flags c cs fun hc hcs => hbackslash ⟨hc, hcs⟩

/-- A run of dollar signs. -/
def dollars (n : ℕ) : List Char := List.replicate n '$'

theorem readToken_append_dollars {flags : Flags} {c : Char} {cs : List Char} (n : ℕ)
    (hbackslash : ¬(c = '\\' ∧ cs = []))
    (hcomment : ¬(c = '#' ∧ flags.ignoreWhitespace = true ∧ '\n' ∉ cs)) :
    g.readToken flags c (cs ++ dollars n) =
      (g.readToken flags c cs).map fun t => (t.1, t.2 ++ dollars n) := by
  induction n with
  | zero => simp [dollars]
  | succ n ih =>
    have hbackslash' : ¬(c = '\\' ∧ cs ++ dollars n = []) := fun h =>
      hbackslash ⟨h.1, (List.append_eq_nil_iff.mp h.2).1⟩
    have hcomment' : ¬(c = '#' ∧ flags.ignoreWhitespace = true ∧ '\n' ∉ cs ++ dollars n) :=
      fun h => hcomment ⟨h.1, h.2.1, fun hmem => h.2.2 (List.mem_append_left _ hmem)⟩
    rw [dollars, List.replicate_succ', ← List.append_assoc]
    change g.readToken flags c (cs ++ dollars n ++ ['$']) = _
    rw [readToken_append_dollar hbackslash' hcomment', ih, Option.map_map]
    congr 1
    funext t
    simp [dollars]

/-- **Dollar signs behind a text** are read after it, after a backslash, or within a comment. -/
theorem run_append_dollars (state : ParserState) (cs : List Char) (n : ℕ) :
    g.run state (cs ++ dollars n) = (g.runOpen state cs).bind fun t =>
      match t.2 with
      | .boundary => g.run t.1 (dollars n)
      | .backslash => g.run t.1 ('\\' :: dollars n)
      | .comment => some t.1 := by
  induction hlength : cs.length using Nat.strong_induction_on generalizing state cs with
  | _ length ih =>
    subst hlength
    match cs with
    | [] => rw [runOpen_nil, Option.bind_some, List.nil_append]
    | c :: cs =>
      -- a backslash at the end escapes the first dollar sign
      by_cases hbackslash : c = '\\' ∧ cs = []
      · obtain ⟨rfl, rfl⟩ := hbackslash
        rw [runOpen, if_pos ⟨rfl, rfl⟩]
        rfl
      -- an unfinished comment swallows them all
      by_cases hcomment : c = '#' ∧ state.flags.ignoreWhitespace = true ∧ '\n' ∉ cs
      · rw [runOpen, if_neg hbackslash, if_pos hcomment]
        obtain ⟨rfl, hverbose, hmem⟩ := hcomment
        have hdrop : dropComment (cs ++ dollars n) = [] := by
          have hall : (cs ++ dollars n).dropWhile (· ≠ '\n') = [] := by
            rw [List.dropWhile_eq_nil_iff]
            intro d hd
            rw [decide_eq_true_iff]
            rintro rfl
            obtain hd | hd := List.mem_append.mp hd
            · exact hmem hd
            · exact absurd (List.eq_of_mem_replicate hd) (by decide)
          rw [dropComment, hall]
          rfl
        have hread : g.readToken state.flags '#' (cs ++ dollars n) = some (.nothing, []) := by
          unfold readToken
          simp [hverbose, hdrop]
        rw [List.cons_append, run_cons, hread]
        exact g.run_nil state
      -- any other token ends before them
      rw [List.cons_append, run_cons, readToken_append_dollars n hbackslash hcomment,
        runOpen_cons g hbackslash hcomment]
      match hread : g.readToken state.flags c cs with
      | none => rfl
      | some (token, rest) =>
        simp only [Option.map_some, Option.bind_some]
        match state.apply token with
        | none => rfl
        | some next =>
          exact ih rest.length (Nat.lt_succ_of_le (g.length_le_of_readToken hread)) next rest rfl

end RegexGrammar

/-! ### Pieces in front of the expression -/

section AddFirst

variable {piece : Piece}

namespace Alternatives

theorem push_addFirst (self : Alternatives) (p : Piece) :
    (self.addFirst piece).push p = (self.push p).addFirst piece := by
  obtain ⟨concat, finished⟩ := self
  cases finished <;> rfl

theorem bar_addFirst (self : Alternatives) :
    (self.addFirst piece).bar = self.bar.addFirst piece := by
  obtain ⟨concat, finished⟩ := self
  cases finished <;> rfl

/-- Only the front of an empty alternative can be repeated that could not be repeated before. -/
theorem repeatLast_addFirst {self : Alternatives} {min : ℕ} {max : Option ℕ}
    (h : (self.finished = [] → self.concat ≠ []) ∨ (self.repeatLast min max).isSome = true) :
    (self.addFirst piece).repeatLast min max =
      (self.repeatLast min max).map fun alternatives => alternatives.addFirst piece := by
  obtain ⟨concat, finished⟩ := self
  match concat, finished with
  | [], [] => simp [repeatLast] at h
  | [], pieces :: finished => rfl
  | none :: pieces, [] => rfl
  | none :: pieces, other :: finished => rfl
  | some r :: pieces, [] => rfl
  | some r :: pieces, other :: finished => rfl

theorem all_addFirst (self : Alternatives) : (self.addFirst piece).all =
    mapLast (fun pieces => pieces ++ [piece]) self.all := by
  obtain ⟨concat, finished⟩ := self
  cases finished <;> rfl

end Alternatives

namespace ParserState

/-- There is a piece at the front of the expression, or something that cannot be repeated. -/
def HasFirst (self : ParserState) : Prop :=
  self.outer = [] → self.alternatives.finished = [] → self.alternatives.concat ≠ []

@[simp] theorem flags_addFirst (self : ParserState) : (self.addFirst piece).flags = self.flags := by
  obtain ⟨flags, alternatives, outer⟩ := self
  cases outer <;> rfl

theorem apply_addFirst {self : ParserState} {token : Token}
    (h : self.HasFirst ∨ (self.apply token).isSome = true) :
    (self.addFirst piece).apply token =
      (self.apply token).map fun state => state.addFirst piece := by
  obtain ⟨flags, alternatives, outer⟩ := self
  cases token with
  | piece r =>
    cases outer with
    | nil =>
      exact congrArg (fun a => some (ParserState.mk flags a []))
        (alternatives.push_addFirst (some r))
    | cons group outer => rfl
  | bar =>
    cases outer with
    | nil => exact congrArg (fun a => some (ParserState.mk flags a [])) alternatives.bar_addFirst
    | cons group outer => rfl
  | opened flags' => cases outer <;> rfl
  | closed =>
    match outer with
    | [] => rfl
    | [(a, f)] =>
      exact congrArg (fun a => some (ParserState.mk f a []))
        (a.push_addFirst (some alternatives.tree))
    | group :: group' :: outer => rfl
  | setFlags flags' =>
    cases outer with
    | nil =>
      exact congrArg (fun a => some (ParserState.mk flags' a [])) (alternatives.push_addFirst none)
    | cons group outer => rfl
  | repeated min max =>
    cases outer with
    | nil =>
      have hlast : (alternatives.finished = [] → alternatives.concat ≠ []) ∨
          (alternatives.repeatLast min max).isSome = true := by
        obtain h | h := h
        · exact Or.inl (h rfl)
        · exact Or.inr (by simpa [apply] using h)
      simp only [addFirst, apply, Alternatives.repeatLast_addFirst hlast, Option.map_map]
      rfl
    | cons group outer =>
      simp only [addFirst, apply, Option.map_map]
      rfl
  | nothing => cases outer <;> rfl

theorem HasFirst.apply {self next : ParserState} {token : Token} (h : self.HasFirst)
    (happly : self.apply token = some next) : next.HasFirst := by
  obtain ⟨flags, alternatives, outer⟩ := self
  cases token with
  | piece r =>
    obtain rfl := Option.some.inj happly
    exact fun _ _ => List.cons_ne_nil _ _
  | bar =>
    obtain rfl := Option.some.inj happly
    exact fun _ hfinished => absurd hfinished (List.cons_ne_nil _ _)
  | opened flags' =>
    obtain rfl := Option.some.inj happly
    exact fun houter => absurd houter (List.cons_ne_nil _ _)
  | closed =>
    match outer with
    | [] => exact absurd happly (by simp [ParserState.apply])
    | (a, f) :: outer =>
      obtain rfl := Option.some.inj happly
      exact fun _ _ => List.cons_ne_nil _ _
  | setFlags flags' =>
    obtain rfl := Option.some.inj happly
    exact fun _ _ => List.cons_ne_nil _ _
  | repeated min max =>
    obtain ⟨a, ha, rfl⟩ := Option.map_eq_some_iff.mp happly
    obtain ⟨concat, finished⟩ := alternatives
    match concat with
    | [] => exact absurd ha (by simp [Alternatives.repeatLast])
    | none :: pieces => exact absurd ha (by simp [Alternatives.repeatLast])
    | some r :: pieces =>
      obtain rfl := Option.some.inj ha
      exact fun _ _ => List.cons_ne_nil _ _
  | nothing =>
    obtain rfl := Option.some.inj happly
    exact h

end ParserState

/-- **A piece in front of the expression** does not change how the rest is read, if there is a
piece already or if the rest can be read without one. -/
theorem RegexGrammar.run_addFirst {g : RegexGrammar} (piece : Piece) {state : ParserState}
    {cs : List Char} (h : state.HasFirst ∨ (g.run state cs).isSome = true) :
    g.run (state.addFirst piece) cs = (g.run state cs).map fun state => state.addFirst piece := by
  induction hlength : cs.length using Nat.strong_induction_on generalizing state cs with
  | _ length ih =>
    subst hlength
    match cs with
    | [] => rw [run_nil, run_nil, Option.map_some]
    | c :: cs =>
      rw [run_cons] at h
      rw [run_cons, run_cons, ParserState.flags_addFirst]
      match hread : g.readToken state.flags c cs with
      | none => rfl
      | some (token, rest) =>
        rw [hread, Option.bind_some] at h
        dsimp only at h
        have htoken : state.HasFirst ∨ (state.apply token).isSome = true := by
          refine h.imp_right fun h => ?_
          obtain ⟨final, hfinal⟩ := Option.isSome_iff_exists.mp h
          obtain ⟨next, hnext, -⟩ := Option.bind_eq_some_iff.mp hfinal
          rw [hnext, Option.isSome_some]
        rw [Option.bind_some, Option.bind_some, ParserState.apply_addFirst htoken]
        match happly : state.apply token with
        | none => rfl
        | some next =>
          rw [happly, Option.bind_some] at h
          exact ih rest.length (Nat.lt_succ_of_le (g.length_le_of_readToken hread))
            (h.imp_left fun h => h.apply happly) rfl

end AddFirst

/-! ### Anchors at the ends -/

/-- A condition that holds before the text. -/
theorem matches_concatTree_append_look {p : List Char → List Char → Bool}
    (hp : ∀ a, p [] a = true) (pieces : List Piece) (w a : List Char) :
    (concatTree (pieces ++ [some (.look p)])).Matches [] w a ↔
      (concatTree pieces).Matches [] w a := by
  induction pieces generalizing w a with
  | nil =>
    change (∃ u v, w = u ++ v ∧ u = [] ∧ v = [] ∧ p ([] ++ u) a = true) ↔ w = []
    constructor
    · rintro ⟨u, v, rfl, rfl, rfl, -⟩
      rfl
    · rintro rfl
      exact ⟨[], [], rfl, rfl, rfl, hp a⟩
  | cons piece pieces ih =>
    rw [List.cons_append, concatTree, concatTree, RegexTree.Matches, RegexTree.Matches]
    simp only [ih]

/-- A condition after all pieces. -/
theorem matches_concatTree_cons_look {p : List Char → List Char → Bool} {pieces : List Piece}
    {b w a : List Char} :
    (concatTree (some (.look p) :: pieces)).Matches b w a ↔
      (concatTree pieces).Matches b w a ∧ p (b ++ w) a = true := by
  constructor
  · rintro ⟨u, v, rfl, hpieces, rfl, hlook⟩
    rw [List.append_nil]
    exact ⟨hpieces, hlook⟩
  · rintro ⟨hpieces, hlook⟩
    exact ⟨w, [], (List.append_nil w).symm, hpieces, rfl, hlook⟩

theorem exists_mem_mapLast_iff {α : Type*} {f : α → α} {P : α → Prop} (hf : ∀ a, P (f a) ↔ P a)
    (l : List α) : (∃ a ∈ mapLast f l, P a) ↔ ∃ a ∈ l, P a := by
  induction l with
  | nil => rfl
  | cons a l ih =>
    cases l with
    | nil => simp [mapLast, hf]
    | cons b l => rw [mapLast, List.exists_mem_cons_iff, ih, List.exists_mem_cons_iff (a := a)]

namespace Alternatives

theorem fullMatch_addFirst_iff {p : List Char → List Char → Bool} (hp : ∀ a, p [] a = true)
    (self : Alternatives) (text : List Char) :
    (self.addFirst (some (.look p))).tree.FullMatch text ↔ self.tree.FullMatch text := by
  rw [RegexTree.FullMatch, RegexTree.FullMatch, matches_tree_iff, matches_tree_iff, all_addFirst]
  exact exists_mem_mapLast_iff (fun pieces => matches_concatTree_append_look hp pieces text []) _

theorem fullMatch_push_iff {p : List Char → List Char → Bool} (hp : ∀ b, p b [] = true)
    (self : Alternatives) (text : List Char) :
    (self.push (some (.look p))).tree.FullMatch text ↔ self.tree.FullMatch text := by
  rw [RegexTree.FullMatch, RegexTree.FullMatch, matches_tree_iff, matches_tree_iff, push, all, all,
    List.exists_mem_cons_iff, List.exists_mem_cons_iff, matches_concatTree_cons_look,
    and_iff_left (hp _)]

end Alternatives

theorem Flags.startAnchor_nil (flags : Flags) (a : List Char) :
    flags.startAnchor [] a = true := rfl

theorem Flags.endAnchor_nil (flags : Flags) (b : List Char) : flags.endAnchor b [] = true := rfl

theorem Flags.endAnchor_eq_true_iff {flags : Flags} (h : flags.multiLine = false)
    {b a : List Char} : flags.endAnchor b a = true ↔ a = [] := by
  rw [endAnchor, h, Bool.false_and, Bool.or_false, List.isEmpty_iff]

theorem Flags.startAnchor_eq_true_iff {flags : Flags} (h : flags.multiLine = false)
    {b a : List Char} : flags.startAnchor b a = true ↔ b = [] := by
  rw [startAnchor, h, Bool.false_and, Bool.or_false, List.isEmpty_iff]

/-! ### Expressions between anchors -/

/-- The piece for a `^` at the beginning of an expression. -/
def caret : Piece := some (.look Flags.new.startAnchor)

/-- An expression behind which a dollar sign follows. The flags are those of the dollar sign, if it
is an anchor. -/
structure OpenExpression where
  alternatives : Alternatives
  closing : Option Flags

namespace OpenExpression

/-- The expression with the dollar sign. -/
def anchored (self : OpenExpression) : Alternatives :=
  match self.closing with
  | some flags => self.alternatives.push (some (.look flags.endAnchor))
  | none => self.alternatives

/-- The last alternative matches a part of the text before an end, or another one matches any
part. -/
def LooselyMatches (self : OpenExpression) (text : List Char) : Prop :=
  (∃ b w a, text = b ++ w ++ a ∧ (concatTree self.alternatives.concat).Matches b w a ∧
      ∀ flags ∈ self.closing, flags.endAnchor (b ++ w) a = true) ∨
    ∃ pieces ∈ self.alternatives.finished, (concatTree pieces).IsMatch text

theorem isMatch_anchored_iff {self : OpenExpression} {text : List Char} :
    self.anchored.tree.IsMatch text ↔ self.LooselyMatches text := by
  have hall : self.anchored.tree.IsMatch text ↔
      (concatTree self.anchored.concat).IsMatch text ∨
        ∃ pieces ∈ self.anchored.finished, (concatTree pieces).IsMatch text := by
    simp only [RegexTree.IsMatch, Alternatives.matches_tree_iff, Alternatives.all,
      List.exists_mem_cons_iff]
    constructor
    · rintro ⟨b, w, a, htext, h | ⟨pieces, hmem, h⟩⟩
      · exact Or.inl ⟨b, w, a, htext, h⟩
      · exact Or.inr ⟨pieces, hmem, b, w, a, htext, h⟩
    · rintro (⟨b, w, a, htext, h⟩ | ⟨pieces, hmem, b, w, a, htext, h⟩)
      · exact ⟨b, w, a, htext, Or.inl h⟩
      · exact ⟨b, w, a, htext, Or.inr ⟨pieces, hmem, h⟩⟩
  rw [hall, LooselyMatches]
  obtain ⟨alternatives, closing⟩ := self
  cases closing with
  | none => simp [anchored, RegexTree.IsMatch]
  | some flags =>
    simp only [anchored, Alternatives.push, RegexTree.IsMatch, matches_concatTree_cons_look,
      Option.mem_some_iff, forall_eq']

/-- There is one alternative, and it is held at both ends of the text. -/
structure IsHeld (expression : OpenExpression) : Prop where
  finished_eq : expression.alternatives.finished = []
  exists_concat_eq : ∃ pieces, expression.alternatives.concat = pieces ++ [caret]
  exists_closing_eq : ∃ flags, expression.closing = some flags ∧ flags.multiLine = false

/-- Pieces behind an anchor only match at the beginning of the text. -/
theorem eq_nil_of_matches_caret {pieces : List Piece} {b w a : List Char}
    (h : (concatTree (pieces ++ [caret])).Matches b w a) : b = [] := by
  induction pieces generalizing b w a with
  | nil =>
    obtain ⟨u, v, rfl, rfl, rfl, hlook⟩ := h
    rw [List.append_nil] at hlook
    exact (Flags.startAnchor_eq_true_iff rfl).mp hlook
  | cons piece pieces ih =>
    obtain ⟨u, v, rfl, hpieces, -⟩ := h
    exact ih hpieces

/-- **Held expressions** match a text completely or not at all. -/
theorem IsHeld.fullMatch_of_looselyMatches {self : OpenExpression} (h : self.IsHeld)
    {text : List Char} (hloose : self.LooselyMatches text) :
    self.alternatives.tree.FullMatch text := by
  obtain ⟨pieces, hconcat⟩ := h.exists_concat_eq
  obtain ⟨flags, hclosing, hline⟩ := h.exists_closing_eq
  obtain ⟨b, w, a, rfl, hmatches, hend⟩ | ⟨pieces, hmem, -⟩ := hloose
  · rw [hconcat] at hmatches
    obtain rfl := eq_nil_of_matches_caret hmatches
    obtain rfl := (Flags.endAnchor_eq_true_iff hline).mp (hend flags hclosing)
    rw [List.nil_append, List.append_nil, RegexTree.FullMatch, Alternatives.matches_tree_iff]
    exact ⟨self.alternatives.concat, List.mem_cons_self, hconcat ▸ hmatches⟩
  · rw [h.finished_eq] at hmem
    exact absurd hmem List.not_mem_nil

end OpenExpression

namespace RegexGrammar

variable {g : RegexGrammar}

/-- The state behind some anchors. -/
def stateAt (k : ℕ) : ParserState := ⟨.new, ⟨List.replicate k caret, []⟩, []⟩

theorem addFirst_stateAt (k : ℕ) : (stateAt k).addFirst caret = stateAt (k + 1) := by
  rw [stateAt, stateAt, List.replicate_succ']
  rfl

theorem hasFirst_stateAt (k : ℕ) : (stateAt (k + 1)).HasFirst :=
  fun _ _ => List.cons_ne_nil _ _

theorem run_carets (j k : ℕ) (cs : List Char) :
    g.run (stateAt j) (List.replicate k '^' ++ cs) = g.run (stateAt (j + k)) cs := by
  induction k generalizing j with
  | zero => rfl
  | succ k ih =>
    have hread : g.readToken (stateAt j).flags '^' (List.replicate k '^' ++ cs) =
        some (.piece (.look Flags.new.startAnchor), List.replicate k '^' ++ cs) := rfl
    have happly : (stateAt j).apply (.piece (.look Flags.new.startAnchor)) =
        some (stateAt (j + 1)) := rfl
    rw [List.replicate_succ, List.cons_append, run_cons, hread, Option.bind_some, happly,
      Option.bind_some, ih, Nat.add_right_comm, Nat.add_assoc]

/-- Read an expression between anchors. -/
def readOpen (g : RegexGrammar) (cs : List Char) : Option OpenExpression :=
  match g.runOpen (stateAt 1) cs with
  | some (⟨flags, alternatives, []⟩, .boundary) => some ⟨alternatives, some flags⟩
  | some (⟨_, alternatives, []⟩, .backslash) =>
    some ⟨alternatives.push (some (.char (· = '$'))), none⟩
  | some (⟨_, alternatives, []⟩, .comment) => some ⟨alternatives, none⟩
  | _ => none

theorem run_dollars_succ (state : ParserState) (n : ℕ) :
    g.run state (dollars (n + 1)) =
      g.run (state.push (some (.look state.flags.endAnchor))) (dollars n) := by
  have hread : g.readToken state.flags '$' (dollars n) =
      some (.piece (.look state.flags.endAnchor), dollars n) := rfl
  rw [dollars, List.replicate_succ, run_cons]
  change (g.readToken state.flags '$' (dollars n)).bind _ = _
  rw [hread]
  rfl

/-- Dollar signs at the end do not change what is matched completely. -/
theorem exists_run_dollars (state : ParserState) (n : ℕ) :
    ∃ final, g.run state (dollars n) = some final ∧ final.outer = state.outer ∧
      ∀ text, final.alternatives.tree.FullMatch text ↔
        state.alternatives.tree.FullMatch text := by
  induction n generalizing state with
  | zero => exact ⟨state, g.run_nil state, rfl, fun _ => Iff.rfl⟩
  | succ n ih =>
    obtain ⟨final, hrun, houter, hmatch⟩ := ih (state.push (some (.look state.flags.endAnchor)))
    refine ⟨final, (run_dollars_succ state n).trans hrun, houter, fun text => ?_⟩
    rw [hmatch]
    exact Alternatives.fullMatch_push_iff state.flags.endAnchor_nil _ _

theorem run_backslash (state : ParserState) (n : ℕ) :
    g.run state ('\\' :: dollars (n + 1)) =
      g.run (state.push (some (.char (· = '$')))) (dollars n) := by
  have hread : g.readToken state.flags '\\' ('$' :: dollars n) =
      some (.piece (.char (· = '$')), dollars n) := g.item_escaped_dollar state.flags (dollars n)
  rw [dollars, List.replicate_succ, run_cons]
  change (g.readToken state.flags '\\' ('$' :: dollars n)).bind _ = _
  rw [hread]
  rfl

theorem run_backslash_nil (state : ParserState) : g.run state ['\\'] = none := by
  have hread : g.readToken state.flags '\\' [] = none := g.item_backslash state.flags
  rw [run_cons, hread, Option.bind_none]

/-- What is read behind one anchor, whatever the number of anchors. -/
theorem exists_run_stateAt_one {k : ℕ} {cs : List Char} {final : ParserState}
    (h : g.run (stateAt k) cs = some final) (houter : final.outer = []) :
    ∃ final', g.run (stateAt 1) cs = some final' ∧ final'.outer = [] ∧
      ∀ text, final.alternatives.tree.FullMatch text ↔
        final'.alternatives.tree.FullMatch text := by
  have hfull {state : ParserState} (hstate : state.outer = []) :
      (state.addFirst caret).outer = [] ∧ ∀ text,
        (state.addFirst caret).alternatives.tree.FullMatch text ↔
          state.alternatives.tree.FullMatch text := by
    obtain ⟨flags, alternatives, outer⟩ := state
    obtain rfl : outer = [] := hstate
    exact ⟨rfl, alternatives.fullMatch_addFirst_iff Flags.new.startAnchor_nil⟩
  match k with
  | 0 =>
    have hrun := RegexGrammar.run_addFirst caret
      (Or.inr (by rw [h, Option.isSome_some]) : (stateAt 0).HasFirst ∨ _)
    rw [addFirst_stateAt, h, Option.map_some] at hrun
    exact ⟨final.addFirst caret, hrun, (hfull houter).1, fun text => ((hfull houter).2 text).symm⟩
  | k + 1 =>
    induction k generalizing final with
    | zero => exact ⟨final, h, houter, fun _ => Iff.rfl⟩
    | succ k ih =>
      have hrun : g.run ((stateAt (k + 1)).addFirst caret) cs = _ :=
        RegexGrammar.run_addFirst caret (Or.inl (hasFirst_stateAt k))
      rw [addFirst_stateAt, h] at hrun
      obtain ⟨final', hfinal', rfl⟩ := Option.map_eq_some_iff.mp hrun.symm
      have houter' : final'.outer = [] := by
        obtain ⟨flags, alternatives, outer⟩ := final'
        match outer with
        | [] => rfl
        | [group] => exact absurd houter (List.cons_ne_nil _ _)
        | group :: group' :: outer => exact absurd houter (List.cons_ne_nil _ _)
      obtain ⟨one, hone, hnil, hmatch⟩ := ih houter' hfinal'
      exact ⟨one, hone, hnil, fun text => ((hfull houter').2 text).trans (hmatch text)⟩

theorem parse_eq_some_iff {text : List Char} {tree : RegexTree} :
    g.parse text = some tree ↔
      ∃ state, g.run .new text = some state ∧ state.outer = [] ∧
        state.alternatives.tree = tree := by
  unfold parse
  constructor
  · intro h
    split at h
    · next flags alternatives hrun => exact ⟨_, hrun, rfl, Option.some.inj h⟩
    · exact absurd h (by simp)
  · rintro ⟨⟨flags, alternatives, outer⟩, hrun, rfl, rfl⟩
    rw [hrun]

/-- **Anchors around an expression.** Whatever anchors a valid expression has at its ends, the
expression between them can be read behind one `^`, and matches the same complete texts. Between
one `^` and one `$` it is the expression with its dollar sign. -/
theorem exists_readOpen {k m : ℕ} {cs : List Char} {tree : RegexTree}
    (h : g.parse (List.replicate k '^' ++ cs ++ dollars m) = some tree) :
    ∃ expression, g.readOpen cs = some expression ∧
      (∀ text, tree.FullMatch text ↔ expression.alternatives.tree.FullMatch text) ∧
      g.parse ('^' :: (cs ++ ['$'])) = some expression.anchored.tree := by
  obtain ⟨final, hrun, houter, rfl⟩ := parse_eq_some_iff.mp h
  rw [List.append_assoc] at hrun
  obtain ⟨one, hone, hnil, hmatch⟩ :=
    exists_run_stateAt_one ((run_carets 0 k (cs ++ dollars m)).symm.trans hrun) houter
  have hparse : g.run .new ('^' :: (cs ++ ['$'])) = g.run (stateAt 1) (cs ++ dollars 1) :=
    run_carets 0 1 (cs ++ dollars 1)
  rw [run_append_dollars] at hone hparse
  obtain ⟨⟨⟨flags, alternatives, outer⟩, ending⟩, hopen, hone⟩ := Option.bind_eq_some_iff.mp hone
  rw [hopen, Option.bind_some] at hparse
  cases ending with
  | boundary =>
    -- the dollar signs are anchors
    obtain ⟨final', hfinal', houter', hmatch'⟩ :=
      exists_run_dollars (g := g) ⟨flags, alternatives, outer⟩ m
    obtain rfl := Option.some.inj (hfinal'.symm.trans hone)
    obtain rfl : outer = [] := houter'.symm.trans hnil
    refine ⟨⟨alternatives, some flags⟩, by rw [readOpen, hopen],
      fun text => (hmatch text).trans (hmatch' text), parse_eq_some_iff.mpr
        ⟨ParserState.push ⟨flags, alternatives, []⟩ (some (.look flags.endAnchor)), ?_, rfl, rfl⟩⟩
    exact hparse.trans ((run_dollars_succ _ 0).trans (g.run_nil _))
  | backslash =>
    -- the first dollar sign is escaped
    cases m with
    | zero => exact absurd ((run_backslash_nil _).symm.trans hone) (Option.some_ne_none _).symm
    | succ m =>
      obtain ⟨final', hfinal', houter', hmatch'⟩ := exists_run_dollars (g := g)
        (ParserState.push ⟨flags, alternatives, outer⟩ (some (.char (· = '$')))) m
      obtain rfl := Option.some.inj
        (hfinal'.symm.trans ((run_backslash _ m).symm.trans hone))
      obtain rfl : outer = [] := houter'.symm.trans hnil
      refine ⟨⟨alternatives.push (some (.char (· = '$'))), none⟩, by rw [readOpen, hopen],
        fun text => (hmatch text).trans (hmatch' text), parse_eq_some_iff.mpr
          ⟨ParserState.push ⟨flags, alternatives, []⟩ (some (.char (· = '$'))), ?_, rfl, rfl⟩⟩
      exact hparse.trans ((run_backslash _ 0).trans (g.run_nil _))
  | comment =>
    -- no dollar sign is read
    obtain rfl := Option.some.inj hone
    obtain rfl : outer = [] := hnil
    exact ⟨⟨alternatives, none⟩, by rw [readOpen, hopen], hmatch,
      parse_eq_some_iff.mpr ⟨⟨flags, alternatives, []⟩, hparse, rfl, rfl⟩⟩

end RegexGrammar

end StackableOperator
