import Mathlib.Logic.Relation

/-!
# Processes that come and go

Any number of processes run in a shared world. At any time a new process may start, and any of
the running processes may do its next step, so that a run is an arbitrary interleaving.

`Interleaving.invariant` is the rule for safety: a step has to keep the invariant of the world,
that of its own process, and those of all other processes. `Interleaving.reach_of_next` embeds the
run of a single process.
-/

namespace StackableOperator

open Relation

/-- Which processes may start, and what a process in a world does next. -/
structure Interleaving (P W : Type) where
  start : P → Prop
  next : P → W → P → W → Prop

namespace Interleaving

variable {P W : Type}

/-- A process starts, or one of the processes does a step. -/
inductive Step (S : Interleaving P W) : W × List P → W × List P → Prop
  | start {w : W} {ps : List P} {p : P} : S.start p → Step S (w, ps) (w, p :: ps)
  | next {w w' : W} {before after : List P} {p p' : P} : S.next p w p' w' →
      Step S (w, before ++ p :: after) (w', before ++ p' :: after)

/-- The states that come after a state. -/
abbrev Reach (S : Interleaving P W) : W × List P → W × List P → Prop := ReflTransGen S.Step

/-- The invariant of the world and those of all processes. -/
structure Inv (I : W → Prop) (J : W → P → Prop) (s : W × List P) : Prop where
  world : I s.1
  processes : ∀ p ∈ s.2, J s.1 p

variable {S : Interleaving P W} {I : W → Prop} {J : W → P → Prop}

/-- **Invariants of interleavings.** -/
theorem invariant (start : ∀ w p, I w → S.start p → J w p)
    (next : ∀ w p w' p', I w → J w p → S.next p w p' w' → I w' ∧ J w' p')
    (others : ∀ w p w' p' q, I w → J w p → S.next p w p' w' → J w q → J w' q)
    {s s' : W × List P} (h : S.Reach s s') (hs : Inv I J s) : Inv I J s' := by
  induction h with
  | refl => exact hs
  | tail _ step ih =>
    obtain ⟨hworld, hprocesses⟩ := ih
    cases step with
    | start hp => exact ⟨hworld, List.forall_mem_cons.mpr ⟨start _ _ hworld hp, hprocesses⟩⟩
    | @next w w' before after p p' hnext =>
      have hp : J w p := hprocesses p (List.mem_append_right _ List.mem_cons_self)
      obtain ⟨hworld', hp'⟩ := next w p w' p' hworld hp hnext
      have hothers : ∀ q, J w q → J w' q := fun q => others w p w' p' q hworld hp hnext
      refine ⟨hworld', fun q hq => ?_⟩
      rcases List.mem_append.mp hq with hq | hq
      · exact hothers q (hprocesses q (List.mem_append_left _ hq))
      · rcases List.mem_cons.mp hq with rfl | hq
        · exact hp'
        · exact hothers q (hprocesses q (List.mem_append_right _ (List.mem_cons_of_mem _ hq)))

/-- A step of the only process. -/
theorem reach_of_next {w w' : W} {p p' : P} (h : S.next p w p' w') :
    S.Reach (w, [p]) (w', [p']) :=
  .single (@Step.next P W S w w' [] [] p p' h)

end Interleaving

end StackableOperator
