import MobileCore.LabelledRuns

/-!
# Machines over other machines

An upper machine has a state of its own and sees the state of the lower one. Each of its steps
changes its own state and takes at most one step of the lower machine, whose events it shows.
-/

namespace MobileCore.LayeredMachines

open MobileCore.LabelledRuns

universe u v w x y

variable {ω : Type u} {σ : Type v} {ι : Type w} {ε : Type x} {κ : Type y}

structure Layered (ω : Type u) (σ : Type v) where
  upper : ω
  lower : σ

/-- `move` gives the next state of the upper machine and the input of the lower one. -/
def layer (M : Machine σ ι ε) (move : ω → σ → κ → Option (ω × Option ι)) :
    Machine (Layered ω σ) κ ε := fun s k =>
  match move s.upper s.lower k with
  | none => none
  | some (upper, none) => some (⟨upper, s.lower⟩, [])
  | some (upper, some i) => (M s.lower i).map fun r => (⟨upper, r.1⟩, r.2)

section Steps

variable {M : Machine σ ι ε} {move : ω → σ → κ → Option (ω × Option ι)} {s s' : Layered ω σ}
  {k : κ} {es : List ε}

theorem layer_eq_some (hstep : layer M move s k = some (s', es)) :
    ∃ j, move s.upper s.lower k = some (s'.upper, j) ∧
      ((j = none ∧ s'.lower = s.lower ∧ es = []) ∨
        ∃ i, j = some i ∧ M s.lower i = some (s'.lower, es)) := by
  unfold layer at hstep
  split at hstep
  · cases hstep
  · rename_i upper hmove
    obtain ⟨rfl, rfl⟩ := Prod.mk.inj (Option.some.inj hstep)
    exact ⟨none, hmove, Or.inl ⟨rfl, rfl, rfl⟩⟩
  · rename_i upper i hmove
    obtain ⟨⟨lower, es'⟩, hlower, hpair⟩ := Option.map_eq_some_iff.mp hstep
    obtain ⟨rfl, rfl⟩ := Prod.mk.inj hpair
    exact ⟨some i, hmove, Or.inr ⟨i, rfl, hlower⟩⟩

theorem layer_refines (hstep : layer M move s k = some (s', es)) : Reach M s.lower es s'.lower := by
  obtain ⟨j, -, ⟨-, hsame, rfl⟩ | ⟨i, -, hlower⟩⟩ := layer_eq_some hstep
  · rw [hsame]
    exact Run.nil
  · exact Run.single trivial hlower

/-- A run of the upper machine is a run of the lower one with the same events. -/
theorem run_refines {P : List ε → Layered ω σ → κ → Prop} {s₀ : Layered ω σ} {tr : List ε}
    (hrun : Run (layer M move) P s₀ tr s) : Reach M s₀.lower tr s.lower := by
  induction hrun with
  | nil => exact Run.nil
  | snoc _ _ hstep ih => exact Reach.trans ih (layer_refines hstep)

end Steps

end MobileCore.LayeredMachines
