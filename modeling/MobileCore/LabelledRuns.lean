import Mathlib.Data.List.Infix

/-!
# Runs of deterministic machines with observable events

A machine answers an input with its next state and the events it shows, or refuses the input.
The interleaving is in the choice of inputs, so a run is one schedule of the whole system.
-/

namespace MobileCore.LabelledRuns

universe u v w x y

/-- A machine over states `σ`, inputs `ι` and events `ε`; `none` refuses the input. -/
def Machine (σ : Type u) (ι : Type v) (ε : Type w) := σ → ι → Option (σ × List ε)

variable {σ : Type u} {ι : Type v} {ε : Type w} {τ : Type x} {κ : Type y}

/-- The runs of `M` from `s₀` whose every step meets the guard `P` at the trace so far. -/
inductive Run (M : Machine σ ι ε) (P : List ε → σ → ι → Prop) (s₀ : σ) : List ε → σ → Prop
  | nil : Run M P s₀ [] s₀
  | snoc {tr es : List ε} {s s' : σ} {i : ι} :
      Run M P s₀ tr s → P tr s i → M s i = some (s', es) → Run M P s₀ (tr ++ es) s'

/-- The runs that no guard restricts. -/
abbrev Reach (M : Machine σ ι ε) : σ → List ε → σ → Prop := Run M (fun _ _ _ => True)

theorem Run.single {M : Machine σ ι ε} {P : List ε → σ → ι → Prop} {s s' : σ} {i : ι}
    {es : List ε} (hguard : P [] s i) (hstep : M s i = some (s', es)) : Run M P s es s' := by
  simpa using Run.snoc Run.nil hguard hstep

/-- What holds at the start and is kept by every step holds at the end of every run. -/
theorem Run.invariant {M : Machine σ ι ε} {P : List ε → σ → ι → Prop} {s₀ : σ}
    {I : List ε → σ → Prop} (hinit : I [] s₀)
    (hkeep : ∀ tr s i s' es, I tr s → P tr s i → M s i = some (s', es) → I (tr ++ es) s')
    {tr : List ε} {s : σ} (hrun : Run M P s₀ tr s) : I tr s := by
  induction hrun with
  | nil => exact hinit
  | snoc _ hguard hstep ih => exact hkeep _ _ _ _ _ ih hguard hstep

theorem Run.mono {M : Machine σ ι ε} {P Q : List ε → σ → ι → Prop} {s₀ : σ}
    (hPQ : ∀ tr s i, P tr s i → Q tr s i) {tr : List ε} {s : σ}
    (hrun : Run M P s₀ tr s) : Run M Q s₀ tr s := by
  induction hrun with
  | nil => exact Run.nil
  | snoc _ hguard hstep ih => exact Run.snoc ih (hPQ _ _ _ hguard) hstep

theorem Run.reach {M : Machine σ ι ε} {P : List ε → σ → ι → Prop} {s₀ s : σ} {tr : List ε}
    (hrun : Run M P s₀ tr s) : Reach M s₀ tr s :=
  hrun.mono fun _ _ _ _ => trivial

theorem Reach.trans {M : Machine σ ι ε} {s₀ s₁ s₂ : σ} {tr₁ tr₂ : List ε}
    (h₁ : Reach M s₀ tr₁ s₁) (h₂ : Reach M s₁ tr₂ s₂) : Reach M s₀ (tr₁ ++ tr₂) s₂ := by
  induction h₂ with
  | nil => simpa using h₁
  | snoc _ _ hstep ih =>
      rw [← List.append_assoc]
      exact Run.snoc ih trivial hstep

theorem Reach.start (M : Machine σ ι ε) (s : σ) : Reach M s [] s := Run.nil

theorem Reach.silent {M : Machine σ ι ε} {s₀ s : σ} {tr : List ε} (hrun : Reach M s₀ tr s)
    (i : ι) (s' : σ) (hstep : M s i = some (s', [])) : Reach M s₀ tr s' := by
  simpa using Run.snoc hrun trivial hstep

def exec (M : Machine σ ι ε) (s : σ) : List ι → Option (σ × List ε)
  | [] => some (s, [])
  | i :: rest =>
    match M s i with
    | none => none
    | some (s', es) =>
      match exec M s' rest with
      | none => none
      | some (s'', es') => some (s'', es ++ es')

theorem exec_append (M : Machine σ ι ε) (is js : List ι) (s s₁ s₂ : σ) (tr₁ tr₂ : List ε)
    (h₁ : exec M s is = some (s₁, tr₁)) (h₂ : exec M s₁ js = some (s₂, tr₂)) :
    exec M s (is ++ js) = some (s₂, tr₁ ++ tr₂) := by
  induction is generalizing s tr₁ with
  | nil =>
      obtain ⟨rfl, rfl⟩ : s = s₁ ∧ [] = tr₁ := by simpa [exec] using h₁
      simpa using h₂
  | cons i rest ih =>
      simp only [exec] at h₁
      split at h₁
      · cases h₁
      · rename_i s' es hstep
        split at h₁
        · cases h₁
        · rename_i s'' es' hrest
          obtain ⟨rfl, rfl⟩ : s'' = s₁ ∧ es ++ es' = tr₁ := by simpa using h₁
          simp only [List.cons_append, exec, hstep, ih s' es' hrest, List.append_assoc]

theorem exec_snoc (M : Machine σ ι ε) (is : List ι) (i : ι) (s s' : σ) (tr : List ε)
    (h : exec M s (is ++ [i]) = some (s', tr)) :
    ∃ s₁ tr₁ es, exec M s is = some (s₁, tr₁) ∧ M s₁ i = some (s', es) ∧ tr = tr₁ ++ es := by
  induction is generalizing s tr with
  | nil =>
      simp only [List.nil_append, exec] at h
      split at h
      · cases h
      · rename_i s₁ es hstep
        obtain ⟨rfl, rfl⟩ : s₁ = s' ∧ es = tr := by simpa using h
        exact ⟨s, [], es, rfl, hstep, rfl⟩
  | cons j rest ih =>
      simp only [List.cons_append, exec] at h
      split at h
      · cases h
      · rename_i s₁ es hstep
        split at h
        · cases h
        · rename_i s₂ es' hrest
          obtain ⟨rfl, rfl⟩ : s₂ = s' ∧ es ++ es' = tr := by simpa using h
          obtain ⟨s₃, tr₃, es₃, hexec, hlast, rfl⟩ := ih s₁ es' hrest
          refine ⟨s₃, es ++ tr₃, es₃, ?_, hlast, (List.append_assoc es tr₃ es₃).symm⟩
          simp only [exec, hstep, hexec]

theorem reach_of_exec (M : Machine σ ι ε) (s s' : σ) (is : List ι) (tr : List ε)
    (h : exec M s is = some (s', tr)) : Reach M s tr s' := by
  induction is generalizing s tr with
  | nil =>
      obtain ⟨rfl, rfl⟩ : s = s' ∧ [] = tr := by simpa [exec] using h
      exact Run.nil
  | cons i rest ih =>
      simp only [exec] at h
      split at h
      · cases h
      · rename_i s₁ es hstep
        split at h
        · cases h
        · rename_i s₂ es' hrest
          obtain ⟨rfl, rfl⟩ : s₂ = s' ∧ es ++ es' = tr := by simpa using h
          exact Reach.trans (Run.single trivial hstep) (ih s₁ es' hrest)

/-- The schedule `is` meets the guard from the trace `tr` and the state `s` on. -/
def Admits (M : Machine σ ι ε) (P : List ε → σ → ι → Prop) : List ε → σ → List ι → Prop
  | _, _, [] => True
  | tr, s, i :: rest =>
    P tr s i ∧
      match M s i with
      | none => False
      | some (s', es) => Admits M P (tr ++ es) s' rest

instance Admits.decidable (M : Machine σ ι ε) (P : List ε → σ → ι → Prop)
    [∀ tr s i, Decidable (P tr s i)] :
    (tr : List ε) → (s : σ) → (is : List ι) → Decidable (Admits M P tr s is)
  | _, _, [] => .isTrue trivial
  | tr, s, i :: rest =>
    have : Decidable (match M s i with
      | none => False
      | some (s', es) => Admits M P (tr ++ es) s' rest) :=
      match M s i with
      | none => .isFalse id
      | some (s', es) => Admits.decidable M P (tr ++ es) s' rest
    inferInstanceAs (Decidable (_ ∧ _))

theorem run_of_exec {M : Machine σ ι ε} {P : List ε → σ → ι → Prop} {s₀ s s' : σ}
    {tr : List ε} (is : List ι) (tr' : List ε) (hrun : Run M P s₀ tr s) (hadmits : Admits M P tr s is)
    (h : exec M s is = some (s', tr')) : Run M P s₀ (tr ++ tr') s' := by
  induction is generalizing s tr tr' with
  | nil =>
      obtain ⟨rfl, rfl⟩ : s = s' ∧ [] = tr' := by simpa [exec] using h
      simpa using hrun
  | cons i rest ih =>
      obtain ⟨hguard, hrest⟩ := hadmits
      simp only [exec] at h
      split at h
      · cases h
      · rename_i s₁ es hstep
        simp only [hstep] at hrest
        split at h
        · cases h
        · rename_i s₂ es' hexec
          obtain ⟨rfl, rfl⟩ : s₂ = s' ∧ es ++ es' = tr' := by simpa using h
          rw [← List.append_assoc]
          exact ih es' (Run.snoc hrun hguard hstep) hrest hexec

/-- A run over a fixed schedule, with what is seen of its end. -/
theorem exists_run_of_exec {M : Machine σ ι ε} {P : List ε → σ → ι → Prop} {s₀ : σ} {α : Type*}
    {view : σ × List ε → α} {seen : α} (is : List ι) (hadmits : Admits M P [] s₀ is)
    (h : (exec M s₀ is).map view = some seen) : ∃ tr s, Run M P s₀ tr s ∧ view (s, tr) = seen := by
  obtain ⟨⟨s, tr⟩, hexec, hseen⟩ := Option.map_eq_some_iff.mp h
  exact ⟨tr, s, run_of_exec is tr Run.nil hadmits hexec, hseen⟩

theorem exists_reach_of_exec {M : Machine σ ι ε} {s₀ : σ} {α : Type*} {view : σ × List ε → α}
    {seen : α} {is : List ι} (h : (exec M s₀ is).map view = some seen) :
    ∃ tr s, Reach M s₀ tr s ∧ view (s, tr) = seen := by
  obtain ⟨⟨s, tr⟩, hexec, hseen⟩ := Option.map_eq_some_iff.mp h
  exact ⟨tr, s, reach_of_exec M s₀ s is tr hexec, hseen⟩

/-- Where the chosen inputs count down what remains and no other input adds to it, a schedule with
that many of them shows the event. -/
theorem exists_event_of_exec {M : Machine σ ι ε} (Waits : σ → Prop) {Goal : ε → Prop}
    (remaining : σ → Nat) {chosen : ι → Bool} (hpos : ∀ s, Waits s → 0 < remaining s)
    (hstep : ∀ s i s' es, Waits s → M s i = some (s', es) →
      (∃ e ∈ es, Goal e) ∨ Waits s' ∧ remaining s' + (chosen i).toNat ≤ remaining s)
    {is : List ι} {s s' : σ} {es : List ε} (hwaits : Waits s) (hexec : exec M s is = some (s', es))
    (hcount : remaining s ≤ is.countP chosen) : ∃ e ∈ es, Goal e := by
  induction is generalizing s es with
  | nil => exact absurd hcount (Nat.not_le_of_gt (hpos s hwaits))
  | cons i rest ih =>
      simp only [exec] at hexec
      split at hexec
      · cases hexec
      · rename_i s₁ es₁ hfirst
        split at hexec
        · cases hexec
        · rename_i s₂ es₂ hrest
          obtain ⟨rfl, rfl⟩ : s₂ = s' ∧ es₁ ++ es₂ = es := by simpa using hexec
          rcases hstep s i s₁ es₁ hwaits hfirst with ⟨e, he, hgoal⟩ | ⟨hwaits₁, hless⟩
          · exact ⟨e, List.mem_append_left es₂ he, hgoal⟩
          · have hcount₁ : remaining s₁ ≤ rest.countP chosen := by
              rw [List.countP_cons] at hcount
              cases hchosen : chosen i with
              | false =>
                  rw [hchosen] at hless hcount
                  exact hless.trans hcount
              | true =>
                  rw [hchosen] at hless hcount
                  exact Nat.le_of_add_le_add_right (hless.trans hcount)
            obtain ⟨e, he, hgoal⟩ := ih hwaits₁ hrest hcount₁
            exact ⟨e, List.mem_append_right es₁ he, hgoal⟩

/-- Each event of the trace is backed by the events before it. -/
def Backed (J : List ε → ε → Prop) (tr : List ε) : Prop :=
  ∀ before e after, tr = before ++ e :: after → J before e

theorem Backed.nil (J : List ε → ε → Prop) : Backed J [] := by
  intro before e after hsplit
  simp at hsplit

theorem Backed.append {J : List ε → ε → Prop} {tr es : List ε} (h : Backed J tr)
    (hes : ∀ before e after, es = before ++ e :: after → J (tr ++ before) e) :
    Backed J (tr ++ es) := by
  intro before e after hsplit
  rcases List.append_eq_append_iff.mp hsplit with ⟨mid, rfl, hmid⟩ | ⟨mid, rfl, hmid⟩
  · exact hes mid e after hmid
  · cases mid with
    | nil =>
        have hfirst := hes [] e after (by simpa using hmid.symm)
        simpa using hfirst
    | cons e' mid =>
        obtain ⟨rfl, rfl⟩ : e = e' ∧ after = mid ++ es := by simpa using hmid
        exact h before e mid rfl

theorem Backed.append_of_forall {J : List ε → ε → Prop} {tr es : List ε} (h : Backed J tr)
    (hes : ∀ e ∈ es, ∀ before, J before e) : Backed J (tr ++ es) := by
  refine h.append fun before e after hsplit => hes e ?_ _
  rw [hsplit]
  exact List.mem_append_right before List.mem_cons_self

theorem Backed.snoc {J : List ε → ε → Prop} {tr : List ε} {e : ε} (h : Backed J tr)
    (he : J tr e) : Backed J (tr ++ [e]) := by
  refine h.append fun before e' after hsplit => ?_
  cases before with
  | nil =>
      obtain ⟨rfl, _⟩ : e = e' ∧ after = [] := by simpa [eq_comm] using hsplit
      simpa using he
  | cons b before => simp at hsplit

theorem Backed.of_append {J : List ε → ε → Prop} {tr es : List ε} (h : Backed J (tr ++ es)) :
    Backed J tr := by
  intro before e after hsplit
  apply h before e (after ++ es)
  rw [hsplit, List.append_assoc, List.cons_append]

theorem Backed.last {J : List ε → ε → Prop} {tr : List ε} {e : ε} (h : Backed J (tr ++ [e])) :
    J tr e := h tr e [] rfl

/-- A simulation that carries the events over: every concrete step is matched by an abstract run
that shows the same events. -/
theorem Run.simulates {M : Machine σ ι ε} {A : Machine τ κ ε} {P : List ε → σ → ι → Prop}
    {s₀ : σ} {t₀ : τ} {R : σ → τ → Prop} (hinit : R s₀ t₀)
    (hsim : ∀ s t i s' es, R s t → M s i = some (s', es) →
      ∃ t', Reach A t es t' ∧ R s' t')
    {tr : List ε} {s : σ} (hrun : Run M P s₀ tr s) :
    ∃ t, Reach A t₀ tr t ∧ R s t := by
  induction hrun with
  | nil => exact ⟨t₀, Run.nil, hinit⟩
  | snoc _ _ hstep ih =>
      obtain ⟨t, hAbs, hR⟩ := ih
      obtain ⟨t', hmore, hR'⟩ := hsim _ _ _ _ _ hR hstep
      exact ⟨t', Reach.trans hAbs hmore, hR'⟩

end MobileCore.LabelledRuns
