import MobileCore.LabelledRuns

namespace MobileCore.Completion

open MobileCore.LabelledRuns

universe u v w

variable {σ : Type u} {ι : Type v} {ε : Type w}

theorem exec_keeps {M : Machine σ ι ε} {I : σ → Prop} {G : ι → Prop}
    (hkeeps : ∀ s i s' es, I s → G i → M s i = some (s', es) → I s') {is : List ι} {s s' : σ}
    {tr : List ε} (hs : I s) (hgood : ∀ i ∈ is, G i) (hexec : exec M s is = some (s', tr)) :
    I s' := by
  induction is generalizing s tr with
  | nil =>
      obtain ⟨rfl, -⟩ := Prod.mk.inj (Option.some.inj hexec)
      exact hs
  | cons i is ih =>
      rw [exec] at hexec
      split at hexec
      · cases hexec
      rename_i s₁ es hstep
      split at hexec
      · cases hexec
      rename_i s₂ es' hrest
      obtain ⟨rfl, -⟩ := Prod.mk.inj (Option.some.inj hexec)
      have hs₁ := hkeeps s i s₁ es hs (hgood i List.mem_cons_self) hstep
      exact ih hs₁ (fun j hj => hgood j (List.mem_cons_of_mem i hj)) hrest

/-- A run goes on over inputs that its guard always admits. -/
theorem run_extend {M : Machine σ ι ε} {P : List ε → σ → ι → Prop} {s₀ s s' : σ} {is : List ι}
    {tr tr' : List ε} (hrun : Run M P s₀ tr s) (hgood : ∀ i ∈ is, ∀ tr s, P tr s i)
    (hexec : exec M s is = some (s', tr')) : Run M P s₀ (tr ++ tr') s' := by
  induction is generalizing s tr tr' with
  | nil =>
      obtain ⟨rfl, rfl⟩ := Prod.mk.inj (Option.some.inj hexec)
      rwa [List.append_nil]
  | cons i is ih =>
      rw [exec] at hexec
      split at hexec
      · cases hexec
      rename_i s₁ es hstep
      split at hexec
      · cases hexec
      rename_i s₂ es' hrest
      obtain ⟨rfl, rfl⟩ := Prod.mk.inj (Option.some.inj hexec)
      have hstart := Run.snoc hrun (hgood i List.mem_cons_self tr s) hstep
      rw [← List.append_assoc]
      exact ih hstart (fun j hj => hgood j (List.mem_cons_of_mem i hj)) hrest

/-- Inputs that always make a measure smaller are few. -/
theorem exec_length_le {M : Machine σ ι ε} {G : ι → Prop} {m : σ → Nat}
    (hfalls : ∀ s i s' es, G i → M s i = some (s', es) → m s' < m s) {is : List ι} {s s' : σ}
    {tr : List ε} (hgood : ∀ i ∈ is, G i) (hexec : exec M s is = some (s', tr)) :
    is.length + m s' ≤ m s := by
  induction is generalizing s tr with
  | nil =>
      obtain ⟨rfl, -⟩ := Prod.mk.inj (Option.some.inj hexec)
      exact (Nat.zero_add _).le
  | cons i is ih =>
      rw [exec] at hexec
      split at hexec
      · cases hexec
      rename_i s₁ es hstep
      split at hexec
      · cases hexec
      rename_i s₂ es' hrest
      obtain ⟨rfl, -⟩ := Prod.mk.inj (Option.some.inj hexec)
      have hlt := hfalls s i s₁ es (hgood i List.mem_cons_self) hstep
      have hle := ih (fun j hj => hgood j (List.mem_cons_of_mem i hj)) hrest
      rw [List.length_cons]
      omega

/-- In the states that satisfy `I`, the inputs `G` lead to the goal `F`. -/
structure Progresses (M : Machine σ ι ε) (I : σ → Prop) (G : ι → Prop) (F : σ → Prop)
    (m : σ → Nat) : Prop where
  keeps : ∀ {s i s' es}, I s → G i → M s i = some (s', es) → I s'
  stays : ∀ {s i s' es}, I s → F s → G i → M s i = some (s', es) → F s'
  falls : ∀ {s i s' es}, I s → ¬F s → G i → M s i = some (s', es) → m s' < m s
  goes : ∀ {s}, I s → ¬F s → ∃ i, G i ∧ (M s i).isSome

variable {M : Machine σ ι ε} {I : σ → Prop} {G : ι → Prop} {F : σ → Prop} {m : σ → Nat}

theorem Progresses.length_le (h : Progresses M I G F m) {is : List ι} {s s' : σ} {tr : List ε}
    (hs : I s) (hgood : ∀ i ∈ is, G i) (hexec : exec M s is = some (s', tr)) (hgoal : ¬F s') :
    is.length + m s' ≤ m s := by
  induction is generalizing s tr with
  | nil =>
      obtain ⟨rfl, -⟩ := Prod.mk.inj (Option.some.inj hexec)
      exact (Nat.zero_add _).le
  | cons i is ih =>
      rw [exec] at hexec
      split at hexec
      · cases hexec
      rename_i s₁ es hstep
      split at hexec
      · cases hexec
      rename_i s₂ es' hrest
      obtain ⟨rfl, -⟩ := Prod.mk.inj (Option.some.inj hexec)
      have hi := hgood i List.mem_cons_self
      have his : ∀ j ∈ is, G j := fun j hj => hgood j (List.mem_cons_of_mem i hj)
      have hs₁ := h.keeps hs hi hstep
      have hgoal₁ : ¬F s₁ := by
        intro hF
        have hboth : I s₂ ∧ F s₂ := by
          refine exec_keeps (I := fun s => I s ∧ F s) ?_ ⟨hs₁, hF⟩ his hrest
          rintro s i s' es ⟨hI, hF⟩ hi hnext
          exact ⟨h.keeps hI hi hnext, h.stays hI hF hi hnext⟩
        exact hgoal hboth.2
      have hgoal₀ : ¬F s := fun hF => hgoal₁ (h.stays hs hF hi hstep)
      have hfalls := h.falls hs hgoal₀ hi hstep
      have hle := ih hs₁ his hrest
      rw [List.length_cons]
      omega

section Queues

variable {α : Type*} (w : α → Nat)

def total : List α → Nat
  | [] => 0
  | a :: queue => w a + total queue

theorem total_append (front back : List α) :
    total w (front ++ back) = total w front + total w back := by
  induction front with
  | nil => exact (Nat.zero_add _).symm
  | cons a front ih =>
      show w a + total w (front ++ back) = w a + total w front + total w back
      rw [ih, Nat.add_assoc]

theorem total_eraseIdx {queue : List α} {n : Nat} {a : α} (h : queue[n]? = some a) :
    w a + total w (queue.eraseIdx n) = total w queue := by
  induction queue generalizing n with
  | nil => cases h
  | cons b queue ih =>
      cases n with
      | zero =>
          obtain rfl := Option.some.inj h
          rfl
      | succ n =>
          have hrest := ih h
          show w a + (w b + total w (queue.eraseIdx n)) = w b + total w queue
          omega

end Queues

end MobileCore.Completion
