import MobileCore.LabelledRuns

namespace MobileCore.BoundedQueue

open MobileCore.LabelledRuns

universe u

variable {T : Type u}

inductive Op (T : Type u) where
  | push (v : T)
  | pop
  | burst (n : Nat)

inductive Event (T : Type u) where
  | pushed (v : T)
  | full (v : T)
  | popped (v : T)
  | empty
  | burst (vs : List T)
deriving DecidableEq

def Event.entered : Event T → List T
  | .pushed v => [v]
  | _ => []

def Event.left : Event T → List T
  | .popped v => [v]
  | .burst vs => vs
  | _ => []

def entered (tr : List (Event T)) : List T := tr.flatMap Event.entered

def left (tr : List (Event T)) : List T := tr.flatMap Event.left

@[simp] theorem entered_nil : entered ([] : List (Event T)) = [] := rfl

@[simp] theorem left_nil : left ([] : List (Event T)) = [] := rfl

@[simp] theorem entered_append (tr tr' : List (Event T)) :
    entered (tr ++ tr') = entered tr ++ entered tr' := by simp [entered]

@[simp] theorem left_append (tr tr' : List (Event T)) :
    left (tr ++ tr') = left tr ++ left tr' := by simp [left]

@[simp] theorem entered_single (e : Event T) : entered [e] = e.entered := by simp [entered]

@[simp] theorem left_single (e : Event T) : left [e] = e.left := by simp [left]

def machine (cap : Nat) : Machine (List T) (Op T) (Event T)
  | items, .push v =>
    if items.length < cap then some (items ++ [v], [.pushed v]) else some (items, [.full v])
  | [], .pop => some ([], [.empty])
  | v :: rest, .pop => some (rest, [.popped v])
  | items, .burst n => some (items.drop n, [.burst (items.take n)])

/-- What a step adds to the history is what it changes in the content. -/
theorem machine_balanced (cap : Nat) (items items' : List T) (op : Op T) (es : List (Event T))
    (hstep : machine cap items op = some (items', es)) :
    items ++ entered es = left es ++ items' := by
  cases op with
  | push v =>
      simp only [machine] at hstep
      split at hstep <;> cases hstep <;> simp [Event.entered, Event.left]
  | pop =>
      cases items with
      | nil => cases hstep; simp [Event.entered, Event.left]
      | cons v rest => cases hstep; simp [Event.entered, Event.left]
  | burst n => cases hstep; simp [Event.entered, Event.left]

theorem machine_length_le (cap : Nat) (items items' : List T) (op : Op T) (es : List (Event T))
    (hlen : items.length ≤ cap) (hstep : machine cap items op = some (items', es)) :
    items'.length ≤ cap := by
  cases op with
  | push v =>
      simp only [machine] at hstep
      split at hstep <;> cases hstep
      · simpa using by omega
      · exact hlen
  | pop =>
      cases items with
      | nil => cases hstep; exact hlen
      | cons v rest => cases hstep; simp only [List.length_cons] at hlen; omega
  | burst n => cases hstep; simp only [List.length_drop]; omega

/-- Nothing is lost, duplicated or reordered: what was held and what entered is what left and
what is held. -/
theorem append_entered_eq (cap : Nat) (items items' : List T) (tr : List (Event T))
    (hrun : Reach (machine cap) items tr items') : items ++ entered tr = left tr ++ items' := by
  refine hrun.invariant (I := fun tr items' => items ++ entered tr = left tr ++ items') (by simp) ?_
  intro tr now op next es hinv _ hstep
  rw [entered_append, left_append, ← List.append_assoc, hinv, List.append_assoc,
    machine_balanced cap now next op es hstep, List.append_assoc]

theorem length_le_cap (cap : Nat) (items : List T) (tr : List (Event T))
    (hrun : Reach (machine cap) [] tr items) : items.length ≤ cap :=
  hrun.invariant (I := fun _ items => items.length ≤ cap) (Nat.zero_le _)
    fun _ items op items' es hlen _ hstep => machine_length_le cap items items' op es hlen hstep

theorem machine_events (cap : Nat) (items items' : List T) (op : Op T) (es : List (Event T))
    (hstep : machine cap items op = some (items', es)) : ∃ e, es = [e] := by
  cases op with
  | push v => simp only [machine] at hstep; split at hstep <;> cases hstep <;> exact ⟨_, rfl⟩
  | pop => cases items <;> cases hstep <;> exact ⟨_, rfl⟩
  | burst n => cases hstep; exact ⟨_, rfl⟩

theorem exists_op_of_reach (cap : Nat) (items items' : List T) (e : Event T)
    (hrun : Reach (machine cap) items [e] items') :
    ∃ op, machine cap items op = some (items', [e]) := by
  generalize htr : [e] = tr at hrun
  cases hrun with
  | nil => cases htr
  | snoc hbefore _ hstep =>
      obtain ⟨e', rfl⟩ := machine_events _ _ _ _ _ hstep
      rw [List.singleton_eq_append_iff] at htr
      rcases htr with ⟨rfl, htr⟩ | ⟨_, htr⟩
      · obtain rfl := List.singleton_inj.mp htr
        generalize hnil : ([] : List (Event T)) = tr at hbefore
        cases hbefore with
        | nil => exact ⟨_, hstep⟩
        | snoc _ _ hstep' =>
            obtain ⟨e', rfl⟩ := machine_events _ _ _ _ _ hstep'
            simp at hnil
      · cases htr

theorem cap_le_of_full (cap : Nat) (items items' : List T) (v : T)
    (hrun : Reach (machine cap) items [.full v] items') : cap ≤ items.length := by
  obtain ⟨op, hstep⟩ := exists_op_of_reach cap items items' _ hrun
  cases op with
  | push w =>
      simp only [machine] at hstep
      split at hstep
      · cases hstep
      · omega
  | pop => cases items <;> cases hstep
  | burst n => cases hstep

theorem eq_nil_of_empty (cap : Nat) (items items' : List T)
    (hrun : Reach (machine cap) items [.empty] items') : items = [] := by
  obtain ⟨op, hstep⟩ := exists_op_of_reach cap items items' _ hrun
  cases op with
  | push w => simp only [machine] at hstep; split at hstep <;> cases hstep
  | pop =>
      cases items with
      | nil => rfl
      | cons v rest => cases hstep
  | burst n => cases hstep

/-- A machine that shows only what a bounded queue can show conserves its elements. -/
theorem entered_of_simulates {σ ι : Type*} {M : Machine σ ι (Event T)} {s₀ s : σ}
    {tr : List (Event T)} (cap : Nat) (R : σ → List T → Prop) (hinit : R s₀ [])
    (hsim : ∀ s items i s' es, R s items → M s i = some (s', es) →
      ∃ items', Reach (machine cap) items es items' ∧ R s' items')
    (hrun : Reach M s₀ tr s) :
    ∃ items, R s items ∧ entered tr = left tr ++ items ∧ items.length ≤ cap := by
  obtain ⟨items, hqueue, hrel⟩ := hrun.simulates hinit hsim
  exact ⟨items, hrel, append_entered_eq cap [] items tr hqueue, length_le_cap cap items tr hqueue⟩

end MobileCore.BoundedQueue
