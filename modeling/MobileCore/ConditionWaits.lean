import Mathlib.Data.List.Basic

/-!
# Threads that wait on a condition variable

A wait for a predicate, as the places that a thread passes: it has the mutex while it evaluates the
predicate and until it sleeps, and a thread that was woken evaluates the predicate again.
-/

namespace MobileCore.ConditionWaits

universe u

/-- Where a thread is; `code` is its place outside the wait. -/
inductive Place (ρ : Type u) where
  | away (code : ρ)
  | checking
  | committed
  | asleep
  | woken
deriving DecidableEq

variable {ρ : Type u}

def Place.hasMutex : Place ρ → Bool
  | .checking => true
  | .committed => true
  | _ => false

/-- The predicate was false, and the thread has not been woken since. -/
def Place.waits : Place ρ → Bool
  | .committed => true
  | .asleep => true
  | _ => false

def Place.sleeps : Place ρ → Bool
  | .asleep => true
  | _ => false

def Place.notified : Place ρ → Place ρ
  | .asleep => .woken
  | place => place

theorem Place.waits_notified {place : Place ρ} (h : place ≠ .committed) :
    place.notified.waits = false := by
  cases place with
  | committed => exact (h rfl).elim
  | _ => rfl

theorem Place.waits_notified_of_awake {place : Place ρ} (h : place.waits = false) :
    place.notified.waits = false := by
  apply waits_notified
  rintro rfl
  cases h

def Quiet (places : List (Place ρ)) : Prop := ∀ place ∈ places, place.waits = false

def notifyAll (places : List (Place ρ)) : List (Place ρ) := places.map Place.notified

/-- The notification of one thread, which is the `n`-th if any thread sleeps. -/
def notifyOne (n : Nat) (places : List (Place ρ)) : Option (List (Place ρ)) :=
  match places[n]? with
  | some .asleep => some (places.set n .woken)
  | _ => if places.any Place.sleeps then none else some places

theorem quiet_notifyAll {places : List (Place ρ)} (h : .committed ∉ places) :
    Quiet (notifyAll places) := by
  intro place hplace
  obtain ⟨before, hbefore, rfl⟩ := List.mem_map.mp hplace
  apply Place.waits_notified
  rintro rfl
  exact h hbefore

theorem Quiet.set {places : List (Place ρ)} (h : Quiet places) (n : Nat) {place : Place ρ}
    (hplace : place.waits = false) : Quiet (places.set n place) := by
  intro other hother
  rcases List.mem_or_eq_of_mem_set hother with hother | rfl
  · exact h other hother
  · exact hplace

theorem Quiet.notifyAll {places : List (Place ρ)} (h : Quiet places) :
    Quiet (notifyAll places) := by
  apply quiet_notifyAll
  intro hcommitted
  cases h .committed hcommitted

theorem Quiet.notifyOne {places places' : List (Place ρ)} (h : Quiet places)
    {n : Nat} (hnotify : notifyOne n places = some places') : Quiet places' := by
  unfold ConditionWaits.notifyOne at hnotify
  split at hnotify
  · obtain rfl := Option.some.inj hnotify
    exact h.set n rfl
  · split at hnotify
    · cases hnotify
    · obtain rfl := Option.some.inj hnotify
      exact h

end MobileCore.ConditionWaits
