import MobileCore.CircularBuffer
import MobileCore.EventStore

namespace MobileCore.RecentEvents

open MobileCore.CircularBuffer
open MobileCore.EventStore
open MobileCore.LabelledRuns

variable {α : Type} {capacity : Nat} {s s' : State α}

/-- `none` where `make` panics. The number of events ever stored is an `int` and below 2^63. -/
def recent (capacity : Nat) (s : State α) (n : Int) : Option (List α) :=
  let count : Int := if (capacity : Int) < s.total then capacity else s.total
  let n := if count < n then count else n
  if n = 0 then some []
  else if n < 0 then none
  else
    let startIdx := (s.writeIdx - n + capacity * 2).tmod capacity
    some ((List.range n.toNat).map fun (i : Nat) => s.buf ((startIdx + i).tmod capacity).toNat)

def stored? : Input α → Option α
  | .store e => some e
  | _ => none

def publish (e : α) : List (Input α) := [.store e, .fanOut 0]

/-- The buffer after `events` were stored in it, in this order. -/
structure Shows (capacity : Nat) (s : State α) (events : List α) : Prop where
  retained : Retains capacity s.buf events
  writeIdx : s.writeIdx = events.length % capacity
  total : s.total = events.length

theorem init_shows [Inhabited α] (capacity : Nat) : Shows capacity (init : State α) [] where
  retained := Retains.nil capacity _
  writeIdx := (Nat.zero_mod capacity).symm
  total := rfl

theorem step_shows {events : List α} {i : Input α} {es : List Event} (h : Shows capacity s events)
    (hstep : step capacity s i = some (s', es)) :
    Shows capacity s' (events ++ (stored? i).toList) := by
  cases i with
  | store e =>
      simp only [step] at hstep
      split at hstep
      · cases hstep
      · cases hstep
        refine ⟨?_, ?_, ?_⟩
        · show Retains capacity (Function.update s.buf s.writeIdx e) (events ++ [e])
          rw [h.writeIdx]
          exact h.retained.write e
        · show (s.writeIdx + 1) % capacity = (events ++ [e]).length % capacity
          rw [h.writeIdx, Nat.mod_add_mod, List.length_append, List.length_singleton]
        · show s.total + 1 = (events ++ [e]).length
          rw [h.total, List.length_append, List.length_singleton]
  | fanOut n =>
      show Shows capacity s' (events ++ [])
      rw [List.append_nil]
      simp only [step] at hstep
      split at hstep
      · cases hstep
      · cases hstep
        exact ⟨h.retained, h.writeIdx, h.total⟩
  | subscribe =>
      show Shows capacity s' (events ++ [])
      rw [List.append_nil]
      cases hstep
      exact ⟨h.retained, h.writeIdx, h.total⟩
  | unsubscribe id =>
      show Shows capacity s' (events ++ [])
      rw [List.append_nil]
      simp only [step] at hstep
      split at hstep <;> cases hstep <;> exact ⟨h.retained, h.writeIdx, h.total⟩
  | receive n =>
      show Shows capacity s' (events ++ [])
      rw [List.append_nil]
      simp only [step] at hstep
      split at hstep
      · cases hstep
      · cases hstep
        exact ⟨h.retained, h.writeIdx, h.total⟩

/-- Whatever else the store does, its buffer holds the last of the events that entered it. -/
theorem exec_shows {events : List α} {is : List (Input α)} {tr : List Event}
    (h : Shows capacity s events) (hexec : exec (step capacity) s is = some (s', tr)) :
    Shows capacity s' (events ++ is.filterMap stored?) := by
  induction is generalizing s events tr with
  | nil =>
      cases hexec
      rw [List.filterMap_nil, List.append_nil]
      exact h
  | cons i is ih =>
      simp only [exec] at hexec
      split at hexec
      · cases hexec
      · rename_i s₁ es hstep
        split at hexec
        · cases hexec
        · rename_i s₂ es' hrest
          cases hexec
          have hshows := ih (step_shows h hstep) hrest
          rw [List.append_assoc] at hshows
          rw [List.filterMap_cons]
          cases hstored : stored? i with
          | none => rwa [hstored] at hshows
          | some e => rwa [hstored] at hshows

theorem slot_eq {n total : Nat} (hn : n ≤ capacity) (htotal : n ≤ total) (j : Nat) :
    (((total % capacity : Nat) - (n : Int) + capacity * 2).tmod capacity + j).tmod capacity =
      ((total - n + j) % capacity : Nat) := by
  have hstart : ((total % capacity : Nat) - (n : Int) + capacity * 2) =
      ((total % capacity + (capacity * 2 - n) : Nat) : Int) := by
    omega
  have hmod : (total % capacity + (capacity * 2 - n)) % capacity = (total - n) % capacity := by
    have hwhole : total + (capacity * 2 - n) = total - n + capacity * 2 := by omega
    rw [Nat.mod_add_mod, hwhole, Nat.add_mul_mod_self_left]
  rw [hstart, ← Int.ofNat_tmod, ← Int.natCast_add, ← Int.ofNat_tmod, hmod, Nat.mod_add_mod]

theorem Shows.recent {events : List α} (h : Shows capacity s events) {k : Int} (hk : 1 ≤ k) :
    recent capacity s k =
      some (events.drop (events.length - min k.toNat (min events.length capacity))) := by
  have hcount : (if (capacity : Int) < s.total then (capacity : Int) else s.total) =
      (min events.length capacity : Nat) := by
    rw [h.total]
    split <;> omega
  have hmin : (if ((min events.length capacity : Nat) : Int) < k then
      ((min events.length capacity : Nat) : Int) else k) =
        (min k.toNat (min events.length capacity) : Nat) := by
    split <;> omega
  rw [RecentEvents.recent]
  dsimp only
  rw [hcount, hmin]
  generalize hn : min k.toNat (min events.length capacity) = n
  split
  · rename_i hzero
    obtain rfl : n = 0 := by omega
    rw [Nat.sub_zero, List.drop_length]
  · have hpositive : ¬((n : Int) < 0) := by omega
    rw [if_neg hpositive, Int.toNat_natCast, h.writeIdx]
    rw [← h.retained.last (by omega) (by omega)]
    congr 1
    apply List.map_congr_left
    intro j _
    rw [slot_eq (by omega) (by omega), Int.toNat_natCast]

theorem exec_publish {e : α} (hc : capacity ≠ 0) (hawaiting : s.awaiting = []) :
    ∃ s' tr, exec (step capacity) s (publish e) = some (s', tr) ∧ s'.awaiting = [] := by
  have hstore : ∃ s₁ tr₁, step capacity s (.store e) = some (s₁, tr₁) ∧
      s₁.awaiting = [(s.total, e)] := by
    refine ⟨_, _, if_neg hc, ?_⟩
    show s.awaiting ++ [(s.total, e)] = [(s.total, e)]
    rw [hawaiting, List.nil_append]
  obtain ⟨s₁, tr₁, hstore, hone⟩ := hstore
  have hfan : ∃ s₂ tr₂, step capacity s₁ (.fanOut 0) = some (s₂, tr₂) ∧ s₂.awaiting = [] := by
    simp only [step, hone, List.getElem?_cons_zero]
    exact ⟨_, _, rfl, rfl⟩
  obtain ⟨s₂, tr₂, hfan, hnone⟩ := hfan
  refine ⟨s₂, tr₁ ++ (tr₂ ++ []), ?_, hnone⟩
  simp only [publish, exec, hstore, hfan]

theorem exec_publishes (hc : capacity ≠ 0) (events : List α) (hawaiting : s.awaiting = []) :
    ∃ s' tr, exec (step capacity) s (events.flatMap publish) = some (s', tr) := by
  induction events generalizing s with
  | nil => exact ⟨s, [], rfl⟩
  | cons e events ih =>
      obtain ⟨s₁, tr₁, hone, hnone⟩ := exec_publish (e := e) hc hawaiting
      obtain ⟨s₂, tr₂, hrest⟩ := ih hnone
      exact ⟨s₂, tr₁ ++ tr₂, exec_append _ _ _ _ _ _ _ _ hone hrest⟩

theorem stored_publishes (events : List α) :
    (events.flatMap publish).filterMap stored? = events := by
  induction events with
  | nil => rfl
  | cons e events ih =>
      rw [List.flatMap_cons, List.filterMap_append, ih]
      rfl

/-- After any calls of `Publish`, `Recent` returns the last events in the order in which they were
published, as many as are asked for, were published and fit into the buffer. -/
theorem recent_published [Inhabited α] (hc : 1 ≤ capacity) {k : Int} (hk : 1 ≤ k) (events : List α) :
    ∃ s tr, exec (step capacity) init (events.flatMap publish) = some (s, tr) ∧
      recent capacity s k =
        some (events.drop (events.length - min k.toNat (min events.length capacity))) := by
  obtain ⟨s, tr, hexec⟩ := exec_publishes (s := (init : State α))
    (Nat.ne_of_gt hc) events rfl
  have hshows := exec_shows (init_shows capacity) hexec
  rw [stored_publishes, List.nil_append] at hshows
  exact ⟨s, tr, hexec, hshows.recent hk⟩

/-- Three events for two places, of which five are asked for. -/
theorem recent_of_three :
    ∃ s tr, exec (step 2) (init : State Nat) ([7, 8, 9].flatMap publish) = some (s, tr) ∧
      recent 2 s 5 = some [8, 9] :=
  recent_published (by decide) (by decide) [7, 8, 9]

end MobileCore.RecentEvents
