import Mathlib.Data.Finset.Card
import Mathlib.Data.Finset.Dedup
import Mathlib.Data.Finset.SDiff
import MobileCore.LabelledRuns

/-!
# The clients of the visualisation server

Tasks give way to each other only where they wait, after each message that they write. A client's
task adds it to the set, greets it and replays the history to it; the task that reads the log
appends to the history and goes through the set. A set that has changed its size cannot be gone
through any further.
-/

namespace MobileCore.Visualiser

open MobileCore.LabelledRuns

/-- Where the task of a client is. One that has nothing left to replay waits for the connection to
close. -/
inductive Stage (μ : Type) where
  | absent
  | greeting
  | replaying (rest : List μ)
  | gone
deriving DecidableEq

/-- `rest` are the clients that the iterator has still to give, in its order, and `dead` those whose
connection was closed when their turn came. The server also takes out a client whose connection
closes while the send to it is awaited; here that client stays until its own task leaves. -/
structure Broadcast (μ : Type) where
  msg : μ
  size : Nat
  rest : List Nat
  dead : Finset Nat := ∅
  changed : Bool := false

/-- A client is `reachable` while its connection is open. `polling` ends with the task that reads
the log. -/
structure State (μ : Type) where
  connected : Finset Nat := ∅
  history : List μ := []
  stage : Nat → Stage μ := fun _ => .absent
  reachable : Finset Nat := ∅
  broadcast : Option (Broadcast μ) := none
  polling : Bool := true

/-- Where the set has changed, but not its size, the iterator may give any client next. -/
inductive Input (μ : Type) where
  | connect (c : Nat)
  | resume (c : Nat)
  | replay (c : Nat)
  | close (c : Nat)
  | leave (c : Nat)
  | publish (msg : μ) (order : List Nat)
  | advance (pick : Option Nat)

inductive Event (μ : Type) where
  | sent (c : Nat) (msg : μ)
  | aborted
deriving DecidableEq

section Steps

variable {μ : Type}

/-- A broadcast that is under way goes through another set. -/
def touch (changed : Bool) (b : Option (Broadcast μ)) : Option (Broadcast μ) :=
  b.map fun b => { b with changed := b.changed || changed }

def State.replayNext (s : State μ) (c : Nat) : List μ → State μ × List (Event μ)
  | [] => ({ s with stage := Function.update s.stage c (.replaying []) }, [])
  | msg :: rest => ({ s with stage := Function.update s.stage c (.replaying rest) }, [.sent c msg])

def State.next (s : State μ) (b : Broadcast μ) (pick : Option Nat) : State μ × List (Event μ) :=
  if s.connected.card ≠ b.size then ({ s with broadcast := none, polling := false }, [.aborted])
  else
    match if b.changed then pick else b.rest.head? with
    | none => ({ s with connected := s.connected \ b.dead, broadcast := none }, [])
    | some c =>
      if c ∈ s.reachable then
        ({ s with broadcast := some { b with rest := b.rest.tail } }, [.sent c b.msg])
      else
        ({ s with broadcast := some { b with rest := b.rest.tail, dead := insert c b.dead } }, [])

def step [DecidableEq μ] : Machine (State μ) (Input μ) (Event μ)
  | s, .connect c =>
    if s.stage c = .absent then
      some ({ s with
        connected := insert c s.connected
        stage := Function.update s.stage c .greeting
        reachable := insert c s.reachable
        broadcast := touch (c ∉ s.connected) s.broadcast }, [])
    else none
  | s, .resume c =>
    if s.stage c = .greeting ∧ c ∈ s.reachable then some (s.replayNext c s.history) else none
  | s, .replay c =>
    match s.stage c with
    | .replaying (msg :: rest) =>
      if c ∈ s.reachable then some (s.replayNext c (msg :: rest)) else none
    | _ => none
  | s, .close c =>
    if c ∈ s.reachable then some ({ s with reachable := s.reachable.erase c }, []) else none
  | s, .leave c =>
    if s.stage c = .absent ∨ s.stage c = .gone ∨ c ∈ s.reachable then none
    else
      some ({ s with
        connected := s.connected.erase c
        stage := Function.update s.stage c .gone
        broadcast := touch (c ∈ s.connected) s.broadcast }, [])
  | s, .publish msg order =>
    if s.polling ∧ s.broadcast.isNone ∧ order.Nodup ∧ order.toFinset = s.connected then
      some ({ s with history := s.history ++ [msg] }.next
        { msg := msg, size := s.connected.card, rest := order } none)
    else none
  | s, .advance pick =>
    match s.broadcast with
    | none => none
    | some b => if ∀ c ∈ pick, c ∈ s.connected then some (s.next b pick) else none

def init : State μ := {}

def receivedBy (c : Nat) (tr : List (Event μ)) : List μ :=
  tr.filterMap fun
    | .sent c' msg => if c' = c then some msg else none
    | .aborted => none

/-- Every client that has stayed connected has received the history in order, all of it when its
replay and the broadcast are over, and no broadcast has been aborted. -/
structure Delivers (tr : List (Event μ)) (s : State μ) : Prop where
  inOrder : ∀ c ∈ s.reachable, receivedBy c tr <+: s.history
  whole : ∀ c ∈ s.reachable, s.stage c = .replaying [] → s.broadcast = none →
    receivedBy c tr = s.history
  kept : .aborted ∉ tr

/-- The client that a broadcast comes to next has been replayed the whole history. -/
def Replayed (s : State μ) (rest : List Nat) : Prop :=
  ∀ c ∈ rest.head?, c ∈ s.reachable → s.stage c = .replaying []

/-- The set stays the same during a broadcast, no replay starts during one, and none comes to a
client before its replay is over. -/
def Apart (_ : List (Event μ)) (s : State μ) : Input μ → Prop
  | .connect _ | .resume _ => s.broadcast.isNone
  | .leave c => c ∈ s.connected → s.broadcast.isNone
  | .publish _ order => Replayed s order
  | .advance _ => ∀ b ∈ s.broadcast, Replayed s b.rest
  | .replay _ | .close _ => True

instance [DecidableEq μ] (s : State μ) (rest : List Nat) : Decidable (Replayed s rest) :=
  inferInstanceAs (Decidable (∀ c ∈ rest.head?, _))

instance [DecidableEq μ] (tr : List (Event μ)) (s : State μ) : DecidablePred (Apart tr s)
  | .connect _ => inferInstanceAs (Decidable (s.broadcast.isNone = true))
  | .resume _ => inferInstanceAs (Decidable (s.broadcast.isNone = true))
  | .leave c => inferInstanceAs (Decidable (c ∈ s.connected → s.broadcast.isNone = true))
  | .publish _ order => inferInstanceAs (Decidable (Replayed s order))
  | .advance _ => inferInstanceAs (Decidable (∀ b ∈ s.broadcast, Replayed s b.rest))
  | .replay _ => .isTrue trivial
  | .close _ => .isTrue trivial

end Steps

section Runs

variable {μ : Type} {tr es : List (Event μ)} {s s' : State μ} {c : Nat}

theorem receivedBy_append (c : Nat) (tr es : List (Event μ)) :
    receivedBy c (tr ++ es) = receivedBy c tr ++ receivedBy c es := List.filterMap_append

theorem receivedBy_sent (c c' : Nat) (msg : μ) (tr : List (Event μ)) :
    receivedBy c (tr ++ [.sent c' msg]) = receivedBy c tr ++ if c' = c then [msg] else [] := by
  rw [receivedBy_append]
  by_cases h : c' = c <;> simp [receivedBy, h]

/-- What a broadcast that is under way has still to send to a client. -/
def awaited (b : Option (Broadcast μ)) (c : Nat) : List μ :=
  match b with
  | none => []
  | some b => if c ∈ b.rest then [b.msg] else []

/-- What a client that is connected has still to receive. -/
def pending (s : State μ) (c : Nat) : List μ :=
  match s.stage c with
  | .absent | .gone => []
  | .greeting => s.history
  | .replaying rest => rest ++ awaited s.broadcast c

/-- A broadcast goes through the clients of an unchanged set. -/
structure Fits (s : State μ) (b : Broadcast μ) : Prop where
  size : s.connected.card = b.size
  unchanged : b.changed = false
  nodup : b.rest.Nodup
  dead : ∀ c ∈ b.dead, c ∉ s.reachable

structure Tracks (tr : List (Event μ)) (s : State μ) : Prop where
  known : ∀ c ∈ s.reachable, c ∈ s.connected ∧ s.stage c ≠ .absent ∧ s.stage c ≠ .gone
  fresh : ∀ c, s.stage c = .absent → receivedBy c tr = []
  received : ∀ c ∈ s.reachable, receivedBy c tr ++ pending s c = s.history
  fits : ∀ b ∈ s.broadcast, Fits s b
  kept : .aborted ∉ tr

theorem tracks_init : Tracks [] (init : State μ) where
  known _ h := by cases h
  fresh _ _ := rfl
  received _ h := by cases h
  fits _ h := by cases h
  kept h := by cases h

theorem Tracks.delivers (h : Tracks tr s) : Delivers tr s where
  inOrder c hc := ⟨_, h.received c hc⟩
  whole c hc hstage hbroadcast := by
    have hreceived := h.received c hc
    simp only [pending, hstage, hbroadcast, awaited, List.append_nil] at hreceived
    exact hreceived
  kept := h.kept

theorem stage_update {stage : Stage μ} {k : Nat} (hstage : stage ≠ .absent)
    (hk : Function.update s.stage c stage k = .absent) : k ≠ c ∧ s.stage k = .absent := by
  rcases eq_or_ne k c with rfl | hkc
  · rw [Function.update_self] at hk
    exact absurd hk hstage
  · rw [Function.update_of_ne hkc] at hk
    exact ⟨hkc, hk⟩

theorem Tracks.connect (h : Tracks tr s) (hstage : s.stage c = .absent)
    (hnone : s.broadcast = none) :
    Tracks tr { s with
      connected := insert c s.connected
      stage := Function.update s.stage c .greeting
      reachable := insert c s.reachable
      broadcast := touch (c ∉ s.connected) s.broadcast } where
  known k hk := by
    rcases eq_or_ne k c with rfl | hkc
    · simp
    · obtain ⟨hconnected, hknown⟩ := h.known k (Finset.mem_of_mem_insert_of_ne hk hkc)
      simpa [hkc] using ⟨hconnected, hknown⟩
  fresh k hk := h.fresh k (stage_update (by simp) hk).2
  received k hk := by
    rcases eq_or_ne k c with rfl | hkc
    · simp [pending, h.fresh k hstage]
    · have hreceived := h.received k (Finset.mem_of_mem_insert_of_ne hk hkc)
      simpa [pending, hkc, hnone, touch] using hreceived
  fits b hb := by
    rw [hnone] at hb
    cases hb
  kept := h.kept

theorem replayNext_eq (s : State μ) (c : Nat) (msgs : List μ) : s.replayNext c msgs =
    ({ s with stage := Function.update s.stage c (.replaying msgs.tail) },
      msgs.head?.toList.map (.sent c)) := by
  cases msgs <;> rfl

theorem receivedBy_replayNext (k : Nat) (tr : List (Event μ)) (s : State μ) (msgs : List μ) :
    receivedBy k (tr ++ (s.replayNext c msgs).2) =
      receivedBy k tr ++ if c = k then msgs.head?.toList else [] := by
  cases msgs with
  | nil => simp [replayNext_eq]
  | cons msg rest => exact receivedBy_sent k c msg tr

theorem Tracks.replayed (h : Tracks tr s) (hc : c ∈ s.reachable) {msgs : List μ}
    (hmsgs : pending s c = msgs ++ awaited s.broadcast c) :
    Tracks (tr ++ (s.replayNext c msgs).2) (s.replayNext c msgs).1 := by
  have hfirst : msgs.head?.toList ++ msgs.tail = msgs := by cases msgs <;> rfl
  have hstate : (s.replayNext c msgs).1 =
      { s with stage := Function.update s.stage c (.replaying msgs.tail) } := by
    rw [replayNext_eq]
  rw [hstate]
  refine ⟨fun k hk => ?_, fun k hk => ?_, fun k hk => ?_, fun b hb => ?_, ?_⟩
  · rcases eq_or_ne k c with rfl | hkc
    · simpa using (h.known k hc).1
    · simpa [hkc] using h.known k hk
  · obtain ⟨hkc, habsent⟩ := stage_update (by simp) hk
    rw [receivedBy_replayNext, if_neg (Ne.symm hkc), List.append_nil]
    exact h.fresh k habsent
  · rw [receivedBy_replayNext]
    rcases eq_or_ne k c with rfl | hkc
    · have hreceived := h.received k hc
      rw [hmsgs, ← hfirst] at hreceived
      simpa [pending] using hreceived
    · simpa [pending, hkc, Ne.symm hkc] using h.received k hk
  · have hfits := h.fits b hb
    exact ⟨hfits.size, hfits.unchanged, hfits.nodup, hfits.dead⟩
  · simpa [replayNext_eq] using h.kept

theorem Tracks.closed (h : Tracks tr s) : Tracks tr { s with reachable := s.reachable.erase c } where
  known k hk := h.known k (Finset.mem_of_mem_erase hk)
  fresh := h.fresh
  received k hk := h.received k (Finset.mem_of_mem_erase hk)
  fits b hb := by
    have hfits := h.fits b hb
    exact ⟨hfits.size, hfits.unchanged, hfits.nodup,
      fun k hk => mt Finset.mem_of_mem_erase (hfits.dead k hk)⟩
  kept := h.kept

theorem touch_false (b : Option (Broadcast μ)) : touch false b = b := by
  cases b with
  | none => rfl
  | some b => simp [touch]

theorem Tracks.left (h : Tracks tr s) (hc : c ∉ s.reachable)
    (hguard : c ∈ s.connected → s.broadcast = none) :
    Tracks tr { s with
      connected := s.connected.erase c
      stage := Function.update s.stage c .gone
      broadcast := touch (c ∈ s.connected) s.broadcast } := by
  have hkept : touch (c ∈ s.connected) s.broadcast = s.broadcast := by
    by_cases hconnected : c ∈ s.connected
    · rw [hguard hconnected]
      rfl
    · rw [decide_eq_false hconnected, touch_false]
  rw [hkept]
  refine ⟨fun k hk => ?_, fun k hk => ?_, fun k hk => ?_, fun b hb => ?_, h.kept⟩
  · have hkc : k ≠ c := fun heq => hc (heq ▸ hk)
    simpa [hkc] using h.known k hk
  · exact h.fresh k (stage_update (by simp) hk).2
  · have hkc : k ≠ c := fun heq => hc (heq ▸ hk)
    simpa [pending, hkc] using h.received k hk
  · have hfits := h.fits b hb
    have hconnected : c ∉ s.connected := by
      intro hconnected
      rw [hguard hconnected] at hb
      cases hb
    refine ⟨?_, hfits.unchanged, hfits.nodup, hfits.dead⟩
    rw [Finset.erase_eq_of_notMem hconnected]
    exact hfits.size

theorem Tracks.published (h : Tracks tr s) (hnone : s.broadcast = none) (msg : μ)
    {order : List Nat} (hnodup : order.Nodup) (horder : order.toFinset = s.connected) :
    Tracks tr { s with
      history := s.history ++ [msg]
      broadcast := some { msg := msg, size := s.connected.card, rest := order } } where
  known := h.known
  fresh := h.fresh
  received c hc := by
    have hmem : c ∈ order := List.mem_toFinset.mp (horder ▸ (h.known c hc).1)
    have hreceived := h.received c hc
    obtain ⟨-, habsent, hgone⟩ := h.known c hc
    cases hstage : s.stage c with
    | absent => exact absurd hstage habsent
    | gone => exact absurd hstage hgone
    | greeting =>
        -- Nothing has been sent to it yet, and its replay will take the history as it is now.
        simp only [pending, hstage] at hreceived ⊢
        rw [List.append_left_eq_self.mp hreceived, List.nil_append]
    | replaying rest =>
        simp only [pending, hstage, hnone, awaited, List.append_nil] at hreceived ⊢
        rw [if_pos hmem, ← List.append_assoc, hreceived]
  fits b hb := by
    obtain rfl := Option.some.inj hb
    exact ⟨rfl, rfl, hnodup, by simp⟩
  kept := h.kept

theorem Tracks.next (h : Tracks tr s) {b : Broadcast μ} (hb : s.broadcast = some b)
    (hreplayed : Replayed s b.rest) (pick : Option Nat) :
    Tracks (tr ++ (s.next b pick).2) (s.next b pick).1 := by
  have hfits := h.fits b hb
  have hnext : s.next b pick = match b.rest.head? with
      | none => ({ s with connected := s.connected \ b.dead, broadcast := none }, [])
      | some c =>
        if c ∈ s.reachable then
          ({ s with broadcast := some { b with rest := b.rest.tail } }, [.sent c b.msg])
        else
          ({ s with broadcast := some { b with rest := b.rest.tail, dead := insert c b.dead } },
            []) := by
    rw [State.next, if_neg (not_not.mpr hfits.size), hfits.unchanged]
    rfl
  rw [hnext]
  cases hrest : b.rest with
  | nil =>
      rw [List.head?_nil, List.append_nil]
      refine ⟨fun k hk => ?_, h.fresh, fun k hk => ?_, (fun _ hb => by cases hb), h.kept⟩
      · obtain ⟨hconnected, hstage⟩ := h.known k hk
        exact ⟨Finset.mem_sdiff.mpr ⟨hconnected, fun hdead => hfits.dead k hdead hk⟩, hstage⟩
      · simpa [pending, awaited, hb, hrest] using h.received k hk
  | cons c rest =>
      obtain ⟨hc, hnodup⟩ := List.nodup_cons.mp (hrest ▸ hfits.nodup)
      simp only [List.head?_cons, List.tail_cons]
      split
      · rename_i hreachable
        have hstage : s.stage c = .replaying [] := hreplayed c (by rw [hrest]; rfl) hreachable
        refine ⟨h.known, fun k hk => ?_, fun k hk => ?_, fun b' hb' => ?_, by simpa using h.kept⟩
        · have hkc : k ≠ c := by
            rintro rfl
            exact (h.known k hreachable).2.1 hk
          rw [receivedBy_sent, if_neg (Ne.symm hkc), List.append_nil]
          exact h.fresh k hk
        · have hreceived := h.received k hk
          rw [receivedBy_sent]
          rcases eq_or_ne k c with rfl | hkc
          · simpa [pending, awaited, hstage, hb, hrest, hc] using hreceived
          · simpa [pending, awaited, hb, hrest, hkc, Ne.symm hkc] using hreceived
        · obtain rfl := Option.some.inj hb'
          exact ⟨hfits.size, hfits.unchanged, hnodup, hfits.dead⟩
      · rename_i hclosed
        rw [List.append_nil]
        refine ⟨h.known, h.fresh, fun k hk => ?_, fun b' hb' => ?_, h.kept⟩
        · have hkc : k ≠ c := fun heq => hclosed (heq ▸ hk)
          simpa [pending, awaited, hb, hrest, hkc] using h.received k hk
        · obtain rfl := Option.some.inj hb'
          refine ⟨hfits.size, hfits.unchanged, hnodup, fun k hk => ?_⟩
          rcases Finset.mem_insert.mp hk with rfl | hdead
          · exact hclosed
          · exact hfits.dead k hdead

theorem tracks_step [DecidableEq μ] {i : Input μ} (h : Tracks tr s) (hguard : Apart tr s i)
    (hstep : step s i = some (s', es)) : Tracks (tr ++ es) s' := by
  cases i with
  | connect c =>
      simp only [step] at hstep
      split at hstep <;> cases hstep
      rename_i hstage
      rw [List.append_nil]
      exact h.connect hstage (Option.isNone_iff_eq_none.mp hguard)
  | resume c =>
      simp only [step] at hstep
      split at hstep
      · rename_i hresume
        obtain ⟨rfl, rfl⟩ := Prod.ext_iff.mp (Option.some.inj hstep)
        have hnone : s.broadcast = none := Option.isNone_iff_eq_none.mp hguard
        refine h.replayed hresume.2 ?_
        simp only [pending, hresume.1, hnone, awaited, List.append_nil]
      · cases hstep
  | replay c =>
      simp only [step] at hstep
      split at hstep
      · rename_i msg rest hstage
        split at hstep
        · rename_i hc
          obtain ⟨rfl, rfl⟩ := Prod.ext_iff.mp (Option.some.inj hstep)
          refine h.replayed hc ?_
          simp only [pending, hstage]
        · cases hstep
      · cases hstep
  | close c =>
      simp only [step] at hstep
      split at hstep <;> cases hstep
      rw [List.append_nil]
      exact h.closed
  | leave c =>
      simp only [step] at hstep
      split at hstep <;> cases hstep
      rename_i hleave
      rw [List.append_nil]
      refine h.left (fun hc => hleave (Or.inr (Or.inr hc))) fun hconnected => ?_
      exact Option.isNone_iff_eq_none.mp (hguard hconnected)
  | publish msg order =>
      simp only [step] at hstep
      split at hstep
      · rename_i hpublish
        obtain ⟨-, hnone, hnodup, horder⟩ := hpublish
        obtain ⟨rfl, rfl⟩ := Prod.ext_iff.mp (Option.some.inj hstep)
        have hpublished := h.published (Option.isNone_iff_eq_none.mp hnone) msg hnodup horder
        exact hpublished.next rfl hguard none
      · cases hstep
  | advance pick =>
      simp only [step] at hstep
      split at hstep
      · cases hstep
      · rename_i b hb
        split at hstep
        · obtain ⟨rfl, rfl⟩ := Prod.ext_iff.mp (Option.some.inj hstep)
          exact h.next hb (hguard b hb) pick
        · cases hstep

/-- As long as broadcasts keep apart from clients that come, go or are replayed the history, every
client receives it once and in order. -/
theorem delivers_of_apart (μ : Type) [DecidableEq μ] (tr : List (Event μ)) (s : State μ)
    (hrun : Run step Apart init tr s) : Delivers tr s := by
  have htracks : Tracks tr s := by
    refine hrun.invariant (I := fun tr s => Tracks tr s) tracks_init ?_
    intro _ _ _ _ _ h hguard hstep
    exact tracks_step h hguard hstep
  exact htracks.delivers

end Runs

section Schedules

/-- Two clients of which one comes late, and one that goes. -/
theorem delivers_late : ∃ tr, ∃ s : State Nat, Delivers tr s ∧ receivedBy 1 tr = [7, 8, 9] := by
  have hexec : (exec step (init : State Nat) [.connect 0, .resume 0, .publish 7 [0], .advance none,
      .publish 8 [0], .advance none, .connect 1, .resume 1, .replay 1, .publish 9 [1, 0], .close 0,
      .advance none, .advance none, .leave 0]).map (fun r => receivedBy 1 r.2) =
        some [7, 8, 9] := by decide +kernel
  obtain ⟨tr, s, hrun, hseen⟩ := exists_run_of_exec (P := Apart) _ (by decide +kernel) hexec
  exact ⟨tr, s, delivers_of_apart Nat tr s hrun, hseen⟩

/-- A client connects during a broadcast, which is then aborted. -/
theorem not_delivers_connect : ¬∀ (tr : List (Event Nat)) (s : State Nat),
    Reach step init tr s → Delivers tr s := by
  intro h
  have hexec : (exec step (init : State Nat) [.connect 0, .resume 0, .publish 7 [0], .connect 1,
      .advance none]).map (fun r => decide (.aborted ∈ r.2)) = some true := by decide +kernel
  obtain ⟨tr, s, hrun, hseen⟩ := exists_reach_of_exec hexec
  exact (h tr s hrun).kept (of_decide_eq_true hseen)

end Schedules

end MobileCore.Visualiser
