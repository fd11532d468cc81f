import MobileCore.PlaneAgreement
import MobileCore.SocketPath

namespace MobileCore.ForwardingActions

open FastPath (PathStats processPacket)
open LabelledRuns
open PacketRules
open PlaneAgreement (recordLatency_counters)

/-- A PDR matches the packet, its FAR exists, and this is its action. -/
def farActs (rules : RuleTable) (action : FarAction) (pkt : Packet) : Bool :=
  match rules.matchPdr pkt with
  | none => false
  | some pdr =>
    match rules.getFar pdr.farId with
    | none => false
    | some far => far.action = action

def count (forwarded : Bool) : UInt64 := if forwarded then 1 else 0

/-- In every state that a path comes to, a packet that it handles is counted as forwarded exactly
when its FAR says FORWARD, and a step that handles no packet counts none. -/
def Honours {σ ι ε : Type} (M : Machine σ ι ε) (init : σ) (stats : σ → PathStats)
    (handled : List ε → List Packet) (rules : RuleTable) (pkt : Packet) : Prop :=
  ∀ tr s i s' es, Reach M init tr s → M s i = some (s', es) →
    (handled es = [] → (stats s').pktsForwarded = (stats s).pktsForwarded) ∧
      (pkt ∈ handled es →
        (stats s').pktsForwarded = (stats s).pktsForwarded + count (farActs rules .forward pkt))

def handledBySocket (tr : List SocketPath.Event) : List Packet :=
  tr.filterMap fun
    | .handled pkt => some pkt
    | _ => none

/-- Both data paths, with every interleaving of their threads and every split into bursts. -/
def FarHonoured (rules : RuleTable) (pkt : Packet) : Prop :=
  Honours (FastPath.step rules) FastPath.init FastPath.State.stats FastPath.handled rules pkt ∧
    Honours (SocketPath.step rules) SocketPath.init SocketPath.State.stats handledBySocket rules pkt

theorem farActs_unmatched {rules : RuleTable} {pkt : Packet} (h : rules.matchPdr pkt = none)
    (action : FarAction) : farActs rules action pkt = false := by
  rw [farActs, h]

theorem processPacket_forwarded (rules : RuleTable) (nowNs : UInt64) (pkt : Packet)
    (stats : PathStats) :
    (processPacket rules nowNs pkt stats).2.pktsForwarded =
      stats.pktsForwarded + count (farActs rules .forward pkt || farActs rules .buffer pkt) := by
  have hnone (n : UInt64) : n = n + count false := (UInt64.add_zero n).symm
  simp only [processPacket, farActs]
  cases rules.matchPdr pkt with
  | none => exact hnone _
  | some pdr =>
      dsimp only
      cases rules.getFar pdr.farId with
      | none => exact hnone _
      | some far =>
          dsimp only
          cases haction : far.action with
          | drop => exact hnone _
          | forward => exact (recordLatency_counters _ _ _).2.1
          | buffer => exact (recordLatency_counters _ _ _).2.1

theorem forward_of_buffer {rules : RuleTable} {pkt : Packet}
    (h : farActs rules .buffer pkt = true) :
    farActs rules .forward pkt = false := by
  unfold farActs at h ⊢
  split
  · rfl
  · rename_i pdr hpdr
    rw [hpdr] at h
    dsimp only at h
    split
    · rfl
    · rename_i far hfar
      rw [hfar] at h
      rw [of_decide_eq_true h]
      rfl

section Steps

variable {rules : RuleTable}

theorem enqueueStep_forwarded {s s' : FastPath.State} {es : List FastPath.Event}
    (hstep : FastPath.enqueueStep s = some (s', es)) :
    FastPath.handled es = [] ∧ s'.stats.pktsForwarded = s.stats.pktsForwarded := by
  unfold FastPath.enqueueStep at hstep
  split at hstep
  · cases hstep
  · dsimp only at hstep
    split at hstep <;> cases hstep <;> exact ⟨rfl, rfl⟩
  · cases hstep
    exact ⟨rfl, rfl⟩
  · cases hstep
    exact ⟨rfl, rfl⟩
  · cases hstep
    exact ⟨rfl, rfl⟩
  · cases hstep
    exact ⟨rfl, rfl⟩
  · split at hstep <;> cases hstep
    exact ⟨rfl, rfl⟩
  · split at hstep <;> cases hstep <;> exact ⟨rfl, rfl⟩
  · cases hstep
    exact ⟨rfl, rfl⟩
  · cases hstep
    exact ⟨rfl, rfl⟩

theorem lcoreStep_forwarded {nowNs : UInt64} {s s' : FastPath.State} {es : List FastPath.Event}
    (hstep : FastPath.lcoreStep rules nowNs s = some (s', es)) :
    (FastPath.handled es = [] ∧ s'.stats.pktsForwarded = s.stats.pktsForwarded) ∨
      ∃ now pkt, FastPath.handled es = [pkt] ∧
        s'.stats = (processPacket rules now pkt s.stats).2 := by
  unfold FastPath.lcoreStep at hstep
  split at hstep
  · cases hstep
  · cases hstep
  · cases hstep
    exact Or.inl ⟨rfl, rfl⟩
  · split at hstep <;> cases hstep
    exact Or.inl ⟨rfl, rfl⟩
  · split at hstep <;> cases hstep <;> exact Or.inl ⟨rfl, rfl⟩
  · cases hstep
    exact Or.inl ⟨rfl, rfl⟩
  · cases hstep
    exact Or.inr ⟨_, _, rfl, rfl⟩
  · cases hstep
    exact Or.inl ⟨rfl, rfl⟩

theorem dpdk_forwarded {s s' : FastPath.State} {i : FastPath.Input} {es : List FastPath.Event}
    (hstep : FastPath.step rules s i = some (s', es)) :
    (FastPath.handled es = [] ∧ s'.stats.pktsForwarded = s.stats.pktsForwarded) ∨
      ∃ now pkt, FastPath.handled es = [pkt] ∧
        s'.stats = (processPacket rules now pkt s.stats).2 := by
  cases i with
  | start =>
      simp only [FastPath.step] at hstep
      split at hstep <;> cases hstep <;> exact Or.inl ⟨rfl, rfl⟩
  | stop =>
      cases hstep
      exact Or.inl ⟨rfl, rfl⟩
  | rxEnqueue pkt =>
      simp only [FastPath.step] at hstep
      split at hstep <;> cases hstep
      exact Or.inl ⟨rfl, rfl⟩
  | producer => exact Or.inl (enqueueStep_forwarded hstep)
  | lcore nowNs => exact lcoreStep_forwarded hstep

def Between (rules : RuleTable) (s : SocketPath.State) : Prop :=
  ∀ draining pkt, s.worker = .unmatched draining pkt → rules.matchPdr pkt = none

theorem workerStep_forwarded {nowNs : UInt64} {s s' : SocketPath.State}
    {es : List SocketPath.Event} (hbetween : Between rules s)
    (hstep : SocketPath.workerStep rules nowNs s = some (s', es)) :
    Between rules s' ∧
      ((handledBySocket es = [] ∧ s'.stats.pktsForwarded = s.stats.pktsForwarded) ∨
        ∃ pkt, handledBySocket es = [pkt] ∧ s'.stats.pktsForwarded =
          s.stats.pktsForwarded +
            count (farActs rules .forward pkt || farActs rules .buffer pkt)) := by
  have hloop (draining : Bool) (s : SocketPath.State) (stats : PathStats) :
      Between rules { s with stats := stats, worker := SocketPath.loop draining } := by
    intro draining' pkt hworker
    cases draining <;> cases hworker
  cases SocketPath.worked_of_workerStep hstep with
  | stops | exits | takes => exact ⟨(fun _ _ h => by cases h), Or.inl ⟨rfl, rfl⟩⟩
  | marks hworker hmatch =>
      refine ⟨fun _ _ h => ?_, Or.inl ⟨rfl, rfl⟩⟩
      cases h
      exact hmatch
  | @processes draining pkt pdr hworker hmatch =>
      exact ⟨hloop _ s _, Or.inr ⟨pkt, rfl, processPacket_forwarded rules nowNs pkt s.stats⟩⟩
  | @drops draining pkt hworker =>
      have hnone := hbetween draining pkt hworker
      refine ⟨hloop _ s _, Or.inr ⟨pkt, rfl, ?_⟩⟩
      rw [farActs_unmatched hnone, farActs_unmatched hnone]
      exact (UInt64.add_zero _).symm

theorem socket_forwarded {s s' : SocketPath.State} {i : SocketPath.Input}
    {es : List SocketPath.Event} (hbetween : Between rules s)
    (hstep : SocketPath.step rules s i = some (s', es)) :
    Between rules s' ∧
      ((handledBySocket es = [] ∧ s'.stats.pktsForwarded = s.stats.pktsForwarded) ∨
        ∃ pkt, handledBySocket es = [pkt] ∧ s'.stats.pktsForwarded =
          s.stats.pktsForwarded +
            count (farActs rules .forward pkt || farActs rules .buffer pkt)) := by
  cases i with
  | start =>
      simp only [SocketPath.step] at hstep
      split at hstep <;> cases hstep <;> exact ⟨(fun _ _ h => by cases h), Or.inl ⟨rfl, rfl⟩⟩
  | stop =>
      cases hstep
      exact ⟨hbetween, Or.inl ⟨rfl, rfl⟩⟩
  | enqueue pkt =>
      cases hstep
      exact ⟨hbetween, Or.inl ⟨rfl, rfl⟩⟩
  | producer n =>
      cases SocketPath.produced_of_producerStep hstep <;> exact ⟨hbetween, Or.inl ⟨rfl, rfl⟩⟩
  | worker nowNs => exact workerStep_forwarded hbetween hstep

theorem between_of_reach {tr : List SocketPath.Event} {s : SocketPath.State}
    (hrun : Reach (SocketPath.step rules) SocketPath.init tr s) : Between rules s := by
  refine hrun.invariant (I := fun _ s => Between rules s) (fun _ _ h => by cases h) ?_
  intro _ _ _ _ _ hbetween _ hstep
  exact (socket_forwarded hbetween hstep).1

def taken (pkt : Packet) : SocketPath.State :=
  { running := true, worker := .processing false pkt, stats := { pktsRx := 0 + 1 } }

theorem reach_taken (rules : RuleTable) (pkt : Packet) :
    Reach (SocketPath.step rules) SocketPath.init [.accepted pkt] (taken pkt) := by
  have h := Reach.start (SocketPath.step rules) SocketPath.init
  have h := Reach.silent h .start _ rfl
  have h := Reach.silent h (.enqueue pkt) _ rfl
  have h := Run.snoc (i := .producer 0) h trivial rfl
  exact Reach.silent h (.worker 0) _ rfl

end Steps

/-- The paths do what the FAR says exactly with the packets that no FAR tells them to buffer. -/
theorem far_honoured_iff (rules : RuleTable) (pkt : Packet) :
    FarHonoured rules pkt ↔ farActs rules .buffer pkt = false := by
  constructor
  · intro h
    by_contra hbuffer
    rw [Bool.not_eq_false] at hbuffer
    have hmatch : ∃ pdr, rules.matchPdr pkt = some pdr := by
      rw [← Option.ne_none_iff_exists']
      intro hnone
      rw [farActs_unmatched hnone] at hbuffer
      cases hbuffer
    obtain ⟨pdr, hmatch⟩ := hmatch
    have hstep : SocketPath.step rules (taken pkt) (.worker 0) =
        some ({ taken pkt with
          stats := (processPacket rules 0 pkt (taken pkt).stats).2, worker := .waiting },
          [.handled pkt]) := by
      simp only [SocketPath.step, SocketPath.workerStep, taken, hmatch]
      rfl
    have hcounted := (h.2 _ _ _ _ _ (reach_taken rules pkt) hstep).2 (List.mem_singleton_self pkt)
    rw [forward_of_buffer hbuffer] at hcounted
    have hforwarded := processPacket_forwarded rules 0 pkt (taken pkt).stats
    rw [hbuffer, Bool.or_true] at hforwarded
    have hsame := (UInt64.add_right_inj _).mp (hforwarded.symm.trans hcounted)
    revert hsame
    decide
  · intro hbuffer
    constructor
    · intro tr s i s' es _ hstep
      rcases dpdk_forwarded hstep with ⟨hquiet, hsame⟩ | ⟨now, other, hhandled, hstats⟩
      · rw [hquiet]
        exact ⟨fun _ => hsame, fun hmem => by cases hmem⟩
      · rw [hhandled]
        refine ⟨(fun hnil => by cases hnil), fun hmem => ?_⟩
        obtain rfl := List.mem_singleton.mp hmem
        have hforwarded := processPacket_forwarded rules now pkt s.stats
        rw [hbuffer, Bool.or_false, ← hstats] at hforwarded
        exact hforwarded
    · intro tr s i s' es hrun hstep
      obtain ⟨-, ⟨hquiet, hsame⟩ | ⟨other, hhandled, hforwarded⟩⟩ :=
        socket_forwarded (between_of_reach hrun) hstep
      · rw [hquiet]
        exact ⟨fun _ => hsame, fun hmem => by cases hmem⟩
      · rw [hhandled]
        refine ⟨(fun hnil => by cases hnil), fun hmem => ?_⟩
        obtain rfl := List.mem_singleton.mp hmem
        rw [hbuffer, Bool.or_false] at hforwarded
        exact hforwarded

/-- A FAR that tells the paths to hold the packet. -/
def bufferRules : RuleTable :=
  (({} : RuleTable).addPdr { pdrId := 1, teid := 1000, farId := 1 }).addFar
    { farId := 1, action := .buffer }

theorem not_far_honoured_buffer : ¬FarHonoured bufferRules { teid := 1000 } := by
  intro h
  have hstep : SocketPath.step bufferRules (taken { teid := 1000 }) (.worker 0) =
      some ({ taken { teid := 1000 } with
        stats := (processPacket bufferRules 0 { teid := 1000 } (taken { teid := 1000 }).stats).2
        worker := .waiting }, [.handled { teid := 1000 }]) := by
    rfl
  have hcounted := (h.2 _ _ _ _ _ (reach_taken bufferRules { teid := 1000 }) hstep).2
    (List.mem_singleton_self _)
  revert hcounted
  decide +kernel

end MobileCore.ForwardingActions
