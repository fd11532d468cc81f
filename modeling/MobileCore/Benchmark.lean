import Mathlib.Data.List.Perm.Subperm
import MobileCore.PacketCounters

/-!
# The benchmark of the data planes

`run_socket_bench` and `run_dpdk_bench` are one program over two planes. A thread sends every
packet and tries again after a failed `enqueue`; once it has been joined, `wait_until_done` polls
the counters of the plane.
-/

namespace MobileCore.Benchmark

open MobileCore.FastPath (PathStats)
open MobileCore.LabelledRuns
open MobileCore.PacketRules

/-- A data plane as the benchmark uses it. Its own steps are those of its worker and of the call of
`enqueue` under way. -/
structure Plane (σ ι ε : Type) where
  machine : Machine σ ι ε
  init : σ
  start : ι
  stop : ι
  enqueue : Packet → ι
  own : ι → Bool
  stats : σ → PathStats
  accepted? : ε → Option Packet
  rejected? : ε → Option Packet
  handled? : ε → Option Packet

variable {σ ι ε : Type}

namespace Plane

def accepted (P : Plane σ ι ε) (tr : List ε) : List Packet := tr.filterMap P.accepted?

def rejected (P : Plane σ ι ε) (tr : List ε) : List Packet := tr.filterMap P.rejected?

def handled (P : Plane σ ι ε) (tr : List ε) : List Packet := tr.filterMap P.handled?

@[simp] theorem accepted_nil (P : Plane σ ι ε) : P.accepted [] = [] := rfl

@[simp] theorem rejected_nil (P : Plane σ ι ε) : P.rejected [] = [] := rfl

@[simp] theorem accepted_append (P : Plane σ ι ε) (tr es : List ε) :
    P.accepted (tr ++ es) = P.accepted tr ++ P.accepted es := List.filterMap_append

@[simp] theorem rejected_append (P : Plane σ ι ε) (tr es : List ε) :
    P.rejected (tr ++ es) = P.rejected tr ++ P.rejected es := List.filterMap_append

@[simp] theorem handled_append (P : Plane σ ι ε) (tr es : List ε) :
    P.handled (tr ++ es) = P.handled tr ++ P.handled es := List.filterMap_append

def operand (P : Plane σ ι ε) (s : σ) : Bool → UInt64
  | true => (P.stats s).pktsForwarded
  | false => (P.stats s).pktsDropped

end Plane

/-- The packets of a vector, whose size is a `size_t`. -/
structure Packets where
  list : List Packet
  size_lt : list.length < 2 ^ 64

/-- Where the benchmark is: the sending thread up to `wait`, the main thread from there on. -/
inductive Pc where
  | start
  | send (rest : List Packet)
  | attempt (pkt : Packet) (rest : List Packet)
  | calling (pkt : Packet) (rest : List Packet)
  | wait
  | loaded (forwardedFirst : Bool) (count : UInt64)
  | stop (ok : Bool)
  | finished (ok : Bool)

structure State (σ : Type) where
  plane : σ
  pc : Pc := .start

/-- What the clocks show at a step of the benchmark, and the operand of the sum that is loaded
first, which the language leaves open. -/
structure Choice where
  nowNs : UInt64 := 0
  inTime : Bool := true
  forwardedFirst : Bool := true

inductive Input (ι : Type) where
  | bench (choice : Choice)
  | plane (i : ι)

/-- The call of `enqueue` under way returns with the event that ends it. -/
def returned (P : Plane σ ι ε) (es : List ε) : Pc → Pc
  | .calling pkt rest =>
    match P.accepted es, P.rejected es with
    | _ :: _, _ => .send rest
    | [], _ :: _ => .attempt pkt rest
    | [], [] => .calling pkt rest
  | pc => pc

def call (P : Plane σ ι ε) (s : State σ) (i : ι) (pc : Pc) : Option (State σ × List ε) :=
  (P.machine s.plane i).map fun r => (⟨r.1, pc⟩, r.2)

def benchStep (P : Plane σ ι ε) (pkts : Packets) (s : State σ) (choice : Choice) :
    Option (State σ × List ε) :=
  match s.pc with
  | .start => call P s P.start (.send pkts.list)
  | .send [] => some ({ s with pc := .wait }, [])
  | .send (pkt :: rest) =>
    some ({ s with pc := .attempt { pkt with arrivalNs := choice.nowNs } rest }, [])
  | .attempt pkt rest => call P s (P.enqueue pkt) (.calling pkt rest)
  | .calling _ _ => none
  | .wait =>
    if choice.inTime then
      let first := choice.forwardedFirst
      some ({ s with pc := .loaded first (P.operand s.plane first) }, [])
    else some ({ s with pc := .stop false }, [])
  | .loaded first count =>
    if UInt64.ofNat pkts.list.length ≤ count + P.operand s.plane (!first) then
      some ({ s with pc := .stop true }, [])
    else some ({ s with pc := .wait }, [])
  | .stop ok => call P s P.stop (.finished ok)
  | .finished _ => none

def step (P : Plane σ ι ε) (pkts : Packets) : Machine (State σ) (Input ι) ε
  | s, .bench choice => benchStep P pkts s choice
  | s, .plane i => if P.own i then
      (P.machine s.plane i).map fun r => (⟨r.1, returned P r.2 s.pc⟩, r.2)
    else none

def init (P : Plane σ ι ε) : State σ := { plane := P.init }

def Pc.succeeded : Pc → Bool
  | .stop ok => ok
  | .finished ok => ok
  | _ => false

/-- What is sent is the packet with the time at which it was sent. -/
def Stamped (pkt sent : Packet) : Prop := sent = { pkt with arrivalNs := sent.arrivalNs }

def AllHandled (P : Plane σ ι ε) (pkts : Packets) (tr : List ε) : Prop :=
  ∃ sent, List.Forall₂ Stamped pkts.list sent ∧ sent.Subperm (P.handled tr)

/-- `wait_until_done` returns true only when every packet of the list has been handled. -/
def Complete (P : Plane σ ι ε) (pkts : Packets) (tr : List ε) (s : State σ) : Prop :=
  s.pc.succeeded = true → AllHandled P pkts tr

/-- The runs of the benchmark in which the plane's own steps meet a guard. -/
def Guarded (guard : List ε → σ → ι → Prop) (tr : List ε) (s : State σ) : Input ι → Prop
  | .bench _ => True
  | .plane i => guard tr s.plane i

instance (guard : List ε → σ → ι → Prop) [∀ tr s i, Decidable (guard tr s i)] (tr : List ε)
    (s : State σ) (j : Input ι) : Decidable (Guarded guard tr s j) := by
  unfold Guarded
  split <;> infer_instance

/-- What the plane does under the guard: with `pending` the packets of the calls under way and
`held` the number of those accepted and not counted yet, no call fails, the packets forwarded or
dropped are the accepted ones that are not held, and each of them has been handled. -/
structure Delivers (P : Plane σ ι ε) (guard : List ε → σ → ι → Prop) (pending : σ → List Packet)
    (held : σ → Nat) : Prop where
  free : ∀ tr s i, P.own i = false → guard tr s i
  starts : P.own P.start = false
  stops : P.own P.stop = false
  enqueues : ∀ pkt, P.own (P.enqueue pkt) = false
  idle : pending P.init = []
  controlled : ∀ s i s' es, i = P.start ∨ i = P.stop → P.machine s i = some (s', es) →
    es = [] ∧ pending s' = pending s
  called : ∀ s pkt s' es, P.machine s (P.enqueue pkt) = some (s', es) →
    es = [] ∧ pending s' = pending s ++ [pkt]
  answered : ∀ tr s i s' es, Run P.machine guard P.init tr s → guard tr s i → P.own i = true →
    P.machine s i = some (s', es) → (pending s).length ≤ 1 →
      P.rejected es = [] ∧ pending s = P.accepted es ++ pending s'
  counted : ∀ tr s, Run P.machine guard P.init tr s → ∃ forwarded dropped : Nat,
    (P.stats s).pktsForwarded = UInt64.ofNat forwarded ∧
      (P.stats s).pktsDropped = UInt64.ofNat dropped ∧
      forwarded + dropped + held s = (P.accepted tr).length
  delivered : ∀ tr s, Run P.machine guard P.init tr s → held s = 0 → P.handled tr = P.accepted tr
  counts : ∀ tr s i s' es, Run P.machine guard P.init tr s → guard tr s i → P.own i = true →
    P.machine s i = some (s', es) → ∀ first, P.operand s' first = P.operand s first ∨
      (0 < held s ∧ P.operand s' first = P.operand s first + 1)

section Delivery

variable {P : Plane σ ι ε} {guard : List ε → σ → ι → Prop} {pending : σ → List Packet}
  {held : σ → Nat} {pkts : Packets} {tr es : List ε} {s s' : State σ} {plane plane' : σ} {i : ι}
  {pkt sent : Packet} {rest : List Packet}

def SentBefore (P : Plane σ ι ε) (pkts : Packets) (tr : List ε) (rest : List Packet) : Prop :=
  ∃ before, pkts.list = before ++ rest ∧ List.Forall₂ Stamped before (P.accepted tr)

theorem SentBefore.silent (h : SentBefore P pkts tr rest) (hes : P.accepted es = []) :
    SentBefore P pkts (tr ++ es) rest := by
  rw [SentBefore, Plane.accepted_append, hes, List.append_nil]
  exact h

theorem SentBefore.accept (h : SentBefore P pkts tr (pkt :: rest)) (hstamped : Stamped pkt sent)
    (hes : P.accepted es = [sent]) : SentBefore P pkts (tr ++ es) rest := by
  obtain ⟨before, hlist, hall⟩ := h
  refine ⟨before ++ [pkt], ?_, ?_⟩
  · rw [hlist, List.append_assoc, List.singleton_append]
  · rw [Plane.accepted_append, hes]
    exact List.rel_append hall (.cons hstamped .nil)

theorem SentBefore.all (h : SentBefore P pkts tr []) :
    List.Forall₂ Stamped pkts.list (P.accepted tr) := by
  obtain ⟨before, hlist, hall⟩ := h
  rw [hlist, List.append_nil]
  exact hall

theorem SentBefore.length_lt (h : SentBefore P pkts tr []) : (P.accepted tr).length < 2 ^ 64 := by
  rw [← h.all.length_eq]
  exact pkts.size_lt

theorem AllHandled.append (h : AllHandled P pkts tr) (es : List ε) : AllHandled P pkts (tr ++ es) := by
  obtain ⟨sent, hall, hhandled⟩ := h
  refine ⟨sent, hall, hhandled.trans ?_⟩
  rw [Plane.handled_append]
  exact (List.sublist_append_left _ _).subperm

theorem operand_le (hd : Delivers P guard pending held) (hrun : Run P.machine guard P.init tr plane)
    (hguard : guard tr plane i) (hown : P.own i = true)
    (hstep : P.machine plane i = some (plane', es)) (hfew : (P.accepted tr).length < 2 ^ 64)
    (first : Bool) : P.operand plane first ≤ P.operand plane' first := by
  rcases hd.counts tr plane i plane' es hrun hguard hown hstep first with hsame | ⟨hheld, hnext⟩
  · rw [hsame]
    exact UInt64.le_refl _
  · obtain ⟨forwarded, dropped, hforwarded, hdropped, hsum⟩ := hd.counted tr plane hrun
    have hsmall : ∃ n, P.operand plane first = UInt64.ofNat n ∧ n + 1 < 2 ^ 64 := by
      cases first with
      | true => exact ⟨forwarded, hforwarded, by omega⟩
      | false => exact ⟨dropped, hdropped, by omega⟩
    obtain ⟨n, hn, hlt⟩ := hsmall
    rw [hnext, hn, UInt64.le_iff_toNat_le, ← PacketCounters.ofNat_succ, UInt64.toNat_ofNat',
      UInt64.toNat_ofNat', Nat.mod_eq_of_lt hlt]
    exact (Nat.mod_le n _).trans (Nat.le_succ n)

/-- When the sum reaches the number of packets, none is held any more. -/
theorem allHandled_of_sum (hd : Delivers P guard pending held)
    (hrun : Run P.machine guard P.init tr plane) (hsent : SentBefore P pkts tr []) {first : Bool}
    {count : UInt64} (hcount : count ≤ P.operand plane first)
    (hdone : UInt64.ofNat pkts.list.length ≤ count + P.operand plane (!first)) :
    AllHandled P pkts tr := by
  obtain ⟨forwarded, dropped, hforwarded, hdropped, hsum⟩ := hd.counted tr plane hrun
  have hlength := hsent.all.length_eq
  have hfew := hsent.length_lt
  have hboth : (P.operand plane first).toNat + (P.operand plane (!first)).toNat =
      forwarded + dropped := by
    have hexact : (P.operand plane true).toNat = forwarded ∧ (P.operand plane false).toNat = dropped := by
      constructor
      · show (P.stats plane).pktsForwarded.toNat = forwarded
        rw [hforwarded, UInt64.toNat_ofNat', Nat.mod_eq_of_lt (by omega)]
      · show (P.stats plane).pktsDropped.toNat = dropped
        rw [hdropped, UInt64.toNat_ofNat', Nat.mod_eq_of_lt (by omega)]
    cases first with
    | true => exact congrArg₂ (· + ·) hexact.1 hexact.2
    | false => exact (congrArg₂ (· + ·) hexact.2 hexact.1).trans (Nat.add_comm dropped forwarded)
  have hheld : held plane = 0 := by
    rw [UInt64.le_iff_toNat_le] at hcount hdone
    rw [UInt64.toNat_add, UInt64.toNat_ofNat', Nat.mod_eq_of_lt pkts.size_lt] at hdone
    have hle := Nat.mod_le (count.toNat + (P.operand plane (!first)).toNat) (2 ^ 64)
    omega
  refine ⟨P.accepted tr, hsent.all, ?_⟩
  rw [hd.delivered tr plane hrun hheld]

/-- Where the packets of the list are, by the place of the benchmark. -/
def Place (P : Plane σ ι ε) (pending : σ → List Packet) (pkts : Packets) (tr : List ε) (plane : σ) :
    Pc → Prop
  | .start => pending plane = [] ∧ P.accepted tr = []
  | .send rest => pending plane = [] ∧ SentBefore P pkts tr rest
  | .attempt sent rest =>
    pending plane = [] ∧ ∃ pkt, Stamped pkt sent ∧ SentBefore P pkts tr (pkt :: rest)
  | .calling sent rest =>
    pending plane = [sent] ∧ ∃ pkt, Stamped pkt sent ∧ SentBefore P pkts tr (pkt :: rest)
  | .wait => pending plane = [] ∧ SentBefore P pkts tr []
  | .loaded first count =>
    pending plane = [] ∧ SentBefore P pkts tr [] ∧ count ≤ P.operand plane first
  | .stop ok => pending plane = [] ∧ SentBefore P pkts tr [] ∧ (ok = true → AllHandled P pkts tr)
  | .finished ok =>
    pending plane = [] ∧ SentBefore P pkts tr [] ∧ (ok = true → AllHandled P pkts tr)

structure Inv (P : Plane σ ι ε) (guard : List ε → σ → ι → Prop) (pending : σ → List Packet)
    (pkts : Packets) (tr : List ε) (s : State σ) : Prop where
  run : Run P.machine guard P.init tr s.plane
  place : Place P pending pkts tr s.plane s.pc

theorem call_eq_some {pc : Pc} (hcall : call P s i pc = some (s', es)) :
    P.machine s.plane i = some (s'.plane, es) ∧ s'.pc = pc := by
  obtain ⟨⟨plane, es'⟩, hnext, hpair⟩ := Option.map_eq_some_iff.mp hcall
  obtain ⟨rfl, rfl⟩ := Prod.mk.inj hpair
  exact ⟨hnext, rfl⟩

theorem benchStep_inv (hd : Delivers P guard pending held) (h : Inv P guard pending pkts tr s)
    {choice : Choice} (hstep : benchStep P pkts s choice = some (s', es)) :
    Inv P guard pending pkts (tr ++ es) s' := by
  obtain ⟨plane, pc⟩ := s
  obtain ⟨hrun, hplace⟩ := h
  have hsilent {pc' : Pc} (hnext : some (State.mk plane pc', []) = some (s', es))
      (hpc' : Place P pending pkts tr plane pc') :
      Inv P guard pending pkts (tr ++ es) s' := by
    obtain ⟨rfl, rfl⟩ := Prod.mk.inj (Option.some.inj hnext)
    rw [List.append_nil]
    exact ⟨hrun, hpc'⟩
  cases pc with
  | start =>
      obtain ⟨hnext, hpc⟩ := call_eq_some hstep
      obtain ⟨rfl, hsame⟩ := hd.controlled _ _ _ _ (.inl rfl) hnext
      refine ⟨hrun.snoc (hd.free _ _ _ hd.starts) hnext, ?_⟩
      rw [hpc, List.append_nil]
      obtain ⟨hidle, hnone⟩ := hplace
      refine ⟨hsame.trans hidle, [], rfl, ?_⟩
      rw [hnone]
      exact .nil
  | send rest =>
      obtain ⟨hidle, hsent⟩ := hplace
      cases rest with
      | nil => exact hsilent hstep ⟨hidle, hsent⟩
      | cons pkt rest => exact hsilent hstep ⟨hidle, pkt, rfl, hsent⟩
  | attempt sent rest =>
      obtain ⟨hnext, hpc⟩ := call_eq_some hstep
      obtain ⟨rfl, hpending⟩ := hd.called _ _ _ _ hnext
      refine ⟨hrun.snoc (hd.free _ _ _ (hd.enqueues sent)) hnext, ?_⟩
      rw [hpc, List.append_nil]
      obtain ⟨hidle, hsent⟩ := hplace
      refine ⟨?_, hsent⟩
      rw [hpending, hidle, List.nil_append]
  | calling sent rest => cases hstep
  | wait =>
      obtain ⟨hidle, hsent⟩ := hplace
      simp only [benchStep] at hstep
      split at hstep
      · exact hsilent hstep ⟨hidle, hsent, UInt64.le_refl _⟩
      · exact hsilent hstep ⟨hidle, hsent, by rintro ⟨⟩⟩
  | loaded first count =>
      obtain ⟨hidle, hsent, hcount⟩ := hplace
      simp only [benchStep] at hstep
      split at hstep
      · rename_i hdone
        exact hsilent hstep ⟨hidle, hsent, fun _ => allHandled_of_sum hd hrun hsent hcount hdone⟩
      · exact hsilent hstep ⟨hidle, hsent⟩
  | stop ok =>
      obtain ⟨hnext, hpc⟩ := call_eq_some hstep
      obtain ⟨rfl, hsame⟩ := hd.controlled _ _ _ _ (.inr rfl) hnext
      refine ⟨hrun.snoc (hd.free _ _ _ hd.stops) hnext, ?_⟩
      rw [hpc, List.append_nil]
      obtain ⟨hidle, hdone⟩ := hplace
      exact ⟨hsame.trans hidle, hdone⟩
  | finished ok => cases hstep

theorem plane_place (hd : Delivers P guard pending held)
    (hrun : Run P.machine guard P.init tr plane) (hguard : guard tr plane i) (hown : P.own i = true)
    (hstep : P.machine plane i = some (plane', es)) {pc : Pc}
    (hplace : Place P pending pkts tr plane pc) :
    Place P pending pkts (tr ++ es) plane' (returned P es pc) := by
  have hanswered := hd.answered tr plane i plane' es hrun hguard hown hstep
  have hquiet (hidle : pending plane = []) : P.accepted es = [] ∧ pending plane' = [] := by
    obtain ⟨-, heq⟩ := hanswered (by rw [hidle]; exact Nat.zero_le 1)
    rw [hidle] at heq
    exact List.append_eq_nil_iff.mp heq.symm
  cases pc with
  | start =>
      obtain ⟨hidle, hnone⟩ := hplace
      obtain ⟨hes, hidle'⟩ := hquiet hidle
      refine ⟨hidle', ?_⟩
      rw [Plane.accepted_append, hnone, hes, List.append_nil]
  | send rest =>
      obtain ⟨hidle, hsent⟩ := hplace
      obtain ⟨hes, hidle'⟩ := hquiet hidle
      exact ⟨hidle', hsent.silent hes⟩
  | attempt sent rest =>
      obtain ⟨hidle, pkt, hstamped, hsent⟩ := hplace
      obtain ⟨hes, hidle'⟩ := hquiet hidle
      exact ⟨hidle', pkt, hstamped, hsent.silent hes⟩
  | calling sent rest =>
      obtain ⟨hpending, pkt, hstamped, hsent⟩ := hplace
      obtain ⟨hrejected, heq⟩ := hanswered (by rw [hpending]; exact Nat.le_refl 1)
      rw [hpending] at heq
      rcases List.singleton_eq_append_iff.mp heq with ⟨hes, hpending'⟩ | ⟨hes, hidle'⟩
      · simp only [returned, hes, hrejected]
        exact ⟨hpending', pkt, hstamped, hsent.silent hes⟩
      · simp only [returned, hes]
        exact ⟨hidle', hsent.accept hstamped hes⟩
  | wait =>
      obtain ⟨hidle, hsent⟩ := hplace
      obtain ⟨hes, hidle'⟩ := hquiet hidle
      exact ⟨hidle', hsent.silent hes⟩
  | loaded first count =>
      obtain ⟨hidle, hsent, hcount⟩ := hplace
      obtain ⟨hes, hidle'⟩ := hquiet hidle
      refine ⟨hidle', hsent.silent hes, UInt64.le_trans hcount ?_⟩
      exact operand_le hd hrun hguard hown hstep hsent.length_lt first
  | stop ok | finished ok =>
      obtain ⟨hidle, hsent, hdone⟩ := hplace
      obtain ⟨hes, hidle'⟩ := hquiet hidle
      exact ⟨hidle', hsent.silent hes, fun hok => (hdone hok).append es⟩

theorem step_inv (hd : Delivers P guard pending held) (h : Inv P guard pending pkts tr s)
    {j : Input ι} (hguard : Guarded guard tr s j) (hstep : step P pkts s j = some (s', es)) :
    Inv P guard pending pkts (tr ++ es) s' := by
  cases j with
  | bench choice => exact benchStep_inv hd h hstep
  | plane i =>
      simp only [step] at hstep
      split at hstep
      · rename_i hown
        obtain ⟨⟨plane, es'⟩, hnext, hpair⟩ := Option.map_eq_some_iff.mp hstep
        obtain ⟨rfl, rfl⟩ := Prod.mk.inj hpair
        exact ⟨h.run.snoc hguard hnext, plane_place hd h.run hguard hown hnext h.place⟩
      · cases hstep

/-- Over a plane that delivers, `wait_until_done` returns true only when every packet has been
handled. -/
theorem complete_of_delivers (hd : Delivers P guard pending held)
    (hrun : Run (step P pkts) (Guarded guard) (init P) tr s) : Complete P pkts tr s := by
  have hinv : Inv P guard pending pkts tr s := by
    refine hrun.invariant (I := Inv P guard pending pkts) ?_ ?_
    · exact ⟨Run.nil, hd.idle, rfl⟩
    · intro tr s j s' es h hguard hstep
      exact step_inv hd h hguard hstep
  intro hok
  obtain ⟨plane, pc⟩ := s
  cases pc with
  | stop ok | finished ok => exact hinv.place.2.2 hok
  | _ => cases hok

end Delivery

end MobileCore.Benchmark
