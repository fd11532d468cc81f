import MobileCore.PacketRules
import MobileCore.SpscRing

/-!
# The poll-mode data plane

The mbuf pool, the path counters and `DpdkPath`: `rx_enqueue` on the receiving thread, the poll
loop and `process_burst` on the lcore, with `start` and `stop`. A step is one access to what the
two threads share; the sequential work on one packet between two such accesses is one step.
-/

namespace MobileCore.FastPath

open MobileCore.LabelledRuns
open MobileCore.PacketRules

structure Mbuf where
  pkt : Packet := {}
  inUse : Bool := false

/-- The pool is a bump index over its slots; `next` is a `uint32_t`. -/
structure MbufPool where
  slots : Nat → Mbuf
  size : Nat
  next : Nat := 0

namespace MbufPool

def create (n : Nat) : MbufPool := { slots := fun _ => {}, size := n }

def setInUse (p : MbufPool) (idx : Nat) (inUse : Bool) : MbufPool :=
  { p with slots := Function.update p.slots idx { p.slots idx with inUse := inUse } }

def setPkt (p : MbufPool) (idx : Nat) (pkt : Packet) : MbufPool :=
  { p with slots := Function.update p.slots idx { p.slots idx with pkt := pkt } }

@[simp] theorem setInUse_pkt (p : MbufPool) (idx j : Nat) (inUse : Bool) :
    ((p.setInUse idx inUse).slots j).pkt = (p.slots j).pkt := by
  by_cases h : j = idx
  · subst h
    simp [setInUse]
  · simp [setInUse, h]

@[simp] theorem setPkt_inUse (p : MbufPool) (idx j : Nat) (pkt : Packet) :
    ((p.setPkt idx pkt).slots j).inUse = (p.slots j).inUse := by
  by_cases h : j = idx
  · subst h
    simp [setPkt]
  · simp [setPkt, h]

@[simp] theorem setInUse_inUse_same (p : MbufPool) (idx : Nat) (inUse : Bool) :
    ((p.setInUse idx inUse).slots idx).inUse = inUse := by simp [setInUse]

theorem setInUse_inUse_ne (p : MbufPool) {idx j : Nat} (inUse : Bool) (h : j ≠ idx) :
    ((p.setInUse idx inUse).slots j).inUse = (p.slots j).inUse := by simp [setInUse, h]

@[simp] theorem setPkt_pkt_same (p : MbufPool) (idx : Nat) (pkt : Packet) :
    ((p.setPkt idx pkt).slots idx).pkt = pkt := by simp [setPkt]

theorem setPkt_pkt_ne (p : MbufPool) {idx j : Nat} (pkt : Packet) (h : j ≠ idx) :
    ((p.setPkt idx pkt).slots j).pkt = (p.slots j).pkt := by simp [setPkt, h]

end MbufPool

def reservoirSize : Nat := 100000

structure PathStats where
  pktsRx : UInt64 := 0
  pktsForwarded : UInt64 := 0
  pktsDropped : UInt64 := 0
  pktsNoPdr : UInt64 := 0
  latencies : Nat → UInt64 := fun _ => 0
  sampleIdx : Nat := 0

def PathStats.recordLatency (stats : PathStats) (arrivalNs nowNs : UInt64) : PathStats :=
  if nowNs ≤ arrivalNs then stats
  else
    { stats with
      latencies := Function.update stats.latencies (stats.sampleIdx % reservoirSize)
        (nowNs - arrivalNs)
      sampleIdx := (stats.sampleIdx + 1) % 2 ^ 64 }

/-- The work of `process_burst` on one packet, up to the return of its mbuf. -/
def processPacket (rules : RuleTable) (nowNs : UInt64) (pkt : Packet) (stats : PathStats) :
    Packet × PathStats :=
  match rules.matchPdr pkt with
  | none =>
    (pkt, { stats with pktsNoPdr := stats.pktsNoPdr + 1, pktsDropped := stats.pktsDropped + 1 })
  | some pdr =>
    let pkt := { pkt with pdrId := pdr.pdrId, farId := pdr.farId, classified := true }
    let dropIt := ({ pkt with dropped := true },
      { stats with pktsDropped := stats.pktsDropped + 1 })
    match rules.getFar pdr.farId with
    | none => dropIt
    | some far =>
      if far.action = .drop then dropIt
      else
        (pkt, { stats with pktsForwarded := stats.pktsForwarded + 1 }.recordLatency
          pkt.arrivalNs nowNs)

def poolSize : Nat := 65536

abbrev ringSize : Nat := 2 ^ 12

def burstSize : Nat := 32

/-- Where the receiving thread is in `rx_enqueue`. -/
inductive EnqueuePc where
  | idle
  | fetchAdd (pkt : Packet)
  | wrapNext (pkt : Packet)
  | mark (pkt : Packet) (idx : Nat)
  | fill (pkt : Packet) (idx : Nat)
  | remark (pkt : Packet) (idx : Nat)
  | callPush (pkt : Packet) (idx : Nat)
  | pushing (pkt : Packet) (idx : Nat)
  | giveBack (pkt : Packet) (idx : Nat)
  | countDrop (pkt : Packet)
deriving DecidableEq

/-- Where the lcore is in `lcore_poll_loop`; `draining` tells the second loop from the first. -/
inductive LcorePc where
  | notStarted
  | check
  | callBurst (draining : Bool)
  | popping (draining : Bool)
  | processing (draining : Bool) (nowNs : UInt64) (rest : List Nat)
  | freeing (draining : Bool) (nowNs : UInt64) (m : Nat) (rest : List Nat)
  | exited
deriving DecidableEq

structure State where
  ring : SpscRing.State Nat
  pool : MbufPool
  running : Bool := false
  enqueue : EnqueuePc := .idle
  lcore : LcorePc := .notStarted
  stats : PathStats := {}

inductive Input where
  | start
  | stop
  | rxEnqueue (pkt : Packet)
  | producer
  | lcore (nowNs : UInt64)

inductive Event where
  | accepted (pkt : Packet)
  | rejected (pkt : Packet)
  | handled (pkt : Packet)
deriving DecidableEq

def init : State :=
  { ring := SpscRing.init fun _ => 0, pool := MbufPool.create poolSize }

def enqueueStep (s : State) : Option (State × List Event) :=
  match s.enqueue with
  | .idle => none
  | .fetchAdd pkt =>
    let idx := s.pool.next
    let s := { s with pool := { s.pool with next := (s.pool.next + 1) % 2 ^ 32 } }
    if s.pool.size ≤ idx then some ({ s with enqueue := .wrapNext pkt }, [])
    else some ({ s with enqueue := .mark pkt idx }, [])
  | .wrapNext pkt =>
    some ({ s with pool := { s.pool with next := 0 }, enqueue := .mark pkt 0 }, [])
  | .mark pkt idx =>
    some ({ s with pool := s.pool.setInUse idx true, enqueue := .fill pkt idx }, [])
  | .fill pkt idx =>
    some ({ s with pool := s.pool.setPkt idx pkt, enqueue := .remark pkt idx }, [])
  | .remark pkt idx =>
    some ({ s with pool := s.pool.setInUse idx true, enqueue := .callPush pkt idx }, [])
  | .callPush pkt idx =>
    match SpscRing.step ringSize s.ring (.push idx) with
    | none => none
    | some (ring, _) => some ({ s with ring := ring, enqueue := .pushing pkt idx }, [])
  | .pushing pkt idx =>
    match SpscRing.producerStep s.ring with
    | none => none
    | some (ring, [.pushed _]) => some ({ s with ring := ring, enqueue := .idle }, [.accepted pkt])
    | some (ring, [.full _]) => some ({ s with ring := ring, enqueue := .giveBack pkt idx }, [])
    | some (ring, _) => some ({ s with ring := ring }, [])
  | .giveBack pkt idx =>
    some ({ s with pool := s.pool.setInUse idx false, enqueue := .countDrop pkt }, [])
  | .countDrop pkt =>
    some ({ s with
      stats := { s.stats with pktsDropped := s.stats.pktsDropped + 1 }
      enqueue := .idle }, [.rejected pkt])

/-- The next access of the lcore; `nowNs` is what the clock shows when a burst begins. -/
def lcoreStep (rules : RuleTable) (nowNs : UInt64) (s : State) : Option (State × List Event) :=
  match s.lcore with
  | .notStarted => none
  | .exited => none
  | .check => some ({ s with lcore := .callBurst (!s.running) }, [])
  | .callBurst draining =>
    match SpscRing.step ringSize s.ring (.popBurst burstSize) with
    | none => none
    | some (ring, _) => some ({ s with ring := ring, lcore := .popping draining }, [])
  | .popping draining =>
    match SpscRing.consumerStep ringSize s.ring with
    | none => none
    | some (ring, [.burst []]) =>
      some ({ s with ring := ring, lcore := if draining then .exited else .check }, [])
    | some (ring, [.burst burst]) =>
      some ({ s with ring := ring, lcore := .processing draining nowNs burst }, [])
    | some (ring, _) => some ({ s with ring := ring }, [])
  | .processing draining _ [] =>
    some ({ s with lcore := if draining then .callBurst true else .check }, [])
  | .processing draining now (m :: rest) =>
    let pkt := (s.pool.slots m).pkt
    let (pkt', stats) := processPacket rules now pkt s.stats
    some ({ s with
      pool := s.pool.setPkt m pkt'
      stats := stats
      lcore := .freeing draining now m rest }, [.handled pkt])
  | .freeing draining now m rest =>
    some ({ s with pool := s.pool.setInUse m false, lcore := .processing draining now rest }, [])

def step (rules : RuleTable) : Machine State Input Event
  | s, .start =>
    match s.lcore with
    | .notStarted | .exited => some ({ s with running := true, lcore := .check }, [])
    | _ => none
  | s, .stop => some ({ s with running := false }, [])
  | s, .rxEnqueue pkt =>
    match s.enqueue with
    | .idle =>
      some ({ s with
        stats := { s.stats with pktsRx := s.stats.pktsRx + 1 }
        enqueue := .fetchAdd pkt }, [])
    | _ => none
  | s, .producer => enqueueStep s
  | s, .lcore nowNs => lcoreStep rules nowNs s

section Calls

variable {rules : RuleTable} {s s' : State} {es : List Event}

theorem start_eq_some (hstep : step rules s .start = some (s', es)) :
    (s.lcore = .notStarted ∨ s.lcore = .exited) ∧
      s' = { s with running := true, lcore := .check } ∧ es = [] := by
  simp only [step] at hstep
  split at hstep
  · rename_i hpc
    obtain ⟨rfl, rfl⟩ := Prod.mk.inj (Option.some.inj hstep)
    exact ⟨.inl hpc, rfl, rfl⟩
  · rename_i hpc
    obtain ⟨rfl, rfl⟩ := Prod.mk.inj (Option.some.inj hstep)
    exact ⟨.inr hpc, rfl, rfl⟩
  · cases hstep

theorem rxEnqueue_eq_some {pkt : Packet} (hstep : step rules s (.rxEnqueue pkt) = some (s', es)) :
    s.enqueue = .idle ∧ s' = { s with
      stats := { s.stats with pktsRx := s.stats.pktsRx + 1 }
      enqueue := .fetchAdd pkt } ∧ es = [] := by
  simp only [step] at hstep
  split at hstep
  · rename_i hidle
    obtain ⟨rfl, rfl⟩ := Prod.mk.inj (Option.some.inj hstep)
    exact ⟨hidle, rfl, rfl⟩
  · cases hstep

end Calls

def Event.accepted? : Event → Option Packet
  | .accepted pkt => some pkt
  | _ => none

def Event.handled? : Event → Option Packet
  | .handled pkt => some pkt
  | _ => none

def accepted (tr : List Event) : List Packet := tr.filterMap Event.accepted?

def handled (tr : List Event) : List Packet := tr.filterMap Event.handled?

@[simp] theorem accepted_append (tr tr' : List Event) :
    accepted (tr ++ tr') = accepted tr ++ accepted tr' := List.filterMap_append

@[simp] theorem handled_append (tr tr' : List Event) :
    handled (tr ++ tr') = handled tr ++ handled tr' := List.filterMap_append

@[simp] theorem accepted_nil : accepted [] = [] := rfl

@[simp] theorem handled_nil : handled [] = [] := rfl

@[simp] theorem accepted_cons (e : Event) (tr : List Event) :
    accepted (e :: tr) = e.accepted?.toList ++ accepted tr := by
  cases e <;> rfl

@[simp] theorem handled_cons (e : Event) (tr : List Event) :
    handled (e :: tr) = e.handled?.toList ++ handled tr := by
  cases e <;> rfl

def LcorePc.toHandle : LcorePc → List Nat
  | .processing _ _ rest => rest
  | .freeing _ _ _ rest => rest
  | _ => []

def LcorePc.held : LcorePc → List Nat
  | .processing _ _ rest => rest
  | .freeing _ _ m rest => m :: rest
  | _ => []

def EnqueuePc.held : EnqueuePc → List Nat
  | .fill _ idx => [idx]
  | .remark _ idx => [idx]
  | .callPush _ idx => [idx]
  | .pushing _ idx => [idx]
  | .giveBack _ idx => [idx]
  | _ => []

/-- The packets in the mbufs that wait in the lcore's burst and in the ring. -/
def waiting (s : State) : List Packet :=
  (s.lcore.toHandle ++ SpscRing.contents ringSize s.ring.ring).map fun idx => (s.pool.slots idx).pkt

end MobileCore.FastPath
