import MobileCore.PacketCounters
import Mathlib.Data.List.Forall2

namespace MobileCore.PlaneAgreement

open FastPath (PathStats processPacket)
open PacketCounters (ofNat_succ)
open PacketRules

/-- What becomes of a packet, with the rules that were found for it. The QER is looked up by two
of the planes and enforced by none. -/
inductive Outcome where
  | tooShort
  | noPdr
  | dropped (pdr : PDR)
  | forwarded (pdr : PDR) (far : FAR)
deriving DecidableEq, Repr

def Outcome.isNoPdr : Outcome → Bool
  | .noPdr => true
  | _ => false

def Outcome.isForwarded : Outcome → Bool
  | .forwarded _ _ => true
  | _ => false

/-- A plane while it runs: its counters, and the outcome of each packet so far. -/
structure Plane where
  stats : PathStats := {}
  outcomes : List Outcome := []

namespace Plane

/-- The first line of `enqueue` and of `rx_enqueue`. -/
def received (p : Plane) : Plane := { p with stats := { p.stats with pktsRx := p.stats.pktsRx + 1 } }

def forward (p : Plane) (pdr : PDR) (far : FAR) (arrivalNs nowNs : UInt64) : Plane :=
  ⟨{ p.stats with pktsForwarded := p.stats.pktsForwarded + 1 }.recordLatency arrivalNs nowNs,
    p.outcomes ++ [.forwarded pdr far]⟩

def drop (p : Plane) (outcome : Outcome) : Plane :=
  ⟨{ p.stats with pktsDropped := p.stats.pktsDropped + 1 }, p.outcomes ++ [outcome]⟩

def unmatched (p : Plane) : Plane :=
  ⟨{ p.stats with pktsNoPdr := p.stats.pktsNoPdr + 1, pktsDropped := p.stats.pktsDropped + 1 },
    p.outcomes ++ [.noPdr]⟩

end Plane

/-- The pipeline that `process_one` and `process_burst` share: PDR, QER, FAR. -/
def handlePacket (rules : RuleTable) (nowNs : UInt64) (pkt : Packet) (p : Plane) :
    Packet × Plane :=
  match rules.matchPdr pkt with
  | none => (pkt, p.unmatched)
  | some pdr =>
    let pkt := { pkt with pdrId := pdr.pdrId, farId := pdr.farId, classified := true }
    match rules.getFar pdr.farId with
    | none => ({ pkt with dropped := true }, p.drop (.dropped pdr))
    | some far =>
      if far.action = .drop then ({ pkt with dropped := true }, p.drop (.dropped pdr))
      else (pkt, p.forward pdr far pkt.arrivalNs nowNs)

/-- `SocketPath::process_one`, with the clock at each packet. -/
def processOne (rules : RuleTable) (nowNs : UInt64) (pkt : Packet) (p : Plane) : Plane :=
  (handlePacket rules nowNs pkt p).2

/-- `DpdkPath::process_burst`, with one clock a burst. -/
def processBurst (rules : RuleTable) (nowNs : UInt64) (burst : List Packet) (p : Plane) : Plane :=
  burst.foldl (fun p pkt => (handlePacket rules nowNs pkt p).2) p

def socketPlane (rules : RuleTable) (pkts : List (Packet × UInt64)) : Plane :=
  pkts.foldl (fun p x => processOne rules x.2 x.1 p.received) {}

def dpdkPlane (rules : RuleTable) (bursts : List (UInt64 × List Packet)) : Plane :=
  bursts.foldl
    (fun p b => processBurst rules b.1 b.2 (b.2.foldl (fun p _ => p.received) p)) {}

/-- A received frame; the driver's length field has 16 bits. -/
structure RteMbuf where
  data : List UInt8
  fits : data.length < 2 ^ 16

def TEID_OFFSET : Nat := 46

/-- The four bytes at the offset, in network order. -/
def frameTeid (data : List UInt8) : UInt32 :=
  ((data.getD TEID_OFFSET 0).toUInt32 <<< 24) |||
    ((data.getD (TEID_OFFSET + 1) 0).toUInt32 <<< 16) |||
    ((data.getD (TEID_OFFSET + 2) 0).toUInt32 <<< 8) |||
    (data.getD (TEID_OFFSET + 3) 0).toUInt32

/-- The body of the loop of `real_lcore_fn`; `laterNs` is the clock after a forwarded packet. -/
def lcorePacket (rules : RuleTable) (now laterNs : UInt64) (m : RteMbuf) (p : Plane) : Plane :=
  if m.data.length < TEID_OFFSET + 4 then p.drop .tooShort
  else
    let pkt : Packet := { teid := frameTeid m.data, dir := .ul, arrivalNs := now }
    match rules.matchPdr pkt with
    | none => p.unmatched
    | some pdr =>
      match rules.getFar pdr.farId with
      | none => p.drop (.dropped pdr)
      | some far =>
        if far.action = .drop then p.drop (.dropped pdr)
        else p.forward pdr far now laterNs

/-- `real_lcore_fn` over the bursts that the driver returns until the lcore is stopped. -/
def realLcoreFn (rules : RuleTable) (bursts : List (UInt64 × List (RteMbuf × UInt64))) : Plane :=
  bursts.foldl (fun p b => b.2.foldl (fun p x => lcorePacket rules b.1 x.2 x.1 p) p) {}

/-- The frame of a packet as the driver delivers it. -/
def Delivers (m : RteMbuf) (pkt : Packet) : Prop :=
  TEID_OFFSET + 4 ≤ m.data.length ∧ frameTeid m.data = pkt.teid

def Plane.seen (p : Plane) : (UInt64 × UInt64 × UInt64 × UInt64) × List Outcome :=
  ((p.stats.pktsRx, p.stats.pktsForwarded, p.stats.pktsDropped, p.stats.pktsNoPdr), p.outcomes)

/-- All three planes show the same for a sequence of packets, however it is split into bursts and
whatever the clocks show; the lcore takes part when the packets are uplink ones. -/
def PlanesAgree (rules : RuleTable) (pkts : List Packet) : Prop :=
  ∀ (timed : List (Packet × UInt64)) (bursts : List (UInt64 × List Packet))
    (frames : List (UInt64 × List (RteMbuf × UInt64))),
    timed.map Prod.fst = pkts → bursts.flatMap Prod.snd = pkts →
    (socketPlane rules timed).seen = (dpdkPlane rules bursts).seen ∧
      ((∀ pkt ∈ pkts, pkt.dir = .ul) →
        List.Forall₂ Delivers ((frames.flatMap Prod.snd).map Prod.fst) pkts →
        (socketPlane rules timed).seen = (realLcoreFn rules frames).seen)

/-- What the rules say about a packet. -/
def verdict (rules : RuleTable) (pkt : Packet) : Outcome :=
  match rules.matchPdr pkt with
  | none => .noPdr
  | some pdr =>
    match rules.getFar pdr.farId with
    | none => .dropped pdr
    | some far => if far.action = .drop then .dropped pdr else .forwarded pdr far

/-- The counters count `rx` packets and the outcomes. -/
structure Tallied (p : Plane) (rx : Nat) (os : List Outcome) : Prop where
  outcomes : p.outcomes = os
  pktsRx : p.stats.pktsRx = UInt64.ofNat rx
  pktsForwarded : p.stats.pktsForwarded = UInt64.ofNat (os.countP Outcome.isForwarded)
  pktsDropped : p.stats.pktsDropped = UInt64.ofNat (os.countP fun o => !o.isForwarded)
  pktsNoPdr : p.stats.pktsNoPdr = UInt64.ofNat (os.countP Outcome.isNoPdr)

theorem handlePacket_eq (rules : RuleTable) (nowNs : UInt64) (pkt : Packet) (p : Plane) :
    (handlePacket rules nowNs pkt p).map id Plane.stats = processPacket rules nowNs pkt p.stats := by
  simp only [handlePacket, processPacket]
  cases rules.matchPdr pkt with
  | none => rfl
  | some pdr =>
      dsimp only
      cases rules.getFar pdr.farId with
      | none => rfl
      | some far =>
          dsimp only
          split <;> rfl

theorem recordLatency_counters (stats : PathStats) (arrivalNs nowNs : UInt64) :
    (stats.recordLatency arrivalNs nowNs).pktsRx = stats.pktsRx ∧
      (stats.recordLatency arrivalNs nowNs).pktsForwarded = stats.pktsForwarded ∧
      (stats.recordLatency arrivalNs nowNs).pktsDropped = stats.pktsDropped ∧
      (stats.recordLatency arrivalNs nowNs).pktsNoPdr = stats.pktsNoPdr := by
  simp only [PathStats.recordLatency]
  split <;> exact ⟨rfl, rfl, rfl, rfl⟩

theorem countP_snoc {q : Outcome → Bool} (os : List Outcome) {o : Outcome} (h : q o = true) :
    UInt64.ofNat ((os ++ [o]).countP q) = UInt64.ofNat (os.countP q) + 1 := by
  rw [List.countP_append, List.countP_singleton, if_pos h, ofNat_succ]

theorem countP_snoc_other {q : Outcome → Bool} (os : List Outcome) {o : Outcome}
    (h : q o = false) : (os ++ [o]).countP q = os.countP q := by
  rw [List.countP_append, List.countP_singleton, h]
  rfl

section Tally

variable {p : Plane} {rx : Nat} {os : List Outcome}

theorem tallied_start : Tallied {} 0 [] := ⟨rfl, rfl, rfl, rfl, rfl⟩

theorem Tallied.received (h : Tallied p rx os) : Tallied p.received (rx + 1) os := by
  refine ⟨h.outcomes, ?_, h.pktsForwarded, h.pktsDropped, h.pktsNoPdr⟩
  rw [ofNat_succ, ← h.pktsRx]
  rfl

theorem Tallied.forward (h : Tallied p rx os) (pdr : PDR) (far : FAR) (arrivalNs nowNs : UInt64) :
    Tallied (p.forward pdr far arrivalNs nowNs) rx (os ++ [.forwarded pdr far]) := by
  obtain ⟨hrx, hforwarded, hdropped, hnoPdr⟩ := recordLatency_counters
    { p.stats with pktsForwarded := p.stats.pktsForwarded + 1 } arrivalNs nowNs
  constructor
  · exact congrArg (· ++ [Outcome.forwarded pdr far]) h.outcomes
  · exact hrx.trans h.pktsRx
  · rw [countP_snoc os rfl, ← h.pktsForwarded]
    exact hforwarded
  · rw [countP_snoc_other os rfl]
    exact hdropped.trans h.pktsDropped
  · rw [countP_snoc_other os rfl]
    exact hnoPdr.trans h.pktsNoPdr

theorem Tallied.drop (h : Tallied p rx os) {o : Outcome} (hforwarded : o.isForwarded = false)
    (hnoPdr : o.isNoPdr = false) : Tallied (p.drop o) rx (os ++ [o]) := by
  have hdropped : (!o.isForwarded) = true := by rw [hforwarded, Bool.not_false]
  constructor
  · exact congrArg (· ++ [o]) h.outcomes
  · exact h.pktsRx
  · rw [countP_snoc_other os hforwarded]
    exact h.pktsForwarded
  · rw [countP_snoc os hdropped, ← h.pktsDropped]
    rfl
  · rw [countP_snoc_other os hnoPdr]
    exact h.pktsNoPdr

theorem Tallied.unmatched (h : Tallied p rx os) : Tallied p.unmatched rx (os ++ [.noPdr]) := by
  constructor
  · exact congrArg (· ++ [Outcome.noPdr]) h.outcomes
  · exact h.pktsRx
  · rw [countP_snoc_other os rfl]
    exact h.pktsForwarded
  · rw [countP_snoc os rfl, ← h.pktsDropped]
    rfl
  · rw [countP_snoc os rfl, ← h.pktsNoPdr]
    rfl

theorem Tallied.seen (h : Tallied p rx os) :
    p.seen = ((UInt64.ofNat rx, UInt64.ofNat (os.countP Outcome.isForwarded),
      UInt64.ofNat (os.countP fun o => !o.isForwarded),
      UInt64.ofNat (os.countP Outcome.isNoPdr)), os) := by
  rw [Plane.seen, h.outcomes, h.pktsRx, h.pktsForwarded, h.pktsDropped, h.pktsNoPdr]

theorem Tallied.handlePacket (h : Tallied p rx os) (rules : RuleTable) (nowNs : UInt64)
    (pkt : Packet) :
    Tallied (PlaneAgreement.handlePacket rules nowNs pkt p).2 rx (os ++ [verdict rules pkt]) := by
  simp only [PlaneAgreement.handlePacket, verdict]
  split
  · exact h.unmatched
  · split
    · exact h.drop rfl rfl
    · split
      · exact h.drop rfl rfl
      · exact h.forward _ _ _ _

theorem Tallied.lcorePacket (h : Tallied p rx os) (rules : RuleTable) (now laterNs : UInt64)
    {m : RteMbuf} {pkt : Packet} (hdelivers : Delivers m pkt) (hdir : pkt.dir = .ul) :
    Tallied (PlaneAgreement.lcorePacket rules now laterNs m p) rx (os ++ [verdict rules pkt]) := by
  obtain ⟨hlong, hteid⟩ := hdelivers
  have hmatch : rules.matchPdr { teid := frameTeid m.data, dir := .ul, arrivalNs := now } =
      rules.matchPdr pkt := by
    have hkey : Packet.matchKey { teid := frameTeid m.data, dir := .ul, arrivalNs := now } =
        pkt.matchKey := by
      simp [Packet.matchKey, hdir, hteid]
    rw [matchPdr_eq_indexed, matchPdr_eq_indexed, hkey]
  rw [PlaneAgreement.lcorePacket, if_neg (Nat.not_lt.mpr hlong)]
  simp only [hmatch, verdict]
  cases rules.matchPdr pkt with
  | none => exact h.unmatched
  | some pdr =>
      dsimp only
      cases rules.getFar pdr.farId with
      | none => exact h.drop rfl rfl
      | some far =>
          dsimp only
          split
          · exact h.drop rfl rfl
          · exact h.forward _ _ _ _

end Tally

theorem tallied_socket (rules : RuleTable) (timed : List (Packet × UInt64)) :
    Tallied (socketPlane rules timed) timed.length ((timed.map Prod.fst).map (verdict rules)) := by
  induction timed using List.reverseRecOn with
  | nil => exact tallied_start
  | append_singleton timed x ih =>
      simp only [socketPlane, List.foldl_append, List.foldl_cons, List.foldl_nil,
        List.length_append, List.map_append] at ih ⊢
      exact ih.received.handlePacket rules x.2 x.1

theorem Tallied.receivedAll {p : Plane} {rx : Nat} {os : List Outcome} (h : Tallied p rx os)
    (burst : List Packet) :
    Tallied (burst.foldl (fun p _ => p.received) p) (rx + burst.length) os := by
  induction burst generalizing p rx with
  | nil => exact h
  | cons pkt burst ih =>
      have hrest := ih h.received
      rwa [Nat.add_right_comm] at hrest

theorem Tallied.processBurst {p : Plane} {rx : Nat} {os : List Outcome} (h : Tallied p rx os)
    (rules : RuleTable) (nowNs : UInt64) (burst : List Packet) :
    Tallied (PlaneAgreement.processBurst rules nowNs burst p) rx
      (os ++ burst.map (verdict rules)) := by
  induction burst generalizing p os with
  | nil =>
      rw [List.map_nil, List.append_nil]
      exact h
  | cons pkt burst ih =>
      rw [List.map_cons, List.append_cons]
      exact ih (h.handlePacket rules nowNs pkt)

theorem tallied_dpdk (rules : RuleTable) (bursts : List (UInt64 × List Packet)) :
    Tallied (dpdkPlane rules bursts) (bursts.flatMap Prod.snd).length
      ((bursts.flatMap Prod.snd).map (verdict rules)) := by
  induction bursts using List.reverseRecOn with
  | nil => exact tallied_start
  | append_singleton bursts b ih =>
      have hburst := (ih.receivedAll b.2).processBurst rules b.1 b.2
      simpa only [dpdkPlane, List.foldl_append, List.foldl_cons, List.foldl_nil,
        List.flatMap_append, List.flatMap_cons, List.flatMap_nil, List.append_nil,
        List.length_append, List.map_append] using hburst

theorem Tallied.lcoreBurst {p : Plane} {rx : Nat} {os : List Outcome} (h : Tallied p rx os)
    (rules : RuleTable) (now : UInt64) {frames : List (RteMbuf × UInt64)} {pkts : List Packet}
    (hdelivers : List.Forall₂ Delivers (frames.map Prod.fst) pkts)
    (hdir : ∀ pkt ∈ pkts, pkt.dir = .ul) :
    Tallied (frames.foldl (fun p x => PlaneAgreement.lcorePacket rules now x.2 x.1 p) p) rx
      (os ++ pkts.map (verdict rules)) := by
  induction frames generalizing p os pkts with
  | nil =>
      obtain rfl := List.forall₂_nil_left_iff.mp hdelivers
      rw [List.map_nil, List.append_nil]
      exact h
  | cons x frames ih =>
      obtain ⟨pkt, rest, hhead, htail, rfl⟩ := List.forall₂_cons_left_iff.mp hdelivers
      rw [List.map_cons, List.append_cons]
      exact ih (h.lcorePacket rules now x.2 hhead (hdir pkt (by simp))) htail
        fun later hlater => hdir later (by simp [hlater])

theorem Tallied.lcoreBursts {p : Plane} {rx : Nat} {os : List Outcome} (h : Tallied p rx os)
    (rules : RuleTable) {frames : List (UInt64 × List (RteMbuf × UInt64))} {pkts : List Packet}
    (hdelivers : List.Forall₂ Delivers ((frames.flatMap Prod.snd).map Prod.fst) pkts)
    (hdir : ∀ pkt ∈ pkts, pkt.dir = .ul) :
    Tallied (frames.foldl (fun p b =>
        b.2.foldl (fun p x => PlaneAgreement.lcorePacket rules b.1 x.2 x.1 p) p) p) rx
      (os ++ pkts.map (verdict rules)) := by
  induction frames generalizing p os pkts with
  | nil =>
      obtain rfl := List.forall₂_nil_left_iff.mp hdelivers
      rw [List.map_nil, List.append_nil]
      exact h
  | cons b frames ih =>
      rw [List.flatMap_cons, List.map_append] at hdelivers
      -- The driver's first burst is as long a prefix of the packets as it has frames.
      have hearly := (List.forall₂_take_append _ _ _ hdelivers.flip).flip
      have hlate := (List.forall₂_drop_append _ _ _ hdelivers.flip).flip
      have hsplit := List.take_append_drop (b.2.map Prod.fst).length pkts
      have hfirst := h.lcoreBurst rules b.1 hearly
        fun pkt hpkt => hdir pkt (List.mem_of_mem_take hpkt)
      have hall := ih hfirst hlate fun pkt hpkt => hdir pkt (List.mem_of_mem_drop hpkt)
      rwa [List.append_assoc, ← List.map_append, hsplit] at hall

/-- The lcore counts and decides as the others do, and never counts a packet as received. -/
theorem tallied_lcore (rules : RuleTable) {frames : List (UInt64 × List (RteMbuf × UInt64))}
    {pkts : List Packet}
    (hdelivers : List.Forall₂ Delivers ((frames.flatMap Prod.snd).map Prod.fst) pkts)
    (hdir : ∀ pkt ∈ pkts, pkt.dir = .ul) :
    Tallied (realLcoreFn rules frames) 0 (pkts.map (verdict rules)) :=
  tallied_start.lcoreBursts rules hdelivers hdir

def frameOf (pkt : Packet) : RteMbuf where
  data := List.replicate TEID_OFFSET (0 : UInt8) ++ [(pkt.teid >>> 24).toUInt8, (pkt.teid >>> 16).toUInt8,
    (pkt.teid >>> 8).toUInt8, pkt.teid.toUInt8]
  fits := by simp [TEID_OFFSET]

theorem delivers_frameOf (pkt : Packet) : Delivers (frameOf pkt) pkt := by
  refine ⟨by simp [frameOf, TEID_OFFSET], ?_⟩
  apply UInt32.toBitVec_inj.mp
  apply BitVec.eq_of_getLsbD_eq
  intro i hi
  simp [frameTeid, frameOf, TEID_OFFSET, hi, -UInt32.toUInt32_toUInt8]
  grind

/-- The planes agree on a sequence exactly when the lcore has no part in it or nothing to count as
received: modulo the counter's width, an empty sequence. -/
theorem planesAgree_iff (rules : RuleTable) (pkts : List Packet) :
    PlanesAgree rules pkts ↔
      ((∀ pkt ∈ pkts, pkt.dir = .ul) → pkts.length % 2 ^ 64 = 0) := by
  have hzero : UInt64.ofNat pkts.length = UInt64.ofNat 0 ↔ pkts.length % 2 ^ 64 = 0 := by
    rw [← UInt64.toNat_inj, UInt64.toNat_ofNat', UInt64.toNat_ofNat', Nat.zero_mod]
  constructor
  · intro hagree hdir
    let timed : List (Packet × UInt64) := pkts.map fun pkt => (pkt, 0)
    let frames : List (UInt64 × List (RteMbuf × UInt64)) :=
      [(0, pkts.map fun pkt => (frameOf pkt, 0))]
    have htimed : timed.map Prod.fst = pkts := by simp [timed, Function.comp_def]
    have hdelivers : List.Forall₂ Delivers ((frames.flatMap Prod.snd).map Prod.fst) pkts := by
      have hframes : (frames.flatMap Prod.snd).map Prod.fst = pkts.map frameOf := by
        simp [frames, Function.comp_def]
      rw [hframes, List.forall₂_map_left_iff, List.forall₂_same]
      exact fun pkt _ => delivers_frameOf pkt
    have hsame := (hagree timed [(0, pkts)] frames htimed (by simp)).2 hdir hdelivers
    rw [(tallied_socket rules timed).seen, (tallied_lcore rules hdelivers hdir).seen] at hsame
    have hreceived : UInt64.ofNat timed.length = UInt64.ofNat 0 :=
      congrArg (fun seen => seen.1.1) hsame
    rw [List.length_map] at hreceived
    exact hzero.mp hreceived
  · rintro hempty timed bursts frames rfl hbursts
    have hsocket := (tallied_socket rules timed).seen
    constructor
    · rw [hsocket, (tallied_dpdk rules bursts).seen, hbursts, List.length_map]
    · intro hdir hdelivers
      have hreceived := hzero.mpr (hempty hdir)
      rw [List.length_map] at hreceived
      rw [hsocket, (tallied_lcore rules hdelivers hdir).seen, hreceived]

/-- One packet without a rule: two planes have received it, the lcore has not. -/
theorem one_packet_not_received : ¬ PlanesAgree {} [{ teid := 1000 }] := by
  intro hagree
  have hsame := (hagree [({ teid := 1000 }, 0)] [(0, [{ teid := 1000 }])]
    [(0, [(frameOf { teid := 1000 }, 0)])] rfl rfl).2 (by decide)
    (List.Forall₂.cons (delivers_frameOf _) List.Forall₂.nil)
  have hreceived := congrArg (fun seen => seen.1.1) hsame
  exact absurd hreceived (by decide)

end MobileCore.PlaneAgreement
