import MobileCore.PacketRules

namespace MobileCore.DemoRules

open LastWrite PacketRules

/-- 10.45.0.1 -/
def baseUeIp : UInt32 :=
  ((10 : UInt32) <<< 24) ||| ((45 : UInt32) <<< 16) ||| ((0 : UInt32) <<< 8) ||| 1

def baseTeid : UInt32 := 1000

/-- 8.8.8.8 -/
def n6GwIp : UInt32 :=
  ((8 : UInt32) <<< 24) ||| ((8 : UInt32) <<< 16) ||| ((8 : UInt32) <<< 8) ||| 8

/-- 10.10.0.1 -/
def gnbN3Ip : UInt32 :=
  ((10 : UInt32) <<< 24) ||| ((10 : UInt32) <<< 16) ||| ((0 : UInt32) <<< 8) ||| 1

/-- Voice, video and data. -/
def qfiCycle : List UInt8 := [1, 2, 9]

def mbrUl : List UInt32 := [64, 4000, 100000]

def mbrDl : List UInt32 := [64, 8000, 100000]

def gbrUl : List UInt32 := [64, 2000, 0]

def gbrDl : List UInt32 := [64, 4000, 0]

def pdrUl (i : UInt32) : PDR :=
  { pdrId := 2 * i + 1, teid := baseTeid + i, ueIp := baseUeIp + i, dir := .ul,
    farId := 2 * i + 1, qerId := i + 1, precedence := 100 }

def pdrDl (i : UInt32) : PDR :=
  { pdrId := 2 * i + 2, teid := baseTeid + i, ueIp := baseUeIp + i, dir := .dl,
    farId := 2 * i + 2, qerId := i + 1, precedence := 100 }

/-- To the internet, without an encapsulation. -/
def farUl (i : UInt32) : FAR :=
  { farId := 2 * i + 1, action := .forward, dstIp := n6GwIp, dstPort := 0, encapGtpu := false }

/-- To the gNB, in GTP-U. -/
def farDl (i : UInt32) : FAR :=
  { farId := 2 * i + 2, action := .forward, dstIp := gnbN3Ip, dstPort := 2152, encapGtpu := true }

def qer (i : UInt32) : QER :=
  let qi := (i % 3).toNat
  { qerId := i + 1, qfi := qfiCycle.getD qi 0, ulMbrKbps := mbrUl.getD qi 0,
    dlMbrKbps := mbrDl.getD qi 0, ulGbrKbps := gbrUl.getD qi 0, dlGbrKbps := gbrDl.getD qi 0 }

def addUe (rt : RuleTable) (i : UInt32) : RuleTable :=
  ((((rt.addPdr (pdrUl i)).addPdr (pdrDl i)).addFar (farUl i)).addFar (farDl i)).addQer (qer i)

def addUes (numUes : Nat) : RuleTable :=
  (List.range numUes).foldl (fun rt i => addUe rt (UInt32.ofNat i)) {}

def buildDemoRules (numUes : UInt32) : RuleTable := addUes numUes.toNat

/-- Every packet of a session of the first `n` finds its own rules, no other packet finds any, and
no two PDRs share an identifier, a key or a FAR. -/
structure Resolves (rt : RuleTable) (n : Nat) : Prop where
  uplink : ∀ i < n, ∀ pkt : Packet, pkt.dir = .ul → pkt.teid.toNat = 1000 + i →
    ∃ pdr far qer, rt.matchPdr pkt = some pdr ∧ pdr.pdrId.toNat = 2 * i + 1 ∧
      rt.getFar pdr.farId = some far ∧ far.action = .forward ∧ far.encapGtpu = false ∧
      rt.getQer pdr.qerId = some qer ∧ qer.qerId.toNat = i + 1
  downlink : ∀ i < n, ∀ pkt : Packet, pkt.dir = .dl → pkt.ueIp.toNat = 0x0A2D0001 + i →
    ∃ pdr far qer, rt.matchPdr pkt = some pdr ∧ pdr.pdrId.toNat = 2 * i + 2 ∧
      rt.getFar pdr.farId = some far ∧ far.action = .forward ∧ far.encapGtpu = true ∧
      rt.getQer pdr.qerId = some qer ∧ qer.qerId.toNat = i + 1
  otherTeid : ∀ pkt : Packet, pkt.dir = .ul → (∀ i < n, pkt.teid.toNat ≠ 1000 + i) →
    rt.matchPdr pkt = none
  otherUeIp : ∀ pkt : Packet, pkt.dir = .dl → (∀ i < n, pkt.ueIp.toNat ≠ 0x0A2D0001 + i) →
    rt.matchPdr pkt = none
  named : ∀ id pdr, rt.pdrs.lookup id = some pdr → pdr.pdrId = id ∧
    (∃ far, rt.getFar pdr.farId = some far ∧ far.farId = pdr.farId) ∧
    ∃ qer, rt.getQer pdr.qerId = some qer ∧ qer.qerId = pdr.qerId
  unique : ∀ id id' pdr pdr', rt.pdrs.lookup id = some pdr → rt.pdrs.lookup id' = some pdr' →
    pdr.matchKey = pdr'.matchKey ∨ pdr.farId = pdr'.farId → id = id'

/-- The identifiers of PDRs and FARs in the order in which they are given out, two to a UE. -/
def ruleId (j : Nat) : UInt32 := UInt32.ofNat (j + 1)

def pdrAt (j : Nat) : PDR :=
  if j % 2 = 0 then pdrUl (UInt32.ofNat (j / 2)) else pdrDl (UInt32.ofNat (j / 2))

def farAt (j : Nat) : FAR :=
  if j % 2 = 0 then farUl (UInt32.ofNat (j / 2)) else farDl (UInt32.ofNat (j / 2))

def qerId (i : Nat) : UInt32 := UInt32.ofNat (i + 1)

def teidAt (i : Nat) : UInt32 := baseTeid + UInt32.ofNat i

def ueIpAt (i : Nat) : UInt32 := baseUeIp + UInt32.ofNat i

/-- The table after `n` turns of the loop. -/
structure Built (rt : RuleTable) (n : Nat) : Prop where
  pdrs : Filled rt.pdrs ruleId pdrAt (2 * n)
  fars : Filled rt.fars ruleId farAt (2 * n)
  qers : Filled rt.qers qerId (fun i => qer (UInt32.ofNat i)) n
  teids : Filled rt.teidToPdr teidAt (fun i => ruleId (2 * i)) n
  ueIps : Filled rt.ueipToPdr ueIpAt (fun i => ruleId (2 * i + 1)) n

theorem ruleId_ul (i : Nat) : 2 * UInt32.ofNat i + 1 = ruleId (2 * i) := by
  rw [ruleId, UInt32.ofNat_add, UInt32.ofNat_mul]
  rfl

theorem ruleId_dl (i : Nat) : 2 * UInt32.ofNat i + 2 = ruleId (2 * i + 1) := by
  rw [ruleId, Nat.add_assoc, UInt32.ofNat_add, UInt32.ofNat_mul]
  rfl

theorem qerId_eq (i : Nat) : UInt32.ofNat i + 1 = qerId i := by
  rw [qerId, UInt32.ofNat_add]
  rfl

theorem pdrAt_ul (i : Nat) : pdrAt (2 * i) = pdrUl (UInt32.ofNat i) := by
  rw [pdrAt, if_pos (Nat.mul_mod_right 2 i), Nat.mul_div_cancel_left i (by decide)]

theorem pdrAt_dl (i : Nat) : pdrAt (2 * i + 1) = pdrDl (UInt32.ofNat i) := by
  rw [pdrAt, if_neg (by omega), show (2 * i + 1) / 2 = i by omega]

theorem farAt_ul (i : Nat) : farAt (2 * i) = farUl (UInt32.ofNat i) := by
  rw [farAt, if_pos (Nat.mul_mod_right 2 i), Nat.mul_div_cancel_left i (by decide)]

theorem farAt_dl (i : Nat) : farAt (2 * i + 1) = farDl (UInt32.ofNat i) := by
  rw [farAt, if_neg (by omega), show (2 * i + 1) / 2 = i by omega]

theorem ofNat_ne {i j : Nat} (hij : i < j) (hj : j < 2 ^ 32) : UInt32.ofNat i ≠ UInt32.ofNat j := by
  intro heq
  have hnat := congrArg UInt32.toNat heq
  rw [UInt32.toNat_ofNat_of_lt' (Nat.lt_trans hij hj), UInt32.toNat_ofNat_of_lt' hj] at hnat
  omega

theorem ruleId_ne {j k : Nat} (hjk : j < k) (hk : k < 2 ^ 32 - 1) : ruleId j ≠ ruleId k :=
  ofNat_ne (Nat.succ_lt_succ hjk) (by omega)

/-- No key of a sequence that starts at an address or a TEID comes twice. -/
theorem base_add_ne (base : UInt32) {i j : Nat} (hij : i < j) (hj : j < 2 ^ 32) :
    base + UInt32.ofNat i ≠ base + UInt32.ofNat j :=
  fun heq => ofNat_ne hij hj ((UInt32.add_right_inj base).mp heq)

section Loop

variable {rt : RuleTable} {n : Nat}

theorem built_empty : Built {} 0 :=
  ⟨Filled.empty _ _, Filled.empty _ _, Filled.empty _ _, Filled.empty _ _, Filled.empty _ _⟩

/-- Each of the five tables takes the entries of one more UE under fresh keys. -/
theorem Built.addUe (h : Built rt n) (hn : n < 2 ^ 31 - 1) :
    Built (addUe rt (UInt32.ofNat n)) (n + 1) := by
  have hul (j : Nat) (hj : j < 2 * n) : ruleId j ≠ ruleId (2 * n) := ruleId_ne hj (by omega)
  have hdl (j : Nat) (hj : j < 2 * n + 1) : ruleId j ≠ ruleId (2 * n + 1) :=
    ruleId_ne hj (by omega)
  constructor
  · have hpdrs := (h.pdrs.insert hul).insert hdl
    rw [pdrAt_ul, pdrAt_dl, ← ruleId_ul, ← ruleId_dl] at hpdrs
    exact hpdrs
  · have hfars := (h.fars.insert hul).insert hdl
    rw [farAt_ul, farAt_dl, ← ruleId_ul, ← ruleId_dl] at hfars
    exact hfars
  · have hqers := h.qers.insert fun i hi => ofNat_ne (Nat.succ_lt_succ hi) (by omega)
    rw [← qerId_eq] at hqers
    exact hqers
  · have hteids := h.teids.insert fun i hi => base_add_ne baseTeid hi (by omega)
    rw [← ruleId_ul] at hteids
    exact hteids
  · have hueIps := h.ueIps.insert fun i hi => base_add_ne baseUeIp hi (by omega)
    rw [← ruleId_dl] at hueIps
    exact hueIps

theorem built_addUes (hn : n < 2 ^ 31) : Built (addUes n) n := by
  induction n with
  | zero => exact built_empty
  | succ n ih =>
      rw [addUes, List.range_succ, List.foldl_append]
      exact (ih (Nat.lt_of_succ_lt hn)).addUe (by omega)

end Loop

theorem toNat_base_add (base : UInt32) {i : Nat} (h : base.toNat + i < 2 ^ 32) :
    (base + UInt32.ofNat i).toNat = base.toNat + i := by
  rw [UInt32.toNat_add, UInt32.toNat_ofNat_of_lt' (by show i < 2 ^ 32; omega), Nat.mod_eq_of_lt h]

theorem toNat_ruleId {j : Nat} (hj : j < 2 ^ 32 - 1) : (ruleId j).toNat = j + 1 :=
  UInt32.toNat_ofNat_of_lt' (show j + 1 < 2 ^ 32 by omega)

theorem ofNat_injective {i j : Nat} (hi : i < 2 ^ 32) (hj : j < 2 ^ 32)
    (h : UInt32.ofNat i = UInt32.ofNat j) : i = j := by
  rcases Nat.lt_trichotomy i j with hlt | heq | hgt
  · exact absurd h (ofNat_ne hlt hj)
  · exact heq
  · exact absurd h.symm (ofNat_ne hgt hi)

theorem pdrAt_ids (j : Nat) : (pdrAt j).pdrId = ruleId j ∧ (pdrAt j).farId = ruleId j ∧
    (pdrAt j).qerId = qerId (j / 2) := by
  obtain ⟨i, rfl | rfl⟩ : ∃ i, j = 2 * i ∨ j = 2 * i + 1 := ⟨j / 2, by omega⟩
  · rw [pdrAt_ul, Nat.mul_div_cancel_left i (by decide), ← ruleId_ul, ← qerId_eq]
    exact ⟨rfl, rfl, rfl⟩
  · rw [pdrAt_dl, show (2 * i + 1) / 2 = i by omega, ← ruleId_dl, ← qerId_eq]
    exact ⟨rfl, rfl, rfl⟩

theorem farAt_farId (j : Nat) : (farAt j).farId = ruleId j := by
  obtain ⟨i, rfl | rfl⟩ : ∃ i, j = 2 * i ∨ j = 2 * i + 1 := ⟨j / 2, by omega⟩
  · rw [farAt_ul, ← ruleId_ul]
    rfl
  · rw [farAt_dl, ← ruleId_dl]
    rfl

theorem pdrAt_matchKey {j k : Nat} (hj : j < 2 ^ 32) (hk : k < 2 ^ 32)
    (h : (pdrAt j).matchKey = (pdrAt k).matchKey) : j = k := by
  have hsame (base : UInt32) {a b : Nat} (ha : a < 2 ^ 32) (hb : b < 2 ^ 32)
      (heq : base + UInt32.ofNat a = base + UInt32.ofNat b) : a = b :=
    ofNat_injective ha hb ((UInt32.add_right_inj base).mp heq)
  obtain ⟨a, rfl | rfl⟩ : ∃ a, j = 2 * a ∨ j = 2 * a + 1 := ⟨j / 2, by omega⟩ <;>
    obtain ⟨b, rfl | rfl⟩ : ∃ b, k = 2 * b ∨ k = 2 * b + 1 := ⟨k / 2, by omega⟩
  · rw [pdrAt_ul, pdrAt_ul] at h
    have hab := hsame baseTeid (by omega) (by omega) (Prod.mk.inj h).2
    rw [hab]
  · rw [pdrAt_ul, pdrAt_dl] at h
    cases (Prod.mk.inj h).1
  · rw [pdrAt_dl, pdrAt_ul] at h
    cases (Prod.mk.inj h).1
  · rw [pdrAt_dl, pdrAt_dl] at h
    have hab := hsame baseUeIp (by omega) (by omega) (Prod.mk.inj h).2
    rw [hab]

section Lookups

variable {rt : RuleTable} {n i : Nat}

theorem Built.matchPdr_ul (h : Built rt n) (hi : i < n) {pkt : Packet} (hdir : pkt.dir = .ul)
    (hteid : pkt.teid = teidAt i) : rt.matchPdr pkt = some (pdrUl (UInt32.ofNat i)) := by
  rw [RuleTable.matchPdr, if_pos hdir, hteid, h.teids.entry i hi]
  show rt.pdrs.lookup (ruleId (2 * i)) = _
  rw [h.pdrs.entry (2 * i) (by omega), pdrAt_ul]

theorem Built.matchPdr_dl (h : Built rt n) (hi : i < n) {pkt : Packet} (hdir : pkt.dir = .dl)
    (hueIp : pkt.ueIp = ueIpAt i) : rt.matchPdr pkt = some (pdrDl (UInt32.ofNat i)) := by
  rw [RuleTable.matchPdr, if_neg (by rw [hdir]; decide), hueIp, h.ueIps.entry i hi]
  show rt.pdrs.lookup (ruleId (2 * i + 1)) = _
  rw [h.pdrs.entry (2 * i + 1) (by omega), pdrAt_dl]

theorem Built.getFar_ul (h : Built rt n) (hi : i < n) :
    rt.getFar (pdrUl (UInt32.ofNat i)).farId = some (farUl (UInt32.ofNat i)) := by
  rw [← farAt_ul, ← h.fars.entry (2 * i) (by omega), ← ruleId_ul]
  rfl

theorem Built.getFar_dl (h : Built rt n) (hi : i < n) :
    rt.getFar (pdrDl (UInt32.ofNat i)).farId = some (farDl (UInt32.ofNat i)) := by
  rw [← farAt_dl, ← h.fars.entry (2 * i + 1) (by omega), ← ruleId_dl]
  rfl

theorem Built.getQer (h : Built rt n) (hi : i < n) :
    rt.getQer (qerId i) = some (qer (UInt32.ofNat i)) := h.qers.entry i hi

end Lookups

/-- All identifiers, keys and references are computed without a wrap below 2^31 sessions. -/
theorem demo_rules_resolve (numUes : UInt32) (hfew : numUes.toNat < 2 ^ 31) :
    Resolves (buildDemoRules numUes) numUes.toNat := by
  have h := built_addUes hfew
  have hteid {i : Nat} (hi : i < numUes.toNat) : (teidAt i).toNat = 1000 + i :=
    toNat_base_add baseTeid (show 1000 + i < 2 ^ 32 by omega)
  have hueIp {i : Nat} (hi : i < numUes.toNat) : (ueIpAt i).toNat = 0x0A2D0001 + i :=
    toNat_base_add baseUeIp (show 0x0A2D0001 + i < 2 ^ 32 by omega)
  have hqer {i : Nat} (hi : i < numUes.toNat) : (qerId i).toNat = i + 1 :=
    UInt32.toNat_ofNat_of_lt' (show i + 1 < 2 ^ 32 by omega)
  constructor
  · intro i hi pkt hdir hkey
    have hmatch := h.matchPdr_ul hi hdir (UInt32.toNat_inj.mp (hkey.trans (hteid hi).symm))
    refine ⟨_, _, qer (UInt32.ofNat i), hmatch, ?_, h.getFar_ul hi, rfl, rfl, ?_, ?_⟩
    · show (2 * UInt32.ofNat i + 1).toNat = _
      rw [ruleId_ul, toNat_ruleId (by omega)]
    · rw [← h.getQer hi, ← qerId_eq]
      rfl
    · show (UInt32.ofNat i + 1).toNat = _
      rw [qerId_eq, hqer hi]
  · intro i hi pkt hdir hkey
    have hmatch := h.matchPdr_dl hi hdir (UInt32.toNat_inj.mp (hkey.trans (hueIp hi).symm))
    refine ⟨_, _, qer (UInt32.ofNat i), hmatch, ?_, h.getFar_dl hi, rfl, rfl, ?_, ?_⟩
    · show (2 * UInt32.ofNat i + 2).toNat = _
      rw [ruleId_dl, toNat_ruleId (by omega)]
    · rw [← h.getQer hi, ← qerId_eq]
      rfl
    · show (UInt32.ofNat i + 1).toNat = _
      rw [qerId_eq, hqer hi]
  · intro pkt hdir hother
    have hnone : (buildDemoRules numUes).teidToPdr.lookup pkt.teid = none := by
      apply h.teids.other
      rintro i hi heq
      exact hother i hi (by rw [← heq, hteid hi])
    rw [RuleTable.matchPdr, if_pos hdir, hnone]
  · intro pkt hdir hother
    have hnone : (buildDemoRules numUes).ueipToPdr.lookup pkt.ueIp = none := by
      apply h.ueIps.other
      rintro i hi heq
      exact hother i hi (by rw [← heq, hueIp hi])
    rw [RuleTable.matchPdr, if_neg (by rw [hdir]; decide), hnone]
  · intro id pdr hlookup
    obtain ⟨j, hj, rfl, rfl⟩ := h.pdrs.of_lookup hlookup
    obtain ⟨hpdrId, hfarId, hqerId⟩ := pdrAt_ids j
    have hhalf : j / 2 < numUes.toNat := by omega
    rw [hpdrId, hfarId, hqerId]
    exact ⟨rfl, ⟨_, h.fars.entry j hj, farAt_farId j⟩, _, h.getQer hhalf, qerId_eq _⟩
  · intro id id' pdr pdr' hlookup hlookup' hshared
    obtain ⟨j, hj, rfl, rfl⟩ := h.pdrs.of_lookup hlookup
    obtain ⟨k, hk, rfl, rfl⟩ := h.pdrs.of_lookup hlookup'
    rcases hshared with hkey | hfar
    · rw [pdrAt_matchKey (by omega) (by omega) hkey]
    · rwa [(pdrAt_ids j).2.1, (pdrAt_ids k).2.1] at hfar

theorem three_demo_ues_resolve : Resolves (buildDemoRules 3) 3 :=
  demo_rules_resolve 3 (by decide)

example : ((buildDemoRules 3).matchPdr { teid := 1001 }).map PDR.pdrId = some 3 := by decide +kernel

end MobileCore.DemoRules
