import Mathlib.Data.List.Nodup
import MobileCore.EvolvedPacketCore
import MobileCore.SessionOwnership

namespace MobileCore.AttachExchanges

open MobileCore.EvolvedPacketCore
open MobileCore.MobilityManagement (S11Response AuthVectors Thread Ipv4)
open MobileCore.PacketGateways (CreateSession S11Request S5Request S5Response Ccr Cca SgwThread
  PgwThread)
open MobileCore.S1Link (baseImsi)
open MobileCore.SessionOwnership (bytes)

/-- The UE ids are counted from 1 on. -/
def number (k : Nat) : UInt32 := UInt32.ofNat (k + 1)

def imsi (k : Nat) : UInt64 := baseImsi + (number k).toUInt64

/-- So many attaches get numbers, TEIDs and addresses of their own. -/
def maxAttaches : Nat := 2 ^ 30

section Sessions

def sgwSession? : Event → Option (UInt64 × UInt32 × UInt32)
  | .core (.sgwSession imsi s11Teid s1uTeid) => some (imsi, s11Teid, s1uTeid)
  | _ => none

def pgwSession? : Event → Option (UInt64 × UInt32 × List UInt8)
  | .core (.pgwSession imsi teid ueIp) => some (imsi, teid, ueIp)
  | _ => none

def sgwSessions (tr : List Event) : List (UInt64 × UInt32 × UInt32) := tr.filterMap sgwSession?

def pgwSessions (tr : List Event) : List (UInt64 × UInt32 × List UInt8) :=
  tr.filterMap pgwSession?

universe u

variable {β : Type u}

/-- What a ledger has for a subscriber. -/
def madeFor (who : UInt64) (ledger : List (UInt64 × β)) : List β :=
  (ledger.filter fun e => e.1 = who).map Prod.snd

theorem madeFor_append (who : UInt64) (front back : List (UInt64 × β)) :
    madeFor who (front ++ back) = madeFor who front ++ madeFor who back := by
  rw [madeFor, List.filter_append, List.map_append]
  rfl

theorem madeFor_same (who : UInt64) (b : β) : madeFor who [(who, b)] = [b] := by
  simp [madeFor]

theorem madeFor_other {who other : UInt64} (hne : other ≠ who) (b : β) :
    madeFor who [(other, b)] = [] := by
  simp [madeFor, hne]

theorem mem_of_madeFor {who : UInt64} {ledger : List (UInt64 × β)} {b : β}
    (h : b ∈ madeFor who ledger) : (who, b) ∈ ledger := by
  obtain ⟨⟨other, b'⟩, hmem, rfl⟩ := List.mem_map.mp h
  obtain ⟨hledger, hwho⟩ := List.mem_filter.mp hmem
  obtain rfl : other = who := of_decide_eq_true hwho
  exact hledger

theorem not_mem_of_madeFor {who : UInt64} {ledger : List (UInt64 × β)}
    (h : madeFor who ledger = []) : who ∉ ledger.map Prod.fst := by
  intro hmem
  obtain ⟨⟨other, b⟩, hledger, rfl⟩ := List.mem_map.mp hmem
  have hfilter : (other, b) ∈ ledger.filter fun e => e.1 = other := by
    simp [List.mem_filter, hledger]
  have hmade : b ∈ madeFor other ledger := List.mem_map.mpr ⟨_, hfilter, rfl⟩
  rw [h] at hmade
  cases hmade

end Sessions

section Numbers

variable {j k : Nat}

theorem number_toNat (hk : k ≤ maxAttaches) : (number k).toNat = k + 1 := by
  apply UInt32.toNat_ofNat_of_lt'
  have hmax : maxAttaches = 2 ^ 30 := rfl
  show k + 1 < 2 ^ 32
  omega

theorem number_injective (hj : j ≤ maxAttaches) (hk : k ≤ maxAttaches) (h : number j = number k) :
    j = k := by
  have hnat := congrArg UInt32.toNat h
  rw [number_toNat hj, number_toNat hk] at hnat
  exact Nat.succ.inj hnat

theorem number_succ (k : Nat) : number (k + 1) = number k + 1 := by
  rw [number, number, UInt32.ofNat_add]
  rfl

theorem imsi_injective (hj : j ≤ maxAttaches) (hk : k ≤ maxAttaches) (h : imsi j = imsi k) :
    j = k := by
  apply number_injective hj hk
  have hwide := (UInt64.add_right_inj baseImsi).mp h
  have hnat := congrArg UInt64.toNat hwide
  rw [UInt32.toNat_toUInt64, UInt32.toNat_toUInt64] at hnat
  exact UInt32.toNat_inj.mp hnat

end Numbers

def NoSession (tr : List Event) (k : Nat) : Prop :=
  madeFor (imsi k) (sgwSessions tr) = [] ∧ madeFor (imsi k) (pgwSessions tr) = []

section Exchanges

/-- What is under way behind the MME. -/
structure Links where
  toHss : List UInt64 := []
  fromHss : List (UInt64 × AuthVectors) := []
  stored : UInt64 → Option AuthVectors := fun _ => none
  toSgw : List S11Request := []
  toMme : List S11Response := []
  toPgw : List S5Request := []
  fromPgw : List S5Response := []
  toPcrf : List Ccr := []
  fromPcrf : List Cca := []
  sgw : SgwThread := .receiving
  pgw : PgwThread := .receiving

def links (s : State) : Links where
  toHss := s.toHss
  fromHss := s.fromHss
  stored := fun who => s.core.mme.pendingAuth.lookup who
  toSgw := s.core.toSgw
  toMme := s.core.toMme
  toPgw := s.core.toPgw
  fromPgw := s.core.fromPgw
  toPcrf := s.core.toPcrf
  fromPcrf := s.core.fromPcrf
  sgw := s.core.sgw.thread
  pgw := s.core.pgw.thread

def request (k : Nat) : CreateSession := { imsi := imsi k, apn := "internet" }

def modifies : Thread → Bool
  | .awaitModifyBearer | .awaitPathSwitch _ _ => true
  | _ => false

/-- The one thing under way behind the MME is what its receive thread waits for. -/
inductive Exchange (tr : List Event) (n : Nat) : Thread → Links → Prop where
  | receiving : Exchange tr n .receiving {}
  | airSent {k : Nat} (hk : k < n) :
      Exchange tr n (.awaitAia (number k) (number k) (imsi k)) { toHss := [imsi k] }
  | aiaSent {k : Nat} (hk : k < n) :
      Exchange tr n (.awaitAia (number k) (number k) (imsi k)) { fromHss := [handleAir (imsi k)] }
  | aiaStored {k : Nat} (hk : k < n) :
      Exchange tr n (.awaitAia (number k) (number k) (imsi k))
        { stored := fun who => if who = imsi k then some (generateAuthVectors (imsi k)) else none }
  | modifying {thread : Thread} {enbTeid : UInt32} {who : UInt64} (hthread : modifies thread = true) :
      Exchange tr n thread { toSgw := [.modifyBearer enbTeid who] }
  | modified {thread : Thread} {resp : S11Response} (hthread : modifies thread = true) :
      Exchange tr n thread { toMme := [resp] }
  | requested {k : Nat} (hk : k < n) (hsession : NoSession tr k) :
      Exchange tr n (.awaitCreateSession (number k) k) { toSgw := [.createSession (request k)] }
  | atPgw {k : Nat} {s11Teid s1uTeid : UInt32} (hk : k < n)
      (hsgw : madeFor (imsi k) (sgwSessions tr) = [(s11Teid, s1uTeid)])
      (hpgw : madeFor (imsi k) (pgwSessions tr) = []) :
      Exchange tr n (.awaitCreateSession (number k) k)
        { sgw := .awaitPgw (request k) s11Teid s1uTeid, toPgw := [⟨request k, s11Teid⟩] }
  | atPcrf {k : Nat} {s11Teid s1uTeid : UInt32} {ccr : Ccr} (hk : k < n)
      (hsgw : madeFor (imsi k) (sgwSessions tr) = [(s11Teid, s1uTeid)])
      (hpgw : madeFor (imsi k) (pgwSessions tr) = []) :
      Exchange tr n (.awaitCreateSession (number k) k)
        { sgw := .awaitPgw (request k) s11Teid s1uTeid, pgw := .awaitCca ⟨request k, s11Teid⟩,
          toPcrf := [ccr] }
  | decided {k : Nat} {s11Teid s1uTeid : UInt32} {cca : Cca} (hk : k < n)
      (hsgw : madeFor (imsi k) (sgwSessions tr) = [(s11Teid, s1uTeid)])
      (hpgw : madeFor (imsi k) (pgwSessions tr) = []) (hgranted : cca.resultCode = 1) :
      Exchange tr n (.awaitCreateSession (number k) k)
        { sgw := .awaitPgw (request k) s11Teid s1uTeid, pgw := .awaitCca ⟨request k, s11Teid⟩,
          fromPcrf := [cca] }
  | opened {k : Nat} {s11Teid s1uTeid teid : UInt32} {ip : Ipv4} {resp : S5Response} (hk : k < n)
      (hsgw : madeFor (imsi k) (sgwSessions tr) = [(s11Teid, s1uTeid)])
      (hpgw : madeFor (imsi k) (pgwSessions tr) = [(teid, bytes ip)]) (hcause : resp.cause = 16)
      (hip : resp.ueIp = bytes ip) :
      Exchange tr n (.awaitCreateSession (number k) k)
        { sgw := .awaitPgw (request k) s11Teid s1uTeid, fromPgw := [resp] }
  | answered {k : Nat} {teid : UInt32} {ip : Ipv4} {resp : S11Response} (hk : k < n)
      (hsgw : madeFor (imsi k) (sgwSessions tr) = [(resp.senderTeid, resp.bearerTeid)])
      (hpgw : madeFor (imsi k) (pgwSessions tr) = [(teid, bytes ip)]) (hcause : resp.cause = 16)
      (hip : resp.ueIp = bytes ip) :
      Exchange tr n (.awaitCreateSession (number k) k) { toMme := [resp] }

end Exchanges

section Traces

variable {tr es : List Event} {n : Nat} {thread : Thread} {l : Links}

structure Calm (es : List Event) : Prop where
  sgw : sgwSessions es = []
  pgw : pgwSessions es = []

theorem sgwSessions_append (tr es : List Event) :
    sgwSessions (tr ++ es) = sgwSessions tr ++ sgwSessions es :=
  List.filterMap_append

theorem pgwSessions_append (tr es : List Event) :
    pgwSessions (tr ++ es) = pgwSessions tr ++ pgwSessions es :=
  List.filterMap_append

theorem calm_nil : Calm [] := ⟨rfl, rfl⟩

theorem calm_enb (es : List S1Link.Event) : Calm (es.map .enb) := by
  induction es with
  | nil => exact calm_nil
  | cons e es ih => exact ⟨ih.sgw, ih.pgw⟩

def mmeEvents (mes : List MobilityManagement.Event) : List Event := mes.map fun e => .core (.mme e)

theorem calm_mme (mes : List MobilityManagement.Event) : Calm (mmeEvents mes) := by
  induction mes with
  | nil => exact calm_nil
  | cons e mes ih => exact ⟨ih.sgw, ih.pgw⟩

theorem Exchange.calm {n : Nat} {thread : Thread} {l : Links} (h : Exchange tr n thread l)
    (hes : Calm es) : Exchange (tr ++ es) n thread l := by
  have hsgw : sgwSessions (tr ++ es) = sgwSessions tr := by
    rw [sgwSessions_append, hes.sgw, List.append_nil]
  have hpgw : pgwSessions (tr ++ es) = pgwSessions tr := by
    rw [pgwSessions_append, hes.pgw, List.append_nil]
  cases h with
  | receiving => exact .receiving
  | airSent hk => exact .airSent hk
  | aiaSent hk => exact .aiaSent hk
  | aiaStored hk => exact .aiaStored hk
  | modifying hthread => exact .modifying hthread
  | modified hthread => exact .modified hthread
  | requested hk hsession => exact .requested hk ⟨hsgw ▸ hsession.1, hpgw ▸ hsession.2⟩
  | atPgw hk hs hp => exact .atPgw hk (hsgw ▸ hs) (hpgw ▸ hp)
  | atPcrf hk hs hp => exact .atPcrf hk (hsgw ▸ hs) (hpgw ▸ hp)
  | decided hk hs hp hgranted => exact .decided hk (hsgw ▸ hs) (hpgw ▸ hp) hgranted
  | opened hk hs hp hcause hip => exact .opened hk (hsgw ▸ hs) (hpgw ▸ hp) hcause hip
  | answered hk hs hp hcause hip => exact .answered hk (hsgw ▸ hs) (hpgw ▸ hp) hcause hip

end Traces

section Transitions

variable {tr es : List Event} {n i : Nat} {thread : Thread} {l : Links}

theorem single_datagram {α : Type*} {only msg : α} (h : [only][i]? = some msg) :
    msg = only ∧ [only].eraseIdx i = [] := by
  cases i with
  | zero => exact ⟨(Option.some.inj h).symm, rfl⟩
  | succ i => cases h

theorem Exchange.of_receiving (h : Exchange tr n .receiving l) : l = {} := by
  cases h with
  | receiving => rfl
  | modifying hthread => cases hthread
  | modified hthread => cases hthread

theorem Exchange.hss (h : Exchange tr n thread l) {who : UInt64} {rest : List UInt64}
    (hreq : l.toHss = who :: rest) :
    Exchange tr n thread { l with toHss := rest, fromHss := l.fromHss ++ [handleAir who] } := by
  cases h with
  | airSent hk =>
      obtain ⟨rfl, rfl⟩ := List.cons.inj hreq
      exact .aiaSent hk
  | _ => cases hreq

theorem Exchange.store (h : Exchange tr n thread l) {who : UInt64} {av : AuthVectors}
    {rest : List (UInt64 × AuthVectors)} (hans : l.fromHss = (who, av) :: rest) :
    Exchange tr n thread
      { l with fromHss := rest, stored := fun w => if w = who then some av else l.stored w } := by
  cases h with
  | aiaSent hk =>
      obtain ⟨heq, rfl⟩ := List.cons.inj hans
      obtain ⟨rfl, rfl⟩ := Prod.mk.inj heq
      exact .aiaStored hk
  | _ => cases hans

theorem Exchange.vectors {mmeId enbId : UInt32} {who : UInt64} {av : AuthVectors}
    (h : Exchange tr n (.awaitAia mmeId enbId who) l) (hav : l.stored who = some av) :
    (∃ k < n, mmeId = number k ∧ enbId = number k ∧ av = generateAuthVectors (imsi k)) ∧
      Exchange tr n .receiving
        { l with stored := fun w => if w = who then none else l.stored w } := by
  cases h with
  | @aiaStored k hk =>
      refine ⟨⟨k, hk, rfl, rfl, ?_⟩, ?_⟩
      · exact (Option.some.inj ((if_pos rfl).symm.trans hav)).symm
      · have hempty : (fun w => if w = imsi k then none else
            if w = imsi k then some (generateAuthVectors (imsi k)) else none) =
            fun _ => (none : Option AuthVectors) := by
          funext w
          split <;> rfl
        rw [hempty]
        exact .receiving
  | airSent hk => cases hav
  | aiaSent hk => cases hav
  | modifying hthread => cases hthread
  | modified hthread => cases hthread

theorem Exchange.modify (h : Exchange tr n thread l) {enbTeid : UInt32} {who : UInt64}
    (hreq : l.toSgw[i]? = some (.modifyBearer enbTeid who)) (resp : S11Response) :
    Exchange tr n thread { l with toSgw := l.toSgw.eraseIdx i, toMme := l.toMme ++ [resp] } := by
  cases h with
  | modifying hthread =>
      obtain ⟨-, hrest⟩ := single_datagram hreq
      rw [hrest]
      exact .modified hthread
  | requested hk hsession =>
      obtain ⟨heq, -⟩ := single_datagram hreq
      cases heq
  | _ => cases hreq

theorem Exchange.create (h : Exchange tr n thread l) {req : CreateSession}
    (hreq : l.toSgw[i]? = some (.createSession req)) :
    ∃ k < n, thread = .awaitCreateSession (number k) k ∧ req.imsi = imsi k ∧ NoSession tr k ∧
      ∀ s11Teid s1uTeid,
        Exchange (tr ++ [.core (.sgwSession req.imsi s11Teid s1uTeid)]) n thread
          { l with
            toSgw := l.toSgw.eraseIdx i
            sgw := .awaitPgw req s11Teid s1uTeid
            toPgw := l.toPgw ++ [⟨req, s11Teid⟩] } := by
  cases h with
  | modifying hthread =>
      obtain ⟨heq, -⟩ := single_datagram hreq
      cases heq
  | @requested k hk hsession =>
      obtain ⟨heq, hrest⟩ := single_datagram hreq
      obtain rfl := S11Request.createSession.inj heq
      refine ⟨k, hk, rfl, rfl, hsession, ?_⟩
      intro s11Teid s1uTeid
      rw [hrest]
      refine .atPgw hk ?_ ?_
      · rw [sgwSessions_append, madeFor_append, hsession.1]
        exact madeFor_same (imsi k) _
      · rw [pgwSessions_append, madeFor_append, hsession.2]
        rfl
  | _ => cases hreq

theorem Exchange.askPcrf (h : Exchange tr n thread l) {req : S5Request}
    (hreq : l.toPgw[i]? = some req) (ccr : Ccr) :
    Exchange tr n thread
      { l with toPgw := l.toPgw.eraseIdx i, pgw := .awaitCca req, toPcrf := l.toPcrf ++ [ccr] } := by
  cases h with
  | atPgw hk hsgw hpgw =>
      obtain ⟨rfl, hrest⟩ := single_datagram hreq
      rw [hrest]
      exact .atPcrf hk hsgw hpgw
  | _ => cases hreq

theorem Exchange.decide (h : Exchange tr n thread l) {ccr : Ccr} {rest : List Ccr}
    (hreq : l.toPcrf = ccr :: rest) {cca : Cca} (hgranted : cca.resultCode = 1) :
    Exchange tr n thread { l with toPcrf := rest, fromPcrf := l.fromPcrf ++ [cca] } := by
  cases h with
  | atPcrf hk hsgw hpgw =>
      obtain ⟨-, rfl⟩ := List.cons.inj hreq
      exact .decided hk hsgw hpgw hgranted
  | _ => cases hreq

theorem Exchange.grant (h : Exchange tr n thread l) {req : S5Request} {cca : Cca}
    {rest : List Cca} (hpgw : l.pgw = .awaitCca req) (hans : l.fromPcrf = cca :: rest) :
    cca.resultCode = 1 ∧ ∃ k < n, thread = .awaitCreateSession (number k) k ∧
      req.session.imsi = imsi k ∧ madeFor (imsi k) (pgwSessions tr) = [] ∧
      ∀ teid ip resp, resp.cause = 16 → resp.ueIp = bytes ip →
        Exchange (tr ++ [.core (.pgwSession req.session.imsi teid (bytes ip))]) n thread
          { l with fromPcrf := rest, pgw := .receiving, fromPgw := l.fromPgw ++ [resp] } := by
  cases h with
  | @decided k _ _ cca hk hsgw hnone hgranted =>
      obtain ⟨rfl, rfl⟩ := List.cons.inj hans
      obtain rfl := PgwThread.awaitCca.inj hpgw
      refine ⟨hgranted, k, hk, rfl, rfl, hnone, ?_⟩
      intro teid ip resp hcause hip
      have hmade : madeFor (imsi k)
          (pgwSessions (tr ++ [.core (.pgwSession (imsi k) teid (bytes ip))])) =
          [(teid, bytes ip)] := by
        rw [pgwSessions_append, madeFor_append, hnone]
        exact madeFor_same (imsi k) _
      refine .opened hk ?_ hmade hcause hip
      rw [sgwSessions_append, madeFor_append, hsgw]
      rfl
  | _ => cases hans

theorem Exchange.answer (h : Exchange tr n thread l) {req : CreateSession}
    {s11Teid s1uTeid : UInt32} {resp : S5Response} (hsgw : l.sgw = .awaitPgw req s11Teid s1uTeid)
    (hans : l.fromPgw[i]? = some resp) :
    resp.cause = 16 ∧ resp.ueIp.length = 4 ∧
      ∀ who, Exchange tr n thread
        { l with
          fromPgw := l.fromPgw.eraseIdx i
          sgw := .receiving
          toMme := l.toMme ++
            [{ cause := 16, senderTeid := s11Teid, bearerTeid := s1uTeid, imsi := who,
               ueIp := resp.ueIp }] } := by
  cases h with
  | opened hk hs hp hcause hip =>
      obtain ⟨rfl, hrest⟩ := single_datagram hans
      obtain ⟨rfl, rfl, rfl⟩ := SgwThread.awaitPgw.inj hsgw
      refine ⟨hcause, ?_, ?_⟩
      · rw [hip]
        rfl
      · intro who
        rw [hrest]
        exact .answered hk hs hp rfl hip
  | _ => cases hans

theorem Exchange.finishModify (h : Exchange tr n thread l) (hthread : modifies thread = true)
    {resp : S11Response} (hans : l.toMme[i]? = some resp) :
    Exchange tr n .receiving { l with toMme := l.toMme.eraseIdx i } := by
  cases h with
  | modified =>
      obtain ⟨-, hrest⟩ := single_datagram hans
      rw [hrest]
      exact .receiving
  | answered => cases hthread
  | _ => cases hans

theorem Exchange.finishCreate {mmeId : UInt32} {p : Nat}
    (h : Exchange tr n (.awaitCreateSession mmeId p) l) {resp : S11Response}
    (hans : l.toMme[i]? = some resp) :
    (p < n ∧ mmeId = number p ∧
        madeFor (imsi p) (sgwSessions tr) = [(resp.senderTeid, resp.bearerTeid)] ∧
        ∃ teid ip, madeFor (imsi p) (pgwSessions tr) = [(teid, bytes ip)] ∧ resp.cause = 16 ∧
          resp.ueIp = bytes ip) ∧
      Exchange tr n .receiving { l with toMme := l.toMme.eraseIdx i } := by
  cases h with
  | modified hthread => cases hthread
  | answered hk hsgw hpgw hcause hip =>
      obtain ⟨rfl, hrest⟩ := single_datagram hans
      refine ⟨⟨hk, rfl, hsgw, _, _, hpgw, hcause, hip⟩, ?_⟩
      rw [hrest]
      exact .receiving
  | _ => cases hans

end Transitions

end MobileCore.AttachExchanges
