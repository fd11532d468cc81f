import MobileCore.AttachExchanges
import MobileCore.ContextCorrespondence

/-!
# The stages of an attach

Without a timeout each attach has its next message in one place: on one of the links, with the
eNB's receive thread, or in the wait of the MME's receive thread. The gateways work for one wait of
the MME at a time.
-/

namespace MobileCore.AttachStages

open MobileCore.LabelledRuns
open MobileCore.EvolvedPacketCore
open MobileCore.AttachExchanges
open MobileCore.MobilityManagement (S1apUplink S1apDownlink S11Response AuthVectors UeContext Thread
  Bearer Ipv4 findCtx)
open MobileCore.PacketGateways (CreateSession S11Request S5Request S5Response Ccr Cca SgwThread
  PgwThread)
open MobileCore.S1Link (Command Purpose baseImsi)
open MobileCore.ContextCorrespondence (Numbered KeepsContexts identity identities ueIdentity)
open MobileCore.SessionOwnership (bytes)

def attaches (tr : List Event) : Nat := tr.count (.commanded .attach)

/-- A step that handles what is under way, without a timeout or a dropped answer of the HSS. -/
def Handling : Input → Prop
  | .command _ => False
  | .core (.mme .s11Timeout) => False
  | .core (.mme (.aiaWakeup chaosDrop)) => chaosDrop = false
  | .core .sgwTimeout => False
  | .core .pgwTimeout => False
  | _ => True

def Undisturbed (tr : List Event) (_ : State) : Input → Prop
  | .command cmd => cmd = .attach → attaches tr < maxAttaches
  | i => Handling i

section Stages

/-- The next message of an attach, or the wait in which the MME holds it. -/
inductive Token where
  | up (msg : S1apUplink)
  | down (msg : S1apDownlink)
  | vectors
  | session

def threadToken (id : UInt32) : Thread → List Token
  | .awaitAia mmeId _ _ => if mmeId = id then [.vectors] else []
  | .awaitCreateSession mmeId _ => if mmeId = id then [.session] else []
  | _ => []

def upToken (id : UInt32) : S1apUplink → List Token
  | .ulNasTransport mmeId enbId nasType res =>
    if mmeId = id ∧ (nasType = 0x53 ∨ nasType = 0x46) then
      [.up (.ulNasTransport mmeId enbId nasType res)]
    else []
  | .icSetupResponse mmeId enbTeid =>
    if mmeId = id then [.up (.icSetupResponse mmeId enbTeid)] else []
  | _ => []

def downToken (id : UInt32) : S1apDownlink → List Token
  | .dlNasTransport mmeId enbId nasType rand autn =>
    if mmeId = id ∧ nasType = 0x52 then [.down (.dlNasTransport mmeId enbId nasType rand autn)]
    else []
  | .icSetupRequest mmeId enbId sgwTeid ebi ueIp =>
    if mmeId = id then [.down (.icSetupRequest mmeId enbId sgwTeid ebi ueIp)] else []
  | _ => []

def tokens (id : UInt32) (s : State) : List Token :=
  threadToken id s.core.mme.thread ++
    ((s.uplink ++ s.enb.rxOut).flatMap (upToken id) ++ s.downlink.flatMap (downToken id))

/-- The UE's one bearer is the one session that the gateways made for it. -/
def OwnBearer (tr : List Event) (k : Nat) (ctx : UeContext) : Prop :=
  ∃ b, ctx.bearers = [b] ∧ b.ebi = 5 ∧
    madeFor (imsi k) (sgwSessions tr) = [(b.sgwS11Teid, b.sgwS1uTeid)] ∧
    ∃ teid, madeFor (imsi k) (pgwSessions tr) = [(teid, bytes b.ueIp)]

def Allocated (tr : List Event) (mmeId teid : UInt32) : Prop :=
  ∃ purpose, .enb (.teidAllocated mmeId purpose teid) ∈ tr

def OwnTunnel (tr : List Event) (k : Nat) (ctx : UeContext) : Prop :=
  ∀ b ∈ ctx.bearers, Allocated tr (number k) b.enbS1uTeid

/-- The stage that an attach is in, by its context and its tokens. -/
inductive Stage (tr : List Event) (k : Nat) : Option UeContext → List Token → Prop where
  | unknown (hsession : NoSession tr k) : Stage tr k none []
  | awaiting {ctx : UeContext} (hsession : NoSession tr k) (hbearers : ctx.bearers = []) :
      Stage tr k (some ctx) [.vectors]
  | challenged {ctx : UeContext} {rand autn : List UInt8} (hsession : NoSession tr k)
      (hbearers : ctx.bearers = []) (hlength : 8 ≤ rand.length)
      (hres : (rand.take 8).map (· ^^^ 0x55) = ctx.auth.xres.toList) :
      Stage tr k (some ctx) [.down (.dlNasTransport (number k) (number k) 0x52 rand autn)]
  | answered {ctx : UeContext} (hsession : NoSession tr k) (hbearers : ctx.bearers = []) :
      Stage tr k (some ctx)
        [.up (.ulNasTransport (number k) (number k) 0x53 ctx.auth.xres.toList)]
  | creating {ctx : UeContext} (hbearers : ctx.bearers = []) : Stage tr k (some ctx) [.session]
  | accepted {ctx : UeContext} {sgwTeid : UInt32} {ebi : UInt8} {ueIp : Ipv4}
      (hbearer : OwnBearer tr k ctx) :
      Stage tr k (some ctx) [.down (.icSetupRequest (number k) (number k) sgwTeid ebi ueIp)]
  | bound {ctx : UeContext} {teid : UInt32} (hbearer : OwnBearer tr k ctx) :
      Stage tr k (some ctx)
        [.up (.icSetupResponse (number k) teid),
          .up (.ulNasTransport (number k) (number k) 0x46 [])]
  | completing {ctx : UeContext} (hbearer : OwnBearer tr k ctx) (htunnel : OwnTunnel tr k ctx) :
      Stage tr k (some ctx) [.up (.ulNasTransport (number k) (number k) 0x46 [])]
  | registered {ctx : UeContext} (hbearer : OwnBearer tr k ctx) (htunnel : OwnTunnel tr k ctx)
      (hstate : ctx.emmState = .registered) : Stage tr k (some ctx) []

theorem Stage.of_down {tr : List Event} {k : Nat} {ctx : Option UeContext}
    {toks front back : List Token} {msg : S1apDownlink} (h : Stage tr k ctx toks)
    (htoks : toks = front ++ .down msg :: back) :
    front = [] ∧ back = [] ∧ Stage tr k ctx [.down msg] := by
  have hmem : .down msg ∈ toks := by
    rw [htoks]
    simp
  have hsingle {msg' : S1apDownlink} (hone : toks = [.down msg']) :
      front = [] ∧ back = [] ∧ Stage tr k ctx [.down msg] := by
    rw [hone] at htoks
    cases front with
    | nil =>
        obtain ⟨heq, rfl⟩ := List.cons.inj htoks
        exact ⟨rfl, rfl, heq ▸ hone ▸ h⟩
    | cons token front =>
        have hback := (List.cons.inj htoks).2
        simp at hback
  cases h with
  | challenged => exact hsingle rfl
  | accepted => exact hsingle rfl
  | _ => simp at hmem

theorem Stage.of_up {tr : List Event} {k : Nat} {ctx : Option UeContext} {msg : S1apUplink}
    {pending : List Token} (h : Stage tr k ctx (.up msg :: pending)) :
    ∃ c, ctx = some c ∧
      ((msg = .ulNasTransport (number k) (number k) 0x53 c.auth.xres.toList ∧ pending = [] ∧
          NoSession tr k ∧ c.bearers = []) ∨
        ((∃ teid, msg = .icSetupResponse (number k) teid) ∧
          pending = [.up (.ulNasTransport (number k) (number k) 0x46 [])] ∧ OwnBearer tr k c) ∨
        (msg = .ulNasTransport (number k) (number k) 0x46 [] ∧ pending = [] ∧ OwnBearer tr k c ∧
          OwnTunnel tr k c)) := by
  cases h with
  | answered hsession hbearers => exact ⟨_, rfl, .inl ⟨rfl, rfl, hsession, hbearers⟩⟩
  | bound hbearer => exact ⟨_, rfl, .inr (.inl ⟨⟨_, rfl⟩, rfl, hbearer⟩)⟩
  | completing hbearer htunnel =>
      exact ⟨_, rfl, .inr (.inr ⟨rfl, rfl, hbearer, htunnel⟩)⟩

theorem Stage.of_vectors {tr : List Event} {k : Nat} {ctx : Option UeContext} {pending : List Token}
    (h : Stage tr k ctx (.vectors :: pending)) :
    ∃ c, ctx = some c ∧ pending = [] ∧ NoSession tr k ∧ c.bearers = [] := by
  cases h with
  | awaiting hsession hbearers => exact ⟨_, rfl, rfl, hsession, hbearers⟩

theorem Stage.of_session {tr : List Event} {k : Nat} {ctx : Option UeContext} {pending : List Token}
    (h : Stage tr k ctx (.session :: pending)) :
    ∃ c, ctx = some c ∧ pending = [] ∧ c.bearers = [] := by
  cases h with
  | creating hbearers => exact ⟨_, rfl, rfl, hbearers⟩

theorem downToken_eq (id : UInt32) (msg : S1apDownlink) :
    downToken id msg = [] ∨ downToken id msg = [.down msg] := by
  cases msg with
  | dlNasTransport | icSetupRequest =>
      simp only [downToken]
      split
      · exact .inr rfl
      · exact .inl rfl
  | _ => exact .inl rfl

theorem Stage.replace_down {tr : List Event} {k : Nat} {ctx : Option UeContext}
    {front back next : List Token} {msg : S1apDownlink}
    (h : Stage tr k ctx (front ++ (downToken (number k) msg ++ back)))
    (hother : downToken (number k) msg = [] → next = [])
    (hnext : Stage tr k ctx [.down msg] → Stage tr k ctx next) :
    Stage tr k ctx (front ++ (next ++ back)) := by
  rcases downToken_eq (number k) msg with hmsg | hmsg
  · rw [hother hmsg]
    rwa [hmsg] at h
  · rw [hmsg] at h
    obtain ⟨rfl, rfl, hone⟩ := h.of_down rfl
    rw [List.nil_append, List.append_nil]
    exact hnext hone

end Stages

section Ledgers

universe u

variable {β : Type u} {ledger : List (UInt64 × β)} {n : Nat} {value : Nat → β}

/-- One entry a subscriber, with the values in their order. -/
structure Ledger (ledger : List (UInt64 × β)) (n : Nat) (value : Nat → β) : Prop where
  values : ledger.map Prod.snd = (List.range ledger.length).map value
  known : ∀ who ∈ ledger.map Prod.fst, ∃ k < n, who = imsi k
  once : (ledger.map Prod.fst).Nodup

theorem Ledger.nil (n : Nat) (value : Nat → β) : Ledger [] n value := by
  refine ⟨rfl, ?_, List.nodup_nil⟩
  intro who hwho
  cases hwho

theorem Ledger.mono (h : Ledger ledger n value) {m : Nat} (hle : n ≤ m) : Ledger ledger m value := by
  refine ⟨h.values, fun who hwho => ?_, h.once⟩
  obtain ⟨k, hk, rfl⟩ := h.known who hwho
  exact ⟨k, hk.trans_le hle, rfl⟩

theorem Ledger.snoc (h : Ledger ledger n value) {k : Nat} (hk : k < n)
    (hnew : madeFor (imsi k) ledger = []) :
    Ledger (ledger ++ [(imsi k, value ledger.length)]) n value := by
  refine ⟨?_, ?_, ?_⟩
  · rw [List.map_append, h.values, List.length_append, List.length_singleton, List.range_succ,
      List.map_append]
    rfl
  · intro who hwho
    rw [List.map_append] at hwho
    rcases List.mem_append.mp hwho with hwho | hwho
    · exact h.known who hwho
    · obtain rfl := List.mem_singleton.mp hwho
      exact ⟨k, hk, rfl⟩
  · rw [List.map_append]
    apply List.Nodup.append h.once (List.nodup_singleton _)
    rw [List.disjoint_singleton]
    exact not_mem_of_madeFor hnew

theorem Ledger.length_le (h : Ledger ledger n value) : ledger.length ≤ n := by
  have hsubset : ledger.map Prod.fst ⊆ (List.range n).map imsi := by
    intro who hwho
    obtain ⟨k, hk, rfl⟩ := h.known who hwho
    exact List.mem_map_of_mem (List.mem_range.mpr hk)
  have hle := (h.once.subperm hsubset).length_le
  rwa [List.length_map, List.length_map, List.length_range] at hle

theorem Ledger.at_index (h : Ledger ledger n value) {who : UInt64} {b : β} (hmem : (who, b) ∈ ledger) :
    ∃ r < n, ledger[r]? = some (who, b) ∧ b = value r := by
  obtain ⟨r, hr⟩ := List.mem_iff_getElem?.mp hmem
  obtain ⟨hlt, -⟩ := List.getElem?_eq_some_iff.mp hr
  have hvalues := congrArg (·[r]?) h.values
  simp only [List.getElem?_map, hr, List.getElem?_range hlt, Option.map_some] at hvalues
  exact ⟨r, hlt.trans_le h.length_le, hr, Option.some.inj hvalues⟩

/-- Subscribers whose entries agree in a part that the numbering keeps apart are the same. -/
theorem Ledger.owner {γ : Type*} (h : Ledger ledger n value) (part : β → γ)
    (hpart : ∀ r < n, ∀ q < n, part (value r) = part (value q) → r = q) {who other : UInt64}
    {b c : β} (hb : (who, b) ∈ ledger) (hc : (other, c) ∈ ledger) (heq : part b = part c) :
    who = other := by
  obtain ⟨r, hr, hwho, rfl⟩ := h.at_index hb
  obtain ⟨q, hq, hother, rfl⟩ := h.at_index hc
  obtain rfl := hpart r hr q hq heq
  exact (Prod.mk.inj (Option.some.inj (hwho.symm.trans hother))).1

end Ledgers

section Invariant

def sgwTeids (r : Nat) : UInt32 × UInt32 := (UInt32.ofNat (1000 + 2 * r), UInt32.ofNat (1001 + 2 * r))

def pgwGrant (r : Nat) : UInt32 × List UInt8 :=
  (UInt32.ofNat (2000 + r), PacketGateways.ipBytes (0x0A000001 + UInt32.ofNat r))

def contexts (s : State) : List UeContext := s.core.mme.heap

structure Ledgers (tr : List Event) (s : State) : Prop where
  sgw : Ledger (sgwSessions tr) (contexts s).length sgwTeids
  sgwNext : s.core.sgw.nextTeid = UInt32.ofNat (1000 + 2 * (sgwSessions tr).length)
  pgw : Ledger (pgwSessions tr) (contexts s).length pgwGrant
  pgwNext : s.core.pgw.nextTeid = UInt32.ofNat (2000 + (pgwSessions tr).length)
  ipNext : s.core.pgw.nextIp = 0x0A000001 + UInt32.ofNat (pgwSessions tr).length

def isInitial : S1apUplink → Bool
  | .initialUeMsg _ _ _ _ _ => true
  | _ => false

/-- The MME has made the contexts of the first attaches, and the others are on their way to it. -/
structure Counted (tr : List Event) (s : State) : Prop where
  few : attaches tr ≤ maxAttaches
  enbNext : s.enb.nextEnbUeId = number (attaches tr)
  mmeNext : s.core.mme.store.nextId = number (contexts s).length
  count : (contexts s).length + s.uplink.countP isInitial = attaches tr
  numbered : Numbered s.core.mme.store.nextId s.uplink s.enb.nextEnbUeId
  answers : ∀ msg ∈ s.enb.rxOut, isInitial msg = false
  find : ∀ id p, s.core.mme.store.find id = some p ↔ p < (contexts s).length ∧ id = number p
  identity : ∀ k ctx, (contexts s)[k]? = some ctx → identity ctx = ueIdentity (number k)

def reported : S1apUplink → Option (UInt32 × UInt32)
  | .icSetupResponse mmeId enbTeid => some (mmeId, enbTeid)
  | .handoverRequestAck mmeId _ newTeid => some (mmeId, newTeid)
  | _ => none

structure Inv (tr : List Event) (s : State) : Prop where
  counted : Counted tr s
  ledgers : Ledgers tr s
  exchange : Exchange tr (contexts s).length s.core.mme.thread (links s)
  stage : ∀ k ≤ maxAttaches, Stage tr k (contexts s)[k]? (tokens (number k) s)
  tunnels : ∀ msg ∈ s.uplink ++ s.enb.rxOut, ∀ r ∈ reported msg, Allocated tr r.1 r.2

theorem Counted.length_le {tr : List Event} {s : State} (h : Counted tr s) :
    (contexts s).length ≤ maxAttaches :=
  (Nat.le_add_right _ _).trans (h.count.le.trans h.few)

theorem init_inv : Inv [] init where
  counted := by
    refine ⟨Nat.zero_le _, rfl, rfl, rfl, .nil _, nofun, ?_, nofun⟩
    intro id p
    have hnone : init.core.mme.store.find id = none := AList.lookup_empty id
    rw [hnone]
    constructor
    · intro h
      cases h
    · rintro ⟨h, -⟩
      exact absurd h (Nat.not_lt_zero p)
  ledgers := ⟨.nil _ _, rfl, .nil _ _, rfl, rfl⟩
  exchange := by
    have hlinks : links init = {} := by
      have hstored : (fun who => init.core.mme.pendingAuth.lookup who) =
          fun _ : UInt64 => (none : Option AuthVectors) := by
        funext who
        exact AList.lookup_empty who
      rw [links, hstored]
      rfl
    rw [hlinks]
    exact .receiving
  stage k hk := .unknown ⟨rfl, rfl⟩
  tunnels := nofun

end Invariant

section Traces

variable {tr es : List Event} {k : Nat}

theorem attaches_append (tr es : List Event) : attaches (tr ++ es) = attaches tr + attaches es :=
  List.count_append

theorem Allocated.append {mmeId teid : UInt32} (h : Allocated tr mmeId teid) (es : List Event) :
    Allocated (tr ++ es) mmeId teid := by
  obtain ⟨purpose, hmem⟩ := h
  exact ⟨purpose, List.mem_append_left es hmem⟩

theorem OwnTunnel.append {ctx : UeContext} (h : OwnTunnel tr k ctx) (es : List Event) :
    OwnTunnel (tr ++ es) k ctx :=
  fun b hb => (h b hb).append es

theorem Stage.append {ctx : Option UeContext} {toks : List Token} (h : Stage tr k ctx toks)
    (hsgw : madeFor (imsi k) (sgwSessions es) = []) (hpgw : madeFor (imsi k) (pgwSessions es) = []) :
    Stage (tr ++ es) k ctx toks := by
  have hsgwSame : madeFor (imsi k) (sgwSessions (tr ++ es)) = madeFor (imsi k) (sgwSessions tr) := by
    rw [sgwSessions_append, madeFor_append, hsgw, List.append_nil]
  have hpgwSame : madeFor (imsi k) (pgwSessions (tr ++ es)) = madeFor (imsi k) (pgwSessions tr) := by
    rw [pgwSessions_append, madeFor_append, hpgw, List.append_nil]
  have hnone (hsession : NoSession tr k) : NoSession (tr ++ es) k :=
    ⟨hsgwSame.trans hsession.1, hpgwSame.trans hsession.2⟩
  have hown {ctx : UeContext} (hbearer : OwnBearer tr k ctx) : OwnBearer (tr ++ es) k ctx := by
    obtain ⟨b, hb, hebi, hs, teid, hp⟩ := hbearer
    exact ⟨b, hb, hebi, hsgwSame.trans hs, teid, hpgwSame.trans hp⟩
  cases h with
  | unknown hsession => exact .unknown (hnone hsession)
  | awaiting hsession hbearers => exact .awaiting (hnone hsession) hbearers
  | challenged hsession hbearers hlength hres =>
      exact .challenged (hnone hsession) hbearers hlength hres
  | answered hsession hbearers => exact .answered (hnone hsession) hbearers
  | creating hbearers => exact .creating hbearers
  | accepted hbearer => exact .accepted (hown hbearer)
  | bound hbearer => exact .bound (hown hbearer)
  | completing hbearer htunnel => exact .completing (hown hbearer) (htunnel.append es)
  | registered hbearer htunnel hstate =>
      exact .registered (hown hbearer) (htunnel.append es) hstate

theorem Stage.calm {ctx : Option UeContext} {toks : List Token} (h : Stage tr k ctx toks)
    (hes : Calm es) : Stage (tr ++ es) k ctx toks := by
  apply h.append
  · rw [hes.sgw]
    rfl
  · rw [hes.pgw]
    rfl

end Traces

section Moves

variable {tr es : List Event} {s s' : State}

theorem attaches_enb (es : List S1Link.Event) : attaches (es.map .enb) = 0 := by
  apply List.count_eq_zero.mpr
  intro hmem
  obtain ⟨e, -, he⟩ := List.mem_map.mp hmem
  cases he

theorem attaches_mme (mes : List MobilityManagement.Event) : attaches (mmeEvents mes) = 0 := by
  apply List.count_eq_zero.mpr
  intro hmem
  obtain ⟨e, -, he⟩ := List.mem_map.mp hmem
  cases he

theorem Ledgers.calm (h : Ledgers tr s) (hes : Calm es)
    (hlength : (contexts s).length ≤ (contexts s').length)
    (hsgw : s'.core.sgw.nextTeid = s.core.sgw.nextTeid)
    (hpgw : s'.core.pgw.nextTeid = s.core.pgw.nextTeid)
    (hip : s'.core.pgw.nextIp = s.core.pgw.nextIp) : Ledgers (tr ++ es) s' := by
  have hs : sgwSessions (tr ++ es) = sgwSessions tr := by
    rw [sgwSessions_append, hes.sgw, List.append_nil]
  have hp : pgwSessions (tr ++ es) = pgwSessions tr := by
    rw [pgwSessions_append, hes.pgw, List.append_nil]
  refine ⟨?_, ?_, ?_, ?_, ?_⟩
  · exact hs ▸ h.sgw.mono hlength
  · rw [hs, hsgw, h.sgwNext]
  · exact hp ▸ h.pgw.mono hlength
  · rw [hp, hpgw, h.pgwNext]
  · rw [hp, hip, h.ipNext]

theorem Ledgers.sgwSession (h : Ledgers tr s) {k : Nat} (hk : k < (contexts s).length)
    (hnone : madeFor (imsi k) (sgwSessions tr) = []) (hcontexts : contexts s' = contexts s)
    (hnext : s'.core.sgw.nextTeid = s.core.sgw.nextTeid + 1 + 1)
    (hpgw : s'.core.pgw.nextTeid = s.core.pgw.nextTeid)
    (hip : s'.core.pgw.nextIp = s.core.pgw.nextIp) :
    Ledgers (tr ++ [.core (.sgwSession (imsi k) s.core.sgw.nextTeid (s.core.sgw.nextTeid + 1))])
      s' := by
  have hvalue : (s.core.sgw.nextTeid, s.core.sgw.nextTeid + 1) =
      sgwTeids (sgwSessions tr).length := by
    rw [h.sgwNext, sgwTeids, Nat.add_right_comm 1000 1, UInt32.ofNat_add _ 1]
    rfl
  have hs : sgwSessions (tr ++ [.core (.sgwSession (imsi k) s.core.sgw.nextTeid
      (s.core.sgw.nextTeid + 1))]) =
      sgwSessions tr ++ [(imsi k, sgwTeids (sgwSessions tr).length)] := by
    rw [sgwSessions_append, ← hvalue]
    rfl
  have hp : pgwSessions (tr ++ [.core (.sgwSession (imsi k) s.core.sgw.nextTeid
      (s.core.sgw.nextTeid + 1))]) = pgwSessions tr := by
    rw [pgwSessions_append]
    exact List.append_nil _
  refine ⟨?_, ?_, ?_, ?_, ?_⟩
  · rw [hs, hcontexts]
    exact h.sgw.snoc hk hnone
  · rw [hs, hnext, h.sgwNext, List.length_append, List.length_singleton, Nat.mul_succ,
      ← Nat.add_assoc, UInt32.ofNat_add _ 2, UInt32.add_assoc]
    rfl
  · rw [hp, hcontexts]
    exact h.pgw
  · rw [hp, hpgw, h.pgwNext]
  · rw [hp, hip, h.ipNext]

theorem Ledgers.pgwSession (h : Ledgers tr s) {k : Nat} (hk : k < (contexts s).length)
    (hnone : madeFor (imsi k) (pgwSessions tr) = []) (hcontexts : contexts s' = contexts s)
    (hsgw : s'.core.sgw.nextTeid = s.core.sgw.nextTeid)
    (hnext : s'.core.pgw.nextTeid = s.core.pgw.nextTeid + 1)
    (hip : s'.core.pgw.nextIp = s.core.pgw.nextIp + 1) :
    Ledgers (tr ++ [.core (.pgwSession (imsi k) s.core.pgw.nextTeid
      (PacketGateways.ipBytes s.core.pgw.nextIp))]) s' := by
  have hvalue : (s.core.pgw.nextTeid, PacketGateways.ipBytes s.core.pgw.nextIp) =
      pgwGrant (pgwSessions tr).length := by
    rw [h.pgwNext, h.ipNext]
    rfl
  have hp : pgwSessions (tr ++ [.core (.pgwSession (imsi k) s.core.pgw.nextTeid
      (PacketGateways.ipBytes s.core.pgw.nextIp))]) =
      pgwSessions tr ++ [(imsi k, pgwGrant (pgwSessions tr).length)] := by
    rw [pgwSessions_append, ← hvalue]
    rfl
  have hs : sgwSessions (tr ++ [.core (.pgwSession (imsi k) s.core.pgw.nextTeid
      (PacketGateways.ipBytes s.core.pgw.nextIp))]) = sgwSessions tr := by
    rw [sgwSessions_append]
    exact List.append_nil _
  refine ⟨?_, ?_, ?_, ?_, ?_⟩
  · rw [hs, hcontexts]
    exact h.sgw
  · rw [hs, hsgw, h.sgwNext]
  · rw [hp, hcontexts]
    exact h.pgw.snoc hk hnone
  · rw [hp, hnext, h.pgwNext, List.length_append, List.length_singleton, ← Nat.add_assoc,
      UInt32.ofNat_add _ 1]
    rfl
  · rw [hp, hip, h.ipNext, List.length_append, List.length_singleton, UInt32.ofNat_add _ 1,
      ← UInt32.add_assoc]
    rfl

theorem length_contexts (hkeeps : KeepsContexts s.core.mme s'.core.mme) :
    (contexts s').length = (contexts s).length := by
  have hidentities := congrArg List.length hkeeps.identities
  rwa [identities, identities, List.length_map, List.length_map] at hidentities

/-- No step but an attach and its Initial UE Message changes what is counted. -/
theorem Counted.move (h : Counted tr s) (hattaches : attaches es = 0)
    (henb : s'.enb.nextEnbUeId = s.enb.nextEnbUeId)
    (hkeeps : KeepsContexts s.core.mme s'.core.mme)
    (hcount : s'.uplink.countP isInitial = s.uplink.countP isInitial)
    (hnumbered : Numbered s.core.mme.store.nextId s'.uplink s.enb.nextEnbUeId)
    (hanswers : ∀ msg ∈ s'.enb.rxOut, isInitial msg = false) : Counted (tr ++ es) s' := by
  have hsame : attaches (tr ++ es) = attaches tr := by
    rw [attaches_append, hattaches, Nat.add_zero]
  have hlength := length_contexts hkeeps
  refine ⟨hsame ▸ h.few, ?_, ?_, ?_, ?_, hanswers, ?_, ?_⟩
  · rw [hsame, henb, h.enbNext]
  · rw [hkeeps.store, hlength, h.mmeNext]
  · rw [hlength, hcount, hsame, h.count]
  · rwa [hkeeps.store, henb]
  · intro id p
    rw [hkeeps.store, hlength]
    exact h.find id p
  · intro k ctx hctx
    have hidentity := congrArg (·[k]?) hkeeps.identities
    simp only [identities, List.getElem?_map] at hidentity
    rw [show s'.core.mme.heap[k]? = some ctx from hctx, Option.map_some] at hidentity
    obtain ⟨ctx₀, hctx₀, heq⟩ := Option.map_eq_some_iff.mp hidentity.symm
    exact heq ▸ h.identity k ctx₀ hctx₀

theorem isInitial_eq_false {msg : S1apUplink} :
    isInitial msg = false ↔ ∀ enbId imsi mcc mnc tac, msg ≠ .initialUeMsg enbId imsi mcc mnc tac := by
  cases msg <;> simp [isInitial]

end Moves

end MobileCore.AttachStages
