import MobileCore.AddressPool
import MobileCore.AttachSteps
import MobileCore.Completion

namespace MobileCore.AttachCompletion

open MobileCore.AttachExchanges
open MobileCore.AttachStages
open MobileCore.AttachSteps
open MobileCore.Completion (total total_append total_eraseIdx)
open MobileCore.EvolvedPacketCore
open MobileCore.LabelledRuns
open MobileCore.MobilityManagement (S1apUplink S1apDownlink S11Response UeContext Thread Bearer)
open MobileCore.PacketGateways (S11Request SgwThread PgwThread)
open MobileCore.ContextCorrespondence (identity ueIdentity)
open MobileCore.SessionOwnership (bytes)

variable {tr es : List Event} {s s' : State}

section Runs

theorem core_inv (hinv : Inv tr s) {i : PacketGateways.Input} (hhandling : Handling (.core i))
    (hstep : step s (.core i) = some (s', es)) : Inv (tr ++ es) s' := by
  cases i with
  | mme i =>
      cases i with
      | s1ap msg => cases hstep
      | aia who av => cases hstep
      | aiaWakeup chaosDrop =>
          obtain rfl : chaosDrop = false := hhandling
          exact aiaWakeup_inv hinv hstep
      | s11 resp => cases hstep
      | s11Timeout => exact hhandling.elim
  | mmeAnswer n => exact mmeAnswer_inv hinv hstep
  | sgwReceive n => exact sgwReceive_inv hinv hstep
  | sgwAnswer n => exact sgwAnswer_inv hinv hstep
  | sgwTimeout => exact hhandling.elim
  | pgwReceive n => exact pgwReceive_inv hinv hstep
  | pgwAnswer => exact pgwAnswer_inv hinv hstep
  | pgwTimeout => exact hhandling.elim
  | pcrf => exact pcrf_inv hinv hstep

theorem step_inv (hinv : Inv tr s) {i : Input} (hguard : Undisturbed tr s i)
    (hstep : step s i = some (s', es)) : Inv (tr ++ es) s' := by
  cases i with
  | command cmd =>
      obtain ⟨rfl, rfl⟩ := Prod.mk.inj (Option.some.inj hstep)
      exact command_inv hinv cmd hguard
  | enbReceive =>
      simp only [step] at hstep
      split at hstep
      · rename_i msg rest hout hdown
        obtain ⟨rfl, rfl⟩ := Prod.mk.inj (Option.some.inj hstep)
        exact enbReceive_inv hinv hout hdown
      · cases hstep
  | enbSend =>
      simp only [step] at hstep
      split at hstep
      · rename_i msg rest hout
        obtain ⟨rfl, rfl⟩ := Prod.mk.inj (Option.some.inj hstep)
        exact enbSend_inv hinv hout
      · cases hstep
  | mmeReceive =>
      simp only [step] at hstep
      split at hstep
      · rename_i msg rest huplink
        exact mmeReceive_inv hinv huplink hstep
      · cases hstep
  | hss =>
      simp only [step] at hstep
      split at hstep
      · rename_i who rest hreq
        obtain ⟨rfl, rfl⟩ := Prod.mk.inj (Option.some.inj hstep)
        exact hss_inv hinv hreq
      · cases hstep
  | hssReceive =>
      simp only [step] at hstep
      split at hstep
      · rename_i who av rest hans
        exact hssReceive_inv hinv hans hstep
      · cases hstep
  | core i => exact core_inv hinv hguard hstep

theorem run_inv (hrun : Run step Undisturbed init tr s) : Inv tr s := by
  refine hrun.invariant init_inv ?_
  intro tr s i s' es hinv hguard hstep
  exact step_inv hinv hguard hstep

end Runs

section Bearers

/-- The UE's context is registered, with one bearer that is the one session of the gateways and
that has a TEID which the eNB gave to this UE. -/
def Attached (tr : List Event) (s : State) (k : Nat) : Prop :=
  ∃ ctx, (contexts s)[k]? = some ctx ∧ identity ctx = ueIdentity (number k) ∧
    ctx.emmState = .registered ∧ OwnBearer tr k ctx ∧ OwnTunnel tr k ctx

theorem stage_bearer {k : Nat} {ctx : UeContext} {toks : List Token}
    (h : Stage tr k (some ctx) toks) {b : Bearer} (hb : b ∈ ctx.bearers) :
    ctx.bearers = [b] ∧ (imsi k, b.sgwS11Teid, b.sgwS1uTeid) ∈ sgwSessions tr ∧
      ∃ teid, (imsi k, teid, bytes b.ueIp) ∈ pgwSessions tr := by
  have hnone (hbearers : ctx.bearers = []) : False := by
    rw [hbearers] at hb
    cases hb
  have hown (hbearer : OwnBearer tr k ctx) : ctx.bearers = [b] ∧
      (imsi k, b.sgwS11Teid, b.sgwS1uTeid) ∈ sgwSessions tr ∧
      ∃ teid, (imsi k, teid, bytes b.ueIp) ∈ pgwSessions tr := by
    obtain ⟨b', hb', -, hsgw, teid, hpgw⟩ := hbearer
    rw [hb'] at hb
    obtain rfl := List.mem_singleton.mp hb
    refine ⟨hb', mem_of_madeFor ?_, teid, mem_of_madeFor ?_⟩
    · rw [hsgw]
      exact List.mem_singleton_self _
    · rw [hpgw]
      exact List.mem_singleton_self _
  cases h with
  | awaiting _ hbearers => exact (hnone hbearers).elim
  | challenged _ hbearers => exact (hnone hbearers).elim
  | answered _ hbearers => exact (hnone hbearers).elim
  | creating hbearers => exact (hnone hbearers).elim
  | accepted hbearer => exact hown hbearer
  | bound hbearer => exact hown hbearer
  | completing hbearer => exact hown hbearer
  | registered hbearer => exact hown hbearer

variable {r q : Nat}

theorem ofNat_add_injective {c : Nat} (hr : c + r < 2 ^ 32) (hq : c + q < 2 ^ 32)
    (h : UInt32.ofNat (c + r) = UInt32.ofNat (c + q)) : r = q := by
  have hnat := congrArg UInt32.toNat h
  rw [UInt32.toNat_ofNat_of_lt' hr, UInt32.toNat_ofNat_of_lt' hq] at hnat
  exact Nat.add_left_cancel hnat

theorem ipBytes_injective {a b : UInt32} (h : PacketGateways.ipBytes a = PacketGateways.ipBytes b) :
    a = b := by
  have haddress := congrArg AddressPool.address h
  rw [AddressPool.address_ipBytes, AddressPool.address_ipBytes] at haddress
  exact UInt32.toNat_inj.mp haddress

theorem sgwTeids_apart (hr : r < maxAttaches) (hq : q < maxAttaches) :
    ((sgwTeids r).1 = (sgwTeids q).1 → r = q) ∧ ((sgwTeids r).2 = (sgwTeids q).2 → r = q) := by
  have hmax : maxAttaches = 2 ^ 30 := rfl
  constructor
  · intro h
    have htwice := ofNat_add_injective (by omega) (by omega) h
    omega
  · intro h
    have htwice := ofNat_add_injective (by omega) (by omega) h
    omega

theorem pgwGrant_apart (hr : r < maxAttaches) (hq : q < maxAttaches)
    (h : (pgwGrant r).2 = (pgwGrant q).2) : r = q := by
  have hmax : maxAttaches = 2 ^ 30 := rfl
  have haddress := (UInt32.add_right_inj _).mp (ipBytes_injective h)
  have hnat := congrArg UInt32.toNat haddress
  have hr' : r < 2 ^ 32 := by omega
  have hq' : q < 2 ^ 32 := by omega
  rwa [UInt32.toNat_ofNat_of_lt' hr', UInt32.toNat_ofNat_of_lt' hq'] at hnat

/-- In no state do two UEs share an address or a TEID of the S-GW, and no UE has two bearers. -/
theorem bearers_apart (hrun : Run step Undisturbed init tr s) {j k : Nat} {ctx other : UeContext}
    (hctx : (contexts s)[j]? = some ctx) (hother : (contexts s)[k]? = some other) {b c : Bearer}
    (hb : b ∈ ctx.bearers) (hc : c ∈ other.bearers)
    (hshared : b.ueIp = c.ueIp ∨ b.sgwS11Teid = c.sgwS11Teid ∨ b.sgwS1uTeid = c.sgwS1uTeid) :
    j = k ∧ b = c := by
  have hinv := run_inv hrun
  have hle := hinv.counted.length_le
  obtain ⟨hj, -⟩ := List.getElem?_eq_some_iff.mp hctx
  obtain ⟨hk, -⟩ := List.getElem?_eq_some_iff.mp hother
  have hstage := hinv.stage j (hj.le.trans hle)
  have hstage' := hinv.stage k (hk.le.trans hle)
  rw [hctx] at hstage
  rw [hother] at hstage'
  obtain ⟨hone, hsgw, teid, hpgw⟩ := stage_bearer hstage hb
  obtain ⟨hone', hsgw', teid', hpgw'⟩ := stage_bearer hstage' hc
  have hwho : imsi j = imsi k := by
    rcases hshared with hip | hs11 | hs1u
    · refine hinv.ledgers.pgw.owner Prod.snd ?_ hpgw hpgw' (congrArg bytes hip)
      intro r hr q hq
      exact pgwGrant_apart (hr.trans_le hle) (hq.trans_le hle)
    · refine hinv.ledgers.sgw.owner Prod.fst ?_ hsgw hsgw' hs11
      intro r hr q hq
      exact (sgwTeids_apart (hr.trans_le hle) (hq.trans_le hle)).1
    · refine hinv.ledgers.sgw.owner Prod.snd ?_ hsgw hsgw' hs1u
      intro r hr q hq
      exact (sgwTeids_apart (hr.trans_le hle) (hq.trans_le hle)).2
  obtain rfl := imsi_injective (hj.le.trans hle) (hk.le.trans hle) hwho
  obtain rfl := Option.some.inj (hctx.symm.trans hother)
  refine ⟨rfl, ?_⟩
  rw [hone] at hone'
  exact (List.cons.inj hone').1

end Bearers

section Quiet

/-- Nothing is on its way between the eNB and the MME, and the MME waits for no answer. -/
structure Quiet (s : State) : Prop where
  uplink : s.uplink = []
  rxOut : s.enb.rxOut = []
  downlink : s.downlink = []
  thread : s.core.mme.thread = .receiving

theorem Quiet.attached (hquiet : Quiet s) (hinv : Inv tr s) {k : Nat} (hk : k < attaches tr) :
    Attached tr s k := by
  have hlength : (contexts s).length = attaches tr := by
    have hcount := hinv.counted.count
    rwa [hquiet.uplink] at hcount
  have hctx : (contexts s)[k]? = some (contexts s)[k] := List.getElem?_eq_getElem (hlength ▸ hk)
  have htokens : tokens (number k) s = [] := by
    simp only [tokens, hquiet.uplink, hquiet.rxOut, hquiet.downlink, hquiet.thread]
    rfl
  have hstage := hinv.stage k (hk.le.trans hinv.counted.few)
  rw [hctx, htokens] at hstage
  refine ⟨_, hctx, hinv.counted.identity k _ hctx, ?_⟩
  cases hstage with
  | registered hbearer htunnel hstate => exact ⟨hstate, hbearer, htunnel⟩

theorem sgwReceive_isSome {req : S11Request} {rest : List S11Request}
    (hidle : s.core.sgw.thread = .receiving) (hreq : s.core.toSgw = req :: rest) :
    (step s (.core (.sgwReceive 0))).isSome := by
  simp [step, coreStep, PacketGateways.step, hidle, hreq]

theorem mmeAnswer_isSome {resp : S11Response} {rest : List S11Response}
    (hans : s.core.toMme = resp :: rest)
    (hwait : modifies s.core.mme.thread = true ∨
      ∃ mmeId p, s.core.mme.thread = .awaitCreateSession mmeId p) :
    (step s (.core (.mmeAnswer 0))).isSome := by
  have hwake : (MobilityManagement.s11Wakeup s.core.mme (some resp)).isSome := by
    rcases hwait with hmodifies | ⟨mmeId, p, hthread⟩
    · cases hthread : s.core.mme.thread with
      | awaitModifyBearer | awaitPathSwitch => simp [MobilityManagement.s11Wakeup, hthread]
      | _ =>
          rw [hthread] at hmodifies
          cases hmodifies
    · simp [MobilityManagement.s11Wakeup, hthread]
  simp only [step, coreStep_eq, PacketGateways.step, hans, List.getElem?_cons_zero]
  rw [mmeStep_eq, Option.isSome_map]
  exact hwake

theorem exchange_goes {n : Nat} {thread : Thread} (hthread : s.core.mme.thread = thread)
    (hwait : thread ≠ .receiving) (h : Exchange tr n thread (links s)) :
    ∃ i, Handling i ∧ (step s i).isSome := by
  generalize hl : links s = l at h
  cases h with
  | receiving => exact absurd rfl hwait
  | airSent hk =>
      have hreq : s.toHss = _ := congrArg Links.toHss hl
      exact ⟨.hss, trivial, by simp [step, hreq]⟩
  | aiaSent hk =>
      have hans : s.fromHss = _ := congrArg Links.fromHss hl
      refine ⟨.hssReceive, trivial, ?_⟩
      simp [step, hans, handleAir, coreStep, PacketGateways.step, PacketGateways.mmeStep,
        MobilityManagement.step]
  | @aiaStored k hk =>
      have hstored : s.core.mme.pendingAuth.lookup (imsi k) =
          some (generateAuthVectors (imsi k)) :=
        (congrFun (congrArg Links.stored hl) (imsi k)).trans (if_pos rfl)
      refine ⟨.core (.mme (.aiaWakeup false)), rfl, ?_⟩
      simp [step, coreStep, PacketGateways.step, PacketGateways.mmeStep, MobilityManagement.step,
        hthread, hstored]
  | modifying hmodifies =>
      have hreq : s.core.toSgw = _ := congrArg Links.toSgw hl
      have hidle : s.core.sgw.thread = _ := congrArg Links.sgw hl
      exact ⟨.core (.sgwReceive 0), trivial, sgwReceive_isSome hidle hreq⟩
  | modified hmodifies =>
      have hans : s.core.toMme = _ := congrArg Links.toMme hl
      exact ⟨.core (.mmeAnswer 0), trivial, mmeAnswer_isSome hans (.inl (hthread ▸ hmodifies))⟩
  | requested hk hsession =>
      have hreq : s.core.toSgw = _ := congrArg Links.toSgw hl
      have hidle : s.core.sgw.thread = _ := congrArg Links.sgw hl
      exact ⟨.core (.sgwReceive 0), trivial, sgwReceive_isSome hidle hreq⟩
  | atPgw hk hsgw hpgw =>
      have hreq : s.core.toPgw = _ := congrArg Links.toPgw hl
      have hidle : s.core.pgw.thread = _ := congrArg Links.pgw hl
      exact ⟨.core (.pgwReceive 0), trivial, by simp [step, coreStep, PacketGateways.step, hidle, hreq]⟩
  | atPcrf hk hsgw hpgw =>
      have hreq : s.core.toPcrf = _ := congrArg Links.toPcrf hl
      exact ⟨.core .pcrf, trivial, by simp [step, coreStep, PacketGateways.step, hreq]⟩
  | decided hk hsgw hpgw hgranted =>
      have hans : s.core.fromPcrf = _ := congrArg Links.fromPcrf hl
      have hbusy : s.core.pgw.thread = _ := congrArg Links.pgw hl
      refine ⟨.core .pgwAnswer, trivial, ?_⟩
      simp [step, coreStep, PacketGateways.step, hans, hbusy, hgranted]
  | opened hk hsgw hpgw hcause hip =>
      have hans : s.core.fromPgw = _ := congrArg Links.fromPgw hl
      have hbusy : s.core.sgw.thread = _ := congrArg Links.sgw hl
      refine ⟨.core (.sgwAnswer 0), trivial, ?_⟩
      simp [step, coreStep, PacketGateways.step, hans, hbusy]
  | answered hk hsgw hpgw hcause hip =>
      have hans : s.core.toMme = _ := congrArg Links.toMme hl
      exact ⟨.core (.mmeAnswer 0), trivial, mmeAnswer_isSome hans (.inr ⟨_, _, hthread⟩)⟩

theorem quiet_or_goes (hinv : Inv tr s) :
    Quiet s ∨ ∃ i, Handling i ∧ (step s i).isSome := by
  by_cases hthread : s.core.mme.thread = .receiving
  · cases hout : s.enb.rxOut with
    | cons msg rest => exact .inr ⟨.enbSend, trivial, by simp [step, hout]⟩
    | nil =>
        cases hdown : s.downlink with
        | cons msg rest => exact .inr ⟨.enbReceive, trivial, by simp [step, hout, hdown]⟩
        | nil =>
            cases hup : s.uplink with
            | cons msg rest =>
                refine .inr ⟨.mmeReceive, trivial, ?_⟩
                simp [step, hup, coreStep, PacketGateways.step, PacketGateways.mmeStep,
                  MobilityManagement.step, hthread]
            | nil => exact .inl ⟨hup, hout, hdown, hthread⟩
  · exact .inr (exchange_goes rfl hthread hinv.exchange)

end Quiet

section Work

/-- What a frame for the MME still brings about. -/
def upWork : S1apUplink → Nat
  | .initialUeMsg _ _ _ _ _ => 25
  | .ulNasTransport _ _ nasType _ => if nasType = 0x53 then 19 else 1
  | .icSetupResponse _ _ => 4
  | .tauRequest _ _ _ _ => 2
  | .handoverRequired _ _ _ => 16
  | .handoverRequestAck _ _ _ => 13
  | .enbStatusTransfer _ _ _ _ => 10
  | .handoverNotify _ _ _ => 7
  | .ueContextRelCmpl _ _ => 1
  | .unexpected => 1

def outWork (msg : S1apUplink) : Nat := upWork msg + 1

def downWork : S1apDownlink → Nat
  | .dlNasTransport _ _ nasType _ _ => if nasType = 0x52 then 21 else 3
  | .icSetupRequest _ _ _ _ _ => 8
  | .tauAccept _ _ => 1
  | .handoverRequest _ _ => 15
  | .handoverCommand _ _ => 12
  | .mmeStatusTransfer _ _ _ _ => 9
  | .ueContextReleaseCmd _ _ => 3

def threadWork : Thread → Nat
  | .receiving => 0
  | .awaitAia _ _ _ => 22
  | .awaitCreateSession _ _ => 9
  | .awaitModifyBearer => 1
  | .awaitPathSwitch _ _ => 4

def sgwWork : S11Request → Nat
  | .createSession _ => 6
  | .modifyBearer _ _ => 2

def sgwThreadWork : SgwThread → Nat
  | .receiving => 0
  | .awaitPgw _ _ _ => 1

def pgwThreadWork : PgwThread → Nat
  | .receiving => 0
  | .awaitCca _ => 1

def gatewayWork (core : PacketGateways.State) : Nat :=
  total sgwWork core.toSgw + core.toMme.length + 4 * core.toPgw.length + core.fromPgw.length +
    2 * core.toPcrf.length + core.fromPcrf.length + sgwThreadWork core.sgw.thread +
    pgwThreadWork core.pgw.thread

def work (s : State) : Nat :=
  total upWork s.uplink + total outWork s.enb.rxOut + total downWork s.downlink +
    threadWork s.core.mme.thread + 2 * s.toHss.length + s.fromHss.length + gatewayWork s.core

def sentWork (mes : List MobilityManagement.Event) : Nat :=
  total downWork (mes.filterMap S1Link.toEnb?) + 2 * (mes.filterMap airOf?).length +
    total sgwWork (mes.filterMap PacketGateways.toSgw?)

theorem work_afterMme (s : State) (mme : MobilityManagement.State)
    (mes : List MobilityManagement.Event) :
    work (afterMme s mme mes) + threadWork s.core.mme.thread =
      work s + threadWork mme.thread + sentWork mes := by
  simp only [work, gatewayWork, sentWork, afterMme, total_append, List.length_append]
  omega

theorem handleUlNasTransport_work (mme : MobilityManagement.State) (mmeId enbId : UInt32)
    (nasType : UInt8) (res : List UInt8) (hthread : mme.thread = .receiving) :
    threadWork (MobilityManagement.handleUlNasTransport mme mmeId nasType res).1.thread +
        sentWork (MobilityManagement.handleUlNasTransport mme mmeId nasType res).2 <
      upWork (.ulNasTransport mmeId enbId nasType res) := by
  have hquiet : threadWork mme.thread + sentWork [] <
      upWork (.ulNasTransport mmeId enbId nasType res) := by
    rw [hthread]
    show 0 < if nasType = 0x53 then 19 else 1
    split <;> decide
  unfold MobilityManagement.handleUlNasTransport
  split
  · split
    · exact hquiet
    · split
      · show 9 + 9 < 19
        decide
      · exact hquiet
  · split
    · exact hquiet
    · exact hquiet
  · exact hquiet

theorem handleS1ap_work (mme : MobilityManagement.State) (msg : S1apUplink)
    (hthread : mme.thread = .receiving) :
    threadWork (MobilityManagement.handleS1ap mme msg).1.thread +
      sentWork (MobilityManagement.handleS1ap mme msg).2 < upWork msg := by
  cases msg with
  | ulNasTransport mmeId enbId nasType res =>
      exact handleUlNasTransport_work mme mmeId enbId nasType res hthread
  | handoverRequestAck mmeId enbId newTeid =>
      simp only [MobilityManagement.handleS1ap, MobilityManagement.handleHandoverRequestAck,
        storeEnbTeid_thread, hthread]
      show 12 < 13
      decide
  | initialUeMsg enbId who mcc mnc tac =>
      show 22 + 2 < 25
      decide
  | icSetupResponse mmeId enbTeid =>
      show 1 + 2 < 4
      decide
  | handoverNotify mmeId enbId newTeid =>
      show 4 + 2 < 7
      decide
  | tauRequest | handoverRequired | enbStatusTransfer | ueContextRelCmpl | unexpected =>
      simp only [MobilityManagement.handleS1ap, hthread]
      exact Nat.lt_succ_self _

theorem enbHandle_work (enb : S1Link.EnbNode) (msg : S1apDownlink) (hout : enb.rxOut = []) :
    total outWork (S1Link.enbHandle enb msg).1.rxOut < downWork msg := by
  cases msg with
  | dlNasTransport mmeId enbId nasType rand autn =>
      simp only [S1Link.enbHandle, S1Link.handleDlNas, downWork]
      split
      · show 2 < _
        split <;> decide
      · split
        · rename_i hchallenge
          rw [if_pos hchallenge.1]
          show 20 < 21
          decide
        · show 0 < _
          split <;> decide
  | icSetupRequest mmeId enbId sgwTeid ebi ueIp =>
      show 7 < 8
      decide
  | tauAccept mmeId enbId =>
      rw [show (S1Link.enbHandle enb (.tauAccept mmeId enbId)).1.rxOut = [] from hout]
      exact Nat.lt_succ_self _
  | handoverRequest | handoverCommand | mmeStatusTransfer | ueContextReleaseCmd =>
      exact Nat.lt_succ_self _

theorem afterMme_work {mme : MobilityManagement.State}
    {mes : List MobilityManagement.Event} {s₀ : State} (taken : Nat)
    (htaken : work s = work s₀ + taken) (hmme : s₀.core.mme.thread = s.core.mme.thread)
    (hless : threadWork mme.thread + sentWork mes < threadWork s.core.mme.thread + taken) :
    work (afterMme s₀ mme mes) < work s := by
  have hafter := work_afterMme s₀ mme mes
  rw [hmme] at hafter
  omega

theorem createSessionAnswered_work (mme : MobilityManagement.State) (mmeId : UInt32) (p : Nat)
    (resp : S11Response) :
    threadWork (MobilityManagement.createSessionAnswered mme mmeId p resp).1.thread +
      sentWork (MobilityManagement.createSessionAnswered mme mmeId p resp).2 ≤ 8 := by
  have hsend (mme : MobilityManagement.State) :
      sentWork (MobilityManagement.sendIcSetupRequest mme mmeId p) ≤ 8 := by
    unfold MobilityManagement.sendIcSetupRequest
    split
    · exact Nat.zero_le 8
    · split
      · exact Nat.zero_le 8
      · exact Nat.le_refl 8
  have hstored (q : Nat) (b : Bearer) (mes : List MobilityManagement.Event) :
      sentWork (.bearerStored q b resp :: mes) = sentWork mes := rfl
  unfold MobilityManagement.createSessionAnswered
  dsimp only
  split
  · split
    · show 0 + _ ≤ 8
      rw [Nat.zero_add]
      exact hsend _
    · show 0 + _ ≤ 8
      rw [Nat.zero_add, List.singleton_append, hstored]
      exact hsend _
  · exact Nat.zero_le 8

theorem s11Wakeup_work {mme mme' : MobilityManagement.State} {resp : S11Response}
    {mes : List MobilityManagement.Event}
    (hwake : MobilityManagement.s11Wakeup mme (some resp) = some (mme', mes)) :
    threadWork mme'.thread + sentWork mes < threadWork mme.thread + 1 := by
  cases hthread : mme.thread with
  | awaitCreateSession mmeId p =>
      simp only [MobilityManagement.s11Wakeup, hthread] at hwake
      have hle := createSessionAnswered_work mme mmeId p resp
      rw [Option.some.inj hwake] at hle
      exact hle.trans_lt (show 8 < 10 by decide)
  | awaitModifyBearer | awaitPathSwitch =>
      simp only [MobilityManagement.s11Wakeup, hthread] at hwake
      obtain ⟨rfl, rfl⟩ := Prod.mk.inj (Option.some.inj hwake)
      exact Nat.le_of_ble_eq_true rfl
  | _ =>
      simp only [MobilityManagement.s11Wakeup, hthread] at hwake
      cases hwake

theorem aiaWakeup_work {mme mme' : MobilityManagement.State} {mes : List MobilityManagement.Event}
    (hwake : MobilityManagement.step mme (.aiaWakeup false) = some (mme', mes)) :
    threadWork mme'.thread + sentWork mes < threadWork mme.thread := by
  simp only [MobilityManagement.step] at hwake
  split at hwake
  · rename_i mmeId enbId who hthread
    obtain ⟨av, hav, hready⟩ := Option.map_eq_some_iff.mp hwake
    rw [hthread]
    cases hfind : mme.store.find mmeId with
    | none =>
        simp only [MobilityManagement.authVectorsReady, hfind] at hready
        obtain ⟨rfl, rfl⟩ := Prod.mk.inj hready
        exact Nat.lt_succ_self 21
    | some p =>
        rw [authVectorsReady_found hfind] at hready
        obtain ⟨rfl, rfl⟩ := Prod.mk.inj hready
        exact Nat.lt_succ_self 21
  · cases hwake

theorem gateway_work {core : PacketGateways.State}
    (hthread : core.mme.thread = s.core.mme.thread) (hless : gatewayWork core < gatewayWork s.core) :
    work { s with core := core } < work s := by
  simp only [work, hthread]
  omega

theorem length_eraseIdx {α : Type*} {queue : List α} {n : Nat} {a : α} (h : queue[n]? = some a) :
    (queue.eraseIdx n).length + 1 = queue.length := by
  obtain ⟨hlt, -⟩ := List.getElem?_eq_some_iff.mp h
  rw [List.length_eraseIdx_of_lt hlt]
  omega

theorem gateway_falls {i : PacketGateways.Input} (hhandling : Handling (.core i))
    (hmme : ∀ i', i ≠ .mme i') (hanswer : ∀ n, i ≠ .mmeAnswer n)
    (hstep : coreStep s i = some (s', es)) : work s' < work s := by
  simp only [coreStep_eq] at hstep
  cases i with
  | mme i => exact absurd rfl (hmme i)
  | mmeAnswer n => exact absurd rfl (hanswer n)
  | sgwTimeout => exact hhandling.elim
  | pgwTimeout => exact hhandling.elim
  | sgwReceive n =>
      simp only [PacketGateways.step] at hstep
      split at hstep
      · rename_i req hidle hreq
        have hrest := total_eraseIdx sgwWork hreq
        cases req with
        | createSession req =>
            rw [Option.map_some, PacketGateways.sgwHandle, PacketGateways.handleCreateSessionReq,
              writeLinks_quiet rfl rfl] at hstep
            obtain ⟨rfl, -⟩ := Prod.mk.inj (Option.some.inj hstep)
            refine gateway_work rfl ?_
            simp only [gatewayWork, hidle, List.length_append, List.length_singleton, sgwThreadWork,
              sgwWork] at hrest ⊢
            omega
        | modifyBearer enbTeid who =>
            rw [Option.map_some, PacketGateways.sgwHandle, PacketGateways.handleModifyBearerReq,
              writeLinks_quiet rfl rfl] at hstep
            obtain ⟨rfl, -⟩ := Prod.mk.inj (Option.some.inj hstep)
            refine gateway_work rfl ?_
            simp only [gatewayWork, List.length_append, List.length_singleton, sgwWork] at hrest ⊢
            omega
      · cases hstep
  | sgwAnswer n =>
      simp only [PacketGateways.step] at hstep
      split at hstep
      · rename_i req s11Teid s1uTeid resp hbusy hans
        have hrest := length_eraseIdx hans
        rw [Option.map_some, PacketGateways.pgwAnswered, writeLinks_quiet rfl rfl] at hstep
        obtain ⟨rfl, -⟩ := Prod.mk.inj (Option.some.inj hstep)
        split
        · refine gateway_work rfl ?_
          simp only [gatewayWork, hbusy, sgwThreadWork]
          omega
        · refine gateway_work rfl ?_
          simp only [gatewayWork, hbusy, List.length_append, List.length_singleton, sgwThreadWork]
          omega
      · cases hstep
  | pgwReceive n =>
      simp only [PacketGateways.step] at hstep
      split at hstep
      · rename_i req hidle hreq
        have hrest := length_eraseIdx hreq
        rw [Option.map_some, writeLinks_quiet rfl rfl] at hstep
        obtain ⟨rfl, -⟩ := Prod.mk.inj (Option.some.inj hstep)
        refine gateway_work rfl ?_
        simp only [gatewayWork, PacketGateways.sendCcr, hidle, List.length_append,
          List.length_singleton, pgwThreadWork]
        omega
      · cases hstep
  | pgwAnswer =>
      simp only [PacketGateways.step] at hstep
      split at hstep
      · rename_i req cca rest hbusy hans
        split at hstep
        · rw [Option.map_some, PacketGateways.acceptSession, writeLinks_quiet rfl rfl] at hstep
          obtain ⟨rfl, -⟩ := Prod.mk.inj (Option.some.inj hstep)
          refine gateway_work rfl ?_
          simp only [gatewayWork, hbusy, hans, List.length_append, List.length_cons, List.length_nil,
            pgwThreadWork]
          omega
        · rw [Option.map_some, PacketGateways.rejectSession, writeLinks_quiet rfl rfl] at hstep
          obtain ⟨rfl, -⟩ := Prod.mk.inj (Option.some.inj hstep)
          refine gateway_work rfl ?_
          simp only [gatewayWork, hbusy, hans, List.length_append, List.length_cons, List.length_nil,
            pgwThreadWork]
          omega
      · cases hstep
  | pcrf =>
      simp only [PacketGateways.step] at hstep
      split at hstep
      · rename_i ccr rest hreq
        rw [Option.map_some, writeLinks_quiet rfl rfl] at hstep
        obtain ⟨rfl, -⟩ := Prod.mk.inj (Option.some.inj hstep)
        refine gateway_work rfl ?_
        simp only [gatewayWork, hreq, List.length_append, List.length_cons, List.length_nil]
        omega
      · cases hstep

theorem core_falls {i : PacketGateways.Input} (hhandling : Handling (.core i))
    (hstep : step s (.core i) = some (s', es)) : work s' < work s := by
  cases i with
  | mme i =>
      cases i with
      | aiaWakeup chaosDrop =>
          obtain rfl : chaosDrop = false := hhandling
          have hcore : coreStep s (.mme (.aiaWakeup false)) = some (s', es) := hstep
          rw [coreStep_mme _ fun resp hi => by cases hi] at hcore
          obtain ⟨⟨mme, mes⟩, hmme, heq⟩ := Option.map_eq_some_iff.mp hcore
          obtain ⟨rfl, -⟩ := Prod.mk.inj heq
          exact afterMme_work 0 rfl rfl (aiaWakeup_work hmme)
      | s11Timeout => exact hhandling.elim
      | s1ap | aia | s11 => cases hstep
  | mmeAnswer n =>
      obtain ⟨resp, mme, mes, hans, hmme, -, rfl⟩ := mmeAnswer_eq_some hstep
      refine afterMme_work 1 ?_ rfl (s11Wakeup_work hmme)
      have hrest := length_eraseIdx hans
      simp only [work, gatewayWork]
      omega
  | _ => exact gateway_falls hhandling nofun nofun hstep

/-- What is handled leaves less to do. -/
theorem step_falls {i : Input} (hhandling : Handling i) (hstep : step s i = some (s', es)) :
    work s' < work s := by
  cases i with
  | command cmd => exact hhandling.elim
  | enbReceive =>
      simp only [step] at hstep
      split at hstep
      · rename_i msg rest hout hdown
        obtain ⟨rfl, -⟩ := Prod.mk.inj (Option.some.inj hstep)
        have hless := enbHandle_work s.enb msg hout
        simp only [work, hout, hdown, total]
        omega
      · cases hstep
  | enbSend =>
      simp only [step] at hstep
      split at hstep
      · rename_i msg rest hout
        obtain ⟨rfl, -⟩ := Prod.mk.inj (Option.some.inj hstep)
        simp only [work, hout, total_append, total, outWork]
        omega
      · cases hstep
  | mmeReceive =>
      simp only [step] at hstep
      split at hstep
      · rename_i msg rest huplink
        rw [coreStep_mme _ fun resp hi => by cases hi] at hstep
        obtain ⟨⟨mme, mes⟩, hmme, heq⟩ := Option.map_eq_some_iff.mp hstep
        obtain ⟨rfl, -⟩ := Prod.mk.inj heq
        obtain ⟨hthread, rfl, rfl⟩ := step_s1ap hmme
        have hless := handleS1ap_work s.core.mme msg hthread
        refine afterMme_work (upWork msg) ?_ rfl ?_
        · simp only [work, huplink, total]
          omega
        · rw [hthread]
          exact hless.trans_le (Nat.le_add_left _ _)
      · cases hstep
  | hss =>
      simp only [step] at hstep
      split at hstep
      · rename_i who rest hreq
        obtain ⟨rfl, -⟩ := Prod.mk.inj (Option.some.inj hstep)
        simp only [work, hreq, List.length_append, List.length_cons, List.length_nil]
        omega
      · cases hstep
  | hssReceive =>
      simp only [step] at hstep
      split at hstep
      · rename_i who av rest hans
        rw [coreStep_mme _ fun resp hi => by cases hi] at hstep
        obtain ⟨rfl, -⟩ := Prod.mk.inj (Option.some.inj hstep)
        refine afterMme_work 1 ?_ rfl ?_
        · simp only [work, hans, List.length_cons]
          omega
        · exact Nat.lt_succ_self _
      · cases hstep
  | core i => exact core_falls hhandling hstep

end Work

section Completion

/-- The attaches of a run come to their end: there are at most `work s` more messages to handle, in
whatever order, and when there are none left every attach has its session. -/
theorem attaches_finish (hrun : Run step Undisturbed init tr s) {is : List Input} {tr' : List Event}
    (hhandling : ∀ i ∈ is, Handling i) (hexec : exec step s is = some (s', tr')) :
    is.length + work s' ≤ work s ∧
      ((∃ i, Handling i ∧ (step s' i).isSome) ∨
        Quiet s' ∧ ∀ k < attaches tr, Attached (tr ++ tr') s' k) := by
  refine ⟨?_, ?_⟩
  · refine Completion.exec_length_le (G := Handling) ?_ hhandling hexec
    intro s i s' es hi hstep
    exact step_falls hi hstep
  · have hundisturbed : ∀ i ∈ is, ∀ tr s, Undisturbed tr s i := by
      intro i hi tr s
      have hhand := hhandling i hi
      cases i with
      | command cmd => exact hhand.elim
      | _ => exact hhand
    have hinv := run_inv (Completion.run_extend hrun hundisturbed hexec)
    rcases quiet_or_goes hinv with hquiet | hgoes
    · refine .inr ⟨hquiet, fun k hk => hquiet.attached hinv ?_⟩
      rw [attaches_append]
      exact hk.trans_le (Nat.le_add_right _ _)
    · exact .inl hgoes

/-- Two attaches under way at once: the second is authenticated while the first has no session. -/
def twoAttaches : List Input :=
  let authentication := [Input.mmeReceive, .hss, .hssReceive, .core (.mme (.aiaWakeup false))]
  let session := [PacketGateways.Input.sgwReceive 0, .pgwReceive 0, .pcrf, .pgwAnswer,
    .sgwAnswer 0, .mmeAnswer 0].map Input.core
  let bearer := [PacketGateways.Input.sgwReceive 0, .mmeAnswer 0].map Input.core
  authentication ++ [.enbReceive, .enbSend] ++ authentication ++ [.enbReceive, .enbSend] ++
    (.mmeReceive :: session) ++ [.enbReceive, .enbSend, .enbReceive, .enbSend, .enbSend] ++
    (.mmeReceive :: session) ++ [.enbReceive, .enbSend, .enbReceive, .enbSend, .enbSend] ++
    (.mmeReceive :: .mmeReceive :: bearer) ++
    (.mmeReceive :: .mmeReceive :: .mmeReceive :: bearer) ++ [.mmeReceive]

theorem two_attaches_finish :
    ∃ tr s s' tr', Run step Undisturbed init tr s ∧ attaches tr = 2 ∧
      exec step s twoAttaches = some (s', tr') ∧ Quiet s' ∧
      ∀ k < 2, Attached (tr ++ tr') s' k := by
  have hadmits : Admits step Undisturbed [] init [.command .attach, .command .attach] :=
    ⟨fun _ => by decide, fun _ => by decide, trivial⟩
  have hfinish : (exec step init [.command .attach, .command .attach]).map (fun r =>
      (attaches r.2, (exec step r.1 twoAttaches).map fun r₁ => work r₁.1)) = some (2, some 0) := by
    decide +kernel
  obtain ⟨tr, s, hrun, hseen⟩ := exists_run_of_exec _ hadmits hfinish
  obtain ⟨htwo, hdone⟩ := Prod.mk.inj hseen
  obtain ⟨⟨s', tr'⟩, hexec, hwork⟩ := Option.map_eq_some_iff.mp hdone
  have hhandling : ∀ i ∈ twoAttaches, Handling i := by
    simp [twoAttaches, Handling]
  obtain ⟨-, ⟨i, hi, hgoes⟩ | ⟨hquiet, hattached⟩⟩ := attaches_finish hrun hhandling hexec
  · obtain ⟨⟨s'', es⟩, hstep⟩ := Option.isSome_iff_exists.mp hgoes
    have hless := step_falls hi hstep
    rw [show work s' = 0 from hwork] at hless
    exact absurd hless (Nat.not_lt_zero _)
  · rw [show attaches tr = 2 from htwo] at hattached
    exact ⟨tr, s, s', tr', hrun, htwo, hexec, hquiet, hattached⟩

end Completion

end MobileCore.AttachCompletion
