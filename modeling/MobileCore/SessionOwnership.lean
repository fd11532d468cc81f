import MobileCore.BearerLists
import MobileCore.PacketGateways

namespace MobileCore.SessionOwnership

open MobileCore.BearerLists
open MobileCore.LabelledRuns
open MobileCore.PacketGateways
open MobileCore.MobilityManagement (UeContext Bearer Ipv4 S11Response imsiOf findCtx sessionBearer
  setEnbTeid)

def bytes (ip : Ipv4) : List UInt8 := [ip.a, ip.b, ip.c, ip.d]

/-- The S-GW and the P-GW made the session that the bearer describes for this subscriber; no
message brings the MME a TEID of the P-GW. -/
def OwnSession (tr : List Event) (imsi : UInt64) (b : Bearer) : Prop :=
  .sgwSession imsi b.sgwS11Teid b.sgwS1uTeid ∈ tr ∧
    (∃ teid, .pgwSession imsi teid (bytes b.ueIp) ∈ tr) ∧ b.pgwS5Teid = 0

/-- The subscriber a wait is for and the one its answer is about, when the waiting node takes the
answer for a success. -/
def answered (s : State) : Input → Option (UInt64 × UInt64)
  | .mmeAnswer n =>
    match s.mme.thread, s.toMme[n]? with
    | .awaitCreateSession mmeId _, some resp =>
      if resp.cause = 16 ∧ 4 ≤ resp.ueIp.length then some (imsiOf s.mme mmeId, resp.imsi) else none
    | _, _ => none
  | .sgwAnswer n =>
    match s.sgw.thread, s.fromPgw[n]? with
    | .awaitPgw req _ _, some resp =>
      if resp.cause = 16 ∧ 4 ≤ resp.ueIp.length then some (req.imsi, resp.answers) else none
    | _, _ => none
  | _ => none

/-- No wait takes the answer to another subscriber's request. -/
def AnswersOwn (_ : List Event) (s : State) (i : Input) : Prop :=
  ∀ a ∈ answered s i, a.1 = a.2

instance (tr : List Event) (s : State) (i : Input) : Decidable (AnswersOwn tr s i) :=
  Option.decidableForallMem (answered s i)

section Bearers

variable (Q : UInt64 → Bearer → Prop)

def BearersSatisfy (s : MobilityManagement.State) : Prop :=
  ∀ (p : Nat) (ctx : UeContext), s.heap[p]? = some ctx → ∀ b ∈ ctx.bearers, Q ctx.imsi b

variable {Q} {s s' : MobilityManagement.State}

theorem imsiOf_eq {mmeId : UInt32} {p : Nat} {ctx : UeContext}
    (hfind : s.store.find mmeId = some p) (hctx : s.heap[p]? = some ctx) :
    imsiOf s mmeId = ctx.imsi := by
  simp [imsiOf, findCtx, hfind, hctx]

theorem step_bearers (hteid : ∀ imsi b teid, Q imsi b → Q imsi { b with enbS1uTeid := teid })
    (h : BearersSatisfy Q s) {i : MobilityManagement.Input} {es : List MobilityManagement.Event}
    (hnew : ∀ mmeId p resp ueIp rest, s.thread = .awaitCreateSession mmeId p → i = .s11 resp →
      resp.cause = 16 → resp.ueIp = bytes ueIp ++ rest →
      Q (imsiOf s mmeId) (sessionBearer resp ueIp))
    (hstep : MobilityManagement.step s i = some (s', es)) : BearersSatisfy Q s' := by
  intro p ctx' hctx' b hb
  cases step_contexts hstep hctx' with
  | created hnone =>
      rw [hnone] at hb
      cases hb
  | kept ctx hctx himsi hsame =>
      rw [hsame] at hb
      rw [himsi]
      exact h p ctx hctx b hb
  | tunnelled ctx teid hctx himsi hbearers =>
      rw [hbearers] at hb
      rw [himsi]
      rcases mem_setEnbTeid hb with hold | ⟨b₀, hb₀, rfl⟩
      · exact h p ctx hctx b hold
      · exact hteid ctx.imsi b₀ teid (h p ctx hctx b₀ hb₀)
  | stored ctx a hctx himsi haccepted hplace hbearers =>
      rw [hbearers] at hb
      rw [himsi]
      rcases List.mem_append.mp hb with hold | hb
      · exact h p ctx hctx b hold
      · obtain ⟨mmeId, q, rest, hthread, hfind, hi, hcause, hip⟩ := acceptedAnswer_eq_some haccepted
        rw [List.mem_singleton.mp hb, ← imsiOf_eq (hplace ▸ hfind) hctx]
        exact hnew mmeId q a.resp a.ueIp rest hthread hi hcause hip

end Bearers

structure Inv (tr : List Event) (s : State) : Prop where
  sgw : ∀ req s11Teid s1uTeid, s.sgw.thread = .awaitPgw req s11Teid s1uTeid →
    .sgwSession req.imsi s11Teid s1uTeid ∈ tr
  fromPgw : ∀ resp ∈ s.fromPgw, resp.cause = 16 →
    (∃ teid, .pgwSession resp.answers teid resp.ueIp ∈ tr) ∧ resp.ueIp.length = 4
  toMme : ∀ resp ∈ s.toMme, resp.cause = 16 → 4 ≤ resp.ueIp.length →
    .sgwSession resp.imsi resp.senderTeid resp.bearerTeid ∈ tr ∧
      (∃ teid, .pgwSession resp.imsi teid resp.ueIp ∈ tr) ∧ resp.ueIp.length = 4
  bearers : BearersSatisfy (OwnSession tr) s.mme

theorem OwnSession.append {tr : List Event} {imsi : UInt64} {b : Bearer}
    (h : OwnSession tr imsi b) (es : List Event) : OwnSession (tr ++ es) imsi b := by
  obtain ⟨hsgw, ⟨teid, hpgw⟩, hteid⟩ := h
  exact ⟨List.mem_append_left es hsgw, ⟨teid, List.mem_append_left es hpgw⟩, hteid⟩

theorem Inv.append {tr : List Event} {s : State} (h : Inv tr s) (es : List Event) :
    Inv (tr ++ es) s where
  sgw req s11Teid s1uTeid hthread := List.mem_append_left es (h.sgw req s11Teid s1uTeid hthread)
  fromPgw resp hresp hcause := by
    obtain ⟨⟨teid, hmem⟩, hlen⟩ := h.fromPgw resp hresp hcause
    exact ⟨⟨teid, List.mem_append_left es hmem⟩, hlen⟩
  toMme resp hresp hcause hlen := by
    obtain ⟨hsgw, ⟨teid, hpgw⟩, hfour⟩ := h.toMme resp hresp hcause hlen
    exact ⟨List.mem_append_left es hsgw, ⟨teid, List.mem_append_left es hpgw⟩, hfour⟩
  bearers p ctx hctx b hb := (h.bearers p ctx hctx b hb).append es

theorem mmeStep_inv {tr es : List Event} {s s' : State} {i : MobilityManagement.Input}
    (hinv : Inv tr s)
    (hnew : ∀ mmeId p resp ueIp rest, s.mme.thread = .awaitCreateSession mmeId p →
      i = .s11 resp → resp.cause = 16 → resp.ueIp = bytes ueIp ++ rest →
      OwnSession tr (imsiOf s.mme mmeId) (sessionBearer resp ueIp))
    (hstep : mmeStep s i = some (s', es)) : Inv (tr ++ es) s' := by
  obtain ⟨⟨mme, mes⟩, hmme, hpair⟩ := Option.map_eq_some_iff.mp hstep
  obtain ⟨rfl, rfl⟩ := Prod.mk.inj hpair
  have hbearers : BearersSatisfy (OwnSession tr) mme :=
    step_bearers (fun _ _ _ hown => hown) hinv.bearers hnew hmme
  have hkept : Inv tr { s with mme := mme, toSgw := s.toSgw ++ mes.filterMap toSgw? } :=
    ⟨hinv.sgw, hinv.fromPgw, hinv.toMme, hbearers⟩
  exact hkept.append _

theorem mmeAnswer_inv {tr es : List Event} {s s' : State} (hinv : Inv tr s) {n : Nat}
    {resp : S11Response} (hresp : s.toMme[n]? = some resp)
    (hguard : AnswersOwn tr s (.mmeAnswer n))
    (hstep : mmeStep { s with toMme := s.toMme.eraseIdx n } (.s11 resp) = some (s', es)) :
    Inv (tr ++ es) s' := by
  have hrest : Inv tr { s with toMme := s.toMme.eraseIdx n } :=
    ⟨hinv.sgw, hinv.fromPgw,
      fun r hr => hinv.toMme r (List.mem_of_mem_eraseIdx hr), hinv.bearers⟩
  refine mmeStep_inv hrest ?_ hstep
  rintro mmeId p r ueIp rest hthread hr hcause hip
  obtain rfl : resp = r := by simpa using hr
  have hlen : 4 ≤ resp.ueIp.length := by simp [hip, bytes]
  obtain ⟨hsgw, ⟨teid, hpgw⟩, hfour⟩ := hinv.toMme resp (List.mem_of_getElem? hresp) hcause hlen
  have himsi : imsiOf s.mme mmeId = resp.imsi := by
    refine hguard (imsiOf s.mme mmeId, resp.imsi) ?_
    have hthread' : s.mme.thread = .awaitCreateSession mmeId p := hthread
    simp [answered, hthread', hresp, hcause, hlen]
  have hrest : rest = [] := by
    have hsum : rest.length = 0 := by
      rw [hip, List.length_append] at hfour
      simp only [bytes, List.length_cons, List.length_nil] at hfour
      omega
    exact List.eq_nil_of_length_eq_zero hsum
  show OwnSession tr (imsiOf s.mme mmeId) (sessionBearer resp ueIp)
  rw [himsi]
  refine ⟨hsgw, ⟨teid, ?_⟩, rfl⟩
  rw [hip, hrest, List.append_nil] at hpgw
  exact hpgw

theorem sgwHandle_inv {tr : List Event} {s : State} (hinv : Inv tr s) (req : S11Request) :
    Inv (tr ++ (sgwHandle s req).2) (sgwHandle s req).1 := by
  cases req with
  | createSession req =>
      have hlater := hinv.append [.sgwSession req.imsi s.sgw.nextTeid (s.sgw.nextTeid + 1)]
      refine ⟨?_, hlater.fromPgw, hlater.toMme, hlater.bearers⟩
      rintro req' s11Teid s1uTeid hthread
      obtain ⟨rfl, rfl, rfl⟩ : req = req' ∧ s.sgw.nextTeid = s11Teid ∧
          s.sgw.nextTeid + 1 = s1uTeid := by
        simpa [sgwHandle, handleCreateSessionReq] using hthread
      simp [sgwHandle, handleCreateSessionReq]
  | modifyBearer enbTeid imsi =>
      have hmore : Inv tr (handleModifyBearerReq s).1 := by
        refine ⟨hinv.sgw, hinv.fromPgw, ?_, hinv.bearers⟩
        intro resp hresp hcause hlen
        rcases List.mem_append.mp hresp with hold | hnew
        · exact hinv.toMme resp hold hcause hlen
        · rw [List.mem_singleton.mp hnew] at hlen
          simp at hlen
      exact hmore.append []

theorem sgwAnswer_inv {tr : List Event} {s : State} (hinv : Inv tr s) {n : Nat}
    {req : CreateSession} {s11Teid s1uTeid : UInt32} {resp : S5Response}
    (hthread : s.sgw.thread = .awaitPgw req s11Teid s1uTeid) (hresp : s.fromPgw[n]? = some resp)
    (hguard : AnswersOwn tr s (.sgwAnswer n)) :
    Inv tr (pgwAnswered { s with fromPgw := s.fromPgw.eraseIdx n } req s11Teid s1uTeid resp) := by
  have hidle : ∀ req' t u, SgwThread.receiving = .awaitPgw req' t u →
      .sgwSession req'.imsi t u ∈ tr := by
    rintro _ _ _ ⟨⟩
  have hfrom : ∀ r ∈ s.fromPgw.eraseIdx n, r.cause = 16 →
      (∃ teid, .pgwSession r.answers teid r.ueIp ∈ tr) ∧ r.ueIp.length = 4 :=
    fun r hr => hinv.fromPgw r (List.mem_of_mem_eraseIdx hr)
  unfold pgwAnswered
  dsimp only
  split
  · exact ⟨hidle, hfrom, hinv.toMme, hinv.bearers⟩
  · rename_i hok
    obtain ⟨hcause, hlen⟩ : resp.cause = 16 ∧ 4 ≤ resp.ueIp.length := by
      simpa [not_or] using hok
    refine ⟨hidle, hfrom, ?_, hinv.bearers⟩
    intro r hr hr16 hrlen
    rcases List.mem_append.mp hr with hold | hnew
    · exact hinv.toMme r hold hr16 hrlen
    · rw [List.mem_singleton.mp hnew]
      obtain ⟨⟨teid, hpgw⟩, hfour⟩ := hinv.fromPgw resp (List.mem_of_getElem? hresp) hcause
      have hown : req.imsi = resp.answers := by
        refine hguard (req.imsi, resp.answers) ?_
        simp [answered, hthread, hresp, hcause, hlen]
      have htake : resp.ueIp.take 4 = resp.ueIp := List.take_of_length_le (by omega)
      refine ⟨hinv.sgw req s11Teid s1uTeid hthread, ⟨teid, ?_⟩, ?_⟩
      · show .pgwSession req.imsi teid (resp.ueIp.take 4) ∈ tr
        rw [htake, hown]
        exact hpgw
      · show (resp.ueIp.take 4).length = 4
        rw [htake, hfour]

theorem rejectSession_inv {tr : List Event} {s : State} (hinv : Inv tr s) (req : S5Request) :
    Inv tr (rejectSession s req) := by
  refine ⟨hinv.sgw, ?_, hinv.toMme, hinv.bearers⟩
  intro resp hresp hcause
  rcases List.mem_append.mp hresp with hold | hnew
  · exact hinv.fromPgw resp hold hcause
  · rw [List.mem_singleton.mp hnew] at hcause
    cases hcause

theorem acceptSession_inv {tr : List Event} {s : State} (hinv : Inv tr s) (req : S5Request) :
    Inv (tr ++ (acceptSession s req).2) (acceptSession s req).1 := by
  have hlater := hinv.append (acceptSession s req).2
  refine ⟨hlater.sgw, ?_, hlater.toMme, hlater.bearers⟩
  intro resp hresp hcause
  rcases List.mem_append.mp hresp with hold | hnew
  · exact hlater.fromPgw resp hold hcause
  · rw [List.mem_singleton.mp hnew]
    exact ⟨⟨s.pgw.nextTeid, by simp [acceptSession]⟩, rfl⟩

theorem step_inv {tr es : List Event} {s s' : State} {i : Input} (hinv : Inv tr s)
    (hguard : AnswersOwn tr s i) (hstep : step s i = some (s', es)) : Inv (tr ++ es) s' := by
  have hkept : ∀ {t : State}, Inv tr t → Inv (tr ++ []) t := fun h => h.append []
  cases i with
  | mme i =>
      cases i with
      | s11 resp => cases hstep
      | _ => exact mmeStep_inv hinv (by rintro _ _ _ _ _ _ ⟨⟩) hstep
  | mmeAnswer n =>
      simp only [step] at hstep
      split at hstep
      · rename_i resp hresp
        exact mmeAnswer_inv hinv hresp hguard hstep
      · cases hstep
  | sgwReceive n =>
      simp only [step] at hstep
      split at hstep
      · rename_i req _ _
        obtain ⟨rfl, rfl⟩ := Prod.ext_iff.mp (Option.some.inj hstep)
        have hrest : Inv tr { s with toSgw := s.toSgw.eraseIdx n } :=
          ⟨hinv.sgw, hinv.fromPgw, hinv.toMme, hinv.bearers⟩
        exact sgwHandle_inv hrest req
      · cases hstep
  | sgwAnswer n =>
      simp only [step] at hstep
      split at hstep
      · rename_i req s11Teid s1uTeid resp hthread hresp
        cases hstep
        exact hkept (sgwAnswer_inv hinv hthread hresp hguard)
      · cases hstep
  | sgwTimeout =>
      simp only [step] at hstep
      split at hstep
      · cases hstep
        exact hkept ⟨by rintro _ _ _ ⟨⟩, hinv.fromPgw, hinv.toMme, hinv.bearers⟩
      · cases hstep
  | pgwReceive n =>
      simp only [step] at hstep
      split at hstep
      · cases hstep
        exact hkept ⟨hinv.sgw, hinv.fromPgw, hinv.toMme, hinv.bearers⟩
      · cases hstep
  | pgwAnswer =>
      simp only [step] at hstep
      split at hstep
      · rename_i req cca rest hthread hcca
        have hrest : Inv tr { s with fromPcrf := rest } :=
          ⟨hinv.sgw, hinv.fromPgw, hinv.toMme, hinv.bearers⟩
        split at hstep
        · obtain ⟨rfl, rfl⟩ := Prod.ext_iff.mp (Option.some.inj hstep)
          exact acceptSession_inv hrest req
        · cases hstep
          exact hkept (rejectSession_inv hrest req)
      · cases hstep
  | pgwTimeout =>
      simp only [step] at hstep
      split at hstep
      · cases hstep
        exact hkept (rejectSession_inv hinv _)
      · cases hstep
  | pcrf =>
      simp only [step] at hstep
      split at hstep
      · cases hstep
        exact hkept ⟨hinv.sgw, hinv.fromPgw, hinv.toMme, hinv.bearers⟩
      · cases hstep

theorem init_inv : Inv [] init := by
  refine ⟨?_, ?_, ?_, ?_⟩
  · rintro _ _ _ ⟨⟩
  · simp [init]
  · simp [init]
  · intro p ctx hctx
    simp [init, MobilityManagement.init] at hctx

/-- In every run in which no wait takes another subscriber's answer, each bearer that the MME holds
describes a session that the S-GW and the P-GW made for its own subscriber. -/
theorem bearers_from_own_session {tr : List Event} {s : State}
    (hrun : Run step AnswersOwn init tr s) (p : Nat) (ctx : UeContext)
    (hctx : s.mme.heap[p]? = some ctx) : ∀ b ∈ ctx.bearers, OwnSession tr ctx.imsi b := by
  have hinv : Inv tr s := by
    refine hrun.invariant init_inv ?_
    intro tr s i s' es hinv hguard hstep
    exact step_inv hinv hguard hstep
  exact hinv.bearers p ctx hctx

/-- The attach of the UE `ueId` up to the Create Session Request for it. -/
def sessionRequested (ueId : UInt32) : List Input :=
  [.mme (.s1ap (.initialUeMsg ueId (404100000000000 + ueId.toUInt64) 404 10 1)),
    .mme (.aia (404100000000000 + ueId.toUInt64) {}), .mme (.aiaWakeup false),
    .mme (.s1ap (.ulNasTransport ueId ueId 0x53 (List.replicate 8 0)))]

/-- The way of a request to the S-GW, the P-GW and the PCRF, and back to the MME's socket. -/
def sessionMade : List Input :=
  [.sgwReceive 0, .pgwReceive 0, .pcrf, .pgwAnswer, .sgwAnswer 0]

def isSgwSession : Event → Bool
  | .sgwSession _ _ _ => true
  | _ => false

/-- UE 1's answer comes after its timeout, during the wait for UE 2. -/
theorem late_answer_gives_other_session :
    ∃ tr s, ∃ ctx : UeContext, ∃ b ∈ ctx.bearers, Reach step init tr s ∧
      s.mme.heap[1]? = some ctx ∧ ¬ OwnSession tr ctx.imsi b := by
  have hexec : (exec step init (sessionRequested 1 ++ [.mme .s11Timeout] ++ sessionRequested 2 ++
      sessionMade ++ [.mmeAnswer 0])).map (fun r => ((r.1.mme.heap[1]?).map fun ctx =>
        (ctx.imsi, ctx.bearers), r.2.filter isSgwSession)) =
      some (some (404100000000002, [sessionBearer { senderTeid := 1000, bearerTeid := 1001 }
        ⟨10, 0, 0, 1⟩]), [.sgwSession 404100000000001 1000 1001]) := by
    decide +kernel
  obtain ⟨tr, s, hrun, hpair⟩ := exists_reach_of_exec hexec
  obtain ⟨hheap, hsessions⟩ := Prod.mk.inj hpair
  obtain ⟨ctx, hctx, hctx'⟩ := Option.map_eq_some_iff.mp hheap
  obtain ⟨himsi, hbearers⟩ := Prod.mk.inj hctx'
  refine ⟨tr, s, ctx, _, by rw [hbearers]; exact List.mem_singleton_self _,
    hrun, hctx, ?_⟩
  rintro ⟨hsgw, _⟩
  have hmem : _ ∈ tr.filter isSgwSession := List.mem_filter.mpr ⟨hsgw, rfl⟩
  rw [hsessions, himsi] at hmem
  simp at hmem

def attachInTime : List Input := sessionRequested 1 ++ sessionMade ++ [.mmeAnswer 0]

/-- One attach whose answers come in time. -/
theorem answer_in_time_gives_own_session :
    ∃ tr s, ∃ ctx : UeContext, Run step AnswersOwn init tr s ∧ s.mme.heap[0]? = some ctx ∧
      ctx.bearers ≠ [] ∧ ∀ b ∈ ctx.bearers, OwnSession tr ctx.imsi b := by
  have hexec : (exec step init attachInTime).map (fun r => (r.1.mme.heap[0]?).map fun ctx =>
      ctx.bearers.length) = some (some 1) := by
    decide +kernel
  obtain ⟨tr, s, hrun, hheap⟩ :=
    exists_run_of_exec (P := AnswersOwn) attachInTime (by decide +kernel) hexec
  obtain ⟨ctx, hctx, hlen⟩ := Option.map_eq_some_iff.mp hheap
  refine ⟨tr, s, ctx, hrun, hctx, ?_, bearers_from_own_session hrun 0 ctx hctx⟩
  rintro hnil
  simp [hnil] at hlen

end MobileCore.SessionOwnership
