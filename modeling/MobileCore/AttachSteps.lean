import MobileCore.AttachStages

namespace MobileCore.AttachSteps

open MobileCore.LabelledRuns
open MobileCore.EvolvedPacketCore
open MobileCore.AttachExchanges
open MobileCore.AttachStages
open MobileCore.MobilityManagement (S1apUplink S1apDownlink S11Response AuthVectors UeContext Thread
  Bearer Ipv4 findCtx update)
open MobileCore.PacketGateways (S11Request S5Request S5Response)
open MobileCore.S1Link (Command)
open MobileCore.ContextCorrespondence (Numbered IsAnswer KeepsContexts identity identities
  ueIdentity)
open MobileCore.SessionOwnership (bytes)

variable {tr es : List Event} {s s' : State}

section Commands

theorem command_counted (hc : Counted tr s) (cmd : Command)
    (hguard : cmd = .attach → attaches tr < maxAttaches) :
    Counted (tr ++ [.commanded cmd]) { s with
      enb := (S1Link.processCommand s.enb cmd).1
      uplink := s.uplink ++ [(S1Link.processCommand s.enb cmd).2] } := by
  cases cmd with
  | attach =>
      have hmore : attaches (tr ++ [.commanded .attach]) = attaches tr + 1 := attaches_append _ _
      refine ⟨hmore ▸ hguard rfl, ?_, hc.mmeNext, ?_, ?_, hc.answers, hc.find, hc.identity⟩
      · show s.enb.nextEnbUeId + 1 = _
        rw [hmore, number_succ, hc.enbNext]
      · rw [List.countP_append, ← Nat.add_assoc, hmore, ← hc.count]
        rfl
      · exact hc.numbered.append (.attach 404 10 1 (.nil _))
  | tau ueId | handover ueId =>
      refine hc.move rfl rfl (.refl _) ?_ ?_ hc.answers
      · exact List.countP_append
      · exact hc.numbered.snoc_other fun _ _ _ _ _ => S1apUplink.noConfusion

theorem upToken_command (id : UInt32) (enb : S1Link.EnbNode) (cmd : Command) :
    upToken id (S1Link.processCommand enb cmd).2 = [] := by
  cases cmd <;> rfl

theorem command_inv (hinv : Inv tr s) (cmd : Command)
    (hguard : cmd = .attach → attaches tr < maxAttaches) :
    Inv (tr ++ [.commanded cmd]) { s with
      enb := (S1Link.processCommand s.enb cmd).1
      uplink := s.uplink ++ [(S1Link.processCommand s.enb cmd).2] } where
  counted := command_counted hinv.counted cmd hguard
  ledgers := hinv.ledgers.calm ⟨rfl, rfl⟩ (Nat.le_refl _) rfl rfl rfl
  exchange := hinv.exchange.calm ⟨rfl, rfl⟩
  stage k hk := by
    have hrx : (S1Link.processCommand s.enb cmd).1.rxOut = s.enb.rxOut := by
      cases cmd <;> rfl
    have htokens : tokens (number k) { s with
        enb := (S1Link.processCommand s.enb cmd).1
        uplink := s.uplink ++ [(S1Link.processCommand s.enb cmd).2] } = tokens (number k) s := by
      simp only [tokens, hrx, List.flatMap_append, List.flatMap_singleton, upToken_command,
        List.append_nil]
    rw [htokens]
    exact (hinv.stage k hk).calm ⟨rfl, rfl⟩
  tunnels msg hmsg r hr := by
    have hold : msg ∈ s.uplink ++ s.enb.rxOut := by
      have hrx : (S1Link.processCommand s.enb cmd).1.rxOut = s.enb.rxOut := by
        cases cmd <;> rfl
      rw [hrx] at hmsg
      rcases List.mem_append.mp hmsg with hmsg | hmsg
      · rcases List.mem_append.mp hmsg with hmsg | hmsg
        · exact List.mem_append_left _ hmsg
        · obtain rfl := List.mem_singleton.mp hmsg
          cases cmd <;> cases hr
      · exact List.mem_append_right _ hmsg
    exact (hinv.tunnels msg hold r hr).append _

end Commands

section Enb

variable {k : Nat} {ctx : Option UeContext}

theorem enbSend_inv (hinv : Inv tr s) {msg : S1apUplink} {rest : List S1apUplink}
    (hout : s.enb.rxOut = msg :: rest) :
    Inv (tr ++ []) { s with enb := { s.enb with rxOut := rest }, uplink := s.uplink ++ [msg] } := by
  have hmsg : isInitial msg = false := hinv.counted.answers msg (by simp [hout])
  have hsame : s.uplink ++ [msg] ++ rest = s.uplink ++ s.enb.rxOut := by
    rw [hout, List.append_assoc]
    rfl
  refine ⟨?_, ?_, hinv.exchange.calm calm_nil, ?_, ?_⟩
  · refine hinv.counted.move rfl rfl (.refl _) ?_ ?_ ?_
    · rw [List.countP_append, List.countP_singleton, hmsg]
      rfl
    · exact hinv.counted.numbered.snoc_other (isInitial_eq_false.mp hmsg)
    · intro out hmem
      exact hinv.counted.answers out (by rw [hout]; exact List.mem_cons_of_mem msg hmem)
  · exact hinv.ledgers.calm calm_nil (Nat.le_refl _) rfl rfl rfl
  · intro k hk
    have htokens : tokens (number k)
        { s with enb := { s.enb with rxOut := rest }, uplink := s.uplink ++ [msg] } =
        tokens (number k) s := by
      simp only [tokens, hsame]
    rw [htokens]
    exact (hinv.stage k hk).calm calm_nil
  · intro out hmem r hr
    rw [List.append_nil]
    exact hinv.tunnels out (hsame ▸ hmem) r hr

theorem tokens_enbReceive (id : UInt32) {msg : S1apDownlink} {rest : List S1apDownlink}
    (hout : s.enb.rxOut = []) (hdown : s.downlink = msg :: rest) :
    tokens id s = threadToken id s.core.mme.thread ++ s.uplink.flatMap (upToken id) ++
      (downToken id msg ++ rest.flatMap (downToken id)) := by
  rw [tokens, hout, hdown, List.append_nil, List.flatMap_cons, List.append_assoc]

theorem enbReceive_stage (h : Stage tr k ctx (tokens (number k) s)) {msg : S1apDownlink}
    {rest : List S1apDownlink} (hout : s.enb.rxOut = []) (hdown : s.downlink = msg :: rest) :
    Stage tr k ctx
      (tokens (number k) { s with enb := (S1Link.enbHandle s.enb msg).1, downlink := rest }) := by
  rw [tokens_enbReceive (number k) hout hdown] at h
  have hafter : tokens (number k)
      { s with enb := (S1Link.enbHandle s.enb msg).1, downlink := rest } =
      threadToken (number k) s.core.mme.thread ++ s.uplink.flatMap (upToken (number k)) ++
        ((S1Link.enbHandle s.enb msg).1.rxOut.flatMap (upToken (number k)) ++
          rest.flatMap (downToken (number k))) := by
    simp only [tokens, List.flatMap_append, List.append_assoc]
  rw [hafter]
  refine h.replace_down ?_ ?_
  · intro hmsg
    cases msg with
    | dlNasTransport mmeId enbId nasType rand autn =>
        have htoken : ¬(mmeId = number k ∧ nasType = 0x52) := by
          intro heq
          simp [downToken, heq] at hmsg
        simp only [S1Link.enbHandle, S1Link.handleDlNas]
        split
        · simp [upToken]
        · split
          · rename_i hchallenge
            have hne : mmeId ≠ number k := fun heq => htoken ⟨heq, hchallenge.1⟩
            simp [upToken, hne]
          · rfl
    | icSetupRequest mmeId enbId sgwTeid ebi ueIp =>
        have hne : mmeId ≠ number k := by
          intro heq
          simp [downToken, heq] at hmsg
        simp [S1Link.enbHandle, S1Link.handleIcsr, upToken, hne]
    | tauAccept mmeId enbId => simp [S1Link.enbHandle, hout]
    | _ => rfl
  · intro hone
    cases hone with
    | challenged hsession hbearers hlength hres =>
        rename_i rand autn
        have hanswer : (S1Link.enbHandle s.enb
            (.dlNasTransport (number k) (number k) 0x52 rand autn)).1.rxOut =
            [.ulNasTransport (number k) (number k) 0x53 ((rand.take 8).map (· ^^^ 0x55))] := by
          simp [S1Link.enbHandle, S1Link.handleDlNas, hlength]
        rw [hanswer, hres]
        simpa [upToken] using Stage.answered hsession hbearers
    | accepted hbearer =>
        simpa [S1Link.enbHandle, S1Link.handleIcsr, upToken] using Stage.bound hbearer

theorem enbHandle_reports {enb : S1Link.EnbNode} (hout : enb.rxOut = []) (msg : S1apDownlink) :
    ∀ out ∈ (S1Link.enbHandle enb msg).1.rxOut, ∀ r ∈ reported out,
      Allocated ((S1Link.enbHandle enb msg).2.map .enb) r.1 r.2 := by
  intro out hmem r hr
  cases msg with
  | dlNasTransport mmeId enbId nasType rand autn =>
      simp only [S1Link.enbHandle, S1Link.handleDlNas] at hmem
      split at hmem
      · obtain rfl := List.mem_singleton.mp hmem
        cases hr
      · split at hmem
        · obtain rfl := List.mem_singleton.mp hmem
          cases hr
        · cases hmem
  | icSetupRequest mmeId enbId sgwTeid ebi ueIp =>
      rcases List.mem_cons.mp hmem with rfl | hmem
      · obtain rfl := Option.some.inj hr
        exact ⟨.attach, List.mem_singleton.mpr rfl⟩
      · obtain rfl := List.mem_singleton.mp hmem
        cases hr
  | tauAccept mmeId enbId =>
      rw [show (S1Link.enbHandle enb (.tauAccept mmeId enbId)).1.rxOut = [] from hout] at hmem
      cases hmem
  | handoverRequest mmeId enbId =>
      obtain rfl := List.mem_singleton.mp hmem
      obtain rfl := Option.some.inj hr
      exact ⟨.handover, List.mem_singleton.mpr rfl⟩
  | handoverCommand mmeId enbId | mmeStatusTransfer mmeId enbId pdcpUl pdcpDl
  | ueContextReleaseCmd mmeId enbId =>
      obtain rfl := List.mem_singleton.mp hmem
      cases hr

theorem enbReceive_inv (hinv : Inv tr s) {msg : S1apDownlink} {rest : List S1apDownlink}
    (hout : s.enb.rxOut = []) (hdown : s.downlink = msg :: rest) :
    Inv (tr ++ (S1Link.enbHandle s.enb msg).2.map .enb)
      { s with enb := (S1Link.enbHandle s.enb msg).1, downlink := rest } := by
  have hcalm := calm_enb (S1Link.enbHandle s.enb msg).2
  obtain ⟨hnext, hanswers⟩ := ContextCorrespondence.enbHandle_answers s.enb msg
  refine ⟨?_, ?_, hinv.exchange.calm hcalm, ?_, ?_⟩
  · refine hinv.counted.move (attaches_enb _) hnext (.refl _) rfl hinv.counted.numbered ?_
    intro out hmem
    exact isInitial_eq_false.mpr (hanswers hout out hmem).1
  · exact hinv.ledgers.calm hcalm (Nat.le_refl _) rfl rfl rfl
  · intro k hk
    exact (enbReceive_stage (hinv.stage k hk) hout hdown).calm hcalm
  · intro out hmem r hr
    rcases List.mem_append.mp hmem with hold | hnew
    · exact (hinv.tunnels out (List.mem_append_left _ hold) r hr).append _
    · obtain ⟨purpose, hevent⟩ := enbHandle_reports hout msg out hnew r hr
      exact ⟨purpose, List.mem_append_right tr hevent⟩

end Enb

section Mme

def airOf? (e : MobilityManagement.Event) : Option UInt64 := toHss? (.mme e)

def afterMme (s : State) (mme : MobilityManagement.State) (mes : List MobilityManagement.Event) :
    State :=
  { s with
    core := { s.core with mme := mme, toSgw := s.core.toSgw ++ mes.filterMap PacketGateways.toSgw? }
    downlink := s.downlink ++ mes.filterMap S1Link.toEnb?
    toHss := s.toHss ++ mes.filterMap airOf? }

/-- The part of `coreStep` that writes to the links of the MME. -/
def writeLinks (s : State) (r : PacketGateways.State × List PacketGateways.Event) :
    State × List Event :=
  ({ s with
      core := r.1
      downlink := s.downlink ++ r.2.filterMap toEnb?
      toHss := s.toHss ++ r.2.filterMap toHss? },
    r.2.map .core)

theorem coreStep_eq (s : State) (i : PacketGateways.Input) :
    coreStep s i = (PacketGateways.step s.core i).map (writeLinks s) := rfl

theorem mmeStep_eq (s : State) (core : PacketGateways.State) (i : MobilityManagement.Input) :
    (PacketGateways.mmeStep core i).map (writeLinks s) =
      (MobilityManagement.step core.mme i).map fun r =>
        (afterMme { s with core := core } r.1 r.2, mmeEvents r.2) := by
  rw [PacketGateways.mmeStep, Option.map_map]
  congr 1
  funext r
  simp only [Function.comp_apply, writeLinks, List.filterMap_map, List.map_map]
  rfl

theorem tokens_afterMme (id : UInt32) (s : State) (mme : MobilityManagement.State)
    (mes : List MobilityManagement.Event) :
    tokens id (afterMme s mme mes) = threadToken id mme.thread ++
      ((s.uplink ++ s.enb.rxOut).flatMap (upToken id) ++
        (s.downlink.flatMap (downToken id) ++
          (mes.filterMap S1Link.toEnb?).flatMap (downToken id))) := by
  simp only [tokens, afterMme, List.flatMap_append]

theorem inv_afterMme (hinv : Inv tr s) (s₀ : State) {mme : MobilityManagement.State}
    {mes : List MobilityManagement.Event} (henb : s₀.enb = s.enb)
    (hsgw : s₀.core.sgw = s.core.sgw) (hpgw : s₀.core.pgw = s.core.pgw)
    (hkeeps : KeepsContexts s.core.mme mme)
    (hcount : s₀.uplink.countP isInitial = s.uplink.countP isInitial)
    (hnumbered : Numbered s.core.mme.store.nextId s₀.uplink s.enb.nextEnbUeId)
    (hsubset : s₀.uplink ⊆ s.uplink)
    (hexchange : Exchange tr (contexts s).length mme.thread (links (afterMme s₀ mme mes)))
    (hstage : ∀ k ≤ maxAttaches, Stage tr k mme.heap[k]? (tokens (number k) (afterMme s₀ mme mes))) :
    Inv (tr ++ mmeEvents mes) (afterMme s₀ mme mes) := by
  have hlength : (contexts (afterMme s₀ mme mes)).length = (contexts s).length := by
    apply length_contexts
    exact hkeeps
  refine ⟨?_, ?_, ?_, ?_, ?_⟩
  · refine hinv.counted.move (attaches_mme mes) (congrArg _ henb) hkeeps hcount hnumbered ?_
    intro out hmem
    exact hinv.counted.answers out (henb ▸ hmem)
  · exact hinv.ledgers.calm (calm_mme mes) hlength.ge (congrArg _ hsgw) (congrArg _ hpgw)
      (congrArg _ hpgw)
  · rw [hlength]
    exact hexchange.calm (calm_mme mes)
  · intro k hk
    exact (hstage k hk).calm (calm_mme mes)
  · intro out hmem r hr
    refine (hinv.tunnels out ?_ r hr).append _
    rcases List.mem_append.mp hmem with hup | hrx
    · exact List.mem_append_left _ (hsubset hup)
    · exact List.mem_append_right _ (henb ▸ hrx)

end Mme

section Contexts

variable {k p : Nat} {id enbTeid : UInt32} {ctx : UeContext}

theorem findCtx_number (hc : Counted tr s) (hctx : (contexts s)[k]? = some ctx) :
    findCtx s.core.mme (number k) = some (k, ctx) := by
  obtain ⟨hk, -⟩ := List.getElem?_eq_some_iff.mp hctx
  have hfind := (hc.find (number k) k).mpr ⟨hk, rfl⟩
  have hheap : s.core.mme.heap[k]? = some ctx := hctx
  simp only [findCtx, hfind, hheap, Option.map_some]

theorem update_other (hne : p ≠ k) (f : UeContext → UeContext) :
    (update s.core.mme p f).heap[k]? = (contexts s)[k]? := by
  show (s.core.mme.heap.modify p f)[k]? = _
  exact List.getElem?_modify_ne f s.core.mme.heap hne

theorem update_same (hctx : (contexts s)[k]? = some ctx) (f : UeContext → UeContext) :
    (update s.core.mme k f).heap[k]? = some (f ctx) := by
  have hheap : s.core.mme.heap[k]? = some ctx := hctx
  show (s.core.mme.heap.modify k f)[k]? = _
  rw [List.getElem?_modify_eq, hheap]
  rfl

theorem storeEnbTeid_heap (hc : Counted tr s) (hk : k ≤ maxAttaches) :
    (MobilityManagement.storeEnbTeid s.core.mme id enbTeid).heap[k]? =
      if id = number k then
        (contexts s)[k]?.map fun ctx =>
          { ctx with bearers := MobilityManagement.setEnbTeid enbTeid ctx.bearers }
      else (contexts s)[k]? := by
  cases hfind : s.core.mme.store.find id with
  | none =>
      simp only [MobilityManagement.storeEnbTeid, hfind]
      by_cases hid : id = number k
      · have hnone : (contexts s)[k]? = none := by
          rw [List.getElem?_eq_none_iff]
          by_contra hlt
          have hsome := (hc.find id k).mpr ⟨Nat.lt_of_not_le hlt, hid⟩
          rw [hfind] at hsome
          cases hsome
        rw [if_pos hid, hnone]
        exact hnone
      · rw [if_neg hid]
        rfl
  | some p =>
      obtain ⟨hp, rfl⟩ := (hc.find id p).mp hfind
      simp only [MobilityManagement.storeEnbTeid, hfind]
      rcases eq_or_ne p k with rfl | hne
      · rw [if_pos rfl]
        exact List.getElem?_modify_eq _ _ _
      · rw [if_neg fun heq => hne (number_injective (hp.le.trans hc.length_le) hk heq)]
        exact update_other hne _

theorem setEnbTeid_single {b : Bearer} (hebi : b.ebi = 5) :
    MobilityManagement.setEnbTeid enbTeid [b] = [{ b with enbS1uTeid := enbTeid }] := by
  simp [MobilityManagement.setEnbTeid, hebi]

theorem ownBearer_setEnbTeid (h : OwnBearer tr k ctx) (enbTeid : UInt32) :
    OwnBearer tr k
      { ctx with bearers := MobilityManagement.setEnbTeid enbTeid ctx.bearers } := by
  obtain ⟨b, hb, hebi, hsgw, teid, hpgw⟩ := h
  refine ⟨{ b with enbS1uTeid := enbTeid }, ?_, hebi, hsgw, teid, hpgw⟩
  rw [hb, setEnbTeid_single hebi]

theorem ownTunnel_setEnbTeid (h : OwnBearer tr k ctx) (hteid : Allocated tr (number k) enbTeid) :
    OwnTunnel tr k
      { ctx with bearers := MobilityManagement.setEnbTeid enbTeid ctx.bearers } := by
  obtain ⟨b, hb, hebi, -⟩ := h
  intro b' hb'
  rw [hb, setEnbTeid_single hebi] at hb'
  obtain rfl := List.mem_singleton.mp hb'
  exact hteid

theorem stage_setEnbTeid {toks : List Token} (h : Stage tr k (some ctx) toks)
    (hteid : Allocated tr (number k) enbTeid) :
    Stage tr k
      (some { ctx with bearers := MobilityManagement.setEnbTeid enbTeid ctx.bearers }) toks := by
  have hnone (hbearers : ctx.bearers = []) :
      MobilityManagement.setEnbTeid enbTeid ctx.bearers = [] := by
    rw [hbearers]
    rfl
  cases h with
  | awaiting hsession hbearers => exact .awaiting hsession (hnone hbearers)
  | challenged hsession hbearers hlength hres =>
      exact .challenged hsession (hnone hbearers) hlength hres
  | answered hsession hbearers => exact .answered hsession (hnone hbearers)
  | creating hbearers => exact .creating (hnone hbearers)
  | accepted hbearer => exact .accepted (ownBearer_setEnbTeid hbearer enbTeid)
  | bound hbearer => exact .bound (ownBearer_setEnbTeid hbearer enbTeid)
  | completing hbearer => exact .completing (ownBearer_setEnbTeid hbearer enbTeid) (ownTunnel_setEnbTeid hbearer hteid)
  | registered hbearer _ hstate =>
      exact .registered (ownBearer_setEnbTeid hbearer enbTeid) (ownTunnel_setEnbTeid hbearer hteid) hstate

end Contexts

section Messages

variable {k : Nat} {pending : List Token}

theorem findCtx_place (hc : Counted tr s) {mmeId : UInt32} {p : Nat} {ctx : UeContext}
    (hfind : findCtx s.core.mme mmeId = some (p, ctx)) :
    mmeId = number p ∧ (contexts s)[p]? = some ctx := by
  obtain ⟨hstore, hctx⟩ := AttachAuthentication.findCtx_eq_some hfind
  exact ⟨((hc.find mmeId p).mp hstore).2, hctx⟩

theorem stage_authResponse (hc : Counted tr s) (hthread : s.core.mme.thread = .receiving)
    (mmeId enbId : UInt32) (res : List UInt8)
    (h : Stage tr k (contexts s)[k]?
      (upToken (number k) (.ulNasTransport mmeId enbId 0x53 res) ++ pending)) :
    Stage tr k (MobilityManagement.handleUlNasTransport s.core.mme mmeId 0x53 res).1.heap[k]?
      (threadToken (number k)
        (MobilityManagement.handleUlNasTransport s.core.mme mmeId 0x53 res).1.thread ++ pending) := by
  by_cases hid : mmeId = number k
  · subst hid
    simp only [upToken, true_and, true_or, if_true, List.singleton_append] at h
    obtain ⟨c, hctx, ⟨hmsg, rfl, -, hbearers⟩ | ⟨⟨teid, hmsg⟩, -⟩ | ⟨hmsg, -⟩⟩ := h.of_up
    · obtain ⟨-, -, -, rfl⟩ := S1apUplink.ulNasTransport.inj hmsg
      have hfind := findCtx_number hc hctx
      have hpass : 8 ≤ c.auth.xres.toList.length ∧
          c.auth.xres.toList.take 8 = c.auth.xres.toList := by
        have hlength : c.auth.xres.toList.length = 8 := Vector.length_toList
        exact ⟨hlength.ge, List.take_of_length_le hlength.le⟩
      simp only [MobilityManagement.handleUlNasTransport, hfind, if_pos hpass, threadToken, if_true,
        List.append_nil]
      rw [update_same hctx]
      exact .creating hbearers
    · cases hmsg
    · simp at hmsg
  · have hup : upToken (number k) (.ulNasTransport mmeId enbId 0x53 res) = [] := by
      simp [upToken, hid]
    rw [hup, List.nil_append] at h
    cases hfind : findCtx s.core.mme mmeId with
    | none =>
        simp only [MobilityManagement.handleUlNasTransport, hfind, hthread]
        exact h
    | some found =>
        obtain ⟨p, c⟩ := found
        have hne : p ≠ k := by
          rintro rfl
          exact hid (findCtx_place hc hfind).1
        simp only [MobilityManagement.handleUlNasTransport, hfind]
        split
        · simp only [threadToken, if_neg hid, List.nil_append]
          rw [update_other hne]
          exact h
        · simp only [hthread]
          exact h

theorem stage_attachComplete (hc : Counted tr s) (hthread : s.core.mme.thread = .receiving)
    (mmeId enbId : UInt32) (res : List UInt8)
    (h : Stage tr k (contexts s)[k]?
      (upToken (number k) (.ulNasTransport mmeId enbId 0x46 res) ++ pending)) :
    Stage tr k (MobilityManagement.handleUlNasTransport s.core.mme mmeId 0x46 res).1.heap[k]?
      (threadToken (number k)
        (MobilityManagement.handleUlNasTransport s.core.mme mmeId 0x46 res).1.thread ++ pending) := by
  by_cases hid : mmeId = number k
  · subst hid
    simp only [upToken, true_and, or_true, if_true, List.singleton_append] at h
    obtain ⟨c, hctx, ⟨hmsg, -⟩ | ⟨⟨teid, hmsg⟩, -⟩ | ⟨-, rfl, hbearer, htunnel⟩⟩ := h.of_up
    · simp at hmsg
    · cases hmsg
    · simp only [MobilityManagement.handleUlNasTransport, findCtx_number hc hctx]
      rw [update_same hctx, show (update s.core.mme k _).thread = _ from hthread]
      exact .registered hbearer htunnel rfl
  · have hup : upToken (number k) (.ulNasTransport mmeId enbId 0x46 res) = [] := by
      simp [upToken, hid]
    rw [hup, List.nil_append] at h
    cases hfind : findCtx s.core.mme mmeId with
    | none =>
        simp only [MobilityManagement.handleUlNasTransport, hfind, hthread]
        exact h
    | some found =>
        obtain ⟨p, c⟩ := found
        have hne : p ≠ k := by
          rintro rfl
          exact hid (findCtx_place hc hfind).1
        simp only [MobilityManagement.handleUlNasTransport, hfind]
        rw [update_other hne, show (update s.core.mme p _).thread = _ from hthread]
        exact h

theorem handleUlNasTransport_other {mme : MobilityManagement.State} {mmeId : UInt32} {nasType : UInt8}
    {res : List UInt8} (hresponse : nasType ≠ 0x53) (hcomplete : nasType ≠ 0x46) :
    MobilityManagement.handleUlNasTransport mme mmeId nasType res = (mme, []) := by
  unfold MobilityManagement.handleUlNasTransport
  split
  · exact absurd rfl hresponse
  · exact absurd rfl hcomplete
  · rfl

theorem stage_icSetupResponse (hc : Counted tr s) (hk : k ≤ maxAttaches) (mmeId enbTeid : UInt32)
    (hteid : Allocated tr mmeId enbTeid)
    (h : Stage tr k (contexts s)[k]?
      (upToken (number k) (.icSetupResponse mmeId enbTeid) ++ pending)) :
    Stage tr k (MobilityManagement.handleIcSetupResponse s.core.mme mmeId enbTeid).1.heap[k]?
      pending := by
  simp only [MobilityManagement.handleIcSetupResponse]
  rw [storeEnbTeid_heap hc hk]
  by_cases hid : mmeId = number k
  · subst hid
    simp only [upToken, if_true, List.singleton_append] at h ⊢
    obtain ⟨c, hctx, ⟨hmsg, -⟩ | ⟨-, rfl, hbearer⟩ | ⟨hmsg, -⟩⟩ := h.of_up
    · cases hmsg
    · rw [hctx, Option.map_some]
      exact .completing (ownBearer_setEnbTeid hbearer enbTeid) (ownTunnel_setEnbTeid hbearer hteid)
    · cases hmsg
  · rw [if_neg hid]
    simpa [upToken, hid] using h

theorem stage_handoverRequestAck (hc : Counted tr s) (hk : k ≤ maxAttaches) (mmeId newTeid : UInt32)
    (hteid : Allocated tr mmeId newTeid) (h : Stage tr k (contexts s)[k]? pending) :
    Stage tr k (MobilityManagement.storeEnbTeid s.core.mme mmeId newTeid).heap[k]? pending := by
  rw [storeEnbTeid_heap hc hk]
  split
  · rename_i hid
    subst hid
    cases hctx : (contexts s)[k]? with
    | none =>
        rw [hctx] at h
        exact h
    | some ctx =>
        rw [hctx] at h
        exact stage_setEnbTeid h hteid
  · exact h

theorem storeEnbTeid_thread (mme : MobilityManagement.State) (mmeId enbTeid : UInt32) :
    (MobilityManagement.storeEnbTeid mme mmeId enbTeid).thread = mme.thread := by
  unfold MobilityManagement.storeEnbTeid
  split <;> rfl

theorem stage_handleS1ap (hc : Counted tr s) (hthread : s.core.mme.thread = .receiving)
    (hk : k ≤ maxAttaches) {msg : S1apUplink} (hmsg : isInitial msg = false)
    (hteid : ∀ r ∈ reported msg, Allocated tr r.1 r.2)
    (h : Stage tr k (contexts s)[k]? (upToken (number k) msg ++ pending)) :
    Stage tr k (MobilityManagement.handleS1ap s.core.mme msg).1.heap[k]?
      (threadToken (number k) (MobilityManagement.handleS1ap s.core.mme msg).1.thread ++
        pending) := by
  cases msg with
  | initialUeMsg => cases hmsg
  | ulNasTransport mmeId enbId nasType res =>
      rcases eq_or_ne nasType 0x53 with rfl | hresponse
      · exact stage_authResponse hc hthread mmeId enbId res h
      · rcases eq_or_ne nasType 0x46 with rfl | hcomplete
        · exact stage_attachComplete hc hthread mmeId enbId res h
        · have hup : upToken (number k) (.ulNasTransport mmeId enbId nasType res) = [] := by
            simp [upToken, hresponse, hcomplete]
          rw [hup] at h
          simp only [MobilityManagement.handleS1ap, handleUlNasTransport_other hresponse hcomplete,
            hthread]
          exact h
  | icSetupResponse mmeId enbTeid =>
      exact stage_icSetupResponse hc hk mmeId enbTeid (hteid (mmeId, enbTeid) rfl) h
  | handoverRequestAck mmeId enbId newTeid =>
      simp only [MobilityManagement.handleS1ap, MobilityManagement.handleHandoverRequestAck,
        storeEnbTeid_thread, hthread]
      exact stage_handoverRequestAck hc hk mmeId newTeid (hteid (mmeId, newTeid) rfl) h
  | handoverNotify mmeId enbId newTeid => exact h
  | tauRequest | handoverRequired | enbStatusTransfer | ueContextRelCmpl | unexpected =>
      simp only [MobilityManagement.handleS1ap, hthread]
      exact h

/-- What the MME asks of the other nodes is what its thread then waits for. -/
theorem exchange_handleS1ap (hinv : Inv tr s) (hthread : s.core.mme.thread = .receiving)
    {msg : S1apUplink} {rest : List S1apUplink} (huplink : s.uplink = msg :: rest)
    (hmsg : isInitial msg = false) :
    Exchange tr (contexts s).length (MobilityManagement.handleS1ap s.core.mme msg).1.thread
      { toHss := (MobilityManagement.handleS1ap s.core.mme msg).2.filterMap airOf?
        toSgw := (MobilityManagement.handleS1ap s.core.mme msg).2.filterMap
          PacketGateways.toSgw? } := by
  have hquiet : Exchange tr (contexts s).length s.core.mme.thread {} := by
    rw [hthread]
    exact .receiving
  cases msg with
  | initialUeMsg => cases hmsg
  | ulNasTransport mmeId enbId nasType res =>
      simp only [MobilityManagement.handleS1ap, MobilityManagement.handleUlNasTransport]
      split
      · split
        · exact hquiet
        · rename_i p ctx hfind
          split
          · obtain ⟨rfl, hctx⟩ := findCtx_place hinv.counted hfind
            obtain ⟨hp, -⟩ := List.getElem?_eq_some_iff.mp hctx
            have hstage := hinv.stage p (hp.le.trans hinv.counted.length_le)
            have himsi := congrArg (·.imsi) (hinv.counted.identity p ctx hctx)
            have htokens : tokens (number p) s =
                .up (.ulNasTransport (number p) enbId 0x53 res) ::
                  ((rest ++ s.enb.rxOut).flatMap (upToken (number p)) ++
                    s.downlink.flatMap (downToken (number p))) := by
              simp [tokens, hthread, huplink, threadToken, upToken]
            rw [htokens] at hstage
            obtain ⟨c, -, ⟨-, -, hsession, -⟩ | ⟨⟨teid, hresp⟩, -⟩ | ⟨hcomplete, -⟩⟩ := hstage.of_up
            · have hrequest : (ctx.imsi : UInt64) = imsi p := himsi
              simp only [List.filterMap_cons, List.filterMap_nil, airOf?, toHss?,
                PacketGateways.toSgw?, hrequest]
              exact .requested hp hsession
            · cases hresp
            · simp at hcomplete
          · exact hquiet
      · split
        · exact hquiet
        · exact hquiet
      · exact hquiet
  | icSetupResponse mmeId enbTeid => exact .modifying rfl
  | handoverNotify mmeId enbId newTeid => exact .modifying rfl
  | handoverRequestAck mmeId enbId newTeid =>
      simp only [MobilityManagement.handleS1ap, MobilityManagement.handleHandoverRequestAck,
        storeEnbTeid_thread]
      exact hquiet
  | tauRequest | handoverRequired | enbStatusTransfer | ueContextRelCmpl | unexpected => exact hquiet

theorem handleS1ap_pendingAuth (mme : MobilityManagement.State) (msg : S1apUplink) :
    (MobilityManagement.handleS1ap mme msg).1.pendingAuth = mme.pendingAuth := by
  have hstored (mmeId enbTeid : UInt32) :
      (MobilityManagement.storeEnbTeid mme mmeId enbTeid).pendingAuth = mme.pendingAuth := by
    unfold MobilityManagement.storeEnbTeid
    split <;> rfl
  cases msg with
  | ulNasTransport mmeId enbId nasType res =>
      simp only [MobilityManagement.handleS1ap, MobilityManagement.handleUlNasTransport]
      split
      · split
        · rfl
        · split <;> rfl
      · split <;> rfl
      · rfl
  | icSetupResponse mmeId enbTeid => exact hstored mmeId enbTeid
  | handoverRequestAck mmeId enbId newTeid => exact hstored mmeId newTeid
  | _ => rfl

theorem links_afterMme (hlinks : links s = {}) {mme : MobilityManagement.State}
    (hauth : mme.pendingAuth = s.core.mme.pendingAuth) (mes : List MobilityManagement.Event) :
    links (afterMme s mme mes) =
      { toHss := mes.filterMap airOf?, toSgw := mes.filterMap PacketGateways.toSgw? } := by
  simp only [links, Links.mk.injEq] at hlinks
  obtain ⟨hhss, hfrom, hstored, hsgw, hmme, hpgw, hanswers, hpcrf, hcca, hsgwThread, hpgwThread⟩ :=
    hlinks
  simp only [links, afterMme, hauth, hhss, hfrom, hstored, hsgw, hmme, hpgw, hanswers, hpcrf, hcca,
    hsgwThread, hpgwThread, List.nil_append]

theorem coreStep_mme (s : State) {i : MobilityManagement.Input} (hi : ∀ resp, i ≠ .s11 resp) :
    coreStep s (.mme i) = (MobilityManagement.step s.core.mme i).map fun r =>
      (afterMme s r.1 r.2, mmeEvents r.2) := by
  cases i with
  | s11 resp => exact absurd rfl (hi resp)
  | _ => exact mmeStep_eq s s.core _

section Initial

variable {rest : List S1apUplink} {mcc mnc tac : UInt16}

def afterInitial (s : State) (rest : List S1apUplink) (mcc mnc tac : UInt16) : State :=
  let r := MobilityManagement.handleInitialUeMsg s.core.mme s.core.mme.store.nextId
    (S1Link.baseImsi + s.core.mme.store.nextId.toUInt64) mcc mnc tac
  afterMme { s with uplink := rest } r.1 r.2

theorem contexts_afterInitial (s : State) (rest : List S1apUplink) (mcc mnc tac : UInt16) :
    ∃ ctx, contexts (afterInitial s rest mcc mnc tac) = contexts s ++ [ctx] ∧
      identity ctx = ueIdentity s.core.mme.store.nextId ∧ ctx.bearers = [] :=
  ⟨_, rfl, rfl, rfl⟩

theorem afterInitial_counted (hc : Counted tr s)
    (huplink : s.uplink = .initialUeMsg s.core.mme.store.nextId
      (S1Link.baseImsi + s.core.mme.store.nextId.toUInt64) mcc mnc tac :: rest)
    (hnumbered : Numbered (s.core.mme.store.nextId + 1) rest s.enb.nextEnbUeId)
    (hes : attaches es = 0) : Counted (tr ++ es) (afterInitial s rest mcc mnc tac) := by
  have hsame : attaches (tr ++ es) = attaches tr := by
    rw [attaches_append, hes, Nat.add_zero]
  obtain ⟨ctx, hcontexts, hidentity, -⟩ := contexts_afterInitial s rest mcc mnc tac
  have hlength : (contexts (afterInitial s rest mcc mnc tac)).length = (contexts s).length + 1 := by
    rw [hcontexts, List.length_append, List.length_singleton]
  refine ⟨hsame ▸ hc.few, ?_, ?_, ?_, hnumbered, hc.answers, ?_, ?_⟩
  · rw [hsame]
    exact hc.enbNext
  · rw [hlength, number_succ, ← hc.mmeNext]
    rfl
  · have hcount : s.uplink.countP isInitial = rest.countP isInitial + 1 := by
      rw [huplink, List.countP_cons_of_pos rfl]
    have hbefore := hc.count
    show (contexts (afterInitial s rest mcc mnc tac)).length + rest.countP isInitial = _
    omega
  · intro id p
    have hfindNext : s.core.mme.store.nextId = number (contexts s).length := hc.mmeNext
    show (s.core.mme.store.insert (contexts s).length).1.find id = some p ↔ _
    rw [hlength]
    rcases eq_or_ne id s.core.mme.store.nextId with rfl | hne
    · rw [ShardedStore.find_insert_same]
      constructor
      · intro h
        obtain rfl := Option.some.inj h
        exact ⟨Nat.lt_succ_self _, hfindNext⟩
      · rintro ⟨hp, heq⟩
        have hle := Nat.le_of_lt_succ hp
        rw [number_injective (hle.trans hc.length_le) hc.length_le (heq.symm.trans hfindNext)]
    · rw [ShardedStore.find_insert_ne _ _ hne, hc.find]
      constructor
      · rintro ⟨hp, rfl⟩
        exact ⟨hp.trans (Nat.lt_succ_self _), rfl⟩
      · rintro ⟨hp, rfl⟩
        refine ⟨?_, rfl⟩
        rcases Nat.lt_succ_iff_lt_or_eq.mp hp with hp | rfl
        · exact hp
        · exact absurd hfindNext.symm hne
  · intro k c hk
    rw [hcontexts] at hk
    rcases Nat.lt_trichotomy k (contexts s).length with hlt | rfl | hgt
    · rw [List.getElem?_append_left hlt] at hk
      exact hc.identity k c hk
    · rw [List.getElem?_concat_length] at hk
      obtain rfl := Option.some.inj hk
      rw [hidentity, hc.mmeNext]
    · have hnone : (contexts s ++ [ctx])[k]? = none := by
        rw [List.getElem?_eq_none_iff, List.length_append, List.length_singleton]
        exact hgt
      rw [hnone] at hk
      cases hk

theorem afterInitial_stage (hinv : Inv tr s) (hthread : s.core.mme.thread = .receiving)
    (huplink : s.uplink = .initialUeMsg s.core.mme.store.nextId
      (S1Link.baseImsi + s.core.mme.store.nextId.toUInt64) mcc mnc tac :: rest)
    {k : Nat} (hk : k ≤ maxAttaches) :
    Stage tr k (contexts (afterInitial s rest mcc mnc tac))[k]?
      (tokens (number k) (afterInitial s rest mcc mnc tac)) := by
  obtain ⟨ctx, hcontexts, -, hbearers⟩ := contexts_afterInitial s rest mcc mnc tac
  have hbefore : tokens (number k) s = (rest ++ s.enb.rxOut).flatMap (upToken (number k)) ++
      s.downlink.flatMap (downToken (number k)) := by
    rw [tokens, hthread, huplink]
    rfl
  have hafter : tokens (number k) (afterInitial s rest mcc mnc tac) =
      (if number (contexts s).length = number k then [.vectors] else []) ++
        tokens (number k) s := by
    rw [hbefore, afterInitial, tokens_afterMme, ← hinv.counted.mmeNext]
    simp [MobilityManagement.handleInitialUeMsg, threadToken, S1Link.toEnb?]
  have hstage := hinv.stage k hk
  rw [hcontexts, hafter]
  rcases Nat.lt_trichotomy k (contexts s).length with hlt | rfl | hgt
  · have hne : number (contexts s).length ≠ number k := fun heq =>
      hlt.ne' (number_injective hinv.counted.length_le hk heq)
    rw [if_neg hne, List.nil_append, List.getElem?_append_left hlt]
    exact hstage
  · rw [List.getElem?_eq_none (Nat.le_refl _)] at hstage
    rw [if_pos rfl, List.getElem?_concat_length]
    generalize tokens (number (contexts s).length) s = toks at hstage
    cases hstage with
    | unknown hsession => exact .awaiting hsession hbearers
  · have hne : number (contexts s).length ≠ number k := fun heq =>
      hgt.ne (number_injective hinv.counted.length_le hk heq)
    have hnone : (contexts s ++ [ctx])[k]? = none := by
      rw [List.getElem?_eq_none_iff, List.length_append, List.length_singleton]
      exact hgt
    rw [List.getElem?_eq_none hgt.le] at hstage
    rw [if_neg hne, List.nil_append, hnone]
    exact hstage

theorem afterInitial_inv (hinv : Inv tr s) (hthread : s.core.mme.thread = .receiving)
    (huplink : s.uplink = .initialUeMsg s.core.mme.store.nextId
      (S1Link.baseImsi + s.core.mme.store.nextId.toUInt64) mcc mnc tac :: rest)
    (hnumbered : Numbered (s.core.mme.store.nextId + 1) rest s.enb.nextEnbUeId)
    (mes : List MobilityManagement.Event) :
    Inv (tr ++ mmeEvents mes) (afterInitial s rest mcc mnc tac) := by
  have hcalm := calm_mme mes
  obtain ⟨ctx, hcontexts, -⟩ := contexts_afterInitial s rest mcc mnc tac
  have hlength : (contexts (afterInitial s rest mcc mnc tac)).length = (contexts s).length + 1 := by
    rw [hcontexts, List.length_append, List.length_singleton]
  refine ⟨afterInitial_counted hinv.counted huplink hnumbered (attaches_mme mes), ?_, ?_, ?_, ?_⟩
  · exact hinv.ledgers.calm hcalm (hlength ▸ Nat.le_succ _) rfl rfl rfl
  · have hlinks : links { s with uplink := rest } = {} :=
      (hthread ▸ hinv.exchange).of_receiving
    rw [hlength, afterInitial, links_afterMme hlinks (by rfl)]
    have hsent : Exchange (tr ++ mmeEvents mes) ((contexts s).length + 1)
        (.awaitAia (number (contexts s).length) (number (contexts s).length)
          (imsi (contexts s).length))
        { toHss := [imsi (contexts s).length] } := .airSent (Nat.lt_succ_self _)
    simp only [imsi, ← hinv.counted.mmeNext] at hsent
    exact hsent
  · intro k hk
    exact (afterInitial_stage hinv hthread huplink hk).calm hcalm
  · intro out hmem r hr
    refine (hinv.tunnels out ?_ r hr).append _
    rw [huplink]
    exact List.mem_cons_of_mem _ hmem

end Initial

theorem step_s1ap {mme mme' : MobilityManagement.State} {msg : S1apUplink}
    {mes : List MobilityManagement.Event}
    (hstep : MobilityManagement.step mme (.s1ap msg) = some (mme', mes)) :
    mme.thread = .receiving ∧ mme' = (MobilityManagement.handleS1ap mme msg).1 ∧
      mes = (MobilityManagement.handleS1ap mme msg).2 := by
  simp only [MobilityManagement.step] at hstep
  split at hstep
  · rename_i hthread
    obtain ⟨hstate, hevents⟩ := Prod.ext_iff.mp (Option.some.inj hstep)
    exact ⟨hthread, hstate.symm, hevents.symm⟩
  · cases hstep

theorem handleS1ap_downTokens (id : UInt32) (mme : MobilityManagement.State) (msg : S1apUplink) :
    ((MobilityManagement.handleS1ap mme msg).2.filterMap S1Link.toEnb?).flatMap (downToken id) =
      [] := by
  cases msg with
  | ulNasTransport mmeId enbId nasType res =>
      simp only [MobilityManagement.handleS1ap, MobilityManagement.handleUlNasTransport]
      split
      · split
        · rfl
        · split
          · simp [S1Link.toEnb?, downToken]
          · rfl
      · split <;> rfl
      · rfl
  | _ => rfl

theorem mmeReceive_inv (hinv : Inv tr s) {msg : S1apUplink} {rest : List S1apUplink}
    (huplink : s.uplink = msg :: rest)
    (hstep : coreStep { s with uplink := rest } (.mme (.s1ap msg)) = some (s', es)) :
    Inv (tr ++ es) s' := by
  rw [coreStep_mme _ fun resp hi => by cases hi] at hstep
  obtain ⟨⟨mme, mes⟩, hmme, heq⟩ := Option.map_eq_some_iff.mp hstep
  obtain ⟨rfl, rfl⟩ := Prod.mk.inj heq
  obtain ⟨hthread, rfl, rfl⟩ := step_s1ap hmme
  have hnumbered := hinv.counted.numbered
  rw [huplink] at hnumbered
  cases hnumbered with
  | attach mcc mnc tac hrest => exact afterInitial_inv hinv hthread huplink hrest _
  | other hmsg hrest =>
      have hinitial := isInitial_eq_false.mpr hmsg
      have hlinks : links { s with uplink := rest } = {} :=
        (hthread ▸ hinv.exchange).of_receiving
      have hkeeps : KeepsContexts s.core.mme (MobilityManagement.handleS1ap s.core.mme msg).1 := by
        refine ContextCorrespondence.step_keeps hmme ?_
        intro enbId imsi mcc mnc tac hi
        exact hmsg enbId imsi mcc mnc tac (MobilityManagement.Input.s1ap.inj hi)
      refine inv_afterMme hinv { s with uplink := rest } rfl rfl rfl hkeeps ?_ hrest ?_ ?_ ?_
      · rw [huplink, List.countP_cons_of_neg (by simp [hinitial])]
      · rw [huplink]
        exact List.subset_cons_self msg rest
      · rw [links_afterMme hlinks (handleS1ap_pendingAuth _ _)]
        exact exchange_handleS1ap hinv hthread huplink hinitial
      · intro k hk
        have hreport : ∀ r ∈ reported msg, Allocated tr r.1 r.2 := by
          refine hinv.tunnels msg ?_
          rw [huplink]
          exact List.mem_cons_self
        have htokens : tokens (number k) s = upToken (number k) msg ++
            ((rest ++ s.enb.rxOut).flatMap (upToken (number k)) ++
              s.downlink.flatMap (downToken (number k))) := by
          rw [tokens, hthread, huplink]
          simp [threadToken]
        have hstage := hinv.stage k hk
        rw [htokens] at hstage
        have hnext := stage_handleS1ap hinv.counted hthread hk hinitial hreport hstage
        rw [tokens_afterMme, handleS1ap_downTokens, List.append_nil]
        exact hnext

end Messages

section Behind

structure Behind (s s' : State) : Prop where
  enb : s'.enb = s.enb
  uplink : s'.uplink = s.uplink
  downlink : s'.downlink = s.downlink
  store : s'.core.mme.store = s.core.mme.store
  heap : s'.core.mme.heap = s.core.mme.heap
  thread : s'.core.mme.thread = s.core.mme.thread

theorem Behind.tokens (h : Behind s s') (id : UInt32) : tokens id s' = tokens id s := by
  simp only [AttachStages.tokens, h.enb, h.uplink, h.downlink, h.thread]

theorem Behind.keeps (h : Behind s s') : KeepsContexts s.core.mme s'.core.mme := by
  refine ⟨h.store, ?_⟩
  rw [identities, h.heap]
  rfl

theorem inv_behind (hinv : Inv tr s) (h : Behind s s') (hattaches : attaches es = 0)
    (hledgers : Ledgers (tr ++ es) s')
    (hexchange : Exchange (tr ++ es) (contexts s).length s.core.mme.thread (links s'))
    (hstage : ∀ k ≤ maxAttaches, Stage (tr ++ es) k (contexts s)[k]? (tokens (number k) s)) :
    Inv (tr ++ es) s' := by
  have hcontexts : contexts s' = contexts s := h.heap
  refine ⟨?_, hledgers, ?_, ?_, ?_⟩
  · refine hinv.counted.move hattaches (congrArg _ h.enb) h.keeps (congrArg _ h.uplink) ?_ ?_
    · rw [h.uplink]
      exact hinv.counted.numbered
    · rw [h.enb]
      exact hinv.counted.answers
  · rw [hcontexts, h.thread]
    exact hexchange
  · intro k hk
    rw [hcontexts, h.tokens]
    exact hstage k hk
  · rw [h.uplink, h.enb]
    intro out hmem r hr
    exact (hinv.tunnels out hmem r hr).append es

theorem inv_behind_calm (hinv : Inv tr s) (h : Behind s s') (hattaches : attaches es = 0)
    (hcalm : Calm es) (hsgw : s'.core.sgw.nextTeid = s.core.sgw.nextTeid)
    (hpgw : s'.core.pgw.nextTeid = s.core.pgw.nextTeid)
    (hip : s'.core.pgw.nextIp = s.core.pgw.nextIp)
    (hexchange : Exchange tr (contexts s).length s.core.mme.thread (links s')) :
    Inv (tr ++ es) s' := by
  have hlength : (contexts s).length ≤ (contexts s').length :=
    (congrArg List.length h.heap).ge
  refine inv_behind hinv h hattaches (hinv.ledgers.calm hcalm hlength hsgw hpgw hip)
    (hexchange.calm hcalm) ?_
  intro k hk
  exact (hinv.stage k hk).calm hcalm

theorem hss_inv (hinv : Inv tr s) {who : UInt64} {rest : List UInt64}
    (hreq : s.toHss = who :: rest) :
    Inv (tr ++ []) { s with toHss := rest, fromHss := s.fromHss ++ [handleAir who] } :=
  inv_behind_calm hinv ⟨rfl, rfl, rfl, rfl, rfl, rfl⟩ rfl calm_nil rfl rfl rfl
    (hinv.exchange.hss hreq)

theorem hssReceive_inv (hinv : Inv tr s) {who : UInt64} {av : AuthVectors}
    {rest : List (UInt64 × AuthVectors)} (hans : s.fromHss = (who, av) :: rest)
    (hstep : coreStep { s with fromHss := rest } (.mme (.aia who av)) = some (s', es)) :
    Inv (tr ++ es) s' := by
  rw [coreStep_mme _ fun resp hi => by cases hi] at hstep
  obtain ⟨rfl, rfl⟩ := Prod.mk.inj (Option.some.inj hstep)
  refine inv_behind_calm hinv ⟨rfl, rfl, List.append_nil _, rfl, rfl, rfl⟩ rfl (calm_mme _) rfl rfl
    rfl ?_
  have hstored : (fun w => (s.core.mme.pendingAuth.insert who av).lookup w) =
      fun w => if w = who then some av else s.core.mme.pendingAuth.lookup w := by
    funext w
    rcases eq_or_ne w who with rfl | hne
    · rw [if_pos rfl, AList.lookup_insert]
    · rw [if_neg hne, AList.lookup_insert_ne hne]
  have hnext := hinv.exchange.store hans
  simp only [links, ← hstored] at hnext
  simpa only [links, afterMme, airOf?, toHss?, PacketGateways.toSgw?, List.filterMap_cons,
    List.filterMap_nil, List.append_nil] using hnext

end Behind

section Vectors

/-- The HSS's vectors are the ones that the UE computes its response from. -/
theorem generateAuthVectors_xres (who : UInt64) :
    ((generateAuthVectors who).rand.toList.take 8).map (· ^^^ 0x55) =
      (generateAuthVectors who).xres.toList := by
  apply List.ext_getElem
  · simp
  · intro i hi hi'
    simp [generateAuthVectors]

theorem authVectorsReady_found {mme : MobilityManagement.State} {mmeId : UInt32} {p : Nat}
    (hfind : mme.store.find mmeId = some p) (enbId : UInt32) (who : UInt64) (av : AuthVectors) :
    MobilityManagement.authVectorsReady mme mmeId enbId who av false =
      (update { mme with pendingAuth := mme.pendingAuth.erase who, thread := .receiving } p
          fun ctx => { ctx with auth := av, emmState := .authPending },
        [.vectorsStored p av,
          .toEnb (.dlNasTransport mmeId enbId 0x52 av.rand.toList av.autn.toList)]) := by
  simp [MobilityManagement.authVectorsReady, hfind]

variable {j k : Nat}

theorem challenge_stage (hinv : Inv tr s) {who : UInt64}
    (hthread : s.core.mme.thread = .awaitAia (number j) (number j) who)
    (hj : j ≤ maxAttaches) (hk : k ≤ maxAttaches) {mme : MobilityManagement.State}
    {mes : List MobilityManagement.Event}
    (hready : MobilityManagement.authVectorsReady s.core.mme (number j) (number j) who
      (generateAuthVectors (imsi j)) false = (mme, mes))
    (hfind : s.core.mme.store.find (number j) = some j) :
    Stage tr k mme.heap[k]? (tokens (number k) (afterMme s mme mes)) := by
  rw [authVectorsReady_found hfind] at hready
  obtain ⟨rfl, rfl⟩ := Prod.mk.inj hready
  have hstage := hinv.stage k hk
  rw [tokens_afterMme]
  rcases eq_or_ne j k with rfl | hne
  · rw [tokens, hthread] at hstage
    simp only [threadToken, if_true, List.singleton_append] at hstage
    obtain ⟨c, hctx, hpending, hsession, hbearers⟩ := hstage.of_vectors
    obtain ⟨hup, hdown⟩ := List.append_eq_nil_iff.mp hpending
    have hheap : (s.core.mme.heap.modify j fun ctx =>
        { ctx with auth := generateAuthVectors (imsi j), emmState := .authPending })[j]? =
        some { c with auth := generateAuthVectors (imsi j), emmState := .authPending } := by
      rw [List.getElem?_modify_eq, show s.core.mme.heap[j]? = some c from hctx]
      rfl
    simp only [update, hheap, hup, hdown, threadToken, S1Link.toEnb?, List.filterMap_cons,
      List.filterMap_nil, List.flatMap_cons, List.flatMap_nil, downToken, true_and, if_true,
      List.nil_append, List.append_nil]
    refine .challenged hsession hbearers ?_ (generateAuthVectors_xres (imsi j))
    rw [Vector.length_toList]
    decide
  · have hid : number j ≠ number k := fun heq => hne (number_injective hj hk heq)
    rw [tokens, hthread] at hstage
    simp only [threadToken, if_neg hid, List.nil_append] at hstage
    simp only [update, List.getElem?_modify_ne _ _ hne, threadToken, S1Link.toEnb?,
      List.filterMap_cons, List.filterMap_nil, List.flatMap_cons, List.flatMap_nil, downToken, hid,
      false_and, if_false, List.nil_append, List.append_nil]
    exact hstage

theorem aiaWakeup_inv (hinv : Inv tr s)
    (hstep : coreStep s (.mme (.aiaWakeup false)) = some (s', es)) : Inv (tr ++ es) s' := by
  rw [coreStep_mme _ fun resp hi => by cases hi] at hstep
  obtain ⟨⟨mme, mes⟩, hmme, heq⟩ := Option.map_eq_some_iff.mp hstep
  obtain ⟨rfl, rfl⟩ := Prod.mk.inj heq
  simp only [MobilityManagement.step] at hmme
  split at hmme
  · rename_i mmeId enbId who hthread
    obtain ⟨av, hav, hready⟩ := Option.map_eq_some_iff.mp hmme
    have hwaiting := hinv.exchange
    rw [hthread] at hwaiting
    obtain ⟨⟨j, hj, rfl, rfl, rfl⟩, hnext⟩ := hwaiting.vectors hav
    have hfind := (hinv.counted.find (number j) j).mpr ⟨hj, rfl⟩
    have hkeeps := ContextCorrespondence.authVectorsReady_keeps s.core.mme (number j) (number j) who
      (generateAuthVectors (imsi j)) false
    rw [hready] at hkeeps
    refine inv_afterMme hinv s rfl rfl rfl hkeeps rfl hinv.counted.numbered
      (List.Subset.refl _) ?_ ?_
    · rw [authVectorsReady_found hfind] at hready
      obtain ⟨rfl, rfl⟩ := Prod.mk.inj hready
      have hstored : (fun w => (s.core.mme.pendingAuth.erase who).lookup w) =
          fun w => if w = who then none else s.core.mme.pendingAuth.lookup w := by
        funext w
        rcases eq_or_ne w who with rfl | hne
        · rw [if_pos rfl, AList.lookup_erase]
        · rw [if_neg hne, AList.lookup_erase_ne hne]
      simp only [links, ← hstored] at hnext
      simpa only [links, afterMme, update, airOf?, toHss?, PacketGateways.toSgw?,
        List.filterMap_cons, List.filterMap_nil, List.append_nil] using hnext
    · intro k hk
      exact challenge_stage hinv hthread (hj.le.trans hinv.counted.length_le) hk hready hfind
  · cases hmme

end Vectors

section Answers

variable {j k : Nat} {resp : S11Response} {ip : Ipv4} {ctx : UeContext}

theorem createSessionAnswered_found {mme : MobilityManagement.State} {mmeId : UInt32} {p : Nat}
    (hcause : resp.cause = 16) (hip : resp.ueIp = bytes ip) (hfind : mme.store.find mmeId = some p)
    (hctx : mme.heap[p]? = some ctx) (hbearers : ctx.bearers = []) :
    MobilityManagement.createSessionAnswered mme mmeId p resp =
      (update { mme with thread := .receiving } p fun ctx =>
          { ctx with bearers := ctx.bearers ++ [MobilityManagement.sessionBearer resp ip] },
        [.bearerStored p (MobilityManagement.sessionBearer resp ip) resp,
          .toEnb (.icSetupRequest mmeId ctx.enbUeS1apId resp.bearerTeid 5 ip)]) := by
  have hdefault : ({ ctx with bearers := [MobilityManagement.sessionBearer resp ip] } :
      UeContext).defaultBearer = some (MobilityManagement.sessionBearer resp ip) := rfl
  simp [MobilityManagement.createSessionAnswered, hcause, hip, bytes, hfind, update,
    MobilityManagement.sendIcSetupRequest, hctx, hbearers, hdefault]
  exact ⟨rfl, rfl, rfl⟩

theorem creating_context (hinv : Inv tr s)
    (hthread : s.core.mme.thread = .awaitCreateSession (number j) j)
    (hj : j < (contexts s).length) :
    ∃ ctx, (contexts s)[j]? = some ctx ∧ ctx.bearers = [] ∧ ctx.enbUeS1apId = number j ∧
      (s.uplink ++ s.enb.rxOut).flatMap (upToken (number j)) = [] ∧
      s.downlink.flatMap (downToken (number j)) = [] := by
  have hwaiting := hinv.stage j (hj.le.trans hinv.counted.length_le)
  rw [tokens, hthread] at hwaiting
  simp only [threadToken, if_true, List.singleton_append] at hwaiting
  obtain ⟨ctx, hctx, hpending, hbearers⟩ := hwaiting.of_session
  obtain ⟨hup, hdown⟩ := List.append_eq_nil_iff.mp hpending
  have henb := congrArg (·.enbId) (hinv.counted.identity j ctx hctx)
  exact ⟨ctx, hctx, hbearers, henb, hup, hdown⟩

theorem session_stage (hinv : Inv tr s) (toMme : List S11Response)
    (hthread : s.core.mme.thread = .awaitCreateSession (number j) j) (hj : j < (contexts s).length)
    (hsgw : madeFor (imsi j) (sgwSessions tr) = [(resp.senderTeid, resp.bearerTeid)])
    (hpgw : ∃ teid, madeFor (imsi j) (pgwSessions tr) = [(teid, bytes ip)])
    (hcause : resp.cause = 16) (hip : resp.ueIp = bytes ip) (hk : k ≤ maxAttaches)
    {mme : MobilityManagement.State} {mes : List MobilityManagement.Event}
    (hanswered : MobilityManagement.createSessionAnswered s.core.mme (number j) j resp =
      (mme, mes)) :
    Stage tr k mme.heap[k]?
      (tokens (number k) (afterMme { s with core := { s.core with toMme := toMme } } mme mes)) := by
  have hjmax := hj.le.trans hinv.counted.length_le
  have hfind := (hinv.counted.find (number j) j).mpr ⟨hj, rfl⟩
  obtain ⟨c, hctx, hbearers, henb, hup, hdown⟩ := creating_context hinv hthread hj
  rw [createSessionAnswered_found hcause hip hfind hctx hbearers] at hanswered
  obtain ⟨rfl, rfl⟩ := Prod.mk.inj hanswered
  rw [tokens_afterMme]
  rcases eq_or_ne j k with rfl | hne
  · have hheap : (s.core.mme.heap.modify j fun ctx =>
        { ctx with bearers := ctx.bearers ++ [MobilityManagement.sessionBearer resp ip] })[j]? =
        some { c with bearers := [MobilityManagement.sessionBearer resp ip] } := by
      rw [List.getElem?_modify_eq, show s.core.mme.heap[j]? = some c from hctx]
      show some { c with bearers := c.bearers ++ [MobilityManagement.sessionBearer resp ip] } = _
      rw [hbearers, List.nil_append]
    simp only [update, hheap, hup, hdown, threadToken, S1Link.toEnb?, List.filterMap_cons,
      List.filterMap_nil, List.flatMap_cons, List.flatMap_nil, downToken, henb, if_true,
      List.nil_append, List.append_nil]
    exact .accepted ⟨_, rfl, rfl, hsgw, hpgw⟩
  · have hid : number j ≠ number k := fun heq => hne (number_injective hjmax hk heq)
    have hstage := hinv.stage k hk
    rw [tokens, hthread] at hstage
    simp only [threadToken, if_neg hid, List.nil_append] at hstage
    simp only [update, List.getElem?_modify_ne _ _ hne, threadToken, S1Link.toEnb?,
      List.filterMap_cons, List.filterMap_nil, List.flatMap_cons, List.flatMap_nil, downToken,
      if_neg hid, List.nil_append, List.append_nil]
    exact hstage

theorem mmeAnswer_eq_some {n : Nat} (hstep : coreStep s (.mmeAnswer n) = some (s', es)) :
    ∃ resp mme mes, s.core.toMme[n]? = some resp ∧
      MobilityManagement.s11Wakeup s.core.mme (some resp) = some (mme, mes) ∧ es = mmeEvents mes ∧
      s' = afterMme { s with core := { s.core with toMme := s.core.toMme.eraseIdx n } } mme mes := by
  simp only [coreStep_eq, PacketGateways.step] at hstep
  split at hstep
  · rename_i resp hresp
    rw [mmeStep_eq] at hstep
    obtain ⟨⟨mme, mes⟩, hmme, heq⟩ := Option.map_eq_some_iff.mp hstep
    obtain ⟨hstate, hevents⟩ := Prod.mk.inj heq
    exact ⟨resp, mme, mes, hresp, hmme, hevents.symm, hstate.symm⟩
  · cases hstep

theorem modify_stage (hinv : Inv tr s) (toMme : List S11Response)
    (hmodifies : modifies s.core.mme.thread = true) (hk : k ≤ maxAttaches)
    {mme : MobilityManagement.State} {mes : List MobilityManagement.Event}
    (hheap : mme.heap = s.core.mme.heap) (hthread : mme.thread = .receiving)
    (hmes : (mes.filterMap S1Link.toEnb?).flatMap (downToken (number k)) = []) :
    Stage tr k mme.heap[k]?
      (tokens (number k) (afterMme { s with core := { s.core with toMme := toMme } } mme mes)) := by
  have hstage := hinv.stage k hk
  have hnone : threadToken (number k) s.core.mme.thread = [] := by
    cases hwait : s.core.mme.thread with
    | awaitModifyBearer | awaitPathSwitch => rfl
    | _ =>
        rw [hwait] at hmodifies
        cases hmodifies
  rw [tokens, hnone] at hstage
  rw [tokens_afterMme, hmes, hheap, hthread, List.append_nil]
  exact hstage

theorem links_answered (n : Nat) {mme : MobilityManagement.State}
    (hauth : mme.pendingAuth = s.core.mme.pendingAuth) {mes : List MobilityManagement.Event}
    (hair : mes.filterMap airOf? = []) (hsgw : mes.filterMap PacketGateways.toSgw? = []) :
    links (afterMme { s with core := { s.core with toMme := s.core.toMme.eraseIdx n } } mme mes) =
      { links s with toMme := (links s).toMme.eraseIdx n } := by
  simp only [links, afterMme, hauth, hair, hsgw, List.append_nil]

theorem s11Wakeup_eq_some {mme mme' : MobilityManagement.State}
    {mes : List MobilityManagement.Event}
    (hwake : MobilityManagement.s11Wakeup mme (some resp) = some (mme', mes)) :
    (∃ mmeId p, mme.thread = .awaitCreateSession mmeId p ∧
        MobilityManagement.createSessionAnswered mme mmeId p resp = (mme', mes)) ∨
      (modifies mme.thread = true ∧ mme' = { mme with thread := .receiving } ∧
        mes.filterMap airOf? = [] ∧ mes.filterMap PacketGateways.toSgw? = [] ∧
        ∀ id, (mes.filterMap S1Link.toEnb?).flatMap (downToken id) = []) := by
  cases hthread : mme.thread with
  | awaitCreateSession mmeId p =>
      simp only [MobilityManagement.s11Wakeup, hthread] at hwake
      exact .inl ⟨mmeId, p, rfl, Option.some.inj hwake⟩
  | awaitModifyBearer | awaitPathSwitch =>
      simp only [MobilityManagement.s11Wakeup, hthread] at hwake
      obtain ⟨rfl, rfl⟩ := Prod.mk.inj (Option.some.inj hwake)
      exact .inr ⟨rfl, rfl, rfl, rfl, fun id => rfl⟩
  | _ =>
      simp only [MobilityManagement.s11Wakeup, hthread] at hwake
      cases hwake

theorem mmeAnswer_inv (hinv : Inv tr s) {n : Nat}
    (hstep : coreStep s (.mmeAnswer n) = some (s', es)) : Inv (tr ++ es) s' := by
  obtain ⟨resp, mme, mes, hresp, hmme, rfl, rfl⟩ := mmeAnswer_eq_some hstep
  have hkeeps := ContextCorrespondence.s11Wakeup_keeps hmme
  refine inv_afterMme hinv _ rfl rfl rfl hkeeps rfl hinv.counted.numbered (List.Subset.refl _) ?_ ?_
  all_goals obtain ⟨mmeId, p, hthread, hanswered⟩ | ⟨hmodifies, rfl, hair, hsgw, hdown⟩ :=
    s11Wakeup_eq_some hmme
  · have hwaiting := hinv.exchange
    rw [hthread] at hwaiting
    obtain ⟨⟨hp, rfl, -, teid, ip, -, hcause, hip⟩, hnext⟩ := hwaiting.finishCreate hresp
    obtain ⟨ctx, hctx, hbearers, -⟩ := creating_context hinv hthread hp
    have hfind := (hinv.counted.find (number p) p).mpr ⟨hp, rfl⟩
    rw [createSessionAnswered_found hcause hip hfind hctx hbearers] at hanswered
    obtain ⟨rfl, rfl⟩ := Prod.mk.inj hanswered
    rw [links_answered n]
    · exact hnext
    all_goals rfl
  · rw [links_answered n]
    · exact hinv.exchange.finishModify hmodifies hresp
    · rfl
    · exact hair
    · exact hsgw
  · have hwaiting := hinv.exchange
    rw [hthread] at hwaiting
    obtain ⟨⟨hp, rfl, hsgw, teid, ip, hpgw, hcause, hip⟩, -⟩ := hwaiting.finishCreate hresp
    intro k hk
    exact session_stage hinv _ hthread hp hsgw ⟨teid, hpgw⟩ hcause hip hk hanswered
  · intro k hk
    exact modify_stage hinv _ hmodifies hk rfl rfl (hdown (number k))

end Answers

section Gateways

variable {n j k : Nat}

theorem writeLinks_quiet {core : PacketGateways.State} {ces : List PacketGateways.Event}
    (henb : ces.filterMap toEnb? = []) (hhss : ces.filterMap toHss? = []) :
    writeLinks s (core, ces) = ({ s with core := core }, ces.map .core) := by
  simp only [writeLinks, henb, hhss, List.append_nil]

theorem creating_stage (hinv : Inv tr s)
    (hthread : s.core.mme.thread = .awaitCreateSession (number j) j)
    (hj : j < (contexts s).length)
    (hsgw : ∀ who, who ≠ imsi j → madeFor who (sgwSessions es) = [])
    (hpgw : ∀ who, who ≠ imsi j → madeFor who (pgwSessions es) = []) (hk : k ≤ maxAttaches) :
    Stage (tr ++ es) k (contexts s)[k]? (tokens (number k) s) := by
  have hjmax := hj.le.trans hinv.counted.length_le
  rcases eq_or_ne k j with rfl | hne
  · obtain ⟨ctx, hctx, hbearers, -, hup, hdown⟩ := creating_context hinv hthread hj
    have htokens : tokens (number k) s = [.session] := by
      simp only [tokens, hthread, hup, hdown, threadToken, if_true, List.append_nil]
    rw [hctx, htokens]
    exact .creating hbearers
  · have hwho : imsi k ≠ imsi j := fun heq => hne (imsi_injective hk hjmax heq)
    exact (hinv.stage k hk).append (hsgw _ hwho) (hpgw _ hwho)

theorem sgwReceive_inv (hinv : Inv tr s)
    (hstep : coreStep s (.sgwReceive n) = some (s', es)) : Inv (tr ++ es) s' := by
  simp only [coreStep_eq, PacketGateways.step] at hstep
  split at hstep
  · rename_i req hidle hreq
    obtain ⟨r, hr, hafter⟩ := Option.map_eq_some_iff.mp hstep
    obtain rfl := Option.some.inj hr
    cases req with
    | modifyBearer enbTeid who =>
        simp only [PacketGateways.sgwHandle, PacketGateways.handleModifyBearerReq] at hafter
        rw [writeLinks_quiet rfl rfl] at hafter
        obtain ⟨rfl, rfl⟩ := Prod.mk.inj hafter
        exact inv_behind_calm hinv ⟨rfl, rfl, rfl, rfl, rfl, rfl⟩ rfl calm_nil rfl rfl rfl
          (hinv.exchange.modify hreq { cause := 16 })
    | createSession req =>
        simp only [PacketGateways.sgwHandle, PacketGateways.handleCreateSessionReq] at hafter
        rw [writeLinks_quiet rfl rfl] at hafter
        obtain ⟨rfl, rfl⟩ := Prod.mk.inj hafter
        obtain ⟨k, hk, hthread, himsi, hsession, hnext⟩ := hinv.exchange.create hreq
        refine inv_behind hinv ⟨rfl, rfl, rfl, rfl, rfl, rfl⟩ rfl ?_ (hnext _ _) ?_
        · simp only [himsi]
          exact hinv.ledgers.sgwSession hk hsession.1 rfl rfl rfl rfl
        · intro k' hk'
          refine creating_stage hinv hthread hk ?_ ?_ hk'
          · intro who hwho
            exact madeFor_other (by rw [himsi]; exact hwho.symm) _
          · intro who hwho
            rfl
  · cases hstep

theorem sgwAnswer_inv (hinv : Inv tr s)
    (hstep : coreStep s (.sgwAnswer n) = some (s', es)) : Inv (tr ++ es) s' := by
  simp only [coreStep_eq, PacketGateways.step] at hstep
  split at hstep
  · rename_i req s11Teid s1uTeid resp hwait hans
    obtain ⟨hcause, hlength, hnext⟩ := hinv.exchange.answer hwait hans
    have hkeep : ¬(resp.cause ≠ 16 ∨ resp.ueIp.length < 4) := by
      rw [hcause, hlength]
      decide
    rw [Option.map_some, PacketGateways.pgwAnswered, if_neg hkeep, writeLinks_quiet rfl rfl,
      List.take_of_length_le hlength.le] at hstep
    obtain ⟨rfl, rfl⟩ := Prod.mk.inj (Option.some.inj hstep)
    exact inv_behind_calm hinv ⟨rfl, rfl, rfl, rfl, rfl, rfl⟩ rfl calm_nil rfl rfl rfl (hnext _)
  · cases hstep

theorem pgwReceive_inv (hinv : Inv tr s)
    (hstep : coreStep s (.pgwReceive n) = some (s', es)) : Inv (tr ++ es) s' := by
  simp only [coreStep_eq, PacketGateways.step] at hstep
  split at hstep
  · rename_i req hidle hreq
    rw [Option.map_some, writeLinks_quiet rfl rfl] at hstep
    obtain ⟨rfl, rfl⟩ := Prod.mk.inj (Option.some.inj hstep)
    exact inv_behind_calm hinv ⟨rfl, rfl, rfl, rfl, rfl, rfl⟩ rfl calm_nil rfl rfl rfl
      (hinv.exchange.askPcrf hreq _)
  · cases hstep

theorem pcrf_inv (hinv : Inv tr s) (hstep : coreStep s .pcrf = some (s', es)) :
    Inv (tr ++ es) s' := by
  simp only [coreStep_eq, PacketGateways.step] at hstep
  split at hstep
  · rename_i ccr rest hreq
    rw [Option.map_some, writeLinks_quiet rfl rfl] at hstep
    obtain ⟨rfl, rfl⟩ := Prod.mk.inj (Option.some.inj hstep)
    exact inv_behind_calm hinv ⟨rfl, rfl, rfl, rfl, rfl, rfl⟩ rfl calm_nil rfl rfl rfl
      (hinv.exchange.decide hreq rfl)
  · cases hstep

/-- The address that the bytes of `allocateIP` are. -/
def ipv4 (raw : UInt32) : Ipv4 where
  a := (raw >>> 24).toUInt8
  b := (raw >>> 16).toUInt8
  c := (raw >>> 8).toUInt8
  d := raw.toUInt8

theorem pgwAnswer_inv (hinv : Inv tr s) (hstep : coreStep s .pgwAnswer = some (s', es)) :
    Inv (tr ++ es) s' := by
  simp only [coreStep_eq, PacketGateways.step] at hstep
  split at hstep
  · rename_i req cca rest hwait hans
    obtain ⟨hgranted, k, hk, hthread, himsi, hnone, hnext⟩ := hinv.exchange.grant hwait hans
    rw [if_pos hgranted, Option.map_some, PacketGateways.acceptSession,
      writeLinks_quiet rfl rfl] at hstep
    obtain ⟨rfl, rfl⟩ := Prod.mk.inj (Option.some.inj hstep)
    refine inv_behind hinv ⟨rfl, rfl, rfl, rfl, rfl, rfl⟩ rfl ?_
      (hnext _ (ipv4 s.core.pgw.nextIp) _ rfl rfl) ?_
    · simp only [himsi]
      exact hinv.ledgers.pgwSession hk hnone rfl rfl rfl rfl
    · intro k' hk'
      refine creating_stage hinv hthread hk ?_ ?_ hk'
      · intro who hwho
        rfl
      · intro who hwho
        exact madeFor_other (by rw [himsi]; exact hwho.symm) _
  · cases hstep

end Gateways

end MobileCore.AttachSteps
