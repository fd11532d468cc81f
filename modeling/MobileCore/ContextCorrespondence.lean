import MobileCore.AttachAuthentication
import MobileCore.HandoverTunnels

/-!
# The UE numbers of the eNB and of the MME

Each process counts its UEs by itself. The Initial UE Messages on their way to the MME carry, one
after the other, the numbers from the MME's counter up to the eNB's.
-/

namespace MobileCore.ContextCorrespondence

open MobileCore.LabelledRuns
open MobileCore.MobilityManagement (S1apUplink S1apDownlink UeContext findCtx update)
open MobileCore.S1Link
open MobileCore.ShardedStore (find_insert_same find_insert_ne)
open MobileCore.AttachAuthentication (findCtx_eq_some)
open MobileCore.HandoverTunnels (received received_append received_map_mme mmeStep_eq_some)

structure Identity where
  mmeId : UInt32
  enbId : UInt32
  imsi : UInt64
deriving DecidableEq

def identity (ctx : UeContext) : Identity := ⟨ctx.mmeUeS1apId, ctx.enbUeS1apId, ctx.imsi⟩

/-- The UE that both ends call `i`. -/
def ueIdentity (i : UInt32) : Identity := ⟨i, i, baseImsi + i.toUInt64⟩

def identities (s : MobilityManagement.State) : List Identity := s.heap.map identity

/-- Whom a frame of the TAU and handover commands addresses. -/
def addressee : S1apUplink → Option Identity
  | .tauRequest mmeId enbId imsi _ => some ⟨mmeId, enbId, imsi⟩
  | .handoverRequired mmeId enbId imsi => some ⟨mmeId, enbId, imsi⟩
  | _ => none

/-- The MME's context with the MME id `i` is the one of the eNB's UE `i`. -/
def Corresponds (s : State) : Prop :=
  ∀ i p ctx, findCtx s.mme i = some (p, ctx) → identity ctx = ueIdentity i

/-- The context behind the MME id of a command's frame is the one that the frame is about. -/
def ReachesOwn (s : State) (msg : S1apUplink) : Prop :=
  ∀ who ∈ addressee msg, ∀ p ctx, findCtx s.mme who.mmeId = some (p, ctx) → identity ctx = who

/-- Frames whose Initial UE Messages carry the numbers from `n` up to `m`. -/
inductive Numbered : UInt32 → List S1apUplink → UInt32 → Prop
  | nil (n : UInt32) : Numbered n [] n
  | attach {n m : UInt32} {rest : List S1apUplink} (mcc mnc tac : UInt16)
      (hrest : Numbered (n + 1) rest m) :
      Numbered n (.initialUeMsg n (baseImsi + n.toUInt64) mcc mnc tac :: rest) m
  | other {n m : UInt32} {msg : S1apUplink} {rest : List S1apUplink}
      (hmsg : ∀ enbId imsi mcc mnc tac, msg ≠ .initialUeMsg enbId imsi mcc mnc tac)
      (hrest : Numbered n rest m) : Numbered n (msg :: rest) m

theorem Numbered.append {n m k : UInt32} {front back : List S1apUplink} (hfront : Numbered n front m)
    (hback : Numbered m back k) : Numbered n (front ++ back) k := by
  induction hfront with
  | nil n => exact hback
  | attach mcc mnc tac _ ih => exact .attach mcc mnc tac (ih hback)
  | other hmsg _ ih => exact .other hmsg (ih hback)

theorem Numbered.snoc_other {n m : UInt32} {msgs : List S1apUplink} {msg : S1apUplink}
    (h : Numbered n msgs m)
    (hmsg : ∀ enbId imsi mcc mnc tac, msg ≠ .initialUeMsg enbId imsi mcc mnc tac) :
    Numbered n (msgs ++ [msg]) m :=
  h.append (.other hmsg (.nil m))

def IsAnswer (msg : S1apUplink) : Prop :=
  (∀ enbId imsi mcc mnc tac, msg ≠ .initialUeMsg enbId imsi mcc mnc tac) ∧ addressee msg = none

/-- A frame of a command names its UE by one number at both ends. -/
def OneNumber (msg : S1apUplink) : Prop := ∀ who ∈ addressee msg, who = ueIdentity who.mmeId

theorem IsAnswer.oneNumber {msg : S1apUplink} (h : IsAnswer msg) : OneNumber msg := by
  intro who hwho
  rw [h.2] at hwho
  cases hwho

theorem enbHandle_answers (enb : EnbNode) (msg : S1apDownlink) :
    (enbHandle enb msg).1.nextEnbUeId = enb.nextEnbUeId ∧
      (enb.rxOut = [] → ∀ out ∈ (enbHandle enb msg).1.rxOut, IsAnswer out) := by
  cases msg with
  | dlNasTransport mmeId enbId nasType rand autn =>
      refine ⟨rfl, fun _ => ?_⟩
      simp only [enbHandle, handleDlNas]
      split
      · simp [IsAnswer, addressee]
      · split <;> simp [IsAnswer, addressee]
  | tauAccept mmeId enbId =>
      refine ⟨rfl, fun hout => ?_⟩
      simp [enbHandle, hout]
  | _ =>
      refine ⟨rfl, fun _ => ?_⟩
      simp [enbHandle, handleIcsr, handleHoRequest, handleMmeStatusXfer, IsAnswer, addressee]

section Mme

variable {s s' : MobilityManagement.State}

/-- The MME keeps its store and whom its contexts belong to. -/
structure KeepsContexts (s s' : MobilityManagement.State) : Prop where
  store : s'.store = s.store
  identities : identities s' = identities s

theorem KeepsContexts.refl (s : MobilityManagement.State) : KeepsContexts s s := ⟨rfl, rfl⟩

theorem KeepsContexts.update (p : Nat) {f : UeContext → UeContext}
    (hf : ∀ ctx, identity (f ctx) = identity ctx) : KeepsContexts s (update s p f) := by
  refine ⟨rfl, ?_⟩
  apply List.ext_getElem?
  intro q
  simp only [ContextCorrespondence.identities, MobilityManagement.update, List.getElem?_map,
    List.getElem?_modify]
  cases s.heap[q]? with
  | none => rfl
  | some ctx =>
      by_cases hq : p = q
      · simp [hq, hf]
      · simp [hq]

theorem storeEnbTeid_keeps (s : MobilityManagement.State) (mmeId enbTeid : UInt32) :
    KeepsContexts s (MobilityManagement.storeEnbTeid s mmeId enbTeid) := by
  unfold MobilityManagement.storeEnbTeid
  split
  · exact .refl s
  · exact .update _ fun _ => rfl

theorem handleUlNasTransport_keeps (s : MobilityManagement.State) (mmeId : UInt32) (nasType : UInt8)
    (res : List UInt8) :
    KeepsContexts s (MobilityManagement.handleUlNasTransport s mmeId nasType res).1 := by
  unfold MobilityManagement.handleUlNasTransport
  split
  · split
    · exact .refl s
    · rename_i p ctx _
      split
      · have hupdate : KeepsContexts s (update s p fun ctx =>
            { ctx with emmState := .sessionPending }) := .update p fun _ => rfl
        exact ⟨hupdate.store, hupdate.identities⟩
      · exact .refl s
  · split
    · exact .refl s
    · exact .update _ fun _ => rfl
  · exact .refl s

theorem authVectorsReady_keeps (s : MobilityManagement.State) (mmeId enbId : UInt32) (imsi : UInt64)
    (av : MobilityManagement.AuthVectors) (chaosDrop : Bool) :
    KeepsContexts s (MobilityManagement.authVectorsReady s mmeId enbId imsi av chaosDrop).1 := by
  have hstored (p : Nat) : KeepsContexts s (update s p fun ctx =>
      { ctx with auth := av, emmState := .authPending }) := .update p fun _ => rfl
  unfold MobilityManagement.authVectorsReady
  rcases hfind : s.store.find mmeId with _ | p <;> cases chaosDrop <;> simp only [hfind]
  · exact ⟨rfl, rfl⟩
  · exact ⟨rfl, rfl⟩
  · exact ⟨rfl, (hstored p).identities⟩
  · exact ⟨rfl, (hstored p).identities⟩

theorem createSessionAnswered_keeps (s : MobilityManagement.State) (mmeId : UInt32) (p : Nat)
    (resp : MobilityManagement.S11Response) :
    KeepsContexts s (MobilityManagement.createSessionAnswered s mmeId p resp).1 := by
  unfold MobilityManagement.createSessionAnswered
  dsimp only
  split
  · rename_i a b c d _ _ _
    split
    · exact ⟨rfl, rfl⟩
    · rename_i q _
      have hupdate : KeepsContexts s (update s q fun ctx =>
          { ctx with bearers :=
              ctx.bearers ++ [MobilityManagement.sessionBearer resp ⟨a, b, c, d⟩] }) :=
        .update q fun _ => rfl
      exact ⟨hupdate.store, hupdate.identities⟩
  · exact ⟨rfl, rfl⟩

theorem s11Wakeup_keeps {resp : Option MobilityManagement.S11Response}
    {es : List MobilityManagement.Event}
    (hstep : MobilityManagement.s11Wakeup s resp = some (s', es)) : KeepsContexts s s' := by
  unfold MobilityManagement.s11Wakeup at hstep
  split at hstep
  · obtain ⟨rfl, -⟩ := Prod.ext_iff.mp (Option.some.inj hstep)
    exact createSessionAnswered_keeps s _ _ _
  all_goals cases hstep
  all_goals exact ⟨rfl, rfl⟩

theorem step_keeps {i : MobilityManagement.Input} {es : List MobilityManagement.Event}
    (hstep : MobilityManagement.step s i = some (s', es))
    (hi : ∀ enbId imsi mcc mnc tac, i ≠ .s1ap (.initialUeMsg enbId imsi mcc mnc tac)) :
    KeepsContexts s s' := by
  cases i with
  | s1ap msg =>
      simp only [MobilityManagement.step] at hstep
      split at hstep
      · obtain ⟨rfl, -⟩ := Prod.ext_iff.mp (Option.some.inj hstep)
        cases msg with
        | initialUeMsg enbId imsi mcc mnc tac => exact (hi enbId imsi mcc mnc tac rfl).elim
        | ulNasTransport mmeId enbId nasType res =>
            exact handleUlNasTransport_keeps s mmeId nasType res
        | icSetupResponse mmeId enbTeid =>
            have hstored := storeEnbTeid_keeps s mmeId enbTeid
            exact ⟨hstored.store, hstored.identities⟩
        | handoverRequestAck mmeId enbId newTeid => exact storeEnbTeid_keeps s mmeId newTeid
        | _ => exact ⟨rfl, rfl⟩
      · cases hstep
  | aia imsi av =>
      obtain ⟨rfl, -⟩ := Prod.ext_iff.mp (Option.some.inj hstep)
      exact ⟨rfl, rfl⟩
  | aiaWakeup chaosDrop =>
      simp only [MobilityManagement.step] at hstep
      split at hstep
      · obtain ⟨av, -, hready⟩ := Option.map_eq_some_iff.mp hstep
        obtain ⟨rfl, -⟩ := Prod.ext_iff.mp hready
        exact authVectorsReady_keeps s _ _ _ av chaosDrop
      · cases hstep
  | s11 resp => exact s11Wakeup_keeps hstep
  | s11Timeout => exact s11Wakeup_keeps hstep

end Mme

structure Inv (tr : List Event) (s : State) : Prop where
  stored : ∀ i p, s.mme.store.find i = some p → (identities s.mme)[p]? = some (ueIdentity i)
  attaches : Numbered s.mme.store.nextId s.uplink s.enb.nextEnbUeId
  answers : ∀ msg ∈ s.enb.rxOut, IsAnswer msg
  oneNumber : ∀ msg ∈ received tr ++ s.uplink, OneNumber msg

theorem init_inv : Inv [] init where
  stored i p hfind := by
    have hnone : init.mme.store.find i = none := AList.lookup_empty i
    rw [hnone] at hfind
    cases hfind
  attaches := .nil 1
  answers := by simp [init]
  oneNumber := by simp [received, init]

section Steps

variable {tr : List Event} {s : State}

theorem command_inv (hinv : Inv tr s) (cmd : Command) :
    Inv (tr ++ []) { s with
      enb := (processCommand s.enb cmd).1
      uplink := s.uplink ++ [(processCommand s.enb cmd).2] } where
  stored := hinv.stored
  attaches := by
    cases cmd with
    | attach => exact hinv.attaches.append (.attach 404 10 1 (.nil _))
    | tau ueId => exact hinv.attaches.snoc_other fun _ _ _ _ _ => S1apUplink.noConfusion
    | handover ueId => exact hinv.attaches.snoc_other fun _ _ _ _ _ => S1apUplink.noConfusion
  answers := by cases cmd <;> exact hinv.answers
  oneNumber := by
    rw [List.append_nil, ← List.append_assoc]
    intro msg hmsg
    rcases List.mem_append.mp hmsg with hmsg | hmsg
    · exact hinv.oneNumber msg hmsg
    · obtain rfl := List.mem_singleton.mp hmsg
      cases cmd <;> simp [OneNumber, processCommand, addressee, ueIdentity]

theorem enbReceive_inv (hinv : Inv tr s) {msg : S1apDownlink} {rest : List S1apDownlink}
    (hout : s.enb.rxOut = []) :
    Inv (tr ++ (enbHandle s.enb msg).2)
      { s with enb := (enbHandle s.enb msg).1, downlink := rest } where
  stored := hinv.stored
  attaches := by
    show Numbered s.mme.store.nextId s.uplink (enbHandle s.enb msg).1.nextEnbUeId
    rw [(enbHandle_answers s.enb msg).1]
    exact hinv.attaches
  answers := (enbHandle_answers s.enb msg).2 hout
  oneNumber := by
    have hquiet : received (enbHandle s.enb msg).2 = [] := by
      cases msg <;> rfl
    rw [received_append, hquiet, List.append_nil]
    exact hinv.oneNumber

theorem enbSend_inv (hinv : Inv tr s) {msg : S1apUplink} {rest : List S1apUplink}
    (hout : s.enb.rxOut = msg :: rest) :
    Inv (tr ++ []) { s with
      enb := { s.enb with rxOut := rest }
      uplink := s.uplink ++ [msg] } where
  stored := hinv.stored
  attaches := by
    have hanswer : IsAnswer msg := hinv.answers msg (by simp [hout])
    exact hinv.attaches.snoc_other hanswer.1
  answers out hmem := hinv.answers out (by rw [hout]; exact List.mem_cons_of_mem msg hmem)
  oneNumber := by
    rw [List.append_nil, ← List.append_assoc]
    intro msg' hmsg
    rcases List.mem_append.mp hmsg with hmsg | hmsg
    · exact hinv.oneNumber msg' hmsg
    · obtain rfl := List.mem_singleton.mp hmsg
      exact (hinv.answers msg' (by simp [hout])).oneNumber

theorem keeps_inv (hinv : Inv tr s) {uplink : List S1apUplink} {es : List Event}
    {mme : MobilityManagement.State} {downlink : List S1apDownlink}
    (hkeeps : KeepsContexts s.mme mme)
    (hattaches : Numbered s.mme.store.nextId uplink s.enb.nextEnbUeId)
    (hreceived : received es ++ uplink = s.uplink) :
    Inv (tr ++ es) { s with mme := mme, uplink := uplink, downlink := downlink } where
  stored i p hfind := by
    rw [hkeeps.identities]
    rw [hkeeps.store] at hfind
    exact hinv.stored i p hfind
  attaches := by rwa [hkeeps.store]
  answers := hinv.answers
  oneNumber := by
    rw [received_append, List.append_assoc, hreceived]
    exact hinv.oneNumber

theorem handleInitialUeMsg_stored (hinv : Inv tr s) (mcc mnc tac : UInt16)
    {i : UInt32} {p : Nat}
    (hfind : (MobilityManagement.handleInitialUeMsg s.mme s.mme.store.nextId
      (baseImsi + s.mme.store.nextId.toUInt64) mcc mnc tac).1.store.find i = some p) :
    (identities (MobilityManagement.handleInitialUeMsg s.mme s.mme.store.nextId
      (baseImsi + s.mme.store.nextId.toUInt64) mcc mnc tac).1)[p]? = some (ueIdentity i) := by
  simp only [MobilityManagement.handleInitialUeMsg] at hfind
  simp only [MobilityManagement.handleInitialUeMsg, identities, List.map_append, List.map_cons,
    List.map_nil]
  rcases eq_or_ne i s.mme.store.nextId with rfl | hne
  · rw [find_insert_same] at hfind
    obtain rfl := Option.some.inj hfind
    rw [List.getElem?_append_right (by simp)]
    simp [identity, ueIdentity]
  · rw [find_insert_ne _ _ hne] at hfind
    have hold : (identities s.mme)[p]? = some (ueIdentity i) := hinv.stored i p hfind
    obtain ⟨hlt, -⟩ := List.getElem?_eq_some_iff.mp hold
    exact (List.getElem?_append_left hlt).trans hold

theorem mmeReceive_inv (hinv : Inv tr s) {s' : State} {es : List Event} {msg : S1apUplink}
    {rest : List S1apUplink} (huplink : s.uplink = msg :: rest)
    (hstep : mmeStep { s with uplink := rest } (.s1ap msg) = some (s', es)) :
    Inv (tr ++ .received msg :: es) s' := by
  obtain ⟨mme, mes, hmme, rfl, rfl⟩ := mmeStep_eq_some hstep
  have hreceived : received (.received msg :: mes.map .mme) ++ rest = s.uplink := by
    rw [huplink, ← List.singleton_append, received_append, received_map_mme]
    rfl
  have hattaches := hinv.attaches
  rw [huplink] at hattaches
  cases hattaches with
  | attach mcc mnc tac hrest =>
      simp only [MobilityManagement.step] at hmme
      split at hmme
      · obtain ⟨rfl, -⟩ := Prod.ext_iff.mp (Option.some.inj hmme)
        refine ⟨fun i p => handleInitialUeMsg_stored hinv mcc mnc tac, hrest, hinv.answers, ?_⟩
        rw [received_append, List.append_assoc, hreceived]
        exact hinv.oneNumber
      · cases hmme
  | other hmsg hrest =>
      have hkeeps : KeepsContexts s.mme mme := by
        apply step_keeps hmme
        rintro enbId imsi mcc mnc tac hinput
        exact hmsg enbId imsi mcc mnc tac (MobilityManagement.Input.s1ap.inj hinput)
      exact keeps_inv hinv hkeeps hrest hreceived

theorem step_inv {s' : State} {i : Input} {es : List Event} (hinv : Inv tr s)
    (hstep : step s i = some (s', es)) : Inv (tr ++ es) s' := by
  cases i with
  | command cmd =>
      obtain ⟨rfl, rfl⟩ := Prod.ext_iff.mp (Option.some.inj hstep)
      exact command_inv hinv cmd
  | enbReceive =>
      simp only [step] at hstep
      split at hstep
      · rename_i hout hdown
        obtain ⟨rfl, rfl⟩ := Prod.ext_iff.mp (Option.some.inj hstep)
        exact enbReceive_inv hinv hout
      · cases hstep
  | enbSend =>
      simp only [step] at hstep
      split at hstep
      · rename_i msg rest hout
        obtain ⟨rfl, rfl⟩ := Prod.ext_iff.mp (Option.some.inj hstep)
        exact enbSend_inv hinv hout
      · cases hstep
  | mmeReceive =>
      simp only [step] at hstep
      split at hstep
      · rename_i msg rest huplink
        obtain ⟨⟨s₁, es₁⟩, hmme, hpair⟩ := Option.map_eq_some_iff.mp hstep
        obtain ⟨rfl, rfl⟩ := Prod.mk.inj hpair
        exact mmeReceive_inv hinv huplink hmme
      · cases hstep
  | mme i =>
      have hother : ∀ msg, i ≠ .s1ap msg := by
        rintro msg rfl
        cases hstep
      have hmmeStep : mmeStep s i = some (s', es) := by
        cases i with
        | s1ap msg => exact (hother msg rfl).elim
        | _ => exact hstep
      obtain ⟨mme, mes, hmme, rfl, rfl⟩ := mmeStep_eq_some hmmeStep
      have hkeeps : KeepsContexts s.mme mme := step_keeps hmme fun _ _ _ _ _ => hother _
      exact keeps_inv hinv hkeeps hinv.attaches (by rw [received_map_mme]; rfl)

end Steps

/-- In every run each context belongs to the eNB's UE of the same number, and each TAU Request and
Handover Required, on its way or received, is about the UE whose context it reaches. -/
theorem contexts_correspond {tr : List Event} {s : State} (hrun : Reach step init tr s) :
    Corresponds s ∧ ∀ msg ∈ received tr ++ s.uplink, ReachesOwn s msg := by
  have hinv : Inv tr s := by
    refine hrun.invariant init_inv ?_
    rintro tr s i s' es hinv - hstep
    exact step_inv hinv hstep
  have hown : Corresponds s := by
    intro i p ctx hfind
    obtain ⟨hplace, hctx⟩ := findCtx_eq_some hfind
    have hstored := hinv.stored i p hplace
    rw [identities, List.getElem?_map, hctx] at hstored
    exact Option.some.inj hstored
  refine ⟨hown, fun msg hmsg who hwho p ctx hfind => ?_⟩
  rw [hinv.oneNumber msg hmsg who hwho]
  exact hown who.mmeId p ctx hfind

/-- The second of two attaches, whose first one fails, and a TAU Request of its UE. -/
theorem second_context_corresponds :
    ∃ tr s, Reach step init tr s ∧
      (findCtx s.mme 2).map (fun c => identity c.2) = some (ueIdentity 2) ∧
      s.uplink = [.tauRequest 2 2 (baseImsi + 2) 0] ∧
      (Corresponds s ∧ ∀ msg ∈ received tr ++ s.uplink, ReachesOwn s msg) := by
  have hexec : (exec step init [.command .attach, .command .attach, .mmeReceive,
      .mme (.aia (baseImsi + 1) {}), .mme (.aiaWakeup true), .mmeReceive,
      .command (.tau 2)]).map (fun r =>
        ((findCtx r.1.mme 2).map fun c => identity c.2, r.1.uplink)) =
      some (some (ueIdentity 2), [.tauRequest 2 2 (baseImsi + 2) 0]) := by
    decide +kernel
  obtain ⟨tr, s, hrun, hseen⟩ := exists_reach_of_exec hexec
  obtain ⟨hctx, huplink⟩ := Prod.mk.inj hseen
  exact ⟨tr, s, hrun, hctx, huplink, contexts_correspond hrun⟩

end MobileCore.ContextCorrespondence
