import MobileCore.LastWrite
import MobileCore.S1Link
import Mathlib.Data.List.Nodup

namespace MobileCore.HandoverTunnels

open MobileCore.LabelledRuns
open MobileCore.LastWrite
open MobileCore.MobilityManagement (S1apUplink S1apDownlink finalTeid)
open MobileCore.S1Link

def received : List Event → List S1apUplink :=
  List.filterMap fun
    | .received msg => some msg
    | _ => none

def allocated : List Event → List UInt32 :=
  List.filterMap fun
    | .teidAllocated _ _ teid => some teid
    | _ => none

def isAllocation : Event → Bool
  | .teidAllocated _ _ _ => true
  | _ => false

def acknowledges (mmeId : UInt32) : S1apUplink → Bool
  | .handoverRequestAck u _ _ => u == mmeId
  | _ => false

/-- A path switch carries the TEID of the UE's last Handover Request Acknowledge, which the eNB
allocated for this UE. -/
def OwnTeid (before : List Event) : Event → Prop
  | .mme (.pathSwitchSent mmeId teid _) =>
    .teidAllocated mmeId .handover teid ∈ before ∧
      ∃ enbId, lastWhere (acknowledges mmeId) (received before) =
        some (.handoverRequestAck mmeId enbId teid)
  | _ => True

def lastAllocatedFor (mmeId : UInt32) (tr : List Event) : Bool :=
  match lastWhere isAllocation tr with
  | some (.teidAllocated u .handover _) => u == mmeId
  | _ => false

/-- The last allocation before a UE's status transfer was for the UE's handover; the counter has
not come round, and a handover does not get the number zero. -/
def AllocatesOwn (tr : List Event) (s : State) : S1apDownlink → Prop
  | .mmeStatusTransfer mmeId _ _ _ => lastAllocatedFor mmeId tr = true
  | .handoverRequest _ _ => (allocated tr).length < 2 ^ 32 ∧ s.enb.nextEnbTeid ≠ 0
  | .icSetupRequest _ _ _ _ _ => (allocated tr).length < 2 ^ 32
  | _ => True

instance AllocatesOwn.decidable (tr : List Event) (s : State) :
    (msg : S1apDownlink) → Decidable (AllocatesOwn tr s msg)
  | .mmeStatusTransfer _ _ _ _ => inferInstanceAs (Decidable (_ = true))
  | .handoverRequest _ _ => inferInstanceAs (Decidable (_ ∧ _))
  | .icSetupRequest _ _ _ _ _ => inferInstanceAs (Decidable (_ < _))
  | .dlNasTransport _ _ _ _ _ => inferInstanceAs (Decidable True)
  | .tauAccept _ _ => inferInstanceAs (Decidable True)
  | .handoverCommand _ _ => inferInstanceAs (Decidable True)
  | .ueContextReleaseCmd _ _ => inferInstanceAs (Decidable True)

def taken (s : State) : Input → Option S1apDownlink
  | .enbReceive => s.downlink.head?
  | _ => none

def OwnAllocationLast (tr : List Event) (s : State) (i : Input) : Prop :=
  ∀ msg ∈ taken s i, AllocatesOwn tr s msg

instance (tr : List Event) (s : State) (i : Input) : Decidable (OwnAllocationLast tr s i) :=
  inferInstanceAs (Decidable (∀ msg ∈ taken s i, _))

def switchesPath : MobilityManagement.Event → Bool
  | .pathSwitchSent _ _ _ => true
  | _ => false

theorem handleUlNasTransport_keeps_path (s : MobilityManagement.State) (mmeId : UInt32)
    (nasType : UInt8) (res : List UInt8) :
    ∀ e ∈ (MobilityManagement.handleUlNasTransport s mmeId nasType res).2,
      switchesPath e = false := by
  unfold MobilityManagement.handleUlNasTransport
  split
  · split
    · simp
    · split <;> simp [switchesPath]
  · split <;> simp
  · simp

theorem authVectorsReady_keeps_path (s : MobilityManagement.State) (mmeId enbId : UInt32)
    (imsi : UInt64) (av : MobilityManagement.AuthVectors) (chaosDrop : Bool) :
    ∀ e ∈ (MobilityManagement.authVectorsReady s mmeId enbId imsi av chaosDrop).2,
      switchesPath e = false := by
  unfold MobilityManagement.authVectorsReady
  rcases hfind : s.store.find mmeId with _ | p <;> cases chaosDrop <;>
    simp [hfind, switchesPath]

theorem s11Wakeup_keeps_path {s s' : MobilityManagement.State}
    {resp : Option MobilityManagement.S11Response} {es : List MobilityManagement.Event}
    (hstep : MobilityManagement.s11Wakeup s resp = some (s', es)) :
    ∀ e ∈ es, switchesPath e = false := by
  have hicsr : ∀ s mmeId p, ∀ e ∈ MobilityManagement.sendIcSetupRequest s mmeId p,
      switchesPath e = false := by
    intro s mmeId p
    unfold MobilityManagement.sendIcSetupRequest
    split
    · simp
    · split <;> simp [switchesPath]
  unfold MobilityManagement.s11Wakeup at hstep
  split at hstep
  · obtain ⟨-, rfl⟩ := Prod.ext_iff.mp (Option.some.inj hstep)
    unfold MobilityManagement.createSessionAnswered
    dsimp only
    split
    · intro e he
      rcases List.mem_append.mp he with he | he
      · split at he
        · simp at he
        · rw [List.mem_singleton.mp he]
          rfl
      · exact hicsr _ _ _ e he
    · simp
  all_goals cases hstep
  all_goals simp [switchesPath]

/-- Only a Handover Notify makes the MME switch a path. -/
theorem step_keeps_path {s s' : MobilityManagement.State} {i : MobilityManagement.Input}
    {es : List MobilityManagement.Event} (hstep : MobilityManagement.step s i = some (s', es))
    (hnotify : ∀ mmeId enbId newTeid, i ≠ .s1ap (.handoverNotify mmeId enbId newTeid)) :
    ∀ e ∈ es, switchesPath e = false := by
  cases i with
  | s1ap msg =>
      simp only [MobilityManagement.step] at hstep
      split at hstep
      · obtain ⟨-, rfl⟩ := Prod.ext_iff.mp (Option.some.inj hstep)
        cases msg with
        | ulNasTransport mmeId enbId nasType res =>
            exact handleUlNasTransport_keeps_path s mmeId nasType res
        | handoverNotify mmeId enbId newTeid => exact (hnotify _ _ _ rfl).elim
        | _ => simp [MobilityManagement.handleS1ap, MobilityManagement.handleInitialUeMsg,
            MobilityManagement.handleIcSetupResponse,
            MobilityManagement.handleHandoverRequestAck, switchesPath]
      · cases hstep
  | aia imsi av =>
      obtain ⟨-, rfl⟩ := Prod.ext_iff.mp (Option.some.inj hstep)
      simp [switchesPath]
  | aiaWakeup chaosDrop =>
      simp only [MobilityManagement.step] at hstep
      split at hstep
      · obtain ⟨av, -, hready⟩ := Option.map_eq_some_iff.mp hstep
        obtain ⟨-, rfl⟩ := Prod.ext_iff.mp hready
        exact authVectorsReady_keeps_path s _ _ _ av chaosDrop
      · cases hstep
  | s11 resp => exact s11Wakeup_keeps_path hstep
  | s11Timeout => exact s11Wakeup_keeps_path hstep

def concerns : S1apUplink → Bool
  | .handoverRequestAck _ _ _ => true
  | .handoverNotify _ _ _ => true
  | _ => false

/-- The acknowledges and notifies in the order in which the eNB's receive thread wrote them. -/
def flow (tr : List Event) (s : State) : List S1apUplink :=
  (received tr ++ (s.uplink ++ s.enb.rxOut)).filter concerns

/-- A notify repeats the TEID of the UE's last acknowledge, which is not zero. -/
def RepeatsAck (before : List S1apUplink) : S1apUplink → Prop
  | .handoverNotify mmeId _ teid =>
    teid ≠ 0 ∧ ∃ enbId, lastWhere (acknowledges mmeId) before =
      some (.handoverRequestAck mmeId enbId teid)
  | _ => True

structure Inv (tr : List Event) (s : State) : Prop where
  repeats : Backed RepeatsAck (flow tr s)
  acknowledged : ∀ mmeId enbId teid, .handoverRequestAck mmeId enbId teid ∈ flow tr s →
    .teidAllocated mmeId .handover teid ∈ tr
  last : ∀ mmeId teid, lastWhere isAllocation tr = some (.teidAllocated mmeId .handover teid) →
    teid + 1 = s.enb.nextEnbTeid ∧ teid ≠ 0 ∧
      ∃ enbId, lastWhere (acknowledges mmeId) (flow tr s) =
        some (.handoverRequestAck mmeId enbId teid)
  counter : s.enb.nextEnbTeid = 100 + UInt32.ofNat (allocated tr).length
  numbered : allocated tr =
    (List.range (allocated tr).length).map fun n => 100 + UInt32.ofNat n
  bounded : (allocated tr).length ≤ 2 ^ 32
  own : Backed OwnTeid tr

@[simp] theorem received_append (tr es : List Event) :
    received (tr ++ es) = received tr ++ received es := List.filterMap_append

@[simp] theorem allocated_append (tr es : List Event) :
    allocated (tr ++ es) = allocated tr ++ allocated es := List.filterMap_append

@[simp] theorem received_map_mme (es : List MobilityManagement.Event) :
    received (es.map .mme) = [] := by
  simp [received, List.filterMap_map]

theorem allocated_of_forall {es : List Event} (hes : ∀ e ∈ es, isAllocation e = false) :
    allocated es = [] := by
  refine List.filterMap_eq_nil_iff.mpr fun e he => ?_
  have hquiet := hes e he
  cases e with
  | teidAllocated => cases hquiet
  | _ => rfl

theorem concerns_of_acknowledges (mmeId : UInt32) (msg : S1apUplink)
    (h : acknowledges mmeId msg = true) : concerns msg = true := by
  cases msg with
  | handoverRequestAck => rfl
  | _ => cases h

theorem keep_inv {tr es : List Event} {s s' : State} (hinv : Inv tr s)
    (hflow : flow (tr ++ es) s' = flow tr s) (hteid : s'.enb.nextEnbTeid = s.enb.nextEnbTeid)
    (hes : ∀ e ∈ es, isAllocation e = false) (hown : Backed OwnTeid (tr ++ es)) :
    Inv (tr ++ es) s' where
  repeats := hflow ▸ hinv.repeats
  acknowledged mmeId enbId teid hmem :=
    List.mem_append_left es (hinv.acknowledged mmeId enbId teid (hflow ▸ hmem))
  last mmeId teid hlast := by
    rw [lastWhere_append_of_forall tr hes] at hlast
    rw [hflow, hteid]
    exact hinv.last mmeId teid hlast
  counter := by rw [hteid, allocated_append, allocated_of_forall hes, List.append_nil]; exact hinv.counter
  numbered := by rw [allocated_append, allocated_of_forall hes, List.append_nil]; exact hinv.numbered
  bounded := by rw [allocated_append, allocated_of_forall hes, List.append_nil]; exact hinv.bounded
  own := hown

theorem isAllocation_mme (es : List MobilityManagement.Event) :
    ∀ e ∈ es.map Event.mme, isAllocation e = false := by
  intro e he
  obtain ⟨e', _, rfl⟩ := List.mem_map.mp he
  rfl

theorem ownTeid_of_keeps_path {es : List MobilityManagement.Event}
    (hes : ∀ e ∈ es, switchesPath e = false) :
    ∀ e ∈ es.map Event.mme, ∀ before, OwnTeid before e := by
  intro e he before
  obtain ⟨e', he', rfl⟩ := List.mem_map.mp he
  have hpath := hes e' he'
  cases e' with
  | pathSwitchSent => cases hpath
  | _ => trivial

theorem command_inv {tr : List Event} {s : State} (hinv : Inv tr s) (cmd : Command) :
    Inv (tr ++ []) { s with
      enb := (processCommand s.enb cmd).1
      uplink := s.uplink ++ [(processCommand s.enb cmd).2] } := by
  refine keep_inv hinv ?_ (by cases cmd <;> rfl) (by simp) (by simpa using hinv.own)
  cases cmd <;> simp [flow, processCommand, concerns, received]

theorem enbSend_inv {tr : List Event} {s : State} (hinv : Inv tr s) {msg : S1apUplink}
    {rest : List S1apUplink} (hout : s.enb.rxOut = msg :: rest) :
    Inv (tr ++ []) { s with
      enb := { s.enb with rxOut := rest }
      uplink := s.uplink ++ [msg] } := by
  refine keep_inv hinv ?_ rfl (by simp) (by simpa using hinv.own)
  simp [flow, hout]

theorem mmeStep_eq_some {s s' : State} {i : MobilityManagement.Input} {es : List Event}
    (hstep : mmeStep s i = some (s', es)) :
    ∃ mme mes, MobilityManagement.step s.mme i = some (mme, mes) ∧ es = mes.map .mme ∧
      s' = { s with mme := mme, downlink := s.downlink ++ mes.filterMap toEnb? } := by
  obtain ⟨⟨mme, mes⟩, hmme, hpair⟩ := Option.map_eq_some_iff.mp hstep
  obtain ⟨rfl, rfl⟩ := Prod.mk.inj hpair
  exact ⟨mme, mes, hmme, rfl, rfl⟩

theorem mme_inv {tr es : List Event} {s s' : State} {i : MobilityManagement.Input}
    (hinv : Inv tr s) (hi : ∀ msg, i ≠ .s1ap msg) (hstep : mmeStep s i = some (s', es)) :
    Inv (tr ++ es) s' := by
  obtain ⟨mme, mes, hmme, rfl, rfl⟩ := mmeStep_eq_some hstep
  refine keep_inv hinv (by simp [flow]) rfl (isAllocation_mme mes) ?_
  exact hinv.own.append_of_forall
    (ownTeid_of_keeps_path (step_keeps_path hmme fun _ _ _ => hi _))

theorem pathSwitch_own {tr : List Event} {s : State} (hinv : Inv tr s)
    {mmeId enbId newTeid : UInt32} {rest : List S1apUplink}
    (huplink : s.uplink = .handoverNotify mmeId enbId newTeid :: rest) (imsi : UInt64) :
    OwnTeid (tr ++ [.received (.handoverNotify mmeId enbId newTeid)])
      (.mme (.pathSwitchSent mmeId (finalTeid s.mme mmeId newTeid) imsi)) := by
  have hflow : flow tr s = (received tr).filter concerns ++
      .handoverNotify mmeId enbId newTeid :: (rest ++ s.enb.rxOut).filter concerns := by
    rw [flow, huplink, List.filter_append, List.cons_append, List.filter_cons_of_pos rfl]
  obtain ⟨hne, enbId', hlast⟩ := hinv.repeats _ _ _ hflow
  have hteid : finalTeid s.mme mmeId newTeid = newTeid := by simp [finalTeid, hne]
  rw [hteid]
  have hlast' : lastWhere (acknowledges mmeId) (received tr) =
      some (.handoverRequestAck mmeId enbId' newTeid) := by
    rw [← lastWhere_filter (concerns_of_acknowledges mmeId)]
    exact hlast
  refine ⟨?_, enbId', ?_⟩
  · have hmem : .handoverRequestAck mmeId enbId' newTeid ∈ (received tr).filter concerns := by
      obtain ⟨_, before, after, hsplit, _⟩ := (lastWhere_eq_some _ _ _).mp hlast
      rw [hsplit]
      simp
    refine List.mem_append_left _ (hinv.acknowledged mmeId enbId' newTeid ?_)
    rw [hflow]
    exact List.mem_append_left _ hmem
  · simpa [received, acknowledges] using hlast'

theorem mmeReceive_inv {tr es : List Event} {s s' : State} (hinv : Inv tr s) {msg : S1apUplink}
    {rest : List S1apUplink} (huplink : s.uplink = msg :: rest)
    (hstep : mmeStep { s with uplink := rest } (.s1ap msg) = some (s', es)) :
    Inv (tr ++ .received msg :: es) s' := by
  obtain ⟨mme, mes, hmme, rfl, rfl⟩ := mmeStep_eq_some hstep
  refine keep_inv hinv ?_ rfl ?_ ?_
  · have hreceived : received (.received msg :: mes.map .mme) = [msg] := by
      simp [received, List.filterMap_map]
    simp [flow, huplink, hreceived]
  · intro e he
    rcases List.mem_cons.mp he with rfl | he
    · rfl
    · exact isAllocation_mme mes e he
  · have hfirst : Backed OwnTeid (tr ++ [.received msg]) := hinv.own.snoc trivial
    rw [← List.singleton_append, ← List.append_assoc]
    by_cases hnotify : ∃ mmeId enbId newTeid, msg = .handoverNotify mmeId enbId newTeid
    · obtain ⟨mmeId, enbId, newTeid, rfl⟩ := hnotify
      obtain rfl : [.pathSwitchSent mmeId (finalTeid s.mme mmeId newTeid)
          (MobilityManagement.imsiOf s.mme mmeId)] = mes := by
        simp only [MobilityManagement.step] at hmme
        split at hmme
        · exact congrArg Prod.snd (Option.some.inj hmme)
        · cases hmme
      exact hfirst.snoc (pathSwitch_own hinv huplink _)
    · refine hfirst.append_of_forall (ownTeid_of_keeps_path (step_keeps_path hmme ?_))
      rintro mmeId enbId newTeid hmsg
      exact hnotify ⟨mmeId, enbId, newTeid, by simpa using hmsg⟩

theorem isAllocation_single (mmeId : UInt32) (purpose : Purpose) (teid : UInt32) (tr : List Event) :
    lastWhere isAllocation (tr ++ [.teidAllocated mmeId purpose teid]) =
      some (.teidAllocated mmeId purpose teid) := by
  simp [isAllocation]

theorem allocation_inv {tr : List Event} {s s' : State} (hinv : Inv tr s) (mmeId : UInt32)
    (purpose : Purpose) (hbound : (allocated tr).length < 2 ^ 32)
    (hteid : s'.enb.nextEnbTeid = s.enb.nextEnbTeid + 1)
    (hrepeats : Backed RepeatsAck
      (flow (tr ++ [.teidAllocated mmeId purpose s.enb.nextEnbTeid]) s'))
    (hacks : ∀ u enbId teid,
      .handoverRequestAck u enbId teid ∈
        flow (tr ++ [.teidAllocated mmeId purpose s.enb.nextEnbTeid]) s' →
      .handoverRequestAck u enbId teid ∈ flow tr s ∨
        purpose = .handover ∧ u = mmeId ∧ teid = s.enb.nextEnbTeid)
    (hlast : purpose = .handover → s.enb.nextEnbTeid ≠ 0 ∧
      ∃ enbId, lastWhere (acknowledges mmeId)
        (flow (tr ++ [.teidAllocated mmeId purpose s.enb.nextEnbTeid]) s') =
          some (.handoverRequestAck mmeId enbId s.enb.nextEnbTeid)) :
    Inv (tr ++ [.teidAllocated mmeId purpose s.enb.nextEnbTeid]) s' where
  repeats := hrepeats
  acknowledged u enbId teid hmem := by
    rcases hacks u enbId teid hmem with hold | ⟨rfl, rfl, rfl⟩
    · exact List.mem_append_left _ (hinv.acknowledged u enbId teid hold)
    · simp
  last u teid hlast' := by
    rw [isAllocation_single] at hlast'
    obtain ⟨rfl, rfl, rfl⟩ : mmeId = u ∧ purpose = .handover ∧ s.enb.nextEnbTeid = teid := by
      simpa using hlast'
    exact ⟨hteid.symm, hlast rfl⟩
  counter := by
    rw [hteid, hinv.counter]
    simp [allocated, UInt32.add_assoc]
  numbered := by
    have hnew : allocated [.teidAllocated mmeId purpose s.enb.nextEnbTeid] =
        [s.enb.nextEnbTeid] := rfl
    rw [allocated_append, hnew, List.length_append, List.length_singleton, List.range_succ,
      List.map_append, ← hinv.numbered, hinv.counter]
    rfl
  bounded := by
    have hnew : allocated [.teidAllocated mmeId purpose s.enb.nextEnbTeid] =
        [s.enb.nextEnbTeid] := rfl
    rw [allocated_append, hnew, List.length_append, List.length_singleton]
    exact hbound
  own := hinv.own.snoc trivial

theorem flow_enbHandle (tr : List Event) {s : State} (rest : List S1apDownlink)
    (hidle : s.enb.rxOut = []) (msg : S1apDownlink) :
    flow (tr ++ (enbHandle s.enb msg).2)
        { s with enb := (enbHandle s.enb msg).1, downlink := rest } =
      flow tr s ++ (enbHandle s.enb msg).1.rxOut.filter concerns := by
  have hnone : received (enbHandle s.enb msg).2 = [] := by
    cases msg <;> rfl
  simp [flow, hnone, hidle]

theorem handleDlNas_filter (mmeId enbId : UInt32) (nasType : UInt8) (rand : List UInt8) :
    (handleDlNas mmeId enbId nasType rand).filter concerns = [] := by
  unfold handleDlNas
  split
  · rfl
  · split <;> rfl

theorem lastAllocatedFor_eq_true {mmeId : UInt32} {tr : List Event}
    (h : lastAllocatedFor mmeId tr = true) :
    ∃ teid, lastWhere isAllocation tr = some (.teidAllocated mmeId .handover teid) := by
  unfold lastAllocatedFor at h
  split at h
  · rename_i u teid hlast
    obtain rfl : u = mmeId := by simpa using h
    exact ⟨teid, hlast⟩
  · cases h

theorem notify_inv {tr : List Event} {s s' : State} (hinv : Inv tr s) {mmeId enbId : UInt32}
    (hguard : lastAllocatedFor mmeId tr = true)
    (hteid : s'.enb.nextEnbTeid = s.enb.nextEnbTeid)
    (hflow : flow tr s' = flow tr s ++ [.handoverNotify mmeId enbId (s.enb.nextEnbTeid - 1)]) :
    Inv tr s' := by
  obtain ⟨teid, hallocated⟩ := lastAllocatedFor_eq_true hguard
  obtain ⟨hnext, hne, hack⟩ := hinv.last mmeId teid hallocated
  have hreport : s.enb.nextEnbTeid - 1 = teid := by
    rw [← hnext, UInt32.add_sub_cancel]
  rw [hreport] at hflow
  refine ⟨?_, ?_, ?_, hteid ▸ hinv.counter, hinv.numbered, hinv.bounded, hinv.own⟩
  · rw [hflow]
    exact hinv.repeats.snoc ⟨hne, hack⟩
  · intro u e t hmem
    rw [hflow] at hmem
    have hold : .handoverRequestAck u e t ∈ flow tr s := by simpa using hmem
    exact hinv.acknowledged u e t hold
  · intro u t hlast
    obtain ⟨hnext', hne', e, hlast'⟩ := hinv.last u t hlast
    refine ⟨hteid ▸ hnext', hne', e, ?_⟩
    rw [hflow, lastWhere_snoc]
    exact hlast'

theorem enbHandle_inv {tr : List Event} {s : State} {rest : List S1apDownlink}
    {msg : S1apDownlink} (hinv : Inv tr s) (hidle : s.enb.rxOut = [])
    (hguard : AllocatesOwn tr s msg) :
    Inv (tr ++ (enbHandle s.enb msg).2)
      { s with enb := (enbHandle s.enb msg).1, downlink := rest } := by
  have hflow := flow_enbHandle tr rest hidle msg
  cases msg with
  | dlNasTransport mmeId enbId nasType rand autn =>
      refine keep_inv hinv ?_ rfl (by simp [enbHandle]) (by simpa [enbHandle] using hinv.own)
      rw [hflow]
      simp [enbHandle, handleDlNas_filter]
  | icSetupRequest mmeId enbId sgwTeid ebi ueIp =>
      have hsame := hflow.trans (List.append_nil _)
      refine allocation_inv hinv mmeId .attach hguard rfl ?_ ?_ (fun h => by cases h)
      · exact hsame ▸ hinv.repeats
      · exact fun u e t hmem => Or.inl (hsame ▸ hmem)
  | handoverRequest mmeId enbId =>
      have hadded : flow (tr ++ [.teidAllocated mmeId .handover s.enb.nextEnbTeid])
          { s with enb := (enbHandle s.enb (.handoverRequest mmeId enbId)).1, downlink := rest } =
            flow tr s ++ [.handoverRequestAck mmeId enbId s.enb.nextEnbTeid] := hflow
      refine allocation_inv hinv mmeId .handover hguard.1 rfl ?_ ?_ fun _ => ⟨hguard.2, enbId, ?_⟩
      · rw [hadded]
        exact hinv.repeats.snoc trivial
      · intro u e t hmem
        rw [hadded] at hmem
        rcases List.mem_append.mp hmem with hold | hnew
        · exact Or.inl hold
        · obtain ⟨rfl, _, rfl⟩ : u = mmeId ∧ e = enbId ∧ t = s.enb.nextEnbTeid := by
            simpa using hnew
          exact Or.inr ⟨rfl, rfl, rfl⟩
      · rw [hadded, lastWhere_snoc, if_pos (by simp [acknowledges])]
  | mmeStatusTransfer mmeId enbId pdcpUl pdcpDl =>
      have hsame : flow (tr ++ []) _ = _ := hflow
      rw [List.append_nil] at hsame
      show Inv (tr ++ []) _
      rw [List.append_nil]
      exact notify_inv hinv hguard rfl hsame
  | _ =>
      refine keep_inv hinv ?_ rfl (by simp [enbHandle]) (by simpa [enbHandle] using hinv.own)
      rw [hflow]
      simp [enbHandle, concerns, hidle]

theorem step_inv {tr : List Event} {s s' : State} {i : Input} {es : List Event} (hinv : Inv tr s)
    (hguard : OwnAllocationLast tr s i) (hstep : step s i = some (s', es)) :
    Inv (tr ++ es) s' := by
  cases i with
  | command cmd =>
      obtain ⟨rfl, rfl⟩ := Prod.ext_iff.mp (Option.some.inj hstep)
      exact command_inv hinv cmd
  | enbReceive =>
      simp only [step] at hstep
      split at hstep
      · rename_i msg rest hidle hdownlink
        obtain ⟨rfl, rfl⟩ := Prod.ext_iff.mp (Option.some.inj hstep)
        exact enbHandle_inv hinv hidle (hguard msg (by simp [taken, hdownlink]))
      · cases hstep
  | enbSend =>
      simp only [step] at hstep
      split at hstep
      · rename_i msg rest hout
        obtain ⟨rfl, rfl⟩ := Prod.ext_iff.mp (Option.some.inj hstep)
        exact enbSend_inv hinv hout
      · cases hstep
  | mmeReceive =>
      simp only [step] at hstep
      split at hstep
      · rename_i msg rest huplink
        obtain ⟨⟨t, es'⟩, hmme, hpair⟩ := Option.map_eq_some_iff.mp hstep
        obtain ⟨rfl, rfl⟩ := Prod.mk.inj hpair
        exact mmeReceive_inv hinv huplink hmme
      · cases hstep
  | mme i =>
      cases i with
      | s1ap msg => cases hstep
      | _ => exact mme_inv hinv (by rintro msg ⟨⟩) hstep

theorem init_inv : Inv [] init where
  repeats := Backed.nil RepeatsAck
  acknowledged _ _ _ hmem := by simp [flow, received, init] at hmem
  last _ _ hlast := by cases hlast
  counter := rfl
  numbered := rfl
  bounded := by simp [allocated]
  own := Backed.nil OwnTeid

theorem numbered_injective {n : Nat} (hn : n ≤ 2 ^ 32) :
    ((List.range n).map fun k => 100 + UInt32.ofNat k).Nodup := by
  refine List.nodup_range.map_on fun x hx y hy hxy => ?_
  have hnat : x % 2 ^ 32 = y % 2 ^ 32 := by
    simpa using congrArg UInt32.toNat ((UInt32.add_right_inj 100).mp hxy)
  rw [List.mem_range] at hx hy
  omega

/-- In every run whose status transfers follow their own UE's allocation, the MME switches each
path to the UE's own TEID, and the eNB never gives a TEID twice. -/
theorem handovers_switch_to_own_teid {tr : List Event} {s : State}
    (hrun : Run step OwnAllocationLast init tr s) :
    Backed OwnTeid tr ∧ (allocated tr).Nodup := by
  have hinv : Inv tr s := by
    refine hrun.invariant init_inv ?_
    intro tr s i s' es hinv hguard hstep
    exact step_inv hinv hguard hstep
  refine ⟨hinv.own, ?_⟩
  rw [hinv.numbered]
  exact numbered_injective hinv.bounded

def imsi (ueId : UInt32) : UInt64 := baseImsi + ueId.toUInt64

def attach (ueId : UInt32) : List Input :=
  [.command .attach, .mmeReceive, .mme (.aia (imsi ueId) { xres := Vector.replicate 8 0x55 }),
    .mme (.aiaWakeup false), .enbReceive, .enbSend, .mmeReceive,
    .mme (.s11 { cause := 16, senderTeid := 1000, bearerTeid := 1001, ueIp := [10, 0, 0, 1] }),
    .enbReceive, .enbSend, .enbReceive, .enbSend, .enbSend, .mmeReceive, .mmeReceive,
    .mme (.s11 { cause := 16 }), .mmeReceive]

/-- One round of a handover: the MME handles the frame of each UE, then the eNB does. -/
def round (ues : Nat) : List Input :=
  List.replicate ues .mmeReceive ++ (List.replicate ues [.enbReceive, .enbSend]).flatten

/-- UE 1's path is switched to the TEID of UE 2, whose handover runs beside it. -/
theorem path_switched_to_other_ue :
    ∃ tr s, Reach step init tr s ∧ ¬ Backed OwnTeid tr := by
  have hexec : (exec step init (attach 1 ++ attach 2 ++
      [.command (.handover 1), .command (.handover 2)] ++ round 2 ++ round 2 ++ round 2 ++
      [.mmeReceive])).map (fun r => (r.2.getLast?, decide (.teidAllocated 1 .handover 103 ∈ r.2))) =
      some (some (.mme (.pathSwitchSent 1 103 (imsi 1))), false) := by
    decide +kernel
  obtain ⟨tr, s, hrun, hpair⟩ := exists_reach_of_exec hexec
  obtain ⟨hlast, hmem⟩ := Prod.mk.inj hpair
  refine ⟨tr, s, hrun, fun hown => ?_⟩
  obtain ⟨before, rfl⟩ := List.getLast?_eq_some_iff.mp hlast
  obtain ⟨hallocated, _⟩ := hown before _ [] rfl
  exact of_decide_eq_false hmem (List.mem_append_left _ hallocated)

/-- The handover of one attached UE. -/
theorem single_handover_switches :
    ∃ tr s, Run step OwnAllocationLast init tr s ∧ .mme (.pathSwitchSent 1 101 (imsi 1)) ∈ tr ∧
      Backed OwnTeid tr ∧ (allocated tr).Nodup := by
  have hexec : (exec step init (attach 1 ++ [.command (.handover 1)] ++ round 1 ++ round 1 ++
      round 1 ++ [.mmeReceive])).map (fun r => r.2.getLast?) =
      some (some (.mme (.pathSwitchSent 1 101 (imsi 1)))) := by
    decide +kernel
  obtain ⟨tr, s, hrun, hlast⟩ :=
    exists_run_of_exec (P := OwnAllocationLast) _ (by decide +kernel) hexec
  exact ⟨tr, s, hrun, List.mem_of_getLast? hlast, handovers_switch_to_own_teid hrun⟩

end MobileCore.HandoverTunnels
