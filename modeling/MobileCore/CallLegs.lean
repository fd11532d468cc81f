import MobileCore.DialogAgreement
import MobileCore.SipUplink

/-!
# The Call-IDs of call legs

A phone makes the Call-ID of a call from a text that its own letter picks, the callee's letter and
its sequence number. The S-CSCF appends a fixed suffix to the Call-ID of a call to which a third
party is added. A phone that starts again has a connection of its own and counts from the beginning.
-/

namespace MobileCore.CallLegs

open MobileCore.LabelledRuns
open MobileCore.LastWrite
open MobileCore.LayeredMachines (Layered)
open MobileCore.CppText
open MobileCore.SipPhones
open MobileCore.CallSessionControl
open DialogAgreement (setCall_lookup scscfHandle_calls)

/-- What the Call-ID of a leg is made from. -/
inductive Leg where
  | call (behind target : Str) (seq : UInt32)
  | conference (callId : Str)
deriving DecidableEq

def Leg.callId : Leg → Str
  | .call behind target seq => behind ++ target ++ lit "-" ++ natText seq.toNat
  | .conference callId => callId ++ lit "-conf"

/-- The requests that the S-CSCF takes for the addition of a third party. -/
def asksConference (msg : SipMessage) : Bool :=
  !(contains msg.sdp "inactive" || contains msg.sdp "sendonly") && contains msg.sdp "conf"

def addedLegs (node : ScscfNode) (msg : SipMessage) : List Leg :=
  if msg.type = .invite ∧ msg.callId ∈ node.calls ∧ asksConference msg = true ∧ msg.sipTo ≠ [] then
    [.conference msg.callId]
  else []

def placedLegs (ue : Ue) : Command → List Leg
  | .call target behind =>
    if ue.state = .registered ∧ (idToImpu target).isSome then [.call behind target ue.nextSeq]
    else []
  | _ => []

def created (s : State) : Input → List Leg
  | .command n cmd => placedLegs (s.conns n).ue cmd
  | .scscfReceive => s.toScscf.head?.toList.flatMap (addedLegs s.scscf)
  | _ => []

def step (label : Nat → UeLabel) : Machine State Input Leg
  | s, i => (CallSessionControl.step label s i).map fun r => (r.1, created s i)

/-- The message is in a thread of the P-CSCF or on a link to one of the proxies. -/
inductive OnItsWay (s : State) (msg : SipMessage) : Prop
  | uplink (n : Nat) : msg ∈ (s.conns n).uplink → OnItsWay s msg
  | forwarding (n : Nat) : (s.conns n).session.thread = .forwarding msg → OnItsWay s msg
  | toScscf : msg ∈ s.toScscf → OnItsWay s msg
  | toPcscf : msg ∈ s.toPcscf → OnItsWay s msg

/-- A table of a proxy has an entry for the Call-ID, or an INVITE that will enter it. -/
inductive InUse (s : State) (callId : Str) : Prop
  | stored : callId ∈ s.scscf.calls → InUse s callId
  | caller : callId ∈ s.pcscf.callToCaller → InUse s callId
  | callee : callId ∈ s.pcscf.callToCallee → InUse s callId
  | delivered : callId ∈ s.pcscf.callInviteDelivered → InUse s callId
  | coming {msg : SipMessage} : OnItsWay s msg → msg.type = .invite → msg.callId = callId →
      InUse s callId

/-- Every new leg has a Call-ID that none in use equals. -/
def Fresh (s : State) (i : Input) : Prop :=
  ∀ leg ∈ created s i, ∀ callId, InUse s callId → callId ≠ leg.callId

/-- No new leg is made from the same as one in use. -/
def Distinct (legs : List Leg) (s : State) (i : Input) : Prop :=
  ∀ leg ∈ created s i, ∀ old ∈ legs, InUse s old.callId → old ≠ leg

section Names

def Leg.Callable : Leg → Prop
  | .call _ target _ => (idToImpu target).isSome
  | .conference _ => True

theorem target_length {target : Str} (h : (idToImpu target).isSome) : target.length = 1 := by
  unfold idToImpu at h
  split at h
  · rename_i htarget
    rw [htarget]
    rfl
  split at h
  · rename_i htarget
    rw [htarget]
    rfl
  split at h
  · rename_i htarget
    rw [htarget]
    rfl
  · cases h

theorem conf_ne_number (front callId : Str) (n : Nat) :
    front ++ natText n ≠ callId ++ lit "-conf" := by
  intro h
  have hlast := congrArg List.getLast? h
  rw [List.getLast?_append_of_ne_nil _ (natText_ne_nil n),
    List.getLast?_append_of_ne_nil _ (by decide)] at hlast
  exact not_mem_natText n 102 (Or.inr (by decide)) (List.mem_of_getLast? hlast)

theorem split_at_number {front front' : Str} {n n' : Nat}
    (h : front ++ lit "-" ++ natText n = front' ++ lit "-" ++ natText n') :
    front = front' ∧ n = n' := by
  have hdash {m m' : Nat} {gap : Str} (hgap : gap ≠ []) :
      lit "-" ++ natText m ≠ gap ++ (lit "-" ++ natText m') := by
    intro hsame
    cases gap with
    | nil => exact hgap rfl
    | cons c gap =>
        have hnumber : natText m = gap ++ (lit "-" ++ natText m') := (List.cons.inj hsame).2
        apply not_mem_natText m 45 (Or.inl (by decide))
        rw [hnumber]
        exact List.mem_append_right gap (List.mem_append_left _ List.mem_cons_self)
  rw [List.append_assoc, List.append_assoc] at h
  rcases List.append_eq_append_iff.mp h with ⟨gap, rfl, hgap⟩ | ⟨gap, rfl, hgap⟩
  · obtain rfl : gap = [] := by
      by_contra hne
      exact hdash hne hgap
    exact ⟨(List.append_nil front).symm, natText_injective (List.append_cancel_left hgap)⟩
  · obtain rfl : gap = [] := by
      by_contra hne
      exact hdash hne hgap
    exact ⟨List.append_nil front', natText_injective (List.append_cancel_left hgap).symm⟩

theorem callId_injective {leg leg' : Leg} (hleg : leg.Callable) (hleg' : leg'.Callable)
    (h : leg.callId = leg'.callId) : leg = leg' := by
  cases leg with
  | call behind target seq =>
      cases leg' with
      | call behind' target' seq' =>
          have htarget : target.length = target'.length :=
            (target_length hleg).trans (target_length hleg').symm
          obtain ⟨hparties, hseq⟩ := split_at_number h
          obtain ⟨hbehind, hsame⟩ := List.append_inj' hparties htarget
          rw [hbehind, hsame, UInt32.toNat_inj.mp hseq]
      | conference callId => exact absurd h (conf_ne_number _ callId _)
  | conference callId =>
      cases leg' with
      | call caller' target' seq' => exact absurd h.symm (conf_ne_number _ callId _)
      | conference callId' => rw [List.append_cancel_right h]

theorem created_callable {s : State} {i : Input} {leg : Leg}
    (h : leg ∈ created s i) : leg.Callable := by
  unfold created at h
  split at h
  · unfold placedLegs at h
    split at h
    · split at h
      · rename_i hcall
        rw [List.mem_singleton.mp h]
        exact hcall.2
      · cases h
    · cases h
  · obtain ⟨msg, -, hadded⟩ := List.mem_flatMap.mp h
    unfold addedLegs at hadded
    split at hadded
    · rw [List.mem_singleton.mp hadded]
      trivial
    · cases hadded
  · cases h

end Names

section Sending

variable {cfg : UeConfig} {ue : Ue} {msg out : SipMessage} {node : ScscfNode}

/-- What a phone does with the Call-ID of its current call, and which INVITEs it sends. -/
def Within (legs : List Leg) (ue : Ue) (out : Outcome) : Prop :=
  (out.1.currentCallId = ue.currentCallId ∨ ∃ leg ∈ legs, out.1.currentCallId = leg.callId) ∧
    ∀ msg ∈ out.2, msg.type = .invite → msg.callId = out.1.currentCallId

theorem stay_within {legs : List Leg} : Within legs ue (stay ue) :=
  ⟨Or.inl rfl, fun _ hmsg => by cases hmsg⟩

theorem send_within {legs : List Leg} {ue' : Ue} (hsame : ue'.currentCallId = ue.currentCallId)
    (hmsg : msg.type = .invite → msg.callId = ue'.currentCallId) :
    Within legs ue (send ue' msg) := by
  refine ⟨Or.inl hsame, fun out hout => ?_⟩
  rw [List.mem_singleton.mp hout]
  exact hmsg

theorem doCall_within (cfg : UeConfig) (ue : Ue) (target behind : Str) :
    Within (placedLegs ue (.call target behind)) ue (doCall cfg ue target behind) := by
  unfold doCall
  apply guarded stay_within
  intro hstate
  split
  · exact stay_within
  · rename_i callee hcallee
    refine ⟨Or.inr ⟨.call behind target ue.nextSeq, ?_, rfl⟩, fun out hout _ => ?_⟩
    · simp [placedLegs, hstate, hcallee]
    · rw [List.mem_singleton.mp hout]
      rfl

theorem processCommand_within (cfg : UeConfig) (ue : Ue) (cmd : Command) :
    Within (placedLegs ue cmd) ue (processCommand cfg ue cmd) := by
  cases cmd with
  | call target behind => exact doCall_within cfg ue target behind
  | register =>
      rw [processCommand, doRegister]
      split
      · exact stay_within
      · exact send_within rfl (by simp)
  | conference third =>
      apply guarded stay_within
      intro _
      split
      · exact stay_within
      · exact send_within rfl (by simp)
  | accept | reject | bye => exact guarded stay_within fun _ => send_within rfl (by simp)
  | hold | resume | update | video | voice =>
      exact guarded stay_within fun _ => send_within rfl (by simp)

theorem handleIncoming_sent (hout : out ∈ (handleIncoming cfg ue msg).2) : out.type = .ack := by
  unfold handleIncoming at hout
  split at hout
  · unfold incoming200Ok at hout
    split at hout
    · cases hout
    split at hout
    · rw [List.mem_singleton.mp hout]
    split at hout
    · cases hout
    split at hout
    · cases hout
    · cases hout
  · unfold incomingInvite at hout
    dsimp only at hout
    split at hout
    · cases hout
    · cases hout
  · cases hout

theorem handleIncoming_current (cfg : UeConfig) (ue : Ue) (msg : SipMessage) :
    (handleIncoming cfg ue msg).1.currentCallId = ue.currentCallId ∨
      msg.type = .invite ∧ (handleIncoming cfg ue msg).1.currentCallId = msg.callId := by
  unfold handleIncoming
  split
  · left
    unfold incoming200Ok
    split
    · rfl
    split
    · rfl
    split
    · rfl
    split <;> rfl
  · rename_i htype
    unfold incomingInvite
    dsimp only
    split
    · exact Or.inl rfl
    · by_cases hnone : msg.callId = []
      · exact Or.inl (if_pos hnone)
      · exact Or.inr ⟨htype, if_neg hnone⟩
  · exact Or.inl rfl

theorem scscfHandle_invites (hout : out ∈ (scscfHandle node msg).2) (htype : out.type = .invite) :
    out = msg ∨ ∃ leg ∈ addedLegs node msg, out.callId = leg.callId := by
  cases hmsg : msg.type with
  | invite =>
      rw [scscfHandle, hmsg] at hout
      dsimp only at hout
      unfold handleInvite at hout
      split at hout
      · rename_i cs hcs
        unfold handleReInvite at hout
        dsimp only at hout
        split at hout
        · rcases List.mem_pair.mp hout with rfl | rfl
          · exact Or.inl rfl
          · cases htype
        split at hout
        · rename_i hhold hconf
          rcases List.mem_append.mp hout with hinvite | hanswer
          · split at hinvite
            · cases hinvite
            · rename_i hto
              rw [List.mem_singleton.mp hinvite]
              refine Or.inr ⟨.conference msg.callId, ?_, rfl⟩
              have hasks : asksConference msg = true := by
                simp only [asksConference, hhold, hconf]
                rfl
              have hstored : msg.callId ∈ node.calls := AList.lookup_isSome.mp (by simp [hcs])
              simp [addedLegs, hmsg, hstored, hasks, hto]
          · rw [List.mem_singleton.mp hanswer] at htype
            cases htype
        split at hout
        · rcases List.mem_pair.mp hout with rfl | rfl
          · exact Or.inl rfl
          · cases htype
        · rcases List.mem_pair.mp hout with rfl | rfl
          · exact Or.inl rfl
          · cases htype
      · dsimp only at hout
        split at hout
        · rcases List.mem_cons.mp hout with rfl | hout
          · cases htype
          · rcases List.mem_pair.mp hout with rfl | rfl
            · exact Or.inl rfl
            · cases htype
        · rcases List.mem_pair.mp hout with rfl | rfl
          · cases htype
          · cases htype
  | _ =>
      cases scscfHandle_sends hout with
      | forwarded => exact Or.inl rfl
      | conference cs hinvite => rw [hmsg] at hinvite; cases hinvite
      | response _ _ _ hresponse =>
          obtain rfl : _ = SipMsgType.invite := htype
          revert hresponse
          simp [responses]
      | byeAnswered _ => cases htype

theorem placedLegs_sent (cfg : UeConfig) {cmd : Command} {leg : Leg} (hleg : leg ∈ placedLegs ue cmd) :
    ∃ msg ∈ (processCommand cfg ue cmd).2,
      msg.type = .invite ∧ msg.callId = leg.callId := by
  unfold placedLegs at hleg
  split at hleg
  · rename_i target behind
    split at hleg
    · rename_i hcall
      obtain ⟨hstate, hknown⟩ := hcall
      obtain ⟨callee, hcallee⟩ := Option.isSome_iff_exists.mp hknown
      rw [List.mem_singleton.mp hleg, processCommand, doCall, if_pos hstate, hcallee]
      exact ⟨_, List.mem_singleton_self _, rfl, rfl⟩
    · cases hleg
  · cases hleg

theorem addedLegs_sent {leg : Leg} (hleg : leg ∈ addedLegs node msg) :
    ∃ out ∈ (scscfHandle node msg).2, out.type = .invite ∧ out.callId = leg.callId := by
  unfold addedLegs at hleg
  split at hleg
  · rename_i hasks
    obtain ⟨htype, hstored, hconference, hto⟩ := hasks
    obtain ⟨cs, hcs⟩ := Option.isSome_iff_exists.mp (AList.lookup_isSome.mpr hstored)
    obtain ⟨hhold, hconf⟩ := Bool.and_eq_true_iff.mp hconference
    have hactive : ¬(contains msg.sdp "inactive" || contains msg.sdp "sendonly") = true := by
      simpa using hhold
    rw [List.mem_singleton.mp hleg]
    refine ⟨conferenceInvite cs msg, ?_, rfl, rfl⟩
    rw [scscfHandle, htype]
    dsimp only
    rw [handleInvite, hcs]
    dsimp only
    rw [handleReInvite, if_neg hactive, if_pos hconf, if_neg hto]
    exact List.mem_cons_self
  · cases hleg

end Sending

section Invariant

variable {label : Nat → UeLabel} {legs : List Leg} {s s' : State} {n : Nat} {msg : SipMessage}

def Known (legs : List Leg) (callId : Str) : Prop :=
  callId = [] ∨ ∃ leg ∈ legs, callId = leg.callId

structure Inv (legs : List Leg) (s : State) : Prop where
  callable : ∀ leg ∈ legs, leg.Callable
  inUse : ∀ callId, InUse s callId → Known legs callId
  current : ∀ n, Known legs (s.conns n).ue.currentCallId
  invited : ∀ n, ∀ msg ∈ (s.conns n).downlink, msg.type = .invite → Known legs msg.callId

theorem init_inv : Inv [] init where
  callable _ h := by cases h
  inUse callId h := by
    cases h with
    | stored h => cases h
    | caller h => cases h
    | callee h => cases h
    | delivered h => cases h
    | coming h _ _ =>
        cases h with
        | uplink _ h => cases h
        | forwarding _ h => cases h
        | toScscf h => cases h
        | toPcscf h => cases h
  current _ := Or.inl rfl
  invited _ _ h := by cases h

theorem Known.append {callId : Str} (h : Known legs callId) (new : List Leg) :
    Known (legs ++ new) callId :=
  h.imp_right fun ⟨leg, hleg, hcallId⟩ => ⟨leg, List.mem_append_left new hleg, hcallId⟩

theorem known_of_mem {new : List Leg} {leg : Leg} (h : leg ∈ new) : Known (legs ++ new) leg.callId :=
  Or.inr ⟨leg, List.mem_append_right legs h, rfl⟩

theorem Inv.coming (h : Inv legs s) (hway : OnItsWay s msg) (htype : msg.type = .invite) :
    Known legs msg.callId :=
  h.inUse _ (.coming hway htype rfl)

def Uses (s s' : State) : Prop := ∀ callId, InUse s' callId → InUse s callId

theorem uses_of_same (hcalls : s'.scscf.calls = s.scscf.calls)
    (hcaller : ∀ callId ∈ s'.pcscf.callToCaller, InUse s callId)
    (hcallee : ∀ callId ∈ s'.pcscf.callToCallee, InUse s callId)
    (hdelivered : ∀ callId ∈ s'.pcscf.callInviteDelivered, InUse s callId)
    (hcoming : ∀ msg, OnItsWay s' msg → OnItsWay s msg) : Uses s s' := by
  intro callId h
  cases h with
  | stored h => exact .stored (hcalls ▸ h)
  | caller h => exact hcaller callId h
  | callee h => exact hcallee callId h
  | delivered h => exact hdelivered callId h
  | coming hway htype hcallId => exact .coming (hcoming _ hway) htype hcallId

theorem uses_of_links (hscscf : s'.scscf = s.scscf) (hpcscf : s'.pcscf = s.pcscf)
    (hcoming : ∀ msg, OnItsWay s' msg → OnItsWay s msg) : Uses s s' := by
  apply uses_of_same
  · rw [hscscf]
  · intro callId h
    exact .caller (hpcscf ▸ h)
  · intro callId h
    exact .callee (hpcscf ▸ h)
  · intro callId h
    exact .delivered (hpcscf ▸ h)
  · exact hcoming

theorem OnItsWay.mono (huplink : ∀ m, (s'.conns m).uplink = (s.conns m).uplink)
    (hthread : ∀ m, (s'.conns m).session.thread = (s.conns m).session.thread)
    (htoScscf : s'.toScscf = s.toScscf) (htoPcscf : ∀ out ∈ s'.toPcscf, out ∈ s.toPcscf)
    (h : OnItsWay s' msg) : OnItsWay s msg := by
  cases h with
  | uplink m hmsg => exact .uplink m (huplink m ▸ hmsg)
  | forwarding m hmsg => exact .forwarding m (hthread m ▸ hmsg)
  | toScscf hmsg => exact .toScscf (htoScscf ▸ hmsg)
  | toPcscf hmsg => exact .toPcscf (htoPcscf msg hmsg)

theorem phoneStep_onItsWay {out : Outcome} {later : SipMessage}
    (h : OnItsWay (phoneStep s n out) later) :
    OnItsWay s later ∨ ∃ sent ∈ out.2, later = { sent with origin := n } := by
  cases h with
  | uplink m h =>
      rw [phoneStep, State.modify_conns] at h
      split at h
      · rcases List.mem_append.mp h with hold | hnew
        · exact Or.inl (.uplink n hold)
        · obtain ⟨sent, hsent, rfl⟩ := List.mem_map.mp hnew
          exact Or.inr ⟨sent, hsent, rfl⟩
      · exact Or.inl (.uplink m h)
  | forwarding m h =>
      rw [phoneStep_thread] at h
      exact Or.inl (.forwarding m h)
  | toScscf h => exact Or.inl (.toScscf h)
  | toPcscf h => exact Or.inl (.toPcscf h)

theorem phone_inv (h : Inv legs s) {out : Outcome} {new : List Leg}
    (hnew : ∀ leg ∈ new, leg.Callable) (hcurrent : Known (legs ++ new) out.1.currentCallId)
    (hsent : ∀ msg ∈ out.2, msg.type = .invite → msg.callId = out.1.currentCallId) :
    Inv (legs ++ new) (phoneStep s n out) where
  callable leg hleg := (List.mem_append.mp hleg).elim (h.callable leg) (hnew leg)
  inUse callId huse := by
    cases huse with
    | stored hstored => exact (h.inUse callId (.stored hstored)).append new
    | caller hcaller => exact (h.inUse callId (.caller hcaller)).append new
    | callee hcallee => exact (h.inUse callId (.callee hcallee)).append new
    | delivered hdelivered => exact (h.inUse callId (.delivered hdelivered)).append new
    | coming hway htype hcallId =>
        rcases phoneStep_onItsWay hway with hold | ⟨sent, hmem, rfl⟩
        · exact (h.inUse callId (.coming hold htype hcallId)).append new
        · rw [← hcallId]
          exact (hsent sent hmem htype) ▸ hcurrent
  current m := by
    rw [phoneStep, State.modify_conns]
    split
    · exact hcurrent
    · exact (h.current m).append new
  invited m msg hmsg htype := by
    rw [phoneStep, State.modify_conns] at hmsg
    split at hmsg
    · exact (h.invited n msg hmsg htype).append new
    · exact (h.invited m msg hmsg htype).append new

theorem Inv.quiet (h : Inv legs s) (huses : Uses s s')
    (hue : ∀ m, (s'.conns m).ue = (s.conns m).ue)
    (hdownlink : ∀ m, ∀ out ∈ (s'.conns m).downlink,
      out ∈ (s.conns m).downlink ∨ (out.type = .invite → OnItsWay s out)) : Inv legs s' where
  callable := h.callable
  inUse callId huse := h.inUse callId (huses callId huse)
  current m := by
    rw [hue m]
    exact h.current m
  invited m out hout htype := by
    rcases hdownlink m out hout with hold | hnew
    · exact h.invited m out hold htype
    · exact h.coming (hnew htype) htype

theorem dropDownlink_inv (h : Inv legs s) {rest : List SipMessage}
    (hdownlink : (s.conns n).downlink = msg :: rest) :
    Inv legs (s.modify n fun c => { c with downlink := rest }) := by
  have hconns (m : Nat) := s.modify_conns n m fun c => { c with downlink := rest }
  refine h.quiet ?_ ?_ ?_
  · refine uses_of_links rfl rfl fun _ => .mono (fun m => ?_)
      (modify_thread s n (fun c => { c with downlink := rest }) rfl) rfl fun _ hout => hout
    rw [hconns m]
    split
    · rename_i hm
      rw [hm]
    · rfl
  · intro m
    rw [hconns m]
    split
    · rename_i hm
      rw [hm]
    · rfl
  · intro m out hout
    rw [hconns m] at hout
    split at hout
    · rename_i hm
      rw [hm, hdownlink]
      exact Or.inl (List.mem_cons_of_mem msg hout)
    · exact Or.inl hout

theorem takeUp_onItsWay {rest : List SipMessage} (huplink : (s.conns n).uplink = msg :: rest)
    {out : SipMessage} (h : OnItsWay
      (setThread (s.modify n fun c => { c with uplink := rest }) n (.forwarding msg)) out) :
    OnItsWay s out := by
  cases h with
  | uplink m h =>
      rw [(setThread_conns _ n _ m).2.1, State.modify_conns] at h
      split at h
      · apply OnItsWay.uplink n
        rw [huplink]
        exact List.mem_cons_of_mem msg h
      · exact .uplink m h
  | forwarding m h =>
      rw [setThread_thread] at h
      split at h
      · apply OnItsWay.uplink n
        rw [huplink, UeThread.forwarding.inj h]
        exact List.mem_cons_self
      · rw [modify_thread s n (fun c => { c with uplink := rest }) rfl] at h
        exact .forwarding m h
  | toScscf h => exact .toScscf h
  | toPcscf h => exact .toPcscf h

theorem handleFromUe_uses (hway : OnItsWay s msg) : Uses s (handleFromUe s n msg).1 := by
  have henters := handleFromUe_enters s n msg
  have hentered {callId : Str} {entry : Str} {table : Table Str Str} (htype : msg.type = .invite)
      (hold : callId ∈ table → InUse s callId) (h : callId ∈ table.insert msg.callId entry) :
      InUse s callId := by
    rcases (AList.mem_insert table).mp h with hnew | h
    · exact .coming hway htype hnew.symm
    · exact hold h
  refine uses_of_same (by rw [henters.scscf]) ?_ ?_ ?_ fun _ =>
    .mono henters.uplink henters.thread henters.toScscf fun _ hout => henters.toPcscf ▸ hout
  · intro callId h
    unfold handleFromUe at h
    split at h
    · exact .caller h
    · exact hentered (by assumption) .caller h
    · exact .caller h
  · intro callId h
    unfold handleFromUe at h
    split at h
    · exact .callee h
    · exact hentered (by assumption) .callee h
    · exact .callee h
  · intro callId h
    rw [henters.delivered] at h
    exact .delivered h

theorem read_inv (h : Inv legs s) {rest : List SipMessage}
    (huplink : (s.conns n).uplink = msg :: rest) : Inv legs (handleFromUe
      (setThread (s.modify n fun c => { c with uplink := rest }) n (.forwarding msg)) n msg).1 := by
  have hstart : Inv legs
      (setThread (s.modify n fun c => { c with uplink := rest }) n (.forwarding msg)) := by
    refine h.quiet ?_ ?_ ?_
    · exact uses_of_links rfl rfl fun _ => takeUp_onItsWay huplink
    · intro m
      rw [(setThread_conns _ n _ m).1, State.modify_conns]
      split
      · rename_i hm
        rw [hm]
      · rfl
    · intro m out hout
      rw [(setThread_conns _ n _ m).2.2, State.modify_conns] at hout
      split at hout
      · rename_i hm
        rw [hm]
        exact Or.inl hout
      · exact Or.inl hout
  have henters := handleFromUe_enters
    (setThread (s.modify n fun c => { c with uplink := rest }) n (.forwarding msg)) n msg
  refine hstart.quiet (handleFromUe_uses (.forwarding n ?_)) henters.ue ?_
  · rw [setThread_thread, if_pos rfl]
  · intro m out hout
    rw [henters.downlink m] at hout
    exact Or.inl hout

theorem forward_inv (h : Inv legs s) (hthread : (s.conns n).session.thread = .forwarding msg)
    {thread : UeThread} (hnext : ∀ out, thread ≠ .forwarding out) :
    Inv legs (setThread { s with toScscf := s.toScscf ++ [msg] } n thread) := by
  refine h.quiet ?_ (fun m => (setThread_conns _ n thread m).1) ?_
  · refine uses_of_links rfl rfl ?_
    intro out hway
    cases hway with
    | uplink m hout =>
        rw [(setThread_conns _ n thread m).2.1] at hout
        exact .uplink m hout
    | forwarding m hout =>
        rw [setThread_thread] at hout
        split at hout
        · exact absurd hout (hnext out)
        · exact .forwarding m hout
    | toScscf hout =>
        rcases List.mem_append.mp hout with hold | hnew
        · exact .toScscf hold
        · rw [List.mem_singleton.mp hnew]
          exact .forwarding n hthread
    | toPcscf hout => exact .toPcscf hout
  · intro m out hout
    rw [(setThread_conns _ n thread m).2.2] at hout
    exact Or.inl hout

theorem cleanUp_inv (h : Inv legs s) (n : Nat) (callId : Str) :
    Inv legs (setThread { s with pcscf := cleanUp s.pcscf callId } n .receiving) := by
  refine h.quiet ?_ (fun m => (setThread_conns _ n _ m).1) ?_
  · refine uses_of_same rfl (fun _ hmem => ?_) (fun _ hmem => ?_) (fun _ hmem => ?_) ?_
    · exact .caller (AList.mem_erase.mp hmem).2
    · exact .callee (AList.mem_erase.mp hmem).2
    · exact .delivered (Finset.mem_of_mem_erase hmem)
    · intro out hway
      cases hway with
      | uplink m hout =>
          rw [(setThread_conns _ n _ m).2.1] at hout
          exact .uplink m hout
      | forwarding m hout =>
          rw [setThread_thread] at hout
          split at hout
          · cases hout
          · exact .forwarding m hout
      | toScscf hout => exact .toScscf hout
      | toPcscf hout => exact .toPcscf hout
  · intro m out hout
    rw [(setThread_conns _ n _ m).2.2] at hout
    exact Or.inl hout

theorem enterInvite_keys (p : PcscfNode) (msg : SipMessage) (callId : Str) :
    (callId ∈ (enterInvite p msg).1.callToCaller →
        callId = msg.callId ∨ callId ∈ p.callToCaller) ∧
      (callId ∈ (enterInvite p msg).1.callToCallee →
        callId = msg.callId ∨ callId ∈ p.callToCallee) ∧
      (callId ∈ (enterInvite p msg).1.callInviteDelivered →
        callId = msg.callId ∨ callId ∈ p.callInviteDelivered) := by
  rw [enterInvite_delivered]
  refine ⟨?_, ?_, Finset.mem_insert.mp⟩
  · unfold enterInvite
    dsimp only
    split <;> split
    · exact (AList.mem_insert _).mp
    · exact (AList.mem_insert _).mp
    · exact Or.inr
    · exact Or.inr
  · unfold enterInvite
    dsimp only
    split <;> split
    · exact (AList.mem_insert _).mp
    · exact Or.inr
    · exact (AList.mem_insert _).mp
    · exact Or.inr

theorem rxSection_uses {p : PcscfNode} {toPcscf : List SipMessage} (hway : OnItsWay s msg)
    (hlink : ∀ out ∈ toPcscf, out ∈ s.toPcscf) (h : RxSection s.pcscf msg p) :
    Uses s { s with pcscf := p, toPcscf := toPcscf } := by
  have hcoming (out : SipMessage) :
      OnItsWay { s with pcscf := p, toPcscf := toPcscf } out → OnItsWay s out :=
    .mono (fun _ => rfl) (fun _ => rfl) rfl hlink
  cases h with
  | unchanged => exact uses_of_links rfl rfl hcoming
  | answered target _ _ =>
      exact uses_of_same rfl (fun _ h => .caller h) (fun _ h => .callee h) (fun _ h => .delivered h)
        hcoming
  | entered htype _ =>
      have hentered {callId : Str} (hold : Prop) (huse : hold → InUse s callId)
          (h : callId = msg.callId ∨ hold) : InUse s callId :=
        h.elim (fun hnew => .coming hway htype hnew.symm) huse
      refine uses_of_same rfl ?_ ?_ ?_ hcoming
      · intro callId h
        exact hentered _ .caller ((enterInvite_keys s.pcscf msg callId).1 h)
      · intro callId h
        exact hentered _ .callee ((enterInvite_keys s.pcscf msg callId).2.1 h)
      · intro callId h
        exact hentered _ .delivered ((enterInvite_keys s.pcscf msg callId).2.2 h)

theorem uses_of_delivers (h : Delivers s s') : Uses s s' :=
  uses_of_links h.scscf h.pcscf fun _ =>
    .mono h.uplink h.thread h.toScscf fun _ hout => h.toPcscf ▸ hout

theorem receive_inv (h : Inv legs s) {rest : List SipMessage}
    (htoPcscf : s.toPcscf = msg :: rest) :
    Inv legs (handleFromScscf { s with toPcscf := rest } msg).1 := by
  have hway : OnItsWay s msg := .toPcscf (htoPcscf ▸ List.mem_cons_self)
  have hlink (out : SipMessage) (hout : out ∈ rest) : out ∈ s.toPcscf := by
    rw [htoPcscf]
    exact List.mem_cons_of_mem msg hout
  obtain ⟨p, hsection, hdelivers⟩ := handleFromScscf_delivers { s with toPcscf := rest } msg
  refine h.quiet ?_ hdelivers.ue ?_
  · intro callId huse
    exact rxSection_uses hway hlink hsection callId (uses_of_delivers hdelivers callId huse)
  · intro m out hout
    rcases (handleFromScscf_handsOn { s with toPcscf := rest } msg).downlink m out hout with
      hold | hnew
    · exact Or.inl hold
    · right
      intro htype
      rcases List.mem_pair.mp hnew with rfl | rfl
      · exact hway
      · cases htype

theorem notify_inv (h : Inv legs s) {target : Str}
    (htype : msg.type ≠ .invite) : Inv legs (notify s target msg).1 := by
  have hdelivers := notify_delivers s target msg
  have hstart : Uses s { s with pcscf := { s.pcscf with scscfThread := .receiving } } := by
    exact uses_of_same rfl (fun _ h => .caller h) (fun _ h => .callee h) (fun _ h => .delivered h)
      fun _ => .mono (fun _ => rfl) (fun _ => rfl) rfl fun _ hout => hout
  refine h.quiet ?_ hdelivers.ue ?_
  · intro callId huse
    exact hstart callId (uses_of_delivers hdelivers callId huse)
  · intro m out hout
    rcases (notify_handsOn s target msg).downlink m out hout with hold | hnew
    · exact Or.inl hold
    · right
      intro hinvite
      rw [List.mem_singleton.mp hnew] at hinvite
      exact absurd hinvite htype

theorem handle_inv (h : Inv legs s) {rest : List SipMessage} (htoScscf : s.toScscf = msg :: rest)
    (hnew : ∀ leg ∈ addedLegs s.scscf msg, leg.Callable) :
    Inv (legs ++ addedLegs s.scscf msg)
      { s with
        toScscf := rest
        scscf := (scscfHandle s.scscf msg).1
        toPcscf := s.toPcscf ++ (scscfHandle s.scscf msg).2 } where
  callable leg hleg := (List.mem_append.mp hleg).elim (h.callable leg) (hnew leg)
  inUse callId huse := by
    have hway : OnItsWay s msg := .toScscf (htoScscf ▸ List.mem_cons_self)
    have hold (huse : InUse s callId) : Known (legs ++ addedLegs s.scscf msg) callId :=
      (h.inUse callId huse).append _
    cases huse with
    | stored hstored =>
        obtain ⟨cs, hcs⟩ := Option.isSome_iff_exists.mp (AList.lookup_isSome.mpr hstored)
        rcases scscfHandle_calls hcs with ⟨cs', hcs', -, -⟩ | ⟨htype, hid, -, -⟩
        · exact hold (.stored (AList.lookup_isSome.mp (by simp [hcs'])))
        · exact hold (.coming hway htype hid)
    | caller hcaller => exact hold (.caller hcaller)
    | callee hcallee => exact hold (.callee hcallee)
    | delivered hdelivered => exact hold (.delivered hdelivered)
    | coming hcoming htype hid =>
        cases hcoming with
        | uplink m hout => exact hold (.coming (.uplink m hout) htype hid)
        | forwarding m hout => exact hold (.coming (.forwarding m hout) htype hid)
        | toScscf hout =>
            refine hold (.coming (.toScscf ?_) htype hid)
            rw [htoScscf]
            exact List.mem_cons_of_mem msg hout
        | toPcscf hout =>
            rcases List.mem_append.mp hout with hbefore | hsent
            · exact hold (.coming (.toPcscf hbefore) htype hid)
            · rcases scscfHandle_invites hsent htype with rfl | ⟨leg, hleg, hcallId⟩
              · exact hold (.coming hway htype hid)
              · rw [← hid, hcallId]
                exact known_of_mem hleg
  current m := (h.current m).append _
  invited m out hout htype := (h.invited m out hout htype).append _

theorem step_inv {i : Input} {new : List Leg} (hok : NotifiesOk s.pcscf) (h : Inv legs s)
    (hstep : step label s i = some (s', new)) : Inv (legs ++ new) s' := by
  obtain ⟨⟨s₁, es⟩, hlower, hpair⟩ := Option.map_eq_some_iff.mp hstep
  obtain ⟨rfl, rfl⟩ := Prod.mk.inj hpair
  have hquiet {s₂ : State} (h₂ : Inv legs s₂) : Inv (legs ++ []) s₂ := by
    rwa [List.append_nil]
  cases step_cases hlower with
  | command n cmd =>
      obtain ⟨hcurrent, hsent⟩ := processCommand_within (cfgOf label n) (s.conns n).ue cmd
      refine phone_inv h (fun _ => created_callable (i := .command n cmd)) ?_ hsent
      rcases hcurrent with hsame | ⟨leg, hleg, hcallId⟩
      · exact hsame ▸ (h.current n).append _
      · exact hcallId ▸ known_of_mem hleg
  | @ueReceive n msg rest hdownlink =>
      refine phone_inv (dropDownlink_inv h hdownlink) (fun _ hleg => by cases hleg) ?_ ?_
      · rcases handleIncoming_current (cfgOf label n) (s.conns n).ue msg with hsame | ⟨htype, hcallId⟩
        · rw [hsame]
          exact (h.current n).append _
        · rw [hcallId]
          exact (h.invited n msg (hdownlink ▸ List.mem_cons_self) htype).append _
      · intro out hout htype
        rw [handleIncoming_sent hout] at htype
        cases htype
  | pcscfRead _ huplink => exact hquiet (read_inv h huplink)
  | pcscfForward hthread =>
      refine hquiet (forward_inv h hthread fun out => ?_)
      split <;> simp
  | pcscfCleanUp _ => exact hquiet (cleanUp_inv h _ _)
  | pcscfReceive _ htoPcscf => exact hquiet (receive_inv h htoPcscf)
  | pcscfNotify hthread =>
      refine hquiet (notify_inv h ?_)
      rw [(hok _ _ hthread).1]
      simp
  | @scscfReceive msg rest htoScscf =>
      have hcreated : created s .scscfReceive = addedLegs s.scscf msg := by
        simp [created, htoScscf]
      rw [hcreated]
      refine handle_inv h htoScscf fun leg hleg => ?_
      rw [← hcreated] at hleg
      exact created_callable hleg
  | setBarred impu barred =>
      refine hquiet (h.quiet ?_ (fun _ => rfl) fun _ _ hout => Or.inl hout)
      exact uses_of_same rfl (fun _ h => .caller h) (fun _ h => .callee h) (fun _ h => .delivered h)
        fun _ => .mono (fun _ => rfl) (fun _ => rfl) rfl fun _ hout => hout

theorem reach_inv (hrun : Reach (step label) init legs s) : NotifiesOk s.pcscf ∧ Inv legs s := by
  refine hrun.invariant (I := fun legs s => NotifiesOk s.pcscf ∧ Inv legs s) ⟨?_, init_inv⟩ ?_
  · intro _ _ hthread
    cases hthread
  · rintro _ _ i s' new ⟨hok, h⟩ _ hstep
    refine ⟨?_, step_inv hok h hstep⟩
    obtain ⟨⟨s₁, es⟩, hlower, hpair⟩ := Option.map_eq_some_iff.mp hstep
    obtain ⟨rfl, rfl⟩ := Prod.mk.inj hpair
    exact step_notifiesOk hok hlower

end Invariant

section Runs

variable {label : Nat → UeLabel} {legs : List Leg} {s s' : State} {i : Input}

theorem created_sent {es : List Event} (hstep : CallSessionControl.step label s i = some (s', es))
    {leg : Leg} (hleg : leg ∈ created s i) :
    ∃ msg, OnItsWay s' msg ∧ msg.type = .invite ∧ msg.callId = leg.callId := by
  cases step_cases hstep with
  | command n cmd =>
      obtain ⟨msg, hmsg, htype, hcallId⟩ := placedLegs_sent (cfgOf label n)
        (show leg ∈ placedLegs _ cmd from hleg)
      refine ⟨{ msg with origin := n }, .uplink n ?_, htype, hcallId⟩
      rw [phoneStep, State.modify_conns, if_pos rfl]
      exact List.mem_append_right _ (List.mem_map_of_mem hmsg)
  | @scscfReceive msg rest htoScscf =>
      have hadded : leg ∈ addedLegs s.scscf msg := by
        simpa [created, htoScscf] using hleg
      obtain ⟨out, hout, htype, hcallId⟩ := addedLegs_sent hadded
      exact ⟨out, .toPcscf (List.mem_append_right _ hout), htype, hcallId⟩
  | _ => cases hleg

theorem step_ims {legs : List Leg} (hstep : step label s i = some (s', legs)) :
    ∃ es, CallSessionControl.step label s i = some (s', es) := by
  obtain ⟨⟨next, es⟩, hims, hresult⟩ := Option.map_eq_some_iff.mp hstep
  obtain ⟨rfl, -⟩ := Prod.mk.inj hresult
  exact ⟨es, hims⟩

def uplink (label : Nat → UeLabel) : SharedUplink.Link State Input Leg SipMessage :=
  SipUplink.linkOf label (step label) step_ims

/-- While the threads write to the S-CSCF one after another, new legs have Call-IDs of their own if
and only if none in use was made from the same. -/
theorem legs_fresh_iff {s : Layered SharedUplink.Wire State}
    (hrun : Run (SharedUplink.step (uplink label))
      (SharedUplink.Guarded (uplink label) fun _ _ _ => True) (SharedUplink.init init) legs s)
    (i : Input) : Fresh s.lower i ↔ Distinct legs s.lower i := by
  obtain ⟨hwhole, -⟩ := SharedUplink.run_whole (SharedUplink.sound_init rfl) hrun
  obtain ⟨-, hinv⟩ := reach_inv hwhole
  constructor
  · intro hfresh leg hleg old _ huse hsame
    apply hfresh leg hleg old.callId huse
    rw [hsame]
  · intro hdistinct leg hleg callId huse hsame
    rcases hinv.inUse callId huse with hnone | ⟨old, hold, hcallId⟩
    · have hne : leg.callId ≠ [] := by
        cases leg <;> simp [Leg.callId, lit]
      exact hne (hsame.symm.trans hnone)
    · have hmade : old = leg := callId_injective (hinv.callable old hold)
        (created_callable hleg) (hcallId.symm.trans hsame)
      exact hdistinct leg hleg old hold (hcallId ▸ huse) hmade

/-- During a call of phones 0 and 1 phone 2 calls one of them. -/
theorem second_call_fresh :
    ∃ legs s, Run (SharedUplink.step (uplink threePhones))
      (SharedUplink.Guarded (uplink threePhones) fun _ _ _ => True) (SharedUplink.init init) legs s ∧
      created s.lower (.command 2 (.call (lit "B") (behind .c))) =
        [.call (behind .c) (lit "B") 2] ∧
      Fresh s.lower (.command 2 (.call (lit "B") (behind .c))) := by
  have hadmits : Admits (step threePhones) (fun _ s i => True ∧ SipUplink.PutsShort s (some i)) []
      init (establishedCall ++ registration 2) := by
    decide +kernel
  have hview : ((exec (step threePhones) init (establishedCall ++ registration 2)).map fun r =>
      (r.2, created r.1 (.command 2 (.call (lit "B") (behind .c))))) =
      some ([.call (behind .a) (lit "B") 2], [.call (behind .c) (lit "B") 2]) := by
    decide +kernel
  obtain ⟨legs, u, s, hrun, hseen⟩ := SharedUplink.exists_written_of_exec (uplink threePhones)
    _ (SipUplink.linkOf_fits step_ims) rfl hadmits hview
  obtain ⟨hlegs, hcreated⟩ := Prod.mk.inj hseen
  refine ⟨legs, _, hrun, hcreated, (legs_fresh_iff hrun _).mpr ?_⟩
  intro leg hleg old hold _
  rw [hcreated] at hleg
  rw [show legs = _ from hlegs] at hold
  rw [List.mem_singleton.mp hleg, List.mem_singleton.mp hold]
  decide

/-- Phone 2 is phone 0 started anew. -/
def restarted (n : Nat) : UeLabel := if n = 1 then .b else .a

/-- Phone 0 adds phone 2 to its call and asks for it again. -/
def twoConferences : List Input :=
  establishedCall ++ registration 2 ++ signalled 0 (.conference (lit "C")) ++
    [.pcscfReceive, .pcscfReceive, .ueReceive 2, .command 0 (.conference (lit "C")),
      .pcscfRead 0, .pcscfForward 0]

/-- A third party that is added twice, and a call that a restarted phone places again. -/
theorem not_fresh_again :
    (∃ legs s, Run (SharedUplink.step (uplink threePhones))
      (SharedUplink.Guarded (uplink threePhones) fun _ _ _ => True) (SharedUplink.init init) legs s ∧
        ¬Fresh s.lower .scscfReceive) ∧
      ∃ legs s, Run (SharedUplink.step (uplink restarted))
        (SharedUplink.Guarded (uplink restarted) fun _ _ _ => True) (SharedUplink.init init) legs s ∧
        ¬Fresh s.lower (.command 2 (.call (lit "B") (behind .a))) := by
  have hadmits₁ : Admits (step threePhones)
      (fun _ s i => True ∧ SipUplink.PutsShort s (some i)) [] init twoConferences := by
    decide +kernel
  have hconference : ((exec (step threePhones) init twoConferences).map fun r =>
      (created r.1 .scscfReceive,
        decide ((Leg.conference callAB).callId ∈ r.1.pcscf.callToCaller))) =
      some ([.conference callAB], true) := by
    decide +kernel
  have hadmits₂ : Admits (step restarted) (fun _ s i => True ∧ SipUplink.PutsShort s (some i)) []
      init (establishedCall ++ registration 2) := by
    decide +kernel
  have hcall : ((exec (step restarted) init (establishedCall ++ registration 2)).map fun r =>
      (created r.1 (.command 2 (.call (lit "B") (behind .a))),
        decide ((Leg.call (behind .a) (lit "B") 2).callId ∈ r.1.pcscf.callToCaller))) =
      some ([.call (behind .a) (lit "B") 2], true) := by
    decide +kernel
  constructor
  · obtain ⟨legs, u, s, hrun, hseen⟩ := SharedUplink.exists_written_of_exec (uplink threePhones)
      _ (SipUplink.linkOf_fits step_ims) rfl hadmits₁ hconference
    obtain ⟨hcreated, huse⟩ := Prod.mk.inj hseen
    refine ⟨legs, _, hrun, fun hfresh => ?_⟩
    exact hfresh (.conference callAB) (hcreated ▸ List.mem_singleton_self _) _
      (.caller (of_decide_eq_true huse)) rfl
  · obtain ⟨legs, u, s, hrun, hseen⟩ := SharedUplink.exists_written_of_exec (uplink restarted)
      _ (SipUplink.linkOf_fits step_ims) rfl hadmits₂ hcall
    obtain ⟨hcreated, huse⟩ := Prod.mk.inj hseen
    refine ⟨legs, _, hrun, fun hfresh => ?_⟩
    exact hfresh (.call (behind .a) (lit "B") 2) (hcreated ▸ List.mem_singleton_self _) _
      (.caller (of_decide_eq_true huse)) rfl

end Runs

end MobileCore.CallLegs
