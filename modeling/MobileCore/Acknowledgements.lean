import MobileCore.FailedAttempts
import MobileCore.OutstandingInvites
import MobileCore.SipUplink

/-!
# ACKs of accepted INVITEs

A phone acknowledges with the Call-ID that it holds when it reads the answer, and only where a
phone accepted the INVITE. The ACK goes to the callee that the P-CSCF then has for its Call-ID, if
no other thread writes to the S-CSCF inside its frame.
-/

namespace MobileCore.Acknowledgements

open MobileCore.CallSessionControl hiding Event step
open MobileCore.CppText
open MobileCore.LabelledRuns
open MobileCore.LastWrite
open MobileCore.LayeredMachines (Layered)
open MobileCore.OutstandingInvites
open MobileCore.SipPhones
open FailedAttempts (incomingInvite_cases)

section Speaking

variable {label : Nat → UeLabel} {tr es : List Event} {s : State} {n : Nat} {out : Outcome}

theorem phoneStep_conns (s : State) (n : Nat) (out : Outcome) (m : Nat) :
    ((phoneStep s n out).conns m).ue = (if m = n then out.1 else (s.conns m).ue) ∧
      ((phoneStep s n out).conns m).downlink = (s.conns m).downlink := by
  rw [phoneStep, State.modify_conns]
  split
  · rename_i hm
    rw [hm]
    exact ⟨rfl, rfl⟩
  · exact ⟨rfl, rfl⟩

theorem pending_phoneStep (s : State) (n : Nat) (out : Outcome) (m : Nat) :
    pending (phoneStep s n out) m = pending s m ++
      if m = n then (out.2.filter fun msg => decide (msg.type = .ack)).map
        fun msg => { msg with origin := n } else [] := by
  rw [pending, upstream_phoneStep, List.filter_append, pending]
  congr 1
  split
  · rename_i hm
    rw [hm, List.filter_map]
    congr 1
    apply List.filter_congr
    intro msg _
    simp [ackOf]
  · rfl

theorem pending_silent (s : State) (n : Nat) (hack : ∀ msg ∈ out.2, msg.type ≠ .ack) (m : Nat) :
    pending (phoneStep s n out) m = pending s m := by
  have hnone : (out.2.filter fun msg => decide (msg.type = .ack)) = [] := by
    rw [List.filter_eq_nil_iff]
    intro msg hmsg
    simpa using hack msg hmsg
  rw [pending_phoneStep, hnone, List.map_nil, ite_self, List.append_nil]

theorem phone_inv (h : Inv tr s)
    (hacks : ∀ m, Matched s.pcscf ((tr ++ es).filterMap (answer m))
      ((tr ++ es).filterMap (ackDelivered m)) (pending (phoneStep s n out) m))
    (hrings : out.1.state = .ringing → Routed s.pcscf out.1.currentCallId n)
    (haccepts : ∀ msg ∈ out.2, Acked msg → Routed s.pcscf msg.callId n)
    (hphone : Named out.1)
    (hnamed : ∀ msg ∈ out.2, msg.type = .invite ∨ Acked msg → msg.callId ≠ []) :
    Inv (tr ++ es) (phoneStep s n out) := by
  have hconns := phoneStep_conns s n out
  have hupstream {m : Nat} {msg : SipMessage} (hmsg : msg ∈ upstream (phoneStep s n out) m) :
      msg ∈ upstream s m ∨ ∃ sent ∈ out.2, msg = { sent with origin := n } := by
    rw [upstream_phoneStep] at hmsg
    rcases List.mem_append.mp hmsg with hold | hnew
    · exact Or.inl hold
    · split at hnew
      · obtain ⟨sent, hsent, rfl⟩ := List.mem_map.mp hnew
        exact Or.inr ⟨sent, hsent, rfl⟩
      · cases hnew
  constructor
  · exact hacks
  · intro callId b howed
    cases howed with
    | invited hmsg htype hid =>
        rw [(hconns b).2] at hmsg
        exact h.owed callId b (.invited hmsg htype hid)
    | ringing hstate hcurrent =>
        rw [(hconns b).1] at hstate hcurrent
        split at hstate
        · rename_i hb
          rw [if_pos hb] at hcurrent
          rw [← hcurrent, hb]
          exact hrings hstate
        · rename_i hb
          rw [if_neg hb] at hcurrent
          exact h.owed callId b (.ringing hstate hcurrent)
    | accepted hmsg hacked hid horigin =>
        rw [(hconns _).2] at hmsg
        rcases hmsg with hdown | hup
        · exact h.owed callId b (.accepted (Or.inl hdown) hacked hid horigin)
        · rcases hupstream hup with hold | ⟨sent, hsent, rfl⟩
          · exact h.owed callId b (.accepted (Or.inr hold) hacked hid horigin)
          · rw [← hid, ← horigin]
            exact haccepts sent hsent hacked
  · intro m
    rw [(hconns m).1]
    split
    · exact hphone
    · exact h.phones m
  · rintro msg ⟨m, hdown | hup⟩ hneeds
    · rw [(hconns m).2] at hdown
      exact h.links msg ⟨m, Or.inl hdown⟩ hneeds
    · rcases hupstream hup with hold | ⟨sent, hsent, rfl⟩
      · exact h.links msg ⟨m, Or.inr hold⟩ hneeds
      · exact hnamed sent hsent hneeds
  · intro m msg hmsg
    rw [phoneStep_thread, phoneStep, State.modify_conns] at hmsg
    split at hmsg
    · rename_i hm
      rw [hm] at hmsg ⊢
      rw [← List.append_assoc] at hmsg
      rcases List.mem_append.mp hmsg with hold | hnew
      · exact h.origin n msg hold
      · obtain ⟨sent, -, rfl⟩ := List.mem_map.mp hnew
        rfl
    · exact h.origin m msg hmsg
  · exact h.notifying
  · exact h.unnamed

theorem command_inv (h : Inv tr s) (hcommands : Commands (s.conns n).ue out) :
    Inv tr (phoneStep s n out) := by
  have hring (hringing : (s.conns n).ue.state = .ringing) :
      Routed s.pcscf (s.conns n).ue.currentCallId n := h.owed _ n (.ringing hringing rfl)
  obtain ⟨hphone, hinvites⟩ := hcommands.named (h.phones n)
  rw [← List.append_nil tr]
  apply phone_inv h
  · intro m
    rw [List.append_nil, pending_silent s n hcommands.ack]
    exact h.acks m
  · intro hstate
    obtain ⟨hringing, hcurrent⟩ := hcommands.rings hstate
    rw [hcurrent]
    exact hring hringing
  · intro msg hmsg hacked
    obtain ⟨hringing, hcurrent⟩ := hcommands.accepts msg hmsg hacked
    rw [hcurrent]
    exact hring hringing
  · exact hphone
  · rintro msg hmsg (hinvite | hacked)
    · exact hinvites msg hmsg hinvite
    · obtain ⟨hringing, hcurrent⟩ := hcommands.accepts msg hmsg hacked
      rw [hcurrent]
      exact h.phones n (Or.inl hringing)

end Speaking

section Receiving

variable {cfg : UeConfig} {tr : List Event} {s : State} {n : Nat} {msg : SipMessage}
  {rest : List SipMessage}

theorem drop_inv (h : Inv tr s) (hdownlink : (s.conns n).downlink = msg :: rest) :
    Inv tr (s.modify n fun c => { c with downlink := rest }) := by
  rw [← List.append_nil tr]
  refine h.carried ?_ fun _ => ⟨rfl, rfl⟩
  apply carried_in_place
  · rfl
  · rfl
  · intro m
    rw [State.modify_conns]
    split
    · rename_i hm
      rw [hm]
    · rfl
  · intro m out hout
    rw [State.modify_conns] at hout
    split at hout
    · rename_i hm
      rw [hm, hdownlink]
      exact Or.inl (List.mem_cons_of_mem msg hout)
    · exact Or.inl hout
  · intro m
    rw [State.modify_conns]
    split
    · rename_i hm
      rw [hm]
    · rfl
  · exact fun _ _ _ hrouted => hrouted
  · exact fun _ _ hnotifying => hnotifying
  · exact id

theorem answersRead_head (hdownlink : (s.conns n).downlink = msg :: rest) :
    answersRead s (.ueReceive n) = if Accepts msg then [.answered n msg] else [] := by
  rw [answersRead, hdownlink, List.take_succ_cons, List.take_zero]
  by_cases haccepts : Accepts msg
  · simp [haccepts]
  · simp [haccepts]

theorem acked_inv (h : Inv tr s) (hdownlink : (s.conns n).downlink = msg :: rest)
    (hacked : Acked msg) (hcurrent : msg.callId = (s.conns n).ue.currentCallId) :
    Inv (tr ++ [.answered n msg]) (phoneStep (s.modify n fun c => { c with downlink := rest }) n
      (handleIncoming cfg (s.conns n).ue msg)) := by
  have hdown : msg ∈ (s.conns n).downlink := by
    rw [hdownlink]
    exact List.mem_cons_self
  have hrouted : Routed s.pcscf msg.callId msg.origin :=
    h.owed _ _ (.accepted (Or.inl hdown) hacked rfl rfl)
  have hdropped := drop_inv h hdownlink
  rw [handleIncoming_acked hacked]
  apply phone_inv hdropped
  · intro m
    rw [pending_phoneStep, List.filterMap_append, List.filterMap_append]
    have hdelivered : [Event.answered n msg].filterMap (ackDelivered m) = [] := rfl
    by_cases hm : m = n
    · subst hm
      have hanswer : [Event.answered m msg].filterMap (answer m) =
          [((ackFrom cfg (s.conns m).ue).callId, msg.origin)] := by
        simp [answer, hcurrent, ackFrom]
      rw [hanswer, hdelivered, List.append_nil, if_pos rfl]
      have hsent : Routed s.pcscf
          ({ ackFrom cfg (s.conns m).ue with origin := m } : SipMessage).callId msg.origin := by
        rw [hcurrent] at hrouted
        exact hrouted
      exact Matched.acknowledge (hdropped.acks m) hsent
    · have hanswer : [Event.answered n msg].filterMap (answer m) = [] := by
        simp [answer, Ne.symm hm]
      rw [hanswer, hdelivered, if_neg hm, List.append_nil, List.append_nil, List.append_nil]
      exact hdropped.acks m
  · intro hstate
    cases hstate
  · intro ack hsent haccepts
    rw [List.mem_singleton.mp hsent] at haccepts
    cases haccepts.1
  · intro _
    exact hcurrent ▸ h.links msg ⟨n, Or.inl hdown⟩ (Or.inr hacked)
  · intro ack hsent hneeds
    rw [List.mem_singleton.mp hsent] at hneeds
    rcases hneeds with hinvite | haccepts
    · cases hinvite
    · cases haccepts.1

theorem unanswered_inv (h : Inv tr s) (hdownlink : (s.conns n).downlink = msg :: rest)
    (haccepts : ¬Accepts msg) :
    Inv tr (phoneStep (s.modify n fun c => { c with downlink := rest }) n
      (handleIncoming cfg (s.conns n).ue msg)) := by
  have hdown : msg ∈ (s.conns n).downlink := by
    rw [hdownlink]
    exact List.mem_cons_self
  have hdropped := drop_inv h hdownlink
  have hring (hringing : (s.conns n).ue.state = .ringing) :
      Routed s.pcscf (s.conns n).ue.currentCallId n := h.owed _ n (.ringing hringing rfl)
  have hquiet {out : Outcome} (hsilent : out.2 = [])
      (hrings : out.1.state = .ringing → Routed s.pcscf out.1.currentCallId n)
      (hnamed : Named out.1) :
      Inv tr (phoneStep (s.modify n fun c => { c with downlink := rest }) n out) := by
    rw [← List.append_nil tr]
    refine phone_inv hdropped (fun m => ?_) hrings ?_ hnamed ?_
    · rw [List.append_nil, pending_silent _ n (by simp [hsilent])]
      exact hdropped.acks m
    · simp [hsilent]
    · simp [hsilent]
  by_cases htype : msg.type = .invite
  · have hincoming : handleIncoming cfg (s.conns n).ue msg = incomingInvite (s.conns n).ue msg := by
      rw [handleIncoming, htype]
    have hcallId : msg.callId ≠ [] := h.links msg ⟨n, Or.inl hdown⟩ (Or.inl htype)
    obtain ⟨hsilent, hcases⟩ := incomingInvite_cases (s.conns n).ue msg
    rw [hincoming]
    rcases hcases with hsame | hcurrent
    · apply hquiet hsilent
      · rw [hsame]
        exact hring
      · rw [hsame]
        exact h.phones n
    · rw [if_neg hcallId] at hcurrent
      apply hquiet hsilent
      · intro _
        rw [hcurrent]
        exact h.owed _ n (.invited hdown htype rfl)
      · intro _
        rw [hcurrent]
        exact hcallId
  · obtain ⟨hsilent, hsame | hregistered⟩ :=
      handleIncoming_other cfg (s.conns n).ue htype haccepts
    · apply hquiet hsilent
      · rw [hsame]
        exact hring
      · rw [hsame]
        exact h.phones n
    · apply hquiet hsilent
      · rw [hregistered]
        intro hstate
        cases hstate
      · rw [hregistered]
        rintro (hstate | hstate | hstate) <;> cases hstate

theorem ueReceive_inv (h : Inv tr s) (hdownlink : (s.conns n).downlink = msg :: rest)
    (hguard : Undisturbed tr s (.ueReceive n)) :
    Inv (tr ++ answersRead s (.ueReceive n))
      (phoneStep (s.modify n fun c => { c with downlink := rest }) n
        (handleIncoming cfg (s.conns n).ue msg)) := by
  rw [answersRead_head hdownlink]
  split
  · rename_i haccepts
    obtain ⟨hacked, hcurrent⟩ := hguard msg (by rw [hdownlink]; rfl) haccepts
    exact acked_inv h hdownlink hacked hcurrent
  · rename_i haccepts
    rw [List.append_nil]
    exact unanswered_inv h hdownlink haccepts

end Receiving

section Routing

variable {tr : List Event} {s : State} {b : Nat} {msg out : SipMessage} {rest : List SipMessage}

theorem sendToUe_downlink {impu : Str} (h : out ∈ ((sendToUe s impu msg).1.conns b).downlink) :
    out ∈ (s.conns b).downlink ∨ out = msg ∧ s.pcscf.ueByImpu.lookup impu = some b := by
  unfold sendToUe at h
  split at h
  · rename_i n hknown
    rw [State.modify_conns] at h
    split at h
    · rename_i hb
      rw [hb]
      rcases List.mem_append.mp h with hold | hnew
      · exact Or.inl hold
      · exact Or.inr ⟨List.mem_singleton.mp hnew, hknown⟩
    · exact Or.inl h
  · exact Or.inl h

theorem routeInvite_downlink (h : out ∈ ((routeInvite s msg).1.conns b).downlink)
    (htype : out.type = .invite) :
    out ∈ (s.conns b).downlink ∨ out = msg ∧ s.pcscf.ueByImpu.lookup msg.sipTo = some b := by
  unfold routeInvite at h
  split at h
  · exact sendToUe_downlink h
  · dsimp only at h
    rcases sendToUe_downlink h with hcallee | ⟨hring, -⟩
    · rcases sendToUe_downlink hcallee with hold | ⟨hsame, hknown⟩
      · exact Or.inl hold
      · rw [enterInvite_ueByImpu] at hknown
        exact Or.inr ⟨hsame, hknown⟩
    · rw [hring] at htype
      cases htype

theorem routeInvite_routed (hunnamed : s.pcscf.ueByImpu.lookup [] = none)
    (hknown : s.pcscf.ueByImpu.lookup msg.sipTo = some b)
    (hcallee : s.pcscf.callToCallee.lookup msg.callId = some msg.sipTo ∨
      s.pcscf.callToCallee.lookup msg.callId = none ∧ msg.callId ∉ s.pcscf.callInviteDelivered) :
    Routed (routeInvite s msg).1.pcscf msg.callId b := by
  rw [routeInvite_pcscf]
  rcases hcallee with hcallee | ⟨hnone, hnew⟩
  · have hrouted : Routed s.pcscf msg.callId b := ⟨msg.sipTo, hcallee, hknown⟩
    split
    · exact hrouted
    · exact enterInvite_routed hrouted msg
  · have hsipTo : msg.sipTo ≠ [] := by
      intro hempty
      rw [hempty, hunnamed] at hknown
      cases hknown
    rw [if_neg hnew]
    refine ⟨msg.sipTo, ?_, by rwa [enterInvite_ueByImpu]⟩
    unfold enterInvite
    dsimp only
    split <;> simp [hnone, hsipTo]

theorem deliver_ack (hunnamed : s.pcscf.ueByImpu.lookup [] = none)
    (hrouted : Routed s.pcscf msg.callId b) :
    (deliver s (nonEmptyOr (calleeOf s.pcscf msg.callId) msg.sipTo) msg).2 = [.delivered b msg] := by
  obtain ⟨callee, hcallee, hphone⟩ := hrouted
  have hne : callee ≠ [] := by
    rintro rfl
    rw [hunnamed] at hphone
    cases hphone
  rw [calleeOf, hcallee, Option.getD_some, nonEmptyOr, if_neg hne, deliver, if_neg hne, sendToUe,
    hphone]

theorem not_acked_of_notifies (h : notifiesCallee msg.reason = true) : ¬Acked msg := by
  rintro ⟨-, hreason | hreason⟩ <;> rw [hreason] at h <;> exact absurd h (by decide)

/-- All that the thread that reads from the S-CSCF leaves behind, but for the ACKs. -/
structure Received (s s' : State) (msg : SipMessage) : Prop where
  upstream : ∀ n, upstream s n = msg :: upstream s' n
  downlink : ∀ n, ∀ out ∈ (s'.conns n).downlink,
    out ∈ (s.conns n).downlink ∨ out = msg ∨ out.type ≠ .invite ∧ ¬Acked out
  invited : ∀ b, ∀ out ∈ (s'.conns b).downlink, out.type = .invite →
    out ∈ (s.conns b).downlink ∨ Routed s'.pcscf out.callId b
  ue : ∀ n, (s'.conns n).ue = (s.conns n).ue
  conn : ∀ n, forwardedBy (s'.conns n).session.thread ++ (s'.conns n).uplink =
    forwardedBy (s.conns n).session.thread ++ (s.conns n).uplink
  routed : ∀ callId b, Routed s.pcscf callId b → Routed s'.pcscf callId b
  notifying : ∀ target out, s'.pcscf.scscfThread = .notifying target out →
    out.type = .ok200 ∧ ¬Acked out
  unnamed : s'.pcscf.ueByImpu.lookup [] = none

theorem handleFromScscf_received (h : Inv tr s) (hthread : s.pcscf.scscfThread = .receiving)
    (htoPcscf : s.toPcscf = msg :: rest) (hguard : Undisturbed tr s .pcscfReceive) :
    Received s (handleFromScscf { s with toPcscf := rest } msg).1 msg := by
  obtain ⟨p, hsection, hdelivers⟩ := handleFromScscf_delivers { s with toPcscf := rest } msg
  have hhands := handleFromScscf_handsOn { s with toPcscf := rest } msg
  have hring : (ring msg).type ≠ .invite ∧ ¬Acked (ring msg) := by simp [ring, Acked]
  constructor
  · intro n
    rw [delivers_upstream hdelivers n, upstream, htoPcscf]
    rfl
  · intro n out hout
    rcases hhands.downlink n out hout with hold | hnew
    · exact Or.inl hold
    · rcases List.mem_pair.mp hnew with rfl | rfl
      · exact Or.inr (Or.inl rfl)
      · exact Or.inr (Or.inr hring)
  · intro b out hout htype
    rcases hhands.downlink b out hout with hold | hnew
    · exact Or.inl hold
    · obtain rfl : out = msg := by
        rcases List.mem_pair.mp hnew with rfl | rfl
        · rfl
        · exact absurd htype hring.1
      rw [handleFromScscf, htype] at hout ⊢
      rcases routeInvite_downlink hout htype with hold | ⟨-, hknown⟩
      · exact Or.inl hold
      · have hcallee := hguard out (by rw [htoPcscf]; rfl) htype
          (Option.isSome_iff_exists.mpr ⟨b, hknown⟩)
        exact Or.inr (routeInvite_routed h.unnamed hknown hcallee)
  · exact hdelivers.ue
  · intro n
    rw [hdelivers.thread n, hdelivers.uplink n]
  · intro callId b hrouted
    rw [hdelivers.pcscf]
    exact rxSection_routed hsection hrouted
  · intro target out hnotifying
    rw [hdelivers.pcscf] at hnotifying
    cases hsection with
    | unchanged =>
        rw [show s.pcscf.scscfThread = _ from hnotifying] at hthread
        cases hthread
    | entered _ _ =>
        rw [enterInvite_scscfThread] at hnotifying
        rw [show s.pcscf.scscfThread = _ from hnotifying] at hthread
        cases hthread
    | answered _ htype hnotifies =>
        obtain ⟨-, rfl⟩ := ScscfThread.notifying.inj hnotifying
        exact ⟨htype, not_acked_of_notifies hnotifies⟩
  · rw [hdelivers.pcscf, hsection.ueByImpu]
    exact h.unnamed

theorem Received.pending {s' : State} (h : Received s s' msg) (n : Nat) :
    pending s n = if ackOf n msg then msg :: pending s' n else pending s' n := by
  rw [OutstandingInvites.pending, h.upstream n, List.filter_cons, OutstandingInvites.pending]

theorem received_inv (h : Inv tr s) {s' : State} (hreceived : Received s s' msg) {es : List Event}
    (hacks : ∀ n, Matched s'.pcscf ((tr ++ es).filterMap (answer n))
      ((tr ++ es).filterMap (ackDelivered n)) (pending s' n)) : Inv (tr ++ es) s' := by
  have hup {n : Nat} {out : SipMessage} (hout : out ∈ upstream s' n) : out ∈ upstream s n := by
    rw [hreceived.upstream n]
    exact List.mem_cons_of_mem msg hout
  have hmsg (n : Nat) : msg ∈ upstream s n := by
    rw [hreceived.upstream n]
    exact List.mem_cons_self
  constructor
  · exact hacks
  · intro callId b howed
    cases howed with
    | invited hout htype hid =>
        rcases hreceived.invited b _ hout htype with hold | hnew
        · exact hreceived.routed callId b (h.owed callId b (.invited hold htype hid))
        · exact hid ▸ hnew
    | ringing hstate hcurrent =>
        rw [hreceived.ue b] at hstate hcurrent
        exact hreceived.routed callId b (h.owed callId b (.ringing hstate hcurrent))
    | @accepted n out hout hacked hid horigin =>
        apply hreceived.routed callId b
        apply h.owed callId b
        rcases hout with hdown | hout
        · rcases hreceived.downlink n out hdown with hold | rfl | hother
          · exact .accepted (Or.inl hold) hacked hid horigin
          · exact .accepted (Or.inr (hmsg n)) hacked hid horigin
          · exact absurd hacked hother.2
        · exact .accepted (Or.inr (hup hout)) hacked hid horigin
  · intro n
    rw [hreceived.ue n]
    exact h.phones n
  · rintro out ⟨n, hdown | hout⟩ hneeds
    · rcases hreceived.downlink n out hdown with hold | rfl | hother
      · exact h.links out ⟨n, Or.inl hold⟩ hneeds
      · exact h.links out ⟨n, Or.inr (hmsg n)⟩ hneeds
      · exact absurd hneeds (not_or.mpr hother)
    · exact h.links out ⟨n, Or.inr (hup hout)⟩ hneeds
  · intro n out hout
    rw [hreceived.conn n] at hout
    exact h.origin n out hout
  · exact hreceived.notifying
  · exact hreceived.unnamed

end Routing

section Steps

variable {label : Nat → UeLabel} {tr : List Event} {s s' : State} {msg : SipMessage}
  {rest : List SipMessage}

theorem handleFromScscf_acks {n b : Nat} (hunnamed : s.pcscf.ueByImpu.lookup [] = none)
    (hack : ackOf n msg = true) (hrouted : Routed s.pcscf msg.callId b) :
    ((handleFromScscf s msg).2.map Event.shown).filterMap (ackDelivered n) = [(msg.callId, b)] := by
  obtain ⟨htype, horigin⟩ := of_decide_eq_true hack
  have hevents : (handleFromScscf s msg).2 = [.delivered b msg] := by
    rw [handleFromScscf, htype]
    exact deliver_ack hunnamed hrouted
  rw [hevents]
  simp [ackDelivered, htype, horigin]

theorem handleFromScscf_no_acks {n : Nat} (hack : ackOf n msg = false) :
    ((handleFromScscf s msg).2.map Event.shown).filterMap (ackDelivered n) = [] := by
  apply ackDelivered_shown
  intro m out hout
  rcases List.mem_pair.mp ((handleFromScscf_handsOn s msg).events m out hout) with rfl | rfl
  · exact hack
  · simp [ackOf, ring]

theorem pcscfReceive_inv (h : Inv tr s) (hthread : s.pcscf.scscfThread = .receiving)
    (htoPcscf : s.toPcscf = msg :: rest) (hguard : Undisturbed tr s .pcscfReceive) :
    Inv (tr ++ (handleFromScscf { s with toPcscf := rest } msg).2.map .shown)
      (handleFromScscf { s with toPcscf := rest } msg).1 := by
  have hreceived := handleFromScscf_received h hthread htoPcscf hguard
  have hkept {n : Nat} {expected delivered : List (Str × Nat)}
      (hmatched : Matched s.pcscf expected delivered
        (pending (handleFromScscf { s with toPcscf := rest } msg).1 n)) :
      Matched (handleFromScscf { s with toPcscf := rest } msg).1.pcscf expected delivered
        (pending (handleFromScscf { s with toPcscf := rest } msg).1 n) :=
    hmatched.mono fun ack _ b => hreceived.routed ack.callId b
  apply received_inv h hreceived
  intro n
  have hacks := h.acks n
  rw [List.filterMap_append, List.filterMap_append, answer_shown, List.append_nil]
  rw [hreceived.pending n] at hacks
  cases hack : ackOf n msg with
  | true =>
      rw [hack, if_pos rfl] at hacks
      obtain ⟨b, hrouted, hmatched⟩ := hacks.deliver
      rw [handleFromScscf_acks (s := { s with toPcscf := rest }) h.unnamed hack hrouted]
      exact hkept hmatched
  | false =>
      rw [hack, if_neg Bool.false_ne_true] at hacks
      rw [handleFromScscf_no_acks hack, List.append_nil]
      exact hkept hacks

theorem step_inv {i : Input} {es : List Event} (h : Inv tr s) (hlinks : PhoneLinks label s)
    (hguard : Undisturbed tr s i) (hstep : step label s i = some (s', es)) :
    Inv (tr ++ es) s' := by
  obtain ⟨⟨next, shown⟩, hims, hresult⟩ := Option.map_eq_some_iff.mp hstep
  obtain ⟨rfl, rfl⟩ := Prod.ext_iff.mp hresult
  cases step_cases hims with
  | command n cmd =>
      change Inv (tr ++ []) _
      rw [List.append_nil]
      exact command_inv h (processCommand_commands cmd)
  | ueReceive hdownlink =>
      rw [List.map_nil, List.append_nil]
      exact ueReceive_inv h hdownlink hguard
  | pcscfRead hthread huplink =>
      refine h.carried (read_carried hthread huplink hlinks hguard) (silent_shown ?_)
      exact fun _ _ hout => absurd hout handleFromUe_events
  | @pcscfForward n msg hthread =>
      refine h.carried (forward_carried h hthread ?_) (silent_shown ?_)
      · split <;> rfl
      · exact fun _ _ hout => by cases hout
  | pcscfCleanUp hthread =>
      refine h.carried (cleanUp_carried hthread (hguard _ hthread)) (silent_shown ?_)
      intro m out hout
      cases List.mem_singleton.mp hout
  | pcscfReceive hthread htoPcscf => exact pcscfReceive_inv h hthread htoPcscf hguard
  | @pcscfNotify target msg hthread =>
      refine h.carried (notify_carried h hthread) (silent_shown ?_)
      intro m out hout
      rw [List.mem_singleton.mp ((notify_handsOn s target msg).events m out hout),
        (h.notifying target msg hthread).1]
      simp
  | @scscfReceive msg rest htoScscf =>
      refine h.carried (scscf_carried htoScscf ?_) (silent_shown ?_)
      · exact hguard msg (by rw [htoScscf]; rfl)
      · exact fun _ _ hout => by cases hout
  | setBarred impu barred =>
      refine h.carried ?_ (silent_shown fun _ _ hout => by cases hout)
      exact carried_in_place rfl rfl (fun _ => rfl) (fun _ _ => Or.inl) (fun _ => rfl)
        (fun _ _ _ => id) (fun _ _ => id) id

theorem run_inv (hrun : Run (step label) Undisturbed init tr s) : PhoneLinks label s ∧ Inv tr s := by
  refine hrun.invariant (I := fun tr s => PhoneLinks label s ∧ Inv tr s) ⟨?_, init_inv⟩ ?_
  · intro n msg hmsg
    cases hmsg
  · rintro tr s i s' es ⟨hlinks, h⟩ hguard hstep
    refine ⟨?_, step_inv h hlinks hguard hstep⟩
    obtain ⟨⟨next, shown⟩, hims, hresult⟩ := Option.map_eq_some_iff.mp hstep
    obtain ⟨rfl, -⟩ := Prod.ext_iff.mp hresult
    exact step_links hlinks hims

end Steps

section Uplink

theorem step_ims {label : Nat → UeLabel} {s s' : State} {i : Input} {es : List Event}
    (hstep : step label s i = some (s', es)) :
    ∃ shown, CallSessionControl.step label s i = some (s', shown) := by
  obtain ⟨⟨next, shown⟩, hims, hresult⟩ := Option.map_eq_some_iff.mp hstep
  obtain ⟨rfl, -⟩ := Prod.mk.inj hresult
  exact ⟨shown, hims⟩

def uplink (label : Nat → UeLabel) : SharedUplink.Link State Input Event SipMessage :=
  SipUplink.linkOf label (step label) step_ims

/-- In every run that disturbs no outstanding INVITE and whose threads write to the S-CSCF one
after another the ACKs are those of the acceptances that were read, and each reaches the phone that
accepted. -/
theorem acks_reach {label : Nat → UeLabel} {tr : List Event}
    {s : Layered SharedUplink.Wire State}
    (hrun : Run (SharedUplink.step (uplink label)) (SharedUplink.Guarded (uplink label) Undisturbed)
      (SharedUplink.init init) tr s) : AcksReach tr s.lower := by
  obtain ⟨hwhole, -⟩ := SharedUplink.run_whole (SharedUplink.sound_init rfl) hrun
  exact fun n => ((run_inv hwhole).2.acks n).split

end Uplink

section Schedules

variable {label : Nat → UeLabel} {tr : List Event} {s : State}

/-- `Undisturbed` by the tables of the P-CSCF alone: an INVITE or a registration replaces no other
entry, and a call is cleaned up after its entry is gone. -/
def Checked (tr : List Event) (s : State) : Input → Prop
  | .pcscfRead n => ∀ msg ∈ (s.conns n).uplink.head?,
      (msg.type = .invite → s.pcscf.callToCallee.lookup msg.callId = none ∨
        s.pcscf.callToCallee.lookup msg.callId = some msg.sipTo) ∧
      (msg.type = .register → s.pcscf.ueByImpu.lookup msg.impu = none ∨
        s.pcscf.ueByImpu.lookup msg.impu = some n)
  | .pcscfCleanUp n => ∀ callId, (s.conns n).session.thread = .cleaningUp callId →
      s.pcscf.callToCallee.lookup callId = none
  | i => Undisturbed tr s i

theorem routed_of_outstanding (h : Inv tr s) {callId : Str} (hcall : Outstanding s callId) :
    ∃ b, Routed s.pcscf callId b := by
  rcases hcall with ⟨b, howed⟩ | ⟨n, ack, hack, htype, rfl⟩
  · exact ⟨b, h.owed callId b howed⟩
  · have hpending : ack ∈ pending s ack.origin := by
      refine List.mem_filter.mpr ⟨mem_upstream.mpr ?_, by simp [ackOf, htype]⟩
      rcases mem_upstream.mp hack with hup | hup | hconn
      · exact Or.inl hup
      · exact Or.inr (Or.inl hup)
      · have horigin : ack.origin = n := h.origin n ack (List.mem_append.mpr hconn)
        rw [horigin]
        exact Or.inr (Or.inr hconn)
    obtain ⟨rest, -, hwaiting, hrest⟩ := h.acks ack.origin
    have hcallId : ack.callId ∈ rest.map Prod.fst := by
      rw [← hwaiting]
      exact List.mem_map_of_mem hpending
    obtain ⟨⟨callId, b⟩, ha, rfl⟩ := List.mem_map.mp hcallId
    exact ⟨b, hrest _ ha⟩

theorem undisturbed_of_checked (h : Inv tr s) {i : Input} (hchecked : Checked tr s i) :
    Undisturbed tr s i := by
  cases i with
  | pcscfRead n =>
      intro msg hmsg
      obtain ⟨hinvite, hregister⟩ := hchecked msg hmsg
      constructor
      · intro htype hcall
        obtain ⟨b, callee, hcallee, -⟩ := routed_of_outstanding h hcall
        refine (hinvite htype).resolve_left ?_
        rw [hcallee]
        simp
      · intro htype callId hcall himpu
        obtain ⟨b, callee, hcallee, hphone⟩ := routed_of_outstanding h hcall
        obtain rfl : msg.impu = callee := Option.some.inj (himpu.symm.trans hcallee)
        refine (hregister htype).resolve_left ?_
        rw [hphone]
        simp
  | pcscfCleanUp n =>
      intro callId hthread hcall
      obtain ⟨b, callee, hcallee, -⟩ := routed_of_outstanding h hcall
      rw [hchecked callId hthread] at hcallee
      cases hcallee
  | _ => exact hchecked

theorem run_undisturbed {Q : State → Input → Prop}
    (hrun : Run (step label) (fun tr s i => Checked tr s i ∧ Q s i) init tr s) :
    Run (step label) (fun tr s i => Undisturbed tr s i ∧ Q s i) init tr s := by
  induction hrun with
  | nil => exact Run.nil
  | snoc _ hguard hstep ih =>
      obtain ⟨hchecked, hQ⟩ := hguard
      obtain ⟨-, hinv⟩ := run_inv (ih.mono fun _ _ _ => And.left)
      exact ih.snoc ⟨undisturbed_of_checked hinv hchecked, hQ⟩ hstep

instance Checked.decidable (tr : List Event) (s : State) : (i : Input) → Decidable (Checked tr s i)
  | .ueReceive n =>
    inferInstanceAs (Decidable (∀ msg ∈ (s.conns n).downlink.head?, _ → _ ∧ _ = _))
  | .scscfReceive => inferInstanceAs (Decidable (∀ msg ∈ s.toScscf.head?, _ = _ → _ = _))
  | .pcscfRead n =>
    inferInstanceAs (Decidable (∀ msg ∈ (s.conns n).uplink.head?,
      (_ = _ → _ = _ ∨ _ = _) ∧ (_ = _ → _ = _ ∨ _ = _)))
  | .pcscfCleanUp n =>
    match h : (s.conns n).session.thread with
    | .cleaningUp callId =>
      decidable_of_iff (s.pcscf.callToCallee.lookup callId = none) (by simp [Checked, h])
    | .receiving | .forwarding _ => .isTrue (by simp [Checked, h])
  | .pcscfReceive =>
    inferInstanceAs (Decidable (∀ msg ∈ s.toPcscf.head?, _ = _ → _ = _ → _ = _ ∨ _ = _ ∧ _ ∉ _))
  | .command _ _ | .pcscfForward _ | .pcscfNotify | .setBarred _ _ => .isTrue trivial

/-- The phone that called acknowledges, and the other one gets its ACK. -/
theorem established_call_acknowledged :
    ∃ tr s, Run (SharedUplink.step (uplink threePhones))
      (SharedUplink.Guarded (uplink threePhones) Undisturbed) (SharedUplink.init init) tr s ∧
      AcksReach tr s.lower ∧ tr.filterMap (answer 0) = [(callAB, 1)] ∧
      tr.filterMap (ackDelivered 0) = [(callAB, 1)] := by
  have hadmits : Admits (step threePhones)
      (fun tr s i => Checked tr s i ∧ SipUplink.PutsShort s (some i)) [] init establishedCall := by
    decide +kernel
  have hexec : (exec (step threePhones) init establishedCall).map (fun r =>
      (r.2.filterMap (answer 0), r.2.filterMap (ackDelivered 0))) =
      some ([(callAB, 1)], [(callAB, 1)]) := by
    decide +kernel
  obtain ⟨tr, s, hchecked, hseen⟩ := exists_run_of_exec _ hadmits hexec
  have hsound := SharedUplink.sound_init (L := uplink threePhones) (s := init) rfl
  obtain ⟨u, hrun, -⟩ := SharedUplink.run_written (SipUplink.linkOf_fits step_ims) hsound
    (fun _ => rfl) (run_undisturbed hchecked)
  exact ⟨tr, _, hrun, acks_reach hrun, congrArg Prod.fst hseen, congrArg Prod.snd hseen⟩

/-- Phone 0 adds phone 2 to its call with phone 1. Phone 2 accepts, and phone 0 acknowledges. -/
def conferenceCall : List Input :=
  registration 0 ++ registration 1 ++ registration 2 ++ callSetup ++
    signalled 0 (.conference (lit "C")) ++ [.pcscfReceive, .pcscfReceive, .ueReceive 2] ++
    signalled 2 .accept ++
    [.pcscfReceive, .ueReceive 0, .ueReceive 0, .ueReceive 0, .pcscfRead 0, .pcscfForward 0,
      .scscfReceive, .pcscfReceive]

/-- The ACK of the conference leg carries the Call-ID of the first call, and the answer to the
request for the conference gets none. -/
theorem conference_leg_not_acknowledged :
    ¬ ∀ tr s, Reach (SharedUplink.step (uplink threePhones)) (SharedUplink.init init) tr s →
      AcksReach tr s.lower := by
  intro h
  have hadmits : Admits (step threePhones)
      (fun _ s i => True ∧ SipUplink.PutsShort s (some i)) [] init conferenceCall := by
    decide +kernel
  have hexec : (exec (step threePhones) init conferenceCall).map (fun r =>
      (r.2.filterMap (answer 0), r.2.filterMap (ackDelivered 0))) =
      some ([(callAB, 1), (callAB, 0), (callAB ++ lit "-conf", 2)], [(callAB, 1), (callAB, 2)]) := by
    decide +kernel
  obtain ⟨tr, u, s, hrun, hseen⟩ := SharedUplink.exists_written_of_exec (uplink threePhones)
    _ (SipUplink.linkOf_fits step_ims) rfl hadmits hexec
  obtain ⟨rest, hsplit, -⟩ := h tr _ hrun.reach 0
  have hanswers := congrArg Prod.fst hseen
  have hacks := congrArg Prod.snd hseen
  dsimp only at hanswers hacks
  rw [hanswers, hacks] at hsplit
  simp at hsplit

end Schedules

end MobileCore.Acknowledgements
