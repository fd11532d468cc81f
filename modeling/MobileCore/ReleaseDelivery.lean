import MobileCore.CallSessionControl

/-!
# Where a BYE and its answer are delivered

A BYE carries no addresses, so the P-CSCF routes it and its answer by `call_to_caller_` alone, as
the last INVITE of the call or the cleanup of a BYE left it.
-/

namespace MobileCore.ReleaseDelivery

open MobileCore.LabelledRuns
open MobileCore.LastWrite
open MobileCore.CppText
open MobileCore.SipPhones
open MobileCore.CallSessionControl

def changesCaller (callId : Str) : Event → Bool
  | .callerMapped id _ => id = callId
  | .callerErased id => id = callId
  | _ => false

def callerSet : Event → Option Str
  | .callerMapped _ caller => some caller
  | _ => none

/-- The caller that the last change of `call_to_caller_` left for the Call-ID. -/
def lastCaller (tr : List Event) (callId : Str) : Option Str :=
  (lastWhere (changesCaller callId) tr).bind callerSet

/-- The message that an event hands to a phone, or fails to. -/
def routed : Event → Option SipMessage
  | .delivered _ msg => some msg
  | .undelivered _ msg => some msg
  | _ => none

def DeliveredTo (label : Nat → UeLabel) (impu : Str) (msg : SipMessage) (e : Event) : Prop :=
  ∃ n, e = .delivered n msg ∧ (cfgOf label n).impu = impu

def InCall (ue : Ue) (callId : Str) : Prop :=
  (ue.state = .inCall ∨ ue.state = .onHold) ∧ ue.currentCallId = callId

/-- The two phones are in the call, whose parties they are at the S-CSCF, in either role. -/
structure Established (label : Nat → UeLabel) (s : State) (n m : Nat) (callId : Str) : Prop where
  first : InCall (s.conns n).ue callId
  second : InCall (s.conns m).ue callId
  parties :
    storedParties s.scscf callId = some ((cfgOf label n).impu, (cfgOf label m).impu) ∨
      storedParties s.scscf callId = some ((cfgOf label m).impu, (cfgOf label n).impu)

def byeOf (n : Nat) (callId : Str) : SipMessage := { type := .bye, callId := callId, origin := n }

def byeAnswerOf (n : Nat) (callId : Str) : SipMessage :=
  { type := .ok200, callId := callId, reason := lit "BYE", origin := n }

/-- A message that tears a call down has no addresses. -/
def Unaddressed (msg : SipMessage) : Prop := IsRelease msg → msg.sipFrom = [] ∧ msg.sipTo = []

/-- A message that tears a call down goes to the last caller, who is registered, or nowhere. -/
def RoutedToLastCaller (label : Nat → UeLabel) (before : List Event) : Event → Prop
  | .delivered n msg => IsRelease msg → lastCaller before msg.callId = some (cfgOf label n).impu
  | .undelivered target msg => IsRelease msg →
      (lastCaller before msg.callId).getD [] = target ∧ .registered target ∉ before
  | _ => True

section History

theorem lastCaller_append_of_forall {tr es : List Event} {callId : Str}
    (h : ∀ e ∈ es, changesCaller callId e = false) :
    lastCaller (tr ++ es) callId = lastCaller tr callId := by
  rw [lastCaller, lastWhere_append_of_forall tr h, lastCaller]

theorem lastCaller_mapped (tr : List Event) (id caller callId : Str) :
    lastCaller (tr ++ [.callerMapped id caller]) callId =
      if id = callId then some caller else lastCaller tr callId := by
  rw [lastCaller, lastWhere_snoc]
  by_cases hid : id = callId
  · simp [changesCaller, callerSet, hid]
  · simp [changesCaller, hid, lastCaller]

theorem lastCaller_erased (tr : List Event) (id callId : Str) :
    lastCaller (tr ++ [.callerErased id]) callId =
      if id = callId then none else lastCaller tr callId := by
  rw [lastCaller, lastWhere_snoc]
  by_cases hid : id = callId
  · simp [changesCaller, callerSet, hid]
  · simp [changesCaller, hid, lastCaller]

theorem changesCaller_of_routed {e : Event} {msg : SipMessage} (h : routed e = some msg)
    (callId : Str) : changesCaller callId e = false := by
  cases e <;> first | rfl | cases h

theorem not_registered_of_routed {es : List Event} (h : ∀ e ∈ es, (routed e).isSome)
    (impu : Str) : .registered impu ∉ es := by
  intro hmem
  cases h _ hmem

end History

section Routing

variable {s : State} {msg : SipMessage}

theorem deliver_routed (s : State) (target : Str) (msg : SipMessage) :
    ∃ e, (deliver s target msg).2 = [e] ∧ routed e = some msg := by
  unfold deliver
  split
  · exact ⟨_, rfl, rfl⟩
  · unfold sendToUe
    split <;> exact ⟨_, rfl, rfl⟩

theorem sendToUe_routed (s : State) (impu : Str) (msg : SipMessage) :
    ∃ e, (sendToUe s impu msg).2 = [e] ∧ routed e = some msg := by
  unfold sendToUe
  split <;> exact ⟨_, rfl, rfl⟩

theorem handleFromScscf_release (hrelease : IsRelease msg) (hplain : Unaddressed msg) :
    handleFromScscf s msg = deliver s (callerOf s.pcscf msg.callId) msg := by
  obtain ⟨hfrom, hto⟩ := hplain hrelease
  have hor : ∀ text : Str, nonEmptyOr text [] = text := by
    intro text
    unfold nonEmptyOr
    split
    · rename_i hempty
      exact hempty.symm
    · rfl
  rcases hrelease with hbye | ⟨hok, hreason⟩
  · simp only [handleFromScscf, hbye, hfrom, hto, hor]
  · have hregister : ¬ lit "BYE" = lit "REGISTER" := by decide
    have hnotifies : notifiesCallee (lit "BYE") = false := by decide
    simp only [handleFromScscf, hok, route200Ok, hreason, hregister, hnotifies, hfrom, hor,
      if_false, Bool.false_eq_true]

theorem handleFromScscf_other (hother : ¬ IsRelease msg) :
    ∀ e ∈ (handleFromScscf s msg).2, (∀ out, routed e = some out → ¬ IsRelease out) ∧
      ((routed e).isSome ∨ e = .callerMapped msg.callId msg.sipFrom) := by
  have hdeliver : ∀ (s' : State) (target : Str), ∀ e ∈ (deliver s' target msg).2,
      (∀ out, routed e = some out → ¬ IsRelease out) ∧
        ((routed e).isSome ∨ e = .callerMapped msg.callId msg.sipFrom) := by
    intro s' target e he
    obtain ⟨e', hes, hrouted⟩ := deliver_routed s' target msg
    rw [hes] at he
    obtain rfl := List.mem_singleton.mp he
    refine ⟨fun out hout => ?_, Or.inl (by rw [hrouted]; rfl)⟩
    rw [hrouted] at hout
    exact Option.some.inj hout ▸ hother
  have hsend : ∀ (s' : State) (impu : Str) (out : SipMessage), ¬ IsRelease out →
      ∀ e ∈ (sendToUe s' impu out).2,
      (∀ out, routed e = some out → ¬ IsRelease out) ∧
        ((routed e).isSome ∨ e = .callerMapped msg.callId msg.sipFrom) := by
    intro s' impu out hnot e he
    obtain ⟨e', hes, hrouted⟩ := sendToUe_routed s' impu out
    rw [hes] at he
    obtain rfl := List.mem_singleton.mp he
    refine ⟨fun out' hout' => ?_, Or.inl (by rw [hrouted]; rfl)⟩
    rw [hrouted] at hout'
    exact Option.some.inj hout' ▸ hnot
  unfold handleFromScscf
  split
  · unfold routeInvite
    split
    · exact hsend s msg.sipTo msg hother
    · dsimp only
      intro e he
      rcases List.mem_append.mp he with hentered | hsent
      · unfold enterInvite at hentered
        dsimp only at hentered
        split at hentered
        · obtain rfl := List.mem_singleton.mp hentered
          exact ⟨by simp [routed], Or.inr rfl⟩
        · cases hentered
      · rcases List.mem_append.mp hsent with hcallee | hcaller
        · exact hsend _ msg.sipTo msg hother e hcallee
        · exact hsend _ msg.sipFrom (ring msg) (by simp [IsRelease, ring]) e hcaller
  · exact hdeliver s _
  · exact hdeliver s _
  · exact hdeliver s _
  · unfold route200Ok
    split
    · exact hdeliver _ _
    · dsimp only
      split
      · intro e he
        cases he
      · exact hdeliver s _
  · exact hdeliver s _
  · exact hdeliver s _

end Routing

section Invariant

variable {label : Nat → UeLabel}

/-- A connection on which nothing happens before the registration of its phone. -/
structure ConnInv (label : Nat → UeLabel) (tr : List Event) (n : Nat) (c : Conn) : Prop where
  uplink : ∀ msg ∈ c.uplink, FromPhone (cfgOf label n) msg
  forwarding : ∀ msg, c.session.thread = .forwarding msg → Unaddressed msg
  downlink : c.downlink ≠ [] → .registered (cfgOf label n).impu ∈ tr
  active : Active c.ue → .registered (cfgOf label n).impu ∈ tr

structure Inv (label : Nat → UeLabel) (tr : List Event) (s : State) : Prop where
  conns : ∀ n, ConnInv label tr n (s.conns n)
  toScscf : ∀ msg ∈ s.toScscf, Unaddressed msg
  toPcscf : ∀ msg ∈ s.toPcscf, Unaddressed msg
  notifying : ∀ target msg, s.pcscf.scscfThread = .notifying target msg → ¬ IsRelease msg
  known : ∀ impu n, s.pcscf.ueByImpu.lookup impu = some n → impu = (cfgOf label n).impu
  registered : ∀ impu, .registered impu ∈ tr ↔ (s.pcscf.ueByImpu.lookup impu).isSome
  caller : ∀ callId, s.pcscf.callToCaller.lookup callId = lastCaller tr callId
  backed : Backed (RoutedToLastCaller label) tr

variable {tr es : List Event} {s s' : State}

theorem ConnInv.append {n : Nat} {c : Conn} (h : ConnInv label tr n c) (es : List Event) :
    ConnInv label (tr ++ es) n c where
  uplink := h.uplink
  forwarding := h.forwarding
  downlink hne := List.mem_append_left es (h.downlink hne)
  active hactive := List.mem_append_left es (h.active hactive)

theorem modify_connInv (h : ∀ m, ConnInv label tr m (s.conns m)) (n : Nat) (f : Conn → Conn)
    (hf : ConnInv label tr n (f (s.conns n))) (m : Nat) :
    ConnInv label tr m ((s.modify n f).conns m) := by
  rw [State.modify_conns]
  split
  · rename_i hm
    exact hm ▸ hf
  · exact h m

theorem Inv.registered_of_known (h : Inv label tr s) {impu : Str} {n : Nat}
    (hknown : s.pcscf.ueByImpu.lookup impu = some n) :
    .registered (cfgOf label n).impu ∈ tr := by
  rw [← h.known impu n hknown, h.registered, hknown]
  rfl

theorem lastCaller_of_routed (hes : ∀ e ∈ es, (routed e).isSome) (callId : Str) :
    lastCaller (tr ++ es) callId = lastCaller tr callId := by
  refine lastCaller_append_of_forall fun e he => ?_
  obtain ⟨msg, hmsg⟩ := Option.isSome_iff_exists.mp (hes e he)
  exact changesCaller_of_routed hmsg callId

theorem phone_inv (h : Inv label tr s) (n : Nat) (out : Outcome)
    (hout : ∀ msg ∈ out.2, FromPhone (cfgOf label n) msg)
    (hactive : Active out.1 → .registered (cfgOf label n).impu ∈ tr) :
    Inv label tr (phoneStep s n out) := by
  refine { h with conns := modify_connInv h.conns n _ ⟨fun msg hmsg => ?_, ?_, ?_, hactive⟩ }
  · rcases List.mem_append.mp hmsg with hold | hnew
    · exact (h.conns n).uplink msg hold
    · obtain ⟨sent, hsent, rfl⟩ := List.mem_map.mp hnew
      obtain ⟨hregister, hinvite, hrelease⟩ := hout sent hsent
      exact ⟨hregister, hinvite, hrelease⟩
  · exact (h.conns n).forwarding
  · exact (h.conns n).downlink

theorem dropDownlink_inv (h : Inv label tr s) {n : Nat} {msg : SipMessage}
    {rest : List SipMessage} (hdownlink : (s.conns n).downlink = msg :: rest) :
    Inv label tr (s.modify n fun c => { c with downlink := rest }) := by
  refine { h with
    conns := modify_connInv h.conns n (fun c => { c with downlink := rest })
      ⟨(h.conns n).uplink, (h.conns n).forwarding, fun _ => ?_, (h.conns n).active⟩ }
  exact (h.conns n).downlink (by simp [hdownlink])

theorem takeUp_inv (h : Inv label tr s) {n : Nat} {msg : SipMessage} {rest : List SipMessage}
    (huplink : (s.conns n).uplink = msg :: rest) :
    Inv label tr (setThread (s.modify n fun c => { c with uplink := rest }) n
      (.forwarding msg)) := by
  have hrest : ConnInv label tr n { s.conns n with uplink := rest } :=
    ⟨fun later hlater => (h.conns n).uplink later (huplink ▸ List.mem_cons_of_mem msg hlater),
      (h.conns n).forwarding, (h.conns n).downlink, (h.conns n).active⟩
  have hmsg : Unaddressed msg :=
    ((h.conns n).uplink msg (huplink ▸ List.mem_cons_self)).release
  refine { h with
    conns := modify_connInv (modify_connInv h.conns n _ hrest) n _ ?_ }
  rw [State.modify_conns, if_pos rfl]
  refine ⟨hrest.uplink, fun msg' hmsg' => ?_, hrest.downlink, hrest.active⟩
  obtain rfl := UeThread.forwarding.inj hmsg'
  exact hmsg

theorem setThread_inv (h : Inv label tr s) (n : Nat) {thread : UeThread}
    (hthread : ∀ msg, thread ≠ .forwarding msg) : Inv label tr (setThread s n thread) := by
  refine { h with
    conns := modify_connInv h.conns n
      (fun c => { c with session := { c.session with thread := thread } })
      ⟨(h.conns n).uplink, fun msg hmsg => absurd hmsg (hthread msg), (h.conns n).downlink,
        (h.conns n).active⟩ }

theorem register_inv (h : Inv label tr s) {n : Nat} {msg : SipMessage}
    (htype : msg.type = .register) (himpu : msg.impu = (cfgOf label n).impu) :
    Inv label (tr ++ (handleFromUe s n msg).2) (handleFromUe s n msg).1 := by
  have hes : (handleFromUe s n msg).2 = [.registered msg.impu] := by
    simp only [handleFromUe, htype]
  have hconns := modify_connInv h.conns n
    (fun c => { c with session := { c.session with impu := msg.impu, ip := msg.contact } })
    ⟨(h.conns n).uplink, (h.conns n).forwarding, (h.conns n).downlink, (h.conns n).active⟩
  rw [hes]
  simp only [handleFromUe, htype]
  refine ⟨fun m => (hconns m).append _, h.toScscf, h.toPcscf, h.notifying,
    fun impu m hlookup => ?_, fun impu => ?_, fun callId => ?_, ?_⟩
  · by_cases himpu' : impu = msg.impu
    · subst himpu'
      obtain rfl : n = m := by simpa using hlookup
      exact himpu
    · rw [AList.lookup_insert_ne himpu'] at hlookup
      exact h.known impu m hlookup
  · by_cases himpu' : impu = msg.impu
    · subst himpu'
      simp
    · rw [AList.lookup_insert_ne himpu']
      simpa [State.modify, himpu'] using h.registered impu
  · rw [lastCaller_append_of_forall (by simp [changesCaller])]
    exact h.caller callId
  · exact h.backed.snoc trivial

theorem invite_inv (h : Inv label tr s) {n : Nat} {msg : SipMessage}
    (htype : msg.type = .invite) :
    Inv label (tr ++ (handleFromUe s n msg).2) (handleFromUe s n msg).1 := by
  simp only [handleFromUe, htype]
  refine ⟨fun m => (h.conns m).append _, h.toScscf, h.toPcscf, h.notifying, h.known,
    fun impu => ?_, fun callId => ?_, h.backed.snoc trivial⟩
  · simpa using h.registered impu
  · rw [lastCaller_mapped]
    split
    · rename_i hid
      rw [hid, AList.lookup_insert]
    · rename_i hid
      rw [AList.lookup_insert_ne (Ne.symm hid)]
      exact h.caller callId

theorem handleFromUe_inv (h : Inv label tr s) {n : Nat} {msg : SipMessage}
    (hmsg : FromPhone (cfgOf label n) msg) :
    Inv label (tr ++ (handleFromUe s n msg).2) (handleFromUe s n msg).1 := by
  by_cases hregister : msg.type = .register
  · exact register_inv h hregister (hmsg.register hregister)
  · by_cases hinvite : msg.type = .invite
    · exact invite_inv h hinvite
    · have hnone : handleFromUe s n msg = (s, []) := by
        unfold handleFromUe
        split
        · exact absurd (by assumption) hregister
        · exact absurd (by assumption) hinvite
        · rfl
      rw [hnone, List.append_nil]
      exact h

theorem forward_inv (h : Inv label tr s) {n : Nat} {msg : SipMessage}
    (hforwarding : (s.conns n).session.thread = .forwarding msg) {thread : UeThread}
    (hthread : ∀ msg, thread ≠ .forwarding msg) :
    Inv label tr (setThread { s with toScscf := s.toScscf ++ [msg] } n thread) := by
  have hlink : Inv label tr { s with toScscf := s.toScscf ++ [msg] } := by
    refine { h with toScscf := fun msg' hmsg' => ?_ }
    rcases List.mem_append.mp hmsg' with hold | hnew
    · exact h.toScscf msg' hold
    · obtain rfl := List.mem_singleton.mp hnew
      exact (h.conns n).forwarding msg' hforwarding
  exact setThread_inv hlink n hthread

theorem cleanUp_inv (h : Inv label tr s) (n : Nat) (callId : Str) :
    Inv label (tr ++ [.callerErased callId])
      (setThread { s with pcscf := cleanUp s.pcscf callId } n .receiving) := by
  have hcleaned : Inv label (tr ++ [.callerErased callId])
      { s with pcscf := cleanUp s.pcscf callId } := by
    refine ⟨fun m => (h.conns m).append _, h.toScscf, h.toPcscf, h.notifying, h.known,
      fun impu => ?_, fun id => ?_, h.backed.snoc trivial⟩
    · simpa [cleanUp] using h.registered impu
    · rw [lastCaller_erased]
      by_cases hid : callId = id
      · rw [if_pos hid, hid]
        exact AList.lookup_erase id s.pcscf.callToCaller
      · rw [if_neg hid, ← h.caller id]
        exact AList.lookup_erase_ne (Ne.symm hid)
  exact setThread_inv hcleaned n (by simp)

theorem delivers_inv (h : Inv label tr s) {p : PcscfNode} {rest : List SipMessage}
    (hdelivers : Delivers { s with pcscf := p, toPcscf := rest } s')
    (hrest : ∀ msg ∈ rest, msg ∈ s.toPcscf) (hueByImpu : p.ueByImpu = s.pcscf.ueByImpu)
    (hnotifying : ∀ target msg, p.scscfThread = .notifying target msg → ¬ IsRelease msg)
    (hregistered : ∀ impu, .registered impu ∉ es)
    (hcaller : ∀ callId, p.callToCaller.lookup callId = lastCaller (tr ++ es) callId)
    (hbacked : Backed (RoutedToLastCaller label) (tr ++ es)) : Inv label (tr ++ es) s' := by
  refine ⟨fun n => ?_, ?_, ?_, ?_, ?_, fun impu => ?_, ?_, hbacked⟩
  · refine ⟨fun msg hmsg => ?_, fun msg hmsg => ?_, fun hne => ?_, fun hactive => ?_⟩
    · rw [hdelivers.uplink n] at hmsg
      exact (h.conns n).uplink msg hmsg
    · rw [hdelivers.thread n] at hmsg
      exact (h.conns n).forwarding msg hmsg
    · refine List.mem_append_left es ?_
      rcases hdelivers.downlink n with hsame | ⟨impu, hknown⟩
      · exact (h.conns n).downlink (hsame ▸ hne)
      · exact h.registered_of_known (hueByImpu ▸ hknown)
    · rw [hdelivers.ue n] at hactive
      exact List.mem_append_left es ((h.conns n).active hactive)
  · rw [hdelivers.toScscf]
    exact h.toScscf
  · rw [hdelivers.toPcscf]
    exact fun msg hmsg => h.toPcscf msg (hrest msg hmsg)
  · rw [hdelivers.pcscf]
    exact hnotifying
  · rw [hdelivers.pcscf]
    show ∀ impu n, p.ueByImpu.lookup impu = some n → _
    rw [hueByImpu]
    exact h.known
  · rw [hdelivers.pcscf]
    show _ ↔ (p.ueByImpu.lookup impu).isSome
    rw [hueByImpu, ← h.registered impu]
    simp [hregistered impu]
  · rw [hdelivers.pcscf]
    exact hcaller

theorem deliver_backed (h : Inv label tr s) {toPcscf : List SipMessage} {msg : SipMessage} :
    Backed (RoutedToLastCaller label)
      (tr ++ (deliver { s with toPcscf := toPcscf } (callerOf s.pcscf msg.callId) msg).2) := by
  have hunregistered : ∀ impu, s.pcscf.ueByImpu.lookup impu = none → .registered impu ∉ tr := by
    intro impu hnone
    rw [h.registered impu, hnone]
    simp
  unfold deliver callerOf
  split
  · rename_i hempty
    refine h.backed.snoc fun _ => ⟨?_, ?_⟩
    · rw [← h.caller]
    · rw [hempty]
      refine hunregistered [] ?_
      rcases hlookup : s.pcscf.ueByImpu.lookup [] with _ | n
      · rfl
      · exact absurd (h.known [] n hlookup).symm (ueConfigs_impu_ne_nil (label n))
  · rename_i hne
    unfold sendToUe
    split
    · rename_i n hknown
      refine h.backed.snoc fun _ => ?_
      rcases hcaller : s.pcscf.callToCaller.lookup msg.callId with _ | caller
      · rw [hcaller] at hne
        exact absurd rfl hne
      · rw [← h.caller, hcaller, ← h.known _ n hknown, hcaller]
        rfl
    · rename_i hnone
      refine h.backed.snoc fun _ => ⟨by rw [← h.caller], hunregistered _ hnone⟩

theorem handleFromScscf_caller (hcaller : ∀ callId, s.pcscf.callToCaller.lookup callId =
    lastCaller tr callId) (msg : SipMessage) (callId : Str) :
    (handleFromScscf s msg).1.pcscf.callToCaller.lookup callId =
      lastCaller (tr ++ (handleFromScscf s msg).2) callId := by
  have hdeliver : ∀ (s₁ : State) (target : Str), s₁.pcscf = s.pcscf →
      (deliver s₁ target msg).1.pcscf.callToCaller.lookup callId =
        lastCaller (tr ++ (deliver s₁ target msg).2) callId := by
    intro s₁ target hs₁
    obtain ⟨e, hes, hrouted⟩ := deliver_routed s₁ target msg
    rw [hes, lastCaller_of_routed (by simp [hrouted]), (deliver_delivers s₁ target msg).pcscf, hs₁]
    exact hcaller callId
  unfold handleFromScscf
  split
  · unfold routeInvite
    split
    · obtain ⟨e, hes, hrouted⟩ := sendToUe_routed s msg.sipTo msg
      rw [hes, lastCaller_of_routed (by simp [hrouted]), (sendToUe_delivers s msg.sipTo msg).pcscf]
      exact hcaller callId
    · dsimp only
      obtain ⟨e₁, hes₁, hrouted₁⟩ :=
        sendToUe_routed { s with pcscf := (enterInvite s.pcscf msg).1 } msg.sipTo msg
      obtain ⟨e₂, hes₂, hrouted₂⟩ := sendToUe_routed
        (sendToUe { s with pcscf := (enterInvite s.pcscf msg).1 } msg.sipTo msg).1 msg.sipFrom
        (ring msg)
      rw [hes₁, hes₂, ← List.append_assoc,
        lastCaller_of_routed (by simp [hrouted₁, hrouted₂]), (sendToUe_delivers _ _ _).pcscf,
        (sendToUe_delivers _ _ _).pcscf]
      unfold enterInvite
      dsimp only
      split
      · rw [lastCaller_mapped]
        by_cases hid : msg.callId = callId
        · split <;> simp [hid]
        · split <;> simp [AList.lookup_insert_ne (Ne.symm hid), hcaller callId]
      · rw [List.append_nil]
        split <;> exact hcaller callId
  · exact hdeliver s _ rfl
  · exact hdeliver s _ rfl
  · exact hdeliver s _ rfl
  · unfold route200Ok
    split
    · refine hdeliver _ _ ?_
      split <;> rfl
    · dsimp only
      split
      · rw [List.append_nil]
        exact hcaller callId
      · exact hdeliver s _ rfl
  · exact hdeliver s _ rfl
  · exact hdeliver s _ rfl

theorem not_release_of_notifies {msg : SipMessage} (htype : msg.type = .ok200)
    (hnotifies : notifiesCallee msg.reason = true) : ¬ IsRelease msg := by
  have hbye : notifiesCallee (lit "BYE") = false := by decide
  rintro (htype' | ⟨-, hreason⟩)
  · rw [htype] at htype'
    cases htype'
  · rw [hreason, hbye] at hnotifies
    cases hnotifies

theorem receive_inv (h : Inv label tr s) {msg : SipMessage} {rest : List SipMessage}
    (hlink : s.toPcscf = msg :: rest) :
    Inv label (tr ++ (handleFromScscf { s with toPcscf := rest } msg).2)
      (handleFromScscf { s with toPcscf := rest } msg).1 := by
  obtain ⟨p, hsection, hdelivers⟩ := handleFromScscf_delivers { s with toPcscf := rest } msg
  have hcaller := handleFromScscf_caller (s := { s with toPcscf := rest }) h.caller msg
  rw [hdelivers.pcscf] at hcaller
  have hplain : Unaddressed msg := h.toPcscf msg (hlink ▸ List.mem_cons_self)
  refine delivers_inv h hdelivers (fun m hm => hlink ▸ List.mem_cons_of_mem msg hm)
    hsection.ueByImpu ?_ ?_ hcaller ?_
  · intro target out hout
    cases hsection with
    | unchanged => exact h.notifying target out hout
    | entered _ _ =>
        rw [enterInvite_scscfThread] at hout
        exact h.notifying target out hout
    | answered target' htype hnotifies =>
        obtain ⟨-, rfl⟩ := ScscfThread.notifying.inj hout
        exact not_release_of_notifies htype hnotifies
  · intro impu hmem
    by_cases hrelease : IsRelease msg
    · rw [handleFromScscf_release hrelease hplain] at hmem
      obtain ⟨e, hes, hrouted⟩ := deliver_routed { s with toPcscf := rest }
        (callerOf s.pcscf msg.callId) msg
      rw [hes] at hmem
      exact not_registered_of_routed (by simp [hrouted]) impu hmem
    · obtain ⟨-, hsome | hmapped⟩ := handleFromScscf_other hrelease _ hmem
      · cases hsome
      · cases hmapped
  · by_cases hrelease : IsRelease msg
    · rw [handleFromScscf_release hrelease hplain]
      exact deliver_backed h
    · refine h.backed.append_of_forall fun e he before => ?_
      obtain ⟨hnot, -⟩ := handleFromScscf_other hrelease e he
      cases e with
      | delivered n out => exact fun hout => absurd hout (hnot out rfl)
      | undelivered target out => exact fun hout => absurd hout (hnot out rfl)
      | _ => trivial

theorem notify_inv (h : Inv label tr s) {target : Str} {msg : SipMessage}
    (hthread : s.pcscf.scscfThread = .notifying target msg) :
    Inv label (tr ++ (notify s target msg).2) (notify s target msg).1 := by
  obtain ⟨e₁, hes₁, hrouted₁⟩ := deliver_routed
    { s with pcscf := { s.pcscf with scscfThread := .receiving } } (calleeOf s.pcscf msg.callId) msg
  obtain ⟨e₂, hes₂, hrouted₂⟩ := deliver_routed (deliver
    { s with pcscf := { s.pcscf with scscfThread := .receiving } }
      (calleeOf s.pcscf msg.callId) msg).1 target msg
  have hes : (notify s target msg).2 = [e₁, e₂] := congrArg₂ (· ++ ·) hes₁ hes₂
  have hrouted : ∀ e ∈ (notify s target msg).2, routed e = some msg := by
    rw [hes]
    simp [hrouted₁, hrouted₂]
  have hsome : ∀ e ∈ (notify s target msg).2, (routed e).isSome := by
    intro e he
    rw [hrouted e he]
    rfl
  have hdelivers : Delivers { s with
      pcscf := { s.pcscf with scscfThread := .receiving }, toPcscf := s.toPcscf }
      (notify s target msg).1 := notify_delivers s target msg
  refine delivers_inv h hdelivers (fun _ hm => hm) rfl (fun _ _ hnone => by cases hnone)
    (not_registered_of_routed hsome) (fun callId => ?_) ?_
  · rw [lastCaller_of_routed hsome]
    exact h.caller callId
  · refine h.backed.append_of_forall fun e he before => ?_
    have hmsg := hrouted e he
    cases e with
    | delivered n out =>
        obtain rfl := Option.some.inj hmsg
        exact fun hout => absurd hout (h.notifying target out hthread)
    | undelivered target' out =>
        obtain rfl := Option.some.inj hmsg
        exact fun hout => absurd hout (h.notifying target out hthread)
    | _ => trivial

theorem sends_unaddressed {msg out : SipMessage} (h : Unaddressed msg) (hsends : Sends msg out) :
    Unaddressed out := by
  cases hsends with
  | forwarded => exact h
  | conference cs _ =>
      rintro (hbye | ⟨htype, -⟩)
      · cases hbye
      · cases htype
  | response _ _ _ hresponse =>
      have hother : ∀ r ∈ responses, r.1 ≠ .bye ∧ lit r.2 ≠ lit "BYE" := by decide
      rintro (hbye | ⟨-, hreason⟩)
      · exact absurd hbye (hother _ hresponse).1
      · exact absurd hreason (hother _ hresponse).2
  | byeAnswered htype => exact fun _ => ⟨(h (Or.inl htype)).1, rfl⟩

theorem scscf_inv (h : Inv label tr s) {msg : SipMessage} {rest : List SipMessage}
    (hlink : s.toScscf = msg :: rest) :
    Inv label tr { s with
      toScscf := rest, scscf := (scscfHandle s.scscf msg).1,
      toPcscf := s.toPcscf ++ (scscfHandle s.scscf msg).2 } := by
  refine { h with toScscf := fun m hm => ?_, toPcscf := fun m hm => ?_ }
  · exact h.toScscf m (hlink ▸ List.mem_cons_of_mem msg hm)
  · rcases List.mem_append.mp hm with hold | hnew
    · exact h.toPcscf m hold
    · exact sends_unaddressed (h.toScscf msg (hlink ▸ List.mem_cons_self)) (scscfHandle_sends hnew)

theorem step_inv {i : Input} (h : Inv label tr s) (hstep : step label s i = some (s', es)) :
    Inv label (tr ++ es) s' := by
  cases step_cases hstep with
  | command n cmd =>
      rw [List.append_nil]
      have hcommanded : Commanded (cfgOf label n) (s.conns n).ue
          (processCommand (cfgOf label n) (s.conns n).ue cmd) := processCommand_commanded cmd
      exact phone_inv h n _ hcommanded.messages fun hactive =>
        (h.conns n).active (hcommanded.active hactive)
  | @ueReceive n msg rest hdownlink =>
      rw [List.append_nil]
      exact phone_inv (dropDownlink_inv h hdownlink) n _ (handleIncoming_messages msg) fun _ =>
        (h.conns n).downlink (by simp [hdownlink])
  | @pcscfRead n msg rest _ huplink =>
      exact handleFromUe_inv (takeUp_inv h huplink)
        ((h.conns n).uplink msg (huplink ▸ List.mem_cons_self))
  | @pcscfForward n msg hforwarding =>
      rw [List.append_nil]
      apply forward_inv h hforwarding
      intro later
      split <;> simp
  | @pcscfCleanUp n callId _ => exact cleanUp_inv h n callId
  | pcscfReceive _ hlink => exact receive_inv h hlink
  | pcscfNotify hthread => exact notify_inv h hthread
  | scscfReceive hlink =>
      rw [List.append_nil]
      exact scscf_inv h hlink
  | setBarred _ _ =>
      rw [List.append_nil]
      exact { h with }

theorem init_inv : Inv label [] init where
  conns n := ⟨by simp [init], by simp [init], by simp [init], by simp [init, Active]⟩
  toScscf := by simp [init]
  toPcscf := by simp [init]
  notifying := by simp [init]
  known impu n hlookup := by cases hlookup
  registered impu := by
    simp only [List.not_mem_nil, false_iff]
    exact Bool.false_ne_true
  caller callId := rfl
  backed := Backed.nil _

theorem reach_inv (hrun : Reach (step label) init tr s) : Inv label tr s := by
  refine hrun.invariant (I := fun tr s => Inv label tr s) init_inv ?_
  intro _ _ _ _ _ hinv _ hstep
  exact step_inv hinv hstep

end Invariant

section Release

variable {label : Nat → UeLabel} {tr : List Event} {s : State}

theorem registered_of_inCall (h : Inv label tr s) {n : Nat} {callId : Str}
    (hcall : InCall (s.conns n).ue callId) : .registered (cfgOf label n).impu ∈ tr :=
  (h.conns n).active (inDialog_active hcall.1)

/-- A registered party gets a message that tears its call down exactly if the last change of the
caller named that party. -/
theorem deliveredTo_iff_lastCaller (h : Backed (RoutedToLastCaller label) tr) {before after : List Event}
    {e : Event} (hsplit : tr = before ++ e :: after) {msg : SipMessage}
    (hrouted : routed e = some msg) (hrelease : IsRelease msg) {impu : Str}
    (hregistered : .registered impu ∈ before) :
    DeliveredTo label impu msg e ↔ lastCaller before msg.callId = some impu := by
  have hbacked := h before e after hsplit
  constructor
  · rintro ⟨n, rfl, rfl⟩
    exact hbacked hrelease
  · intro hlast
    cases e with
    | delivered n msg' =>
        obtain rfl := Option.some.inj hrouted
        refine ⟨n, rfl, ?_⟩
        have hn := hbacked hrelease
        rw [hlast] at hn
        exact (Option.some.inj hn).symm
    | undelivered target msg' =>
        obtain rfl := Option.some.inj hrouted
        obtain ⟨htarget, hunregistered⟩ := hbacked hrelease
        rw [hlast] at htarget
        obtain rfl : impu = target := htarget
        exact absurd hregistered hunregistered
    | _ => cases hrouted

theorem lastCaller_of_no_invite {es : List Event} {callId : Str}
    (hquiet : ∀ caller, .callerMapped callId caller ∉ es) :
    lastCaller (tr ++ es) callId = lastCaller tr callId ∨ lastCaller (tr ++ es) callId = none := by
  induction es using List.reverseRecOn with
  | nil => exact Or.inl (by rw [List.append_nil])
  | append_singleton es e ih =>
      have hbefore := ih fun caller hmem => hquiet caller (List.mem_append_left [e] hmem)
      rw [← List.append_assoc]
      cases e with
      | callerMapped id caller =>
          rw [lastCaller_mapped]
          split
          · rename_i hid
            exact absurd (by simp [hid]) (hquiet caller)
          · exact hbefore
      | callerErased id =>
          rw [lastCaller_erased]
          split
          · exact Or.inr rfl
          · exact hbefore
      | _ =>
          rw [lastCaller_append_of_forall (by simp [changesCaller])]
          exact hbefore

/-- Between different parties one of the two messages goes astray, unless an INVITE of the call
comes in between. -/
theorem release_misses_without_invite (h : Backed (RoutedToLastCaller label) tr)
    {before between after : List Event} {e₁ e₂ : Event}
    (hsplit : tr = before ++ e₁ :: (between ++ e₂ :: after)) {n : Nat} {callId : Str}
    (hquiet : ∀ caller, .callerMapped callId caller ∉ between) {impu other : Str}
    (hne : impu ≠ other) :
    ¬ (DeliveredTo label impu (byeAnswerOf n callId) e₁ ∧
      DeliveredTo label other (byeOf n callId) e₂) := by
  rintro ⟨⟨k, rfl, rfl⟩, ⟨l, rfl, rfl⟩⟩
  have hfirst := h before _ _ hsplit (Or.inr ⟨rfl, rfl⟩)
  have hsecond := h (before ++ .delivered k (byeAnswerOf n callId) :: between)
    (.delivered l (byeOf n callId)) after (by rw [hsplit, List.append_assoc, List.cons_append])
    (Or.inl rfl)
  have hquiet' : ∀ caller, .callerMapped callId caller ∉
      .delivered k (byeAnswerOf n callId) :: between := by
    intro caller hmem
    rcases List.mem_cons.mp hmem with hhead | htail
    · cases hhead
    · exact hquiet caller htail
  have hkept : _ ∨ lastCaller (before ++ _) callId = none := lastCaller_of_no_invite hquiet'
  rcases hkept with hsame | hnone
  · refine hne (Option.some.inj ?_)
    rw [← hfirst, ← hsecond]
    exact hsame.symm
  · cases hsecond.symm.trans hnone

/-- The hang-up of an established call by either party. -/
theorem release_delivered_iff {tr₀ es₀ : List Event} {s₀ s₁ : State} {n m : Nat} {callId : Str}
    (hreach : Reach (step label) init tr₀ s₀) (hcall : Established label s₀ n m callId)
    (hbye : step label s₀ (.command n .bye) = some (s₁, es₀))
    (hrun : Reach (step label) s₁ tr s) {before₁ after₁ before₂ after₂ : List Event}
    {e₁ e₂ : Event} (hsplit₁ : tr = before₁ ++ e₁ :: after₁)
    (hsplit₂ : tr = before₂ ++ e₂ :: after₂) (hanswer : routed e₁ = some (byeAnswerOf n callId))
    (hforward : routed e₂ = some (byeOf n callId)) :
    (DeliveredTo label (cfgOf label n).impu (byeAnswerOf n callId) e₁ ∧
        DeliveredTo label (cfgOf label m).impu (byeOf n callId) e₂) ↔
      lastCaller (tr₀ ++ before₁) callId = some (cfgOf label n).impu ∧
        lastCaller (tr₀ ++ before₂) callId = some (cfgOf label m).impu := by
  obtain ⟨-, rfl⟩ := Prod.ext_iff.mp (Option.some.inj hbye)
  have hstart := reach_inv hreach
  have hbacked := (reach_inv (Reach.trans (Run.snoc hreach trivial hbye) hrun)).backed
  rw [List.append_nil] at hbacked
  have hfirst := registered_of_inCall hstart hcall.first
  have hsecond := registered_of_inCall hstart hcall.second
  refine and_congr ?_ ?_
  · exact deliveredTo_iff_lastCaller hbacked (by rw [hsplit₁, List.append_assoc]) hanswer
      (Or.inr ⟨rfl, rfl⟩) (List.mem_append_left before₁ hfirst)
  · exact deliveredTo_iff_lastCaller hbacked (by rw [hsplit₂, List.append_assoc]) hforward
      (Or.inl rfl) (List.mem_append_left before₂ hsecond)

instance (ue : Ue) (callId : Str) : Decidable (InCall ue callId) :=
  inferInstanceAs (Decidable (_ ∧ _))

/-- The callee holds and hangs up; the caller's UPDATE crosses the two messages. -/
theorem crossing_update_releases_call : ∃ tr s, Reach (step threePhones) init tr s ∧
    ∃ e₁ ∈ tr, ∃ e₂ ∈ tr, DeliveredTo threePhones impuB (byeAnswerOf 1 callAB) e₁ ∧
      DeliveredTo threePhones impuA (byeOf 1 callAB) e₂ := by
  have hcall : ((exec (step threePhones) init (establishedCall ++ (signalled 1 .hold ++
      [.pcscfReceive, .pcscfReceive, .pcscfNotify]))).map fun r =>
        decide (InCall (r.1.conns 1).ue callAB ∧ InCall (r.1.conns 0).ue callAB ∧
          storedParties r.1.scscf callAB = some (impuA, impuB) ∧
          lastCaller r.2 callAB = some impuB)) = some true := by
    decide +kernel
  have hafter : ((exec (step threePhones) init (establishedCall ++ (signalled 1 .hold ++
      [.pcscfReceive, .pcscfReceive, .pcscfNotify]))).bind fun r =>
        (exec (step threePhones) r.1 [.command 1 .bye]).bind fun r =>
          (exec (step threePhones) r.1 [.pcscfRead 1, .pcscfForward 1, .scscfReceive,
            .pcscfReceive, .command 0 .update, .pcscfRead 0, .pcscfReceive]).map Prod.snd) =
      some [.delivered 1 (byeAnswerOf 1 callAB), .callerMapped callAB impuA,
        .delivered 0 (byeOf 1 callAB)] := by
    decide +kernel
  obtain ⟨⟨s₀, tr₀⟩, hexec₀, hcall⟩ := Option.map_eq_some_iff.mp hcall
  obtain ⟨hfirst, hsecond, hparties, hlast⟩ := of_decide_eq_true hcall
  rw [hexec₀, Option.bind_some] at hafter
  obtain ⟨⟨s₁, tr₁⟩, hexec₁, hafter⟩ := Option.bind_eq_some_iff.mp hafter
  obtain ⟨⟨s, tr⟩, hexec, htr⟩ := Option.map_eq_some_iff.mp hafter
  obtain rfl : tr = _ := htr
  have hreach := reach_of_exec _ _ _ _ _ hexec₀
  have hrun := reach_of_exec _ _ _ _ _ hexec
  have hbye : step threePhones s₀ (.command 1 .bye) = some (s₁, tr₁) := by
    simpa [exec, step] using hexec₁
  have hlast₁ : lastCaller (tr₀ ++ []) callAB = some impuB := by
    rw [List.append_nil]
    exact hlast
  have hlast₂ : lastCaller (tr₀ ++ ([.delivered 1 (byeAnswerOf 1 callAB)] ++
      [.callerMapped callAB impuA])) callAB = some impuA := by
    rw [← List.append_assoc, lastCaller_mapped, if_pos rfl]
  obtain ⟨hanswered, hforwarded⟩ := (release_delivered_iff hreach
    ⟨hfirst, hsecond, Or.inr hparties⟩ hbye hrun rfl rfl rfl rfl).mpr ⟨hlast₁, hlast₂⟩
  exact ⟨_, s, (hreach.trans (reach_of_exec _ _ _ _ _ hexec₁)).trans hrun, _, by simp, _, by simp,
    hanswered, hforwarded⟩

/-- The callee hangs up right after the call is set up: the answer goes to the caller. -/
theorem answer_to_callee_goes_to_caller : ∃ tr₀ s₀ s₁ s,
    Reach (step threePhones) init tr₀ s₀ ∧ Established threePhones s₀ 1 0 callAB ∧
      step threePhones s₀ (.command 1 .bye) = some (s₁, []) ∧
      Reach (step threePhones) s₁
        [.delivered 0 (byeAnswerOf 1 callAB), .delivered 0 (byeOf 1 callAB), .callerErased callAB]
        s := by
  have hcall : ((exec (step threePhones) init establishedCall).map fun r =>
      decide (InCall (r.1.conns 1).ue callAB ∧ InCall (r.1.conns 0).ue callAB ∧
        storedParties r.1.scscf callAB = some (impuA, impuB))) = some true := by
    decide +kernel
  have hafter : ((exec (step threePhones) init establishedCall).bind fun r =>
      (exec (step threePhones) r.1 [.command 1 .bye]).bind fun r =>
        (exec (step threePhones) r.1 [.pcscfRead 1, .pcscfForward 1, .scscfReceive,
          .pcscfReceive, .pcscfReceive, .pcscfCleanUp 1]).map Prod.snd) =
      some [.delivered 0 (byeAnswerOf 1 callAB), .delivered 0 (byeOf 1 callAB),
        .callerErased callAB] := by
    decide +kernel
  obtain ⟨⟨s₀, tr₀⟩, hexec₀, hcall⟩ := Option.map_eq_some_iff.mp hcall
  obtain ⟨hfirst, hsecond, hparties⟩ := of_decide_eq_true hcall
  rw [hexec₀, Option.bind_some] at hafter
  obtain ⟨⟨s₁, tr₁⟩, hexec₁, hafter⟩ := Option.bind_eq_some_iff.mp hafter
  obtain ⟨⟨s, tr⟩, hexec, htr⟩ := Option.map_eq_some_iff.mp hafter
  obtain rfl : tr = _ := htr
  have hbye : s₁ = (phoneStep s₀ 1 (processCommand (cfgOf threePhones 1) (s₀.conns 1).ue .bye)) := by
    simpa [exec, step] using (congrArg (Option.map Prod.fst) hexec₁).symm
  refine ⟨tr₀, s₀, s₁, s, reach_of_exec _ _ _ _ _ hexec₀, ⟨hfirst, hsecond, Or.inr hparties⟩, ?_,
    reach_of_exec _ _ _ _ _ hexec⟩
  rw [hbye]
  rfl

end Release

end MobileCore.ReleaseDelivery
