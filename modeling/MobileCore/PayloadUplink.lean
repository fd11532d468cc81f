import MobileCore.SharedUplink
import MobileCore.SipLinks

/-!
# The connection to the S-CSCF, in the network of payloads

Each thread of the P-CSCF passes the payload on that it read. The S-CSCF reads whatever payload the
next frame has.
-/

namespace MobileCore.PayloadUplink

open LabelledRuns SipLinks
open SharedUplink (Link Port)
open SipPhones (Outcome SipMessage UeLabel)

def handing (s : State) (n : Nat) : Option Payload :=
  match (s.conns n).session.thread with
  | .forwarding payload _ => some payload
  | _ => none

def port : CallSessionControl.Input → Port
  | .pcscfForward n => .put n
  | .scscfReceive => .take
  | _ => .aside

/-- Nothing has changed for the phones' threads and the S-CSCF. -/
structure Still (s s' : State) : Prop where
  toScscf : s'.toScscf = s.toScscf
  thread : ∀ n, (s'.conns n).session.thread = (s.conns n).session.thread

section Nodes

variable {s s₁ s' : State}

theorem Still.refl (s : State) : Still s s := ⟨rfl, fun _ => rfl⟩

theorem Still.trans (h : Still s s₁) (h' : Still s₁ s') : Still s s' where
  toScscf := h'.toScscf.trans h.toScscf
  thread n := (h'.thread n).trans (h.thread n)

theorem still_pcscf (s : State) (p : PcscfNode) : Still s { s with pcscf := p } :=
  ⟨rfl, fun _ => rfl⟩

theorem still_modify (s : State) (n : Nat) (f : Conn → Conn)
    (h : (f (s.conns n)).session.thread = (s.conns n).session.thread) : Still s (s.modify n f) where
  toScscf := rfl
  thread m := by
    rw [State.modify_conns]
    split
    · rename_i hm
      rw [h, hm]
    · rfl

theorem thread_setThread (s : State) (n m : Nat) (thread : SipLinks.UeThread) :
    ((setThread s n thread).conns m).session.thread =
      if m = n then thread else (s.conns m).session.thread := by
  rw [setThread, State.modify_conns]
  split <;> rfl

theorem still_phoneStep (s : State) (n : Nat) (out : Outcome) (order : List SipFrames.SipTag) :
    Still s (phoneStep s n out order).1 := by
  dsimp only [phoneStep]
  apply still_modify
  rfl

theorem still_handleFromUe (s : State) (n : Nat) (msg : SipMessage) :
    Still s (handleFromUe s n msg).1 := by
  unfold handleFromUe
  split
  · have hsession := still_modify s n
      (fun c => { c with session := { c.session with impu := msg.impu, ip := msg.contact } }) rfl
    exact ⟨rfl, hsession.thread⟩
  · exact still_pcscf s _
  · exact .refl s

theorem still_sendToUe (s : State) (impu : CppText.Str) (payload : Payload) :
    Still s (sendToUe s impu payload).1 := by
  unfold sendToUe
  split
  · dsimp only
    apply still_modify
    rfl
  · exact .refl s

theorem still_deliver (s : State) (target : CppText.Str) (payload : Payload) :
    Still s (deliver s target payload).1 := by
  unfold deliver
  split
  · exact .refl s
  · exact still_sendToUe s target payload

theorem still_routeInvite (s : State) (payload : Payload) (msg : SipMessage) :
    Still s (routeInvite s payload msg).1 := by
  unfold routeInvite
  split
  · exact still_sendToUe s msg.sipTo payload
  · rcases enterInvite s.pcscf msg with ⟨p, entered⟩
    have hcallee := still_sendToUe { s with pcscf := p } msg.sipTo payload
    dsimp only at hcallee ⊢
    generalize sendToUe { s with pcscf := p } msg.sipTo payload = r at hcallee ⊢
    have hfirst : Still s r.1 := (still_pcscf s p).trans hcallee
    exact hfirst.trans ((still_pcscf r.1 _).trans (still_sendToUe _ msg.sipFrom _))

theorem still_route200Ok (s : State) (payload : Payload) (msg : SipMessage) :
    Still s (route200Ok s payload msg).1 := by
  unfold route200Ok
  split
  · refine Still.trans ?_ (still_deliver _ _ payload)
    dsimp only
    split
    · apply still_modify
      rfl
    · exact .refl s
  · dsimp only
    split
    · exact still_pcscf s _
    · exact still_deliver s _ payload

theorem still_handleFromScscf (s : State) (payload : Payload) (msg : SipMessage) :
    Still s (handleFromScscf s payload msg).1 := by
  unfold handleFromScscf
  split
  · exact still_routeInvite s payload msg
  · exact still_deliver s _ payload
  · exact still_deliver s _ payload
  · exact still_deliver s _ payload
  · exact still_route200Ok s payload msg
  · exact still_deliver s _ payload
  · exact still_deliver s _ payload

theorem still_notify (s : State) (target : CppText.Str) (payload : Payload) (msg : SipMessage) :
    Still s (notify s target payload msg).1 := by
  unfold notify
  dsimp only
  refine Still.trans ?_ (still_deliver _ target payload)
  exact (still_pcscf s _).trans (still_deliver _ _ payload)

end Nodes

section Steps

variable {label : Nat → UeLabel} {s s' : State} {es : List Event}

theorem handing_of_thread {n : Nat} (h : (s'.conns n).session.thread = (s.conns n).session.thread) :
    handing s' n = handing s n := by
  rw [handing, handing, h]

theorem aside_step {i : CallSessionControl.Input} (hport : port i = .aside)
    (hstep : step label s i = some (s', es)) :
    s'.toScscf = s.toScscf ∧ ∀ n payload, handing s n = some payload →
      handing s' n = some payload := by
  have hstill (h : Still s s') : s'.toScscf = s.toScscf ∧
      ∀ n payload, handing s n = some payload → handing s' n = some payload := by
    refine ⟨h.toScscf, fun n payload hpayload => ?_⟩
    rw [handing_of_thread (h.thread n), hpayload]
  have hidle {n : Nat} (hthread : handing s n = none) (htoScscf : s'.toScscf = s.toScscf)
      (hothers : ∀ m ≠ n, (s'.conns m).session.thread = (s.conns m).session.thread) :
      s'.toScscf = s.toScscf ∧
        ∀ n payload, handing s n = some payload → handing s' n = some payload := by
    refine ⟨htoScscf, fun m payload hpayload => ?_⟩
    have hne : m ≠ n := by
      rintro rfl
      rw [hthread] at hpayload
      cases hpayload
    rw [handing_of_thread (hothers m hne), hpayload]
  cases i with
  | command n cmd =>
      obtain ⟨rfl, -⟩ := Prod.mk.inj (Option.some.inj hstep)
      exact hstill (still_phoneStep s n _ _)
  | ueReceive n =>
      rw [step] at hstep
      split at hstep
      · obtain ⟨msg, -, hresult⟩ := Option.map_eq_some_iff.mp hstep
        obtain ⟨rfl, -⟩ := Prod.mk.inj hresult
        refine hstill (Still.trans ?_ (still_phoneStep _ n _ _))
        exact still_modify s n _ rfl
      · cases hstep
  | pcscfRead n =>
      rw [step] at hstep
      split at hstep
      · rename_i payload rest hthread huplink
        obtain ⟨msg, -, hresult⟩ := Option.map_eq_some_iff.mp hstep
        have hhandled := still_handleFromUe (setThread
          (s.modify n fun c => { c with uplink := rest }) n (.forwarding payload msg)) n msg
        rw [hresult] at hhandled
        refine hidle (n := n) (by rw [handing, hthread]) hhandled.toScscf fun m hm => ?_
        rw [hhandled.thread, thread_setThread, if_neg hm]
        exact (still_modify s n (fun c => { c with uplink := rest }) rfl).thread m
      · cases hstep
  | pcscfForward n => cases hport
  | pcscfCleanUp n =>
      rw [step] at hstep
      split at hstep
      · rename_i callId hthread
        obtain ⟨rfl, -⟩ := Prod.mk.inj (Option.some.inj hstep)
        refine hidle (n := n) (by rw [handing, hthread]) rfl fun m hm => ?_
        rw [thread_setThread, if_neg hm]
      · cases hstep
  | pcscfReceive =>
      rw [step] at hstep
      split at hstep
      · rename_i payload rest _ _
        obtain ⟨msg, -, hresult⟩ := Option.map_eq_some_iff.mp hstep
        have hhandled := still_handleFromScscf { s with toPcscf := rest } payload msg
        rw [hresult] at hhandled
        exact hstill ⟨hhandled.toScscf, hhandled.thread⟩
      · cases hstep
  | pcscfNotify =>
      rw [step] at hstep
      split at hstep
      · rename_i target payload msg _
        have hnotified := still_notify s target payload msg
        rw [Option.some.inj hstep] at hnotified
        exact hstill hnotified
      · cases hstep
  | scscfReceive => cases hport
  | setBarred impu barred =>
      cases barred
      all_goals
        obtain ⟨rfl, -⟩ := Prod.mk.inj (Option.some.inj hstep)
        exact hstill ⟨rfl, fun _ => rfl⟩

theorem put_step {n : Nat} (hstep : step label s (.pcscfForward n) = some (s', es)) :
    (∃ payload, handing s n = some payload ∧ s'.toScscf = s.toScscf ++ [payload]) ∧
      ∀ m ≠ n, handing s' m = handing s m := by
  rw [step] at hstep
  split at hstep
  · rename_i payload msg hthread
    obtain ⟨rfl, -⟩ := Prod.mk.inj (Option.some.inj hstep)
    refine ⟨⟨payload, by rw [handing, hthread], rfl⟩, fun m hm => handing_of_thread ?_⟩
    rw [thread_setThread, if_neg hm]
  · cases hstep

theorem take_step (hstep : step label s .scscfReceive = some (s', es)) :
    (∃ payload, s.toScscf = payload :: s'.toScscf) ∧ handing s' = handing s := by
  rw [step] at hstep
  split at hstep
  · rename_i payload rest htoScscf
    obtain ⟨r, -, hresult⟩ := Option.map_eq_some_iff.mp hstep
    obtain ⟨rfl, -⟩ := Prod.mk.inj hresult
    exact ⟨⟨payload, htoScscf⟩, rfl⟩
  · cases hstep

end Steps

/-- A frame is the payload itself, whoever wrote its bytes. -/
def uplink (label : Nat → UeLabel) : Link State CallSessionControl.Input Event Payload where
  machine := step label
  port := port
  put := .pcscfForward
  take := .scscfReceive
  handing := handing
  queue := State.toScscf
  setQueue payloads s := { s with toScscf := payloads }
  carries payload k := payload = k
  mayRead payload k := payload = k
  port_put {i n} hport := by
    cases i <;> cases hport
    rfl
  port_take {i} hport := by
    cases i <;> cases hport
    rfl
  aside_step := aside_step
  put_step := put_step
  take_step := take_step

end MobileCore.PayloadUplink
