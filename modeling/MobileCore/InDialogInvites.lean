import Mathlib.Data.List.Infix
import MobileCore.SipPhones

namespace MobileCore.InDialogInvites

open MobileCore.CppText
open MobileCore.SipPhones

inductive PhoneInput where
  | command (cmd : Command)
  | receive (msg : SipMessage)

def phoneNext (cfg : UeConfig) (ue : Ue) : PhoneInput → Ue
  | .command cmd => (processCommand cfg ue cmd).1
  | .receive msg => (handleIncoming cfg ue msg).1

def runPhone (cfg : UeConfig) (ue : Ue) (inputs : List PhoneInput) : Ue :=
  inputs.foldl (phoneNext cfg) ue

def InDialog (ue : Ue) : Prop := ue.state = .inCall ∨ ue.state = .onHold

instance (ue : Ue) : Decidable (InDialog ue) := inferInstanceAs (Decidable (_ ∨ _))

/-- The phone is still in the call that it was in. -/
structure KeepsCall (ue ue' : Ue) : Prop where
  callId : ue'.currentCallId = ue.currentCallId
  dialog : InDialog ue'

/-- The inputs that take a phone out of its call on purpose: the user hangs up or registers anew,
or the network answers a BYE or a REGISTER. -/
def EndsCall : PhoneInput → Prop
  | .command cmd => cmd = .bye ∨ cmd = .register
  | .receive msg => msg.type = .ok200 ∧ (msg.reason = lit "BYE" ∨ msg.reason = lit "REGISTER")

/-- The INVITE is a hold of the call. -/
structure HoldsCall (callId : Str) (msg : SipMessage) : Prop where
  hold : (contains msg.sdp "sendonly" || contains msg.sdp "inactive") = true
  current : callId ≠ []
  reinvite : msg.callId = callId

variable {cfg : UeConfig} {ue ue' ue'' : Ue}

theorem keepsCall_refl (h : InDialog ue) : KeepsCall ue ue := ⟨rfl, h⟩

theorem KeepsCall.trans (h : KeepsCall ue ue') (h' : KeepsCall ue' ue'') : KeepsCall ue ue'' :=
  ⟨h'.callId.trans h.callId, h'.dialog⟩

theorem guarded_keeps {p : Prop} [Decidable p] {out : Outcome} (hdialog : InDialog ue)
    (h : p → KeepsCall ue out.1) : KeepsCall ue (if p then out else stay ue).1 :=
  guarded (P := fun out => KeepsCall ue out.1) (keepsCall_refl hdialog) h

theorem not_state_of_inDialog {state : UeState} (hdialog : InDialog ue) (hcall : state ≠ .inCall)
    (hhold : state ≠ .onHold) : ue.state ≠ state := by
  intro hstate
  rcases hdialog with h | h
  · exact hcall (hstate.symm.trans h)
  · exact hhold (hstate.symm.trans h)

theorem processCommand_keeps (cmd : Command) (hdialog : InDialog ue) (hbye : cmd ≠ .bye)
    (hregister : cmd ≠ .register) : KeepsCall ue (processCommand cfg ue cmd).1 := by
  cases cmd with
  | register => exact absurd rfl hregister
  | bye => exact absurd rfl hbye
  | call target =>
      exact guarded_keeps hdialog fun h =>
        absurd h (not_state_of_inDialog hdialog (by simp) (by simp))
  | accept | reject =>
      exact guarded_keeps hdialog fun h =>
        absurd h (not_state_of_inDialog hdialog (by simp) (by simp))
  | hold => exact guarded_keeps hdialog fun _ => ⟨rfl, Or.inr rfl⟩
  | resume => exact guarded_keeps hdialog fun _ => ⟨rfl, Or.inl rfl⟩
  | update | video | voice => exact guarded_keeps hdialog fun _ => ⟨rfl, hdialog⟩
  | conference third =>
      apply guarded_keeps hdialog
      intro _
      split
      · exact keepsCall_refl hdialog
      · exact ⟨rfl, hdialog⟩

theorem incoming200Ok_keeps (msg : SipMessage) (hdialog : InDialog ue)
    (hregister : msg.reason ≠ lit "REGISTER") (hbye : msg.reason ≠ lit "BYE") :
    KeepsCall ue (incoming200Ok cfg ue msg).1 := by
  rw [incoming200Ok, if_neg hregister, if_neg hbye]
  split
  · exact ⟨rfl, Or.inl rfl⟩
  · split
    · exact ⟨rfl, Or.inl rfl⟩
    · exact keepsCall_refl hdialog

/-- An INVITE leaves a phone in its call exactly when it is a hold of that call. -/
theorem incomingInvite_keeps_iff (msg : SipMessage) (hdialog : InDialog ue) :
    KeepsCall ue (incomingInvite ue msg).1 ↔ HoldsCall ue.currentCallId msg := by
  rw [incomingInvite]
  split
  · rename_i hhold
    obtain ⟨hsdp, hcurrent, hcallId⟩ := hhold
    exact iff_of_true (keepsCall_refl hdialog) ⟨hsdp, hcurrent, hcallId⟩
  · rename_i hnot
    apply iff_of_false
    · rintro ⟨-, hringing | hringing⟩
      · cases hringing
      · cases hringing
    · rintro ⟨hsdp, hcurrent, hcallId⟩
      exact hnot ⟨hsdp, hcurrent, hcallId⟩

theorem phoneNext_keeps_iff (cfg : UeConfig) (i : PhoneInput) (hdialog : InDialog ue)
    (hi : ¬EndsCall i) :
    KeepsCall ue (phoneNext cfg ue i) ↔
      ∀ msg, i = .receive msg → msg.type = .invite → HoldsCall ue.currentCallId msg := by
  cases i with
  | command cmd =>
      rw [EndsCall, not_or] at hi
      exact iff_of_true (processCommand_keeps cmd hdialog hi.1 hi.2) fun _ hreceive => by
        cases hreceive
  | receive msg =>
      simp only [PhoneInput.receive.injEq, forall_eq']
      rw [phoneNext, handleIncoming]
      split
      · rename_i hok
        have hother : msg.type ≠ .invite := by
          rw [hok]
          simp
        rw [EndsCall, not_and, not_or] at hi
        exact iff_of_true (incoming200Ok_keeps msg hdialog (hi hok).2 (hi hok).1) fun hinvite =>
          absurd hinvite hother
      · rename_i hinvite
        rw [incomingInvite_keeps_iff msg hdialog]
        exact ⟨fun h _ => h, fun h => h hinvite⟩
      · rename_i hother
        exact iff_of_true (keepsCall_refl hdialog) fun hinvite => absurd hinvite hother

/-- A phone stays in its call through a run exactly when every INVITE holds that call. -/
theorem runPhone_keeps_iff (cfg : UeConfig) (ue : Ue) (inputs : List PhoneInput)
    (hdialog : InDialog ue) (hinputs : ∀ i ∈ inputs, ¬EndsCall i) :
    (∀ before, before <+: inputs → KeepsCall ue (runPhone cfg ue before)) ↔
      ∀ msg, .receive msg ∈ inputs → msg.type = .invite → HoldsCall ue.currentCallId msg := by
  induction inputs generalizing ue with
  | nil =>
      constructor
      · intro _ msg hmsg
        cases hmsg
      · intro _ before hbefore
        obtain rfl := List.prefix_nil.mp hbefore
        exact keepsCall_refl hdialog
  | cons i rest ih =>
      have hstep := phoneNext_keeps_iff cfg i hdialog (hinputs i List.mem_cons_self)
      have hrest : ∀ j ∈ rest, ¬EndsCall j := fun j hj => hinputs j (List.mem_cons_of_mem i hj)
      constructor
      · intro hkeeps msg hmsg hinvite
        have hnext : KeepsCall ue (phoneNext cfg ue i) :=
          hkeeps [i] ⟨rest, rfl⟩
        rcases List.mem_cons.mp hmsg with hfirst | hlater
        · exact hstep.mp hnext msg hfirst.symm hinvite
        · rw [← hnext.callId]
          apply (ih (phoneNext cfg ue i) hnext.dialog hrest).mp _ msg hlater hinvite
          intro before hbefore
          have hlong := hkeeps (i :: before) (List.cons_prefix_cons.mpr ⟨rfl, hbefore⟩)
          exact ⟨hlong.callId.trans hnext.callId.symm, hlong.dialog⟩
      · intro hholds before hbefore
        have hnext : KeepsCall ue (phoneNext cfg ue i) :=
          hstep.mpr fun msg hi hinvite => hholds msg (hi ▸ List.mem_cons_self) hinvite
        cases before with
        | nil => exact keepsCall_refl hdialog
        | cons j before =>
            obtain ⟨rfl, hshort⟩ := List.cons_prefix_cons.mp hbefore
            apply hnext.trans
            apply (ih (phoneNext cfg ue j) hnext.dialog hrest).mpr _ before hshort
            intro msg hmsg hinvite
            rw [hnext.callId]
            exact hholds msg (List.mem_cons_of_mem j hmsg) hinvite

section Schedules

def calledPhone : Ue := { state := .inCall, currentCallId := lit "gingB-2", callerImpu := impuA }

def reInvite (sdp : String) : SipMessage :=
  { type := .invite, callId := lit "gingB-2", sipFrom := impuA, sipTo := impuB, sdp := lit sdp }

def holdInvite : SipMessage := reInvite "audio:50000/AMR-WB;a=sendonly"

def resumeInvite : SipMessage := reInvite "audio:50000/AMR-WB;a=sendrecv"

theorem runPhone_keeps_hold :
    KeepsCall calledPhone
      (runPhone (ueConfigs .b) calledPhone [.receive holdInvite, .command .update]) := by
  have hinputs : ∀ i ∈ [.receive holdInvite, .command .update], ¬EndsCall i := by
    simp [EndsCall, holdInvite, reInvite]
  apply (runPhone_keeps_iff (ueConfigs .b) calledPhone _ (by decide) hinputs).mpr _ _
    List.prefix_rfl
  intro msg hmsg _
  obtain rfl : msg = holdInvite := by simpa using hmsg
  exact ⟨by decide +kernel, by decide, rfl⟩

/-- The caller resumes the call, and the called phone rings. -/
theorem not_keepsCall_resume :
    ¬ ∀ (cfg : UeConfig) (ue : Ue) (msg : SipMessage), InDialog ue → msg.type = .invite →
      KeepsCall ue (handleIncoming cfg ue msg).1 := by
  intro h
  have hkeeps := h (ueConfigs .b) calledPhone resumeInvite (by decide) rfl
  exact absurd hkeeps.dialog (by decide +kernel)

end Schedules

end MobileCore.InDialogInvites
