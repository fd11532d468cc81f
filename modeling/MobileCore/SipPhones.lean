import MobileCore.CppText

/-!
# SIP messages and the phones of the IMS simulator

A field that a message does not carry reads as the empty string. A command and the handling of a
received message are one step each of a phone.
-/

namespace MobileCore.SipPhones

open MobileCore.CppText

inductive SipMsgType where
  | register
  | invite
  | ack
  | bye
  | cancel
  | trying100
  | ringing180
  | progress183
  | ok200
deriving DecidableEq

/-- `origin` is not on the wire: it is the connection over which the request came to the P-CSCF
that this message is, or answers. No step reads it. -/
structure SipMessage where
  type : SipMsgType
  sipFrom : Str := []
  sipTo : Str := []
  impu : Str := []
  impi : Str := []
  contact : Str := []
  callId : Str := []
  sdp : Str := []
  reason : Str := []
  origin : Nat := 0
deriving DecidableEq

inductive UeLabel where
  | a
  | b
  | c
deriving DecidableEq

structure UeConfig where
  impu : Str
  impi : Str
  ip : Str
  rtpPort : Nat

def imsDomain : Str := lit "ims.mnc010.mcc404.3gppnetwork.org"

def impuA : Str := lit "sip:+919000000001@" ++ imsDomain
def impuB : Str := lit "sip:+919000000002@" ++ imsDomain
def impuC : Str := lit "sip:+919000000003@" ++ imsDomain

def ueConfigs : UeLabel → UeConfig
  | .a => ⟨impuA, lit "919000000001@" ++ imsDomain, lit "10.0.0.1", 50000⟩
  | .b => ⟨impuB, lit "919000000002@" ++ imsDomain, lit "10.0.0.2", 60000⟩
  | .c => ⟨impuC, lit "919000000003@" ++ imsDomain, lit "10.0.0.3", 70000⟩

def idToImpu (id : Str) : Option Str :=
  if id = lit "A" then some impuA
  else if id = lit "B" then some impuB
  else if id = lit "C" then some impuC
  else none

inductive UeState where
  | idle
  | registering
  | registered
  | calling
  | ringing
  | inCall
  | onHold
deriving DecidableEq

structure Ue where
  state : UeState := .idle
  nextSeq : UInt32 := 1
  currentCallId : Str := []
  calleeImpu : Str := []
  callerImpu : Str := []

/-- The source adds the code of the label's last letter to the literal that a Call-ID should begin
with. What comes of it is the text `behind` that the program has so many bytes further on. -/
inductive Command where
  | register
  | call (target behind : Str)
  | accept
  | reject
  | hold
  | resume
  | conference (third : Str)
  | update
  | video
  | voice
  | bye
deriving DecidableEq

/-- What a phone does: its next state and what it writes to the P-CSCF. -/
abbrev Outcome := Ue × List SipMessage

def send (ue : Ue) (msg : SipMessage) : Outcome := ({ ue with nextSeq := ue.nextSeq + 1 }, [msg])

def stay (ue : Ue) : Outcome := (ue, [])

def doRegister (cfg : UeConfig) (ue : Ue) : Outcome :=
  if ue.state = .inCall then stay ue
  else send { ue with state := .registering }
    { type := .register, sipFrom := cfg.impu, impu := cfg.impu, impi := cfg.impi,
      contact := lit "sip:ue@" ++ cfg.ip ++ lit ":5060" }

def sendInvite (cfg : UeConfig) (ue : Ue) (sipTo sdp : Str) : Outcome :=
  send ue { type := .invite, callId := ue.currentCallId, sipFrom := cfg.impu, sipTo, sdp }

def audio (cfg : UeConfig) : Str := lit "audio:" ++ natText cfg.rtpPort

def videoPort (cfg : UeConfig) : Str := natText (cfg.rtpPort + 2)

def doCall (cfg : UeConfig) (ue : Ue) (target behind : Str) : Outcome :=
  if ue.state = .registered then
    match idToImpu target with
    | none => stay ue
    | some callee =>
      sendInvite cfg
        { ue with
          state := .calling
          currentCallId := behind ++ target ++ lit "-" ++ natText ue.nextSeq.toNat
          calleeImpu := callee }
        callee (audio cfg ++ lit "/AMR-WB,video:" ++ videoPort cfg ++ lit "/H264")
  else stay ue

def doAccept (cfg : UeConfig) (ue : Ue) : Outcome :=
  if ue.state = .ringing then
    send { ue with state := .inCall }
      { type := .ok200, callId := ue.currentCallId, reason := lit "INVITE",
        sdp := audio cfg ++ lit "/AMR-WB/16000" }
  else stay ue

def doReject (ue : Ue) : Outcome :=
  if ue.state = .ringing then
    send { ue with state := .registered } { type := .cancel, callId := ue.currentCallId }
  else stay ue

def doHold (cfg : UeConfig) (ue : Ue) : Outcome :=
  if ue.state = .inCall then
    sendInvite cfg { ue with state := .onHold } ue.calleeImpu (audio cfg ++ lit "/AMR-WB;a=sendonly")
  else stay ue

def doResume (cfg : UeConfig) (ue : Ue) : Outcome :=
  if ue.state = .onHold then
    sendInvite cfg { ue with state := .inCall } ue.calleeImpu (audio cfg ++ lit "/AMR-WB;a=sendrecv")
  else stay ue

def doConference (cfg : UeConfig) (ue : Ue) (thirdId : Str) : Outcome :=
  if ue.state = .inCall then
    match idToImpu thirdId with
    | none => stay ue
    | some third =>
      let confUri := lit "sip:conf-" ++ natText ue.nextSeq.toNat ++ lit "@mrfc." ++ imsDomain
      sendInvite cfg ue third (confUri ++ lit ";a=sendrecv;conf")
  else stay ue

/-- An UPDATE goes out as an INVITE. -/
def doUpdate (cfg : UeConfig) (ue : Ue) : Outcome :=
  if ue.state = .inCall ∨ ue.state = .onHold then
    sendInvite cfg ue ue.calleeImpu
      (audio cfg ++ lit "/AMR-WB;a=curr:qos local sendrecv;a=des:qos mandatory local sendrecv")
  else stay ue

def doVideo (cfg : UeConfig) (ue : Ue) : Outcome :=
  if ue.state = .inCall then
    sendInvite cfg ue ue.calleeImpu
      (audio cfg ++ lit "/AMR-WB;video:" ++ videoPort cfg ++ lit "/H264/90000;a=sendrecv")
  else stay ue

def doVoice (cfg : UeConfig) (ue : Ue) : Outcome :=
  if ue.state = .inCall then
    sendInvite cfg ue ue.calleeImpu
      (audio cfg ++ lit "/AMR-WB;video:0/H264/90000;port=0;a=sendrecv")
  else stay ue

/-- A BYE names nothing but its call. -/
def doBye (ue : Ue) : Outcome :=
  if ue.state = .inCall ∨ ue.state = .onHold then
    send { ue with state := .registered } { type := .bye, callId := ue.currentCallId }
  else stay ue

def processCommand (cfg : UeConfig) (ue : Ue) : Command → Outcome
  | .register => doRegister cfg ue
  | .call target behind => doCall cfg ue target behind
  | .accept => doAccept cfg ue
  | .reject => doReject ue
  | .hold => doHold cfg ue
  | .resume => doResume cfg ue
  | .conference third => doConference cfg ue third
  | .update => doUpdate cfg ue
  | .video => doVideo cfg ue
  | .voice => doVoice cfg ue
  | .bye => doBye ue

def contains (text : Str) (needle : String) : Bool := (find (lit needle) text).isSome

def incoming200Ok (cfg : UeConfig) (ue : Ue) (msg : SipMessage) : Outcome :=
  if msg.reason = lit "REGISTER" then stay { ue with state := .registered }
  else if msg.reason = lit "INVITE" ∨ msg.reason = [] then
    send { ue with state := .inCall }
      { type := .ack, callId := ue.currentCallId, sipFrom := cfg.impu, sipTo := ue.calleeImpu }
  else if msg.reason = lit "re-INVITE-RESUME" then stay { ue with state := .inCall }
  else if msg.reason = lit "BYE" then stay { ue with state := .registered }
  else stay ue

/-- Every INVITE but a hold of the current call rings. -/
def incomingInvite (ue : Ue) (msg : SipMessage) : Outcome :=
  let isHold := contains msg.sdp "sendonly" || contains msg.sdp "inactive"
  let isReinvite := ue.currentCallId ≠ [] ∧ msg.callId = ue.currentCallId
  if isHold ∧ isReinvite then stay ue
  else
    stay { ue with
      currentCallId := if msg.callId = [] then ue.currentCallId else msg.callId
      callerImpu := if msg.sipFrom = [] then ue.callerImpu else msg.sipFrom
      state := .ringing }

def handleIncoming (cfg : UeConfig) (ue : Ue) (msg : SipMessage) : Outcome :=
  match msg.type with
  | .ok200 => incoming200Ok cfg ue msg
  | .invite => incomingInvite ue msg
  | _ => stay ue

/-- The messages that tear a call down: a BYE, and the S-CSCF's answer to one. -/
def IsRelease (msg : SipMessage) : Prop :=
  msg.type = .bye ∨ msg.type = .ok200 ∧ msg.reason = lit "BYE"

instance (msg : SipMessage) : Decidable (IsRelease msg) :=
  inferInstanceAs (Decidable (_ ∨ _))

/-- What every message of a phone satisfies. -/
structure FromPhone (cfg : UeConfig) (msg : SipMessage) : Prop where
  register : msg.type = .register → msg.impu = cfg.impu
  invite : msg.type = .invite → msg.sipFrom = cfg.impu
  release : IsRelease msg → msg.sipFrom = [] ∧ msg.sipTo = []

/-- The phone has completed a registration. -/
def Active (ue : Ue) : Prop := ue.state ≠ .idle ∧ ue.state ≠ .registering

/-- A command sends messages of the phone and completes no registration. -/
structure Commanded (cfg : UeConfig) (ue : Ue) (out : Outcome) : Prop where
  messages : ∀ msg ∈ out.2, FromPhone cfg msg
  active : Active out.1 → Active ue

theorem ueConfigs_impu_ne_nil (label : UeLabel) : (ueConfigs label).impu ≠ [] := by
  cases label <;> decide

section Messages

variable {cfg : UeConfig} {ue ue' : Ue}

theorem fromPhone_of_mem_send {msg out : SipMessage} (hmsg : FromPhone cfg msg)
    (hout : out ∈ (send ue msg).2) : FromPhone cfg out := by
  obtain rfl := List.mem_singleton.mp hout
  exact hmsg

theorem stay_commanded : Commanded cfg ue (stay ue) :=
  ⟨by simp [stay], id⟩

theorem send_commanded {msg : SipMessage} (hmsg : FromPhone cfg msg)
    (hactive : Active ue' → Active ue) : Commanded cfg ue (send ue' msg) :=
  ⟨fun _ hout => fromPhone_of_mem_send hmsg hout, hactive⟩

theorem sendInvite_commanded (hactive : Active ue) (sipTo sdp : Str) :
    Commanded cfg ue (sendInvite cfg ue' sipTo sdp) :=
  send_commanded ⟨by simp, by simp, by simp [IsRelease]⟩ fun _ => hactive

theorem guarded {P : Outcome → Prop} {p : Prop} [Decidable p] {out : Outcome} (hstay : P (stay ue))
    (h : p → P out) : P (if p then out else stay ue) := by
  split
  · rename_i hp
    exact h hp
  · exact hstay

theorem guarded_commanded {p : Prop} [Decidable p] {out : Outcome}
    (h : p → Commanded cfg ue out) : Commanded cfg ue (if p then out else stay ue) :=
  guarded stay_commanded h

theorem active_of_state {state : UeState} (h : ue.state = state) (hidle : state ≠ .idle)
    (hregistering : state ≠ .registering) : Active ue := by
  subst h
  exact ⟨hidle, hregistering⟩

theorem inDialog_active (h : ue.state = .inCall ∨ ue.state = .onHold) : Active ue := by
  rcases h with h | h
  · exact active_of_state h (by simp) (by simp)
  · exact active_of_state h (by simp) (by simp)

theorem doRegister_commanded : Commanded cfg ue (doRegister cfg ue) := by
  unfold doRegister
  split
  · exact stay_commanded
  · refine send_commanded ⟨by simp, by simp, by simp [IsRelease]⟩ ?_
    rintro ⟨-, hregistering⟩
    exact absurd rfl hregistering

theorem doCall_commanded (target behind : Str) :
    Commanded cfg ue (doCall cfg ue target behind) := by
  refine guarded_commanded fun hstate => ?_
  split
  · exact stay_commanded
  · exact sendInvite_commanded (active_of_state hstate (by simp) (by simp)) _ _

theorem doAccept_commanded : Commanded cfg ue (doAccept cfg ue) := by
  refine guarded_commanded fun hstate => send_commanded ⟨by simp, by simp, ?_⟩ fun _ =>
    active_of_state hstate (by simp) (by simp)
  have hother : lit "INVITE" ≠ lit "BYE" := by decide
  rintro (hbye | ⟨-, hreason⟩)
  · cases hbye
  · exact absurd hreason hother

theorem doReject_commanded : Commanded cfg ue (doReject ue) :=
  guarded_commanded fun hstate =>
    send_commanded ⟨by simp, by simp, by simp [IsRelease]⟩ fun _ =>
      active_of_state hstate (by simp) (by simp)

theorem doConference_commanded (thirdId : Str) :
    Commanded cfg ue (doConference cfg ue thirdId) := by
  refine guarded_commanded fun hstate => ?_
  split
  · exact stay_commanded
  · exact sendInvite_commanded (inDialog_active (Or.inl hstate)) _ _

theorem doBye_commanded : Commanded cfg ue (doBye ue) :=
  guarded_commanded fun hstate =>
    send_commanded ⟨by simp, by simp, by simp⟩ fun _ => inDialog_active hstate

theorem processCommand_commanded (cmd : Command) :
    Commanded cfg ue (processCommand cfg ue cmd) := by
  cases cmd with
  | register => exact doRegister_commanded
  | call target behind => exact doCall_commanded target behind
  | accept => exact doAccept_commanded
  | reject => exact doReject_commanded
  | conference third => exact doConference_commanded third
  | bye => exact doBye_commanded
  | resume =>
      exact guarded_commanded fun h => sendInvite_commanded (inDialog_active (Or.inr h)) _ _
  | update => exact guarded_commanded fun h => sendInvite_commanded (inDialog_active h) _ _
  | hold | video | voice =>
      exact guarded_commanded fun h => sendInvite_commanded (inDialog_active (Or.inl h)) _ _

theorem incoming200Ok_messages (msg : SipMessage) :
    ∀ out ∈ (incoming200Ok cfg ue msg).2, FromPhone cfg out := by
  intro out hout
  unfold incoming200Ok at hout
  split at hout
  · cases hout
  · split at hout
    · exact fromPhone_of_mem_send ⟨by simp, by simp, by simp [IsRelease]⟩ hout
    · split at hout
      · cases hout
      · split at hout <;> cases hout

theorem handleIncoming_messages (msg : SipMessage) :
    ∀ out ∈ (handleIncoming cfg ue msg).2, FromPhone cfg out := by
  intro out hout
  unfold handleIncoming at hout
  split at hout
  · exact incoming200Ok_messages msg out hout
  · unfold incomingInvite at hout
    dsimp only at hout
    split at hout <;> cases hout
  · cases hout

end Messages

end MobileCore.SipPhones
