import MobileCore.CallBarring
import MobileCore.DialogAgreement
import MobileCore.ReleaseDelivery

/-!
# Call attempts that fail

An attempt fails when its CANCEL reaches the S-CSCF, which is how a callee rejects it, or when the
S-CSCF refuses it. Only a BYE clears the tables, and no phone sends one for a call that it is not
in.
-/

namespace MobileCore.FailedAttempts

open MobileCore.CallSessionControl
open MobileCore.CppText
open MobileCore.LabelledRuns
open MobileCore.LastWrite
open MobileCore.SipPhones
open CallBarring (asksConference scscfHandle_invite_cases)
open DialogAgreement (Keeps Recorded)
open ReleaseDelivery (InCall)

/-- `ended` is the end of an attempt at the S-CSCF. -/
inductive Event where
  | ended (callId : Str)
  | shown (e : CallSessionControl.Event)
deriving DecidableEq

def endsAttempt (node : ScscfNode) (msg : SipMessage) : Bool :=
  msg.type = .cancel ∨
    (msg.type = .invite ∧ (node.calls.lookup msg.callId).isNone ∧ invokeMtas node msg.sipTo = false)

def endedBy (s : State) : Input → List Str
  | .scscfReceive => ((s.toScscf.take 1).filter (endsAttempt s.scscf)).map SipMessage.callId
  | _ => []

def step (label : Nat → UeLabel) : Machine State Input Event
  | s, i => (CallSessionControl.step label s i).map fun r =>
    (r.1, (endedBy s i).map .ended ++ r.2.map .shown)

/-- The P-CSCF's check for call waiting. -/
def calleeBusy (p : PcscfNode) (sipTo callId : Str) : Bool :=
  p.callToCallee.entries.any fun e => decide (e.2 = sipTo) && decide (e.1 ≠ callId)

/-- Nothing of the attempt is left, and it makes nobody busy. -/
structure Cleared (s : State) (callId : Str) : Prop where
  call : s.scscf.calls.lookup callId = none
  caller : s.pcscf.callToCaller.lookup callId = none
  callee : s.pcscf.callToCallee.lookup callId = none
  calling : ∀ n, (s.conns n).ue.currentCallId = callId → (s.conns n).ue.state ≠ .calling
  idle : ∀ impu other, other ≠ callId → calleeBusy s.pcscf impu other =
    calleeBusy { s.pcscf with callToCallee := s.pcscf.callToCallee.erase callId } impu other

def actor : Input → Option Nat
  | .command n _ => some n
  | .ueReceive n => some n
  | _ => none

/-- The call is not established: no phone does anything in it. -/
def Unanswered (callId : Str) (_ : List Event) (s : State) (i : Input) : Prop :=
  ∀ n ∈ actor i, ¬InCall (s.conns n).ue callId

section Phones

variable {cfg : UeConfig} {ue ue' : Ue}

/-- What a phone says of its calls: it ends the one it is in, rejects the one that rings, and
invites to the one it places. -/
structure Signals (ue : Ue) (out : Outcome) : Prop where
  bye : ∀ msg ∈ out.2, msg.type = .bye → InCall ue msg.callId
  cancel : ∀ msg ∈ out.2, msg.type = .cancel → ue.state = .ringing ∧ msg.callId = ue.currentCallId
  current : (out.1.currentCallId = ue.currentCallId ∧ (out.1.state = .ringing → ue.state = .ringing)) ∨
    ∃ msg ∈ out.2, msg.type = .invite ∧ msg.callId = out.1.currentCallId

theorem stay_signals (hcallId : ue'.currentCallId = ue.currentCallId)
    (hstate : ue'.state = .ringing → ue.state = .ringing) : Signals ue (stay ue') where
  bye _ h := by cases h
  cancel _ h := by cases h
  current := Or.inl ⟨hcallId, hstate⟩

theorem send_signals {msg : SipMessage} (hcallId : ue'.currentCallId = ue.currentCallId)
    (hstate : ue'.state ≠ .ringing) (hbye : msg.type = .bye → InCall ue msg.callId)
    (hcancel : msg.type = .cancel → ue.state = .ringing ∧ msg.callId = ue.currentCallId) :
    Signals ue (send ue' msg) where
  bye out h := by
    rw [List.mem_singleton.mp h]
    exact hbye
  cancel out h := by
    rw [List.mem_singleton.mp h]
    exact hcancel
  current := Or.inl ⟨hcallId, fun h => absurd h hstate⟩

theorem sendInvite_signals (cfg : UeConfig) (ue ue' : Ue) (sipTo sdp : Str) :
    Signals ue (sendInvite cfg ue' sipTo sdp) where
  bye out h htype := by
    rw [List.mem_singleton.mp h] at htype
    cases htype
  cancel out h htype := by
    rw [List.mem_singleton.mp h] at htype
    cases htype
  current := Or.inr ⟨_, List.mem_singleton_self _, rfl, rfl⟩

theorem guarded_signals {p : Prop} [Decidable p] {out : Outcome} (h : p → Signals ue out) :
    Signals ue (if p then out else stay ue) :=
  guarded (stay_signals rfl id) h

theorem processCommand_signals (cmd : Command) : Signals ue (processCommand cfg ue cmd) := by
  cases cmd with
  | register =>
      rw [processCommand, doRegister]
      split
      · exact stay_signals rfl id
      · exact send_signals rfl (by simp) (by simp) (by simp)
  | call target =>
      apply guarded_signals
      intro _
      split
      · exact stay_signals rfl id
      · exact sendInvite_signals cfg ue _ _ _
  | accept =>
      exact guarded_signals fun _ => send_signals rfl (by simp) (by simp) (by simp)
  | reject =>
      exact guarded_signals fun h => send_signals rfl (by simp) (by simp) fun _ => ⟨h, rfl⟩
  | bye =>
      exact guarded_signals fun h => send_signals rfl (by simp) (fun _ => ⟨h, rfl⟩) (by simp)
  | conference third =>
      apply guarded_signals
      intro _
      split
      · exact stay_signals rfl id
      · exact sendInvite_signals cfg ue _ _ _
  | hold | resume | update | video | voice =>
      exact guarded_signals fun _ => sendInvite_signals cfg ue _ _ _

theorem handleIncoming_signals {msg : SipMessage} (hother : msg.type ≠ .invite) :
    Signals ue (handleIncoming cfg ue msg) := by
  rw [handleIncoming]
  split
  · rw [incoming200Ok]
    split
    · exact stay_signals rfl (by simp)
    split
    · exact send_signals rfl (by simp) (by simp) (by simp)
    split
    · exact stay_signals rfl (by simp)
    split
    · exact stay_signals rfl (by simp)
    · exact stay_signals rfl id
  · exact absurd (by assumption) hother
  · exact stay_signals rfl id

theorem incomingInvite_cases (ue : Ue) (msg : SipMessage) :
    (incomingInvite ue msg).2 = [] ∧
      ((incomingInvite ue msg).1 = ue ∨
        (incomingInvite ue msg).1.currentCallId =
          if msg.callId = [] then ue.currentCallId else msg.callId) := by
  rw [incomingInvite]
  split
  · exact ⟨rfl, Or.inl rfl⟩
  · exact ⟨rfl, Or.inr rfl⟩

end Phones

section Connections

variable {callId : Str} {p p' : PcscfNode} {c : Conn}

/-- The attempt is in both call maps of the P-CSCF. -/
def Placed (p : PcscfNode) (callId : Str) : Prop := ∃ caller callee, Recorded p callId caller callee

def Invites (L : List SipMessage) (callId : Str) : Prop :=
  ∃ msg ∈ L, msg.type = .invite ∧ msg.callId = callId

/-- A phone's link carries no BYE of the call, and a CANCEL only behind an INVITE. -/
def Follows (callId : Str) (p : PcscfNode) (ahead : List SipMessage) (msg : SipMessage) : Prop :=
  msg.callId = callId → msg.type ≠ .bye ∧
    (msg.type = .cancel → Placed p callId ∨ Invites ahead callId)

structure ConnInv (callId : Str) (p : PcscfNode) (c : Conn) : Prop where
  uplink : Backed (Follows callId p) c.uplink
  current : c.ue.currentCallId = callId → callId ≠ [] ∨ c.ue.state = .ringing →
    Placed p callId ∨ Invites c.uplink callId
  downlink : ∀ msg ∈ c.downlink, msg.type = .invite → msg.callId = callId → Placed p callId
  forwarding : ∀ msg, c.session.thread = .forwarding msg → msg.callId = callId →
    msg.type ≠ .bye ∧ (msg.type = .invite ∨ msg.type = .cancel → Placed p callId)
  cleaning : c.session.thread ≠ .cleaningUp callId

theorem Invites.append {L : List SipMessage} (h : Invites L callId) (more : List SipMessage) :
    Invites (L ++ more) callId := by
  obtain ⟨msg, hmsg, hinvite⟩ := h
  exact ⟨msg, List.mem_append_left more hmsg, hinvite⟩

theorem ConnInv.mono (h : ConnInv callId p c) (hkeeps : Placed p callId → Placed p' callId) :
    ConnInv callId p' c where
  uplink front msg back hsplit hid := by
    obtain ⟨hbye, hcancel⟩ := h.uplink front msg back hsplit hid
    exact ⟨hbye, fun htype => (hcancel htype).imp_left hkeeps⟩
  current hid hrings := (h.current hid hrings).imp_left hkeeps
  downlink msg hmsg htype hid := hkeeps (h.downlink msg hmsg htype hid)
  forwarding msg hthread hid := by
    obtain ⟨hbye, hplaced⟩ := h.forwarding msg hthread hid
    exact ⟨hbye, fun htype => hkeeps (hplaced htype)⟩
  cleaning := h.cleaning

theorem signals_connInv (h : ConnInv callId p c) {n : Nat} {out : Outcome}
    (hsignals : Signals c.ue out) (hout : ¬InCall c.ue callId) :
    ConnInv callId p { c with
      ue := out.1
      uplink := c.uplink ++ out.2.map fun msg => { msg with origin := n } } where
  uplink := by
    apply h.uplink.append
    intro front sent back hsplit hid
    obtain ⟨before, rest, hbefore, rfl, hrest⟩ := List.map_eq_append_iff.mp hsplit
    obtain ⟨msg, after, rfl, rfl, hafter⟩ := List.map_eq_cons_iff.mp hrest
    have hmsg : msg ∈ out.2 := by
      rw [hbefore]
      exact List.mem_append_right before List.mem_cons_self
    obtain rfl : msg.callId = callId := hid
    constructor
    · intro htype
      exact hout (hsignals.bye msg hmsg htype)
    · intro htype
      obtain ⟨hringing, hcurrent⟩ := hsignals.cancel msg hmsg htype
      exact (h.current hcurrent.symm (Or.inr hringing)).imp_right fun hinvites =>
        hinvites.append _
  current hid hrings := by
    rcases hsignals.current with ⟨hsame, hringing⟩ | ⟨msg, hmsg, htype, hcurrent⟩
    · exact (h.current (hsame.symm.trans hid) (hrings.imp_right hringing)).imp_right fun hinvites =>
        hinvites.append _
    · refine Or.inr ⟨{ msg with origin := n }, ?_, htype, hcurrent.trans hid⟩
      exact List.mem_append_right _ (List.mem_map_of_mem hmsg)
  downlink := h.downlink
  forwarding := h.forwarding
  cleaning := h.cleaning

theorem receive_connInv (h : ConnInv callId p c) {n : Nat} {cfg : UeConfig} {msg : SipMessage}
    {rest : List SipMessage} (hdownlink : c.downlink = msg :: rest) (hout : ¬InCall c.ue callId) :
    ConnInv callId p { c with
      ue := (handleIncoming cfg c.ue msg).1
      downlink := rest
      uplink := c.uplink ++
        (handleIncoming cfg c.ue msg).2.map fun msg => { msg with origin := n } } := by
  have hrest : ConnInv callId p { c with downlink := rest } :=
    { h with downlink := fun later hlater =>
        h.downlink later (hdownlink ▸ List.mem_cons_of_mem msg hlater) }
  by_cases htype : msg.type = .invite
  · have hincoming : handleIncoming cfg c.ue msg = incomingInvite c.ue msg := by
      rw [handleIncoming, htype]
    obtain ⟨hsilent, hcases⟩ := incomingInvite_cases c.ue msg
    rw [hincoming, hsilent, List.map_nil, List.append_nil]
    rcases hcases with hsame | hcurrent
    · rw [hsame]
      exact hrest
    · refine { hrest with current := ?_ }
      intro hid _
      have hplaced := h.downlink msg (hdownlink ▸ List.mem_cons_self) htype
      rw [show (incomingInvite c.ue msg).1.currentCallId = _ from hcurrent] at hid
      split at hid
      · rename_i hempty
        by_cases hcallId : callId = []
        · exact Or.inl (hplaced (hempty.trans hcallId.symm))
        · exact h.current hid (Or.inl hcallId)
      · exact Or.inl (hplaced hid)
  · exact signals_connInv hrest (handleIncoming_signals htype) hout

end Connections

section Records

variable {callId : Str} {p : PcscfNode} {msg : SipMessage}

theorem placed_of_keeps {p' : PcscfNode} (hkeeps : Keeps callId p p') (h : Placed p callId) :
    Placed p' callId := by
  obtain ⟨caller, callee, hrecorded⟩ := h
  exact ⟨caller, callee, hkeeps caller callee hrecorded⟩

theorem handleFromUe_placed {s : State} {n : Nat} (hfrom : msg.type = .invite → msg.sipFrom ≠ [])
    (h : Placed s.pcscf callId ∨ msg.type = .invite ∧ msg.callId = callId) :
    Placed (handleFromUe s n msg).1.pcscf callId := by
  by_cases hinvite : msg.type = .invite ∧ msg.callId = callId
  · obtain ⟨htype, rfl⟩ := hinvite
    exact ⟨_, _, DialogAgreement.handleFromUe_records s n msg htype (hfrom htype)⟩
  · refine placed_of_keeps (DialogAgreement.handleFromUe_keeps s n msg ?_) (h.resolve_right hinvite)
    rintro htype rfl
    exact hinvite ⟨htype, rfl⟩

theorem enterInvite_placed (hfrom : msg.sipFrom ≠ []) (hto : msg.sipTo ≠ []) :
    Placed (enterInvite p msg).1 msg.callId := by
  unfold enterInvite
  dsimp only
  by_cases hcaller : p.callToCaller.lookup msg.callId = none
  · by_cases hcallee : p.callToCallee.lookup msg.callId = none
    · exact ⟨msg.sipFrom, msg.sipTo, by simp [Recorded, hcaller, hcallee, hfrom, hto]⟩
    · obtain ⟨callee, hcallee⟩ := Option.ne_none_iff_exists'.mp hcallee
      exact ⟨msg.sipFrom, callee, by simp [Recorded, hcaller, hcallee, hfrom]⟩
  · obtain ⟨caller, hcaller⟩ := Option.ne_none_iff_exists'.mp hcaller
    by_cases hcallee : p.callToCallee.lookup msg.callId = none
    · exact ⟨caller, msg.sipTo, by simp [Recorded, hcaller, hcallee, hto]⟩
    · obtain ⟨callee, hcallee⟩ := Option.ne_none_iff_exists'.mp hcallee
      exact ⟨caller, callee, by simp [Recorded, hcaller, hcallee]⟩

end Records

section Steps

variable {label : Nat → UeLabel} {callId : Str} {known : Prop} {s s' : State} {n : Nat}

/-- What the nodes and links hold of the attempt, which is placed when `known`. -/
structure Inv (callId : Str) (known : Prop) (s : State) : Prop where
  conns : ∀ n, ConnInv callId s.pcscf (s.conns n)
  senders : ∀ n msg, (s.conns n).session.thread = .forwarding msg → msg.type = .invite →
    msg.sipFrom ≠ []
  toScscf : ∀ msg ∈ s.toScscf, (msg.type = .invite → msg.sipFrom ≠ []) ∧
    (msg.callId = callId → msg.type = .invite ∨ msg.type = .cancel → Placed s.pcscf callId)
  calls : ∀ id cs, s.scscf.calls.lookup id = some cs → cs.callerImpu ≠ []
  toPcscf : ∀ msg ∈ s.toPcscf, msg.type = .invite → msg.callId = callId →
    Placed s.pcscf callId ∨ msg.sipFrom ≠ [] ∧ msg.sipTo ≠ []
  delivered : callId ∈ s.pcscf.callInviteDelivered → Placed s.pcscf callId
  notifying : ∀ target msg, s.pcscf.scscfThread = .notifying target msg → msg.type ≠ .invite
  ended : known → Placed s.pcscf callId

theorem init_inv : Inv callId False init where
  conns n :=
    { uplink := Backed.nil _
      current := by
        rintro rfl hrings
        rcases hrings with hne | hringing
        · exact absurd rfl hne
        · cases hringing
      downlink := by
        intro msg hmsg
        cases hmsg
      forwarding := by
        intro msg h
        cases h
      cleaning := by
        intro h
        cases h }
  senders n msg h := by cases h
  toScscf msg h := by cases h
  calls id cs h := by cases h
  toPcscf msg h := by cases h
  delivered h := by simp [init] at h
  notifying target msg h := by cases h
  ended h := h.elim

theorem modify_connInv (h : ∀ m, ConnInv callId s.pcscf (s.conns m)) (f : Conn → Conn)
    (hf : ConnInv callId s.pcscf (f (s.conns n))) (m : Nat) :
    ConnInv callId s.pcscf ((s.modify n f).conns m) := by
  rw [State.modify_conns]
  split
  · exact hf
  · exact h m

theorem modify_inv (h : Inv callId known s) (f : Conn → Conn)
    (hf : ConnInv callId s.pcscf (f (s.conns n)))
    (hthread : (f (s.conns n)).session.thread = (s.conns n).session.thread) :
    Inv callId known (s.modify n f) :=
  { h with
    conns := modify_connInv h.conns f hf
    senders := fun m msg hforwarding => by
      rw [modify_thread s n f hthread] at hforwarding
      exact h.senders m msg hforwarding }

theorem command_inv (h : Inv callId known s) (cmd : Command) (hout : ¬InCall (s.conns n).ue callId) :
    Inv callId known (phoneStep s n (processCommand (cfgOf label n) (s.conns n).ue cmd)) :=
  modify_inv h _ (signals_connInv (h.conns n) (processCommand_signals cmd) hout) rfl

theorem ueReceive_inv (h : Inv callId known s) {msg : SipMessage} {rest : List SipMessage}
    (hdownlink : (s.conns n).downlink = msg :: rest) (hout : ¬InCall (s.conns n).ue callId) :
    Inv callId known (phoneStep (s.modify n fun c => { c with downlink := rest }) n
      (handleIncoming (cfgOf label n) (s.conns n).ue msg)) := by
  rw [phoneStep, modify_modify]
  exact modify_inv h _ (receive_connInv (h.conns n) hdownlink hout) rfl

theorem Inv.placed (h : Inv callId known s) (hconns : ∀ n, ConnInv callId s'.pcscf (s'.conns n))
    (hsenders : ∀ n msg, (s'.conns n).session.thread = .forwarding msg → msg.type = .invite →
      msg.sipFrom ≠ [])
    (hkeeps : Placed s.pcscf callId → Placed s'.pcscf callId) (htoScscf : s'.toScscf = s.toScscf)
    (hscscf : s'.scscf = s.scscf) (htoPcscf : ∀ msg ∈ s'.toPcscf, msg ∈ s.toPcscf)
    (hdelivered : callId ∈ s'.pcscf.callInviteDelivered → Placed s'.pcscf callId)
    (hnotifying : ∀ target msg, s'.pcscf.scscfThread = .notifying target msg →
      msg.type ≠ .invite) : Inv callId known s' where
  conns := hconns
  senders := hsenders
  toScscf msg hmsg := by
    rw [htoScscf] at hmsg
    obtain ⟨hfrom, hplaced⟩ := h.toScscf msg hmsg
    exact ⟨hfrom, fun hid htype => hkeeps (hplaced hid htype)⟩
  calls := by
    rw [hscscf]
    exact h.calls
  toPcscf msg hmsg htype hid := (h.toPcscf msg (htoPcscf msg hmsg) htype hid).imp_left hkeeps
  delivered := hdelivered
  notifying := hnotifying
  ended hknown := hkeeps (h.ended hknown)

theorem enters_connInv {p : PcscfNode} (henters : Enters s s') {m : Nat}
    (h : ConnInv callId p (s.conns m)) : ConnInv callId p (s'.conns m) := by
  constructor
  · rw [henters.uplink m]
    exact h.uplink
  · rw [henters.ue m, henters.uplink m]
    exact h.current
  · rw [henters.downlink m]
    exact h.downlink
  · rw [henters.thread m]
    exact h.forwarding
  · rw [henters.thread m]
    exact h.cleaning

theorem takeUp_connInv {p p' : PcscfNode} {c : Conn} (h : ConnInv callId p c) {msg : SipMessage}
    {rest : List SipMessage} (huplink : c.uplink = msg :: rest)
    (hplaced : Placed p callId ∨ msg.type = .invite ∧ msg.callId = callId → Placed p' callId) :
    ConnInv callId p' { c with
      uplink := rest
      session := { c.session with thread := .forwarding msg } } := by
  have hmoved {L : List SipMessage} (hor : Placed p callId ∨ Invites (msg :: L) callId) :
      Placed p' callId ∨ Invites L callId := by
    rcases hor with hold | ⟨first, hfirst, hinvite⟩
    · exact Or.inl (hplaced (Or.inl hold))
    · rcases List.mem_cons.mp hfirst with rfl | hlater
      · exact Or.inl (hplaced (Or.inr hinvite))
      · exact Or.inr ⟨first, hlater, hinvite⟩
  constructor
  · intro front later back hsplit hid
    have hlonger : c.uplink = (msg :: front) ++ later :: back := by
      rw [huplink, show rest = _ from hsplit, List.cons_append]
    obtain ⟨hbye, hcancel⟩ := h.uplink _ later back hlonger hid
    exact ⟨hbye, fun htype => hmoved (hcancel htype)⟩
  · intro hid hrings
    have hcurrent := h.current hid hrings
    rw [huplink] at hcurrent
    exact hmoved hcurrent
  · intro out hout htype hid
    exact hplaced (Or.inl (h.downlink out hout htype hid))
  · intro out hforwarding hid
    obtain rfl : msg = out := UeThread.forwarding.inj hforwarding
    obtain ⟨hbye, hcancel⟩ := h.uplink [] msg rest huplink hid
    refine ⟨hbye, ?_⟩
    rintro (hinvite | htype)
    · exact hplaced (Or.inr ⟨hinvite, hid⟩)
    · rcases hcancel htype with hold | ⟨first, hfirst, -⟩
      · exact hplaced (Or.inl hold)
      · cases hfirst
  · intro hcleaning
    cases hcleaning

theorem pcscfRead_inv (h : Inv callId known s) (hlinks : PhoneLinks label s) {msg : SipMessage}
    {rest : List SipMessage} (huplink : (s.conns n).uplink = msg :: rest) :
    Inv callId known (handleFromUe
      (setThread (s.modify n fun c => { c with uplink := rest }) n (.forwarding msg)) n msg).1 := by
  have hfrom : msg.type = .invite → msg.sipFrom ≠ [] := by
    intro htype
    rw [(hlinks n msg (huplink ▸ List.mem_cons_self)).invite htype]
    exact ueConfigs_impu_ne_nil (label n)
  let s₁ := setThread (s.modify n fun c => { c with uplink := rest }) n (.forwarding msg)
  have hplaced (hor : Placed s.pcscf callId ∨ msg.type = .invite ∧ msg.callId = callId) :
      Placed (handleFromUe s₁ n msg).1.pcscf callId :=
    handleFromUe_placed (s := s₁) hfrom hor
  have henters := handleFromUe_enters s₁ n msg
  apply h.placed
  · intro m
    apply enters_connInv henters
    have hconns : s₁.conns m = if m = n then { s.conns n with
        uplink := rest
        session := { (s.conns n).session with thread := .forwarding msg } } else s.conns m := by
      rw [show s₁ = _ from modify_modify s n _ _]
      exact s.modify_conns n m _
    rw [hconns]
    split
    · exact takeUp_connInv (h.conns n) huplink hplaced
    · exact (h.conns m).mono fun hold => hplaced (Or.inl hold)
  · intro m out hforwarding htype
    rw [henters.thread, setThread_thread] at hforwarding
    split at hforwarding
    · obtain rfl := UeThread.forwarding.inj hforwarding
      exact hfrom htype
    · rw [modify_thread s n (fun c => { c with uplink := rest }) rfl] at hforwarding
      exact h.senders m out hforwarding htype
  · exact fun hold => hplaced (Or.inl hold)
  · exact henters.toScscf
  · exact henters.scscf
  · intro out hout
    rwa [henters.toPcscf] at hout
  · rw [henters.delivered]
    exact fun hmem => hplaced (Or.inl (h.delivered hmem))
  · rw [henters.scscfThread]
    exact h.notifying

theorem setThread_connInv (h : ∀ m, ConnInv callId s.pcscf (s.conns m)) {thread : UeThread}
    (hdone : ∀ msg, thread ≠ .forwarding msg) (hcleaning : thread ≠ .cleaningUp callId) (m : Nat) :
    ConnInv callId s.pcscf ((setThread s n thread).conns m) :=
  modify_connInv h (fun c => { c with session := { c.session with thread := thread } })
    ⟨(h n).uplink, (h n).current, (h n).downlink, fun msg hmsg => absurd hmsg (hdone msg),
      hcleaning⟩ m

theorem setThread_senders {thread : UeThread} (hdone : ∀ msg, thread ≠ .forwarding msg)
    (h : ∀ n msg, (s.conns n).session.thread = .forwarding msg → msg.type = .invite →
      msg.sipFrom ≠ []) (m : Nat) (msg : SipMessage)
    (hforwarding : ((setThread s n thread).conns m).session.thread = .forwarding msg) :
    msg.type = .invite → msg.sipFrom ≠ [] := by
  rw [setThread_thread] at hforwarding
  split at hforwarding
  · exact absurd hforwarding (hdone msg)
  · exact h m msg hforwarding

theorem pcscfForward_inv (h : Inv callId known s) {msg : SipMessage}
    (hforwarding : (s.conns n).session.thread = .forwarding msg) :
    Inv callId known (setThread { s with toScscf := s.toScscf ++ [msg] } n
      (if msg.type = .bye then .cleaningUp msg.callId else .receiving)) := by
  have hdone (later : SipMessage) :
      (if msg.type = .bye then UeThread.cleaningUp msg.callId else .receiving) ≠
        .forwarding later := by
    split <;> simp
  have hcleaning : (if msg.type = .bye then UeThread.cleaningUp msg.callId else .receiving) ≠
      .cleaningUp callId := by
    split
    · rename_i hbye
      intro hsame
      exact ((h.conns n).forwarding msg hforwarding (UeThread.cleaningUp.inj hsame)).1 hbye
    · simp
  refine { h with
    conns := setThread_connInv (s := { s with toScscf := s.toScscf ++ [msg] }) h.conns hdone
      hcleaning
    senders := setThread_senders (s := { s with toScscf := s.toScscf ++ [msg] }) hdone h.senders
    toScscf := ?_ }
  intro out hout
  rcases List.mem_append.mp hout with hold | hnew
  · exact h.toScscf out hold
  · rw [List.mem_singleton.mp hnew]
    exact ⟨h.senders n msg hforwarding, fun hid =>
      ((h.conns n).forwarding msg hforwarding hid).2⟩

theorem pcscfCleanUp_inv (h : Inv callId known s) {other : Str}
    (hcleaning : (s.conns n).session.thread = .cleaningUp other) :
    Inv callId known (setThread { s with pcscf := cleanUp s.pcscf other } n .receiving) := by
  have hother : callId ≠ other := by
    rintro rfl
    exact (h.conns n).cleaning hcleaning
  have hkeeps : Placed s.pcscf callId → Placed (cleanUp s.pcscf other) callId :=
    placed_of_keeps (DialogAgreement.cleanUp_keeps hother)
  let s₁ : State := { s with pcscf := cleanUp s.pcscf other }
  apply h.placed
  · exact setThread_connInv (s := s₁) (fun m => (h.conns m).mono hkeeps) (by simp) (by simp)
  · exact setThread_senders (s := s₁) (by simp) h.senders
  · exact hkeeps
  · rfl
  · rfl
  · exact fun _ hmsg => hmsg
  · exact fun hmem => hkeeps (h.delivered (Finset.mem_of_mem_erase hmem))
  · exact h.notifying

theorem delivers_connInv {p : PcscfNode} {rest msgs : List SipMessage}
    {r : State × List CallSessionControl.Event}
    (h : ∀ m, ConnInv callId s.pcscf (s.conns m))
    (hdelivers : Delivers { s with pcscf := p, toPcscf := rest } r.1)
    (hhands : HandsOn msgs s r) (hkeeps : Placed s.pcscf callId → Placed p callId)
    (hinvites : ∀ msg ∈ msgs, msg.type = .invite → msg.callId = callId → Placed p callId)
    (m : Nat) : ConnInv callId r.1.pcscf (r.1.conns m) := by
  have hold := (h m).mono hkeeps
  rw [hdelivers.pcscf]
  constructor
  · rw [hdelivers.uplink m]
    exact hold.uplink
  · rw [hdelivers.ue m, hdelivers.uplink m]
    exact hold.current
  · intro out hout htype hid
    rcases hhands.downlink m out hout with hwaiting | hnew
    · exact hold.downlink out hwaiting htype hid
    · exact hinvites out hnew htype hid
  · rw [hdelivers.thread m]
    exact hold.forwarding
  · rw [hdelivers.thread m]
    exact hold.cleaning

theorem pcscfReceive_inv (h : Inv callId known s) {msg : SipMessage} {rest : List SipMessage}
    (hpcscf : s.toPcscf = msg :: rest) :
    Inv callId known (handleFromScscf { s with toPcscf := rest } msg).1 := by
  obtain ⟨p, hsection, hdelivers⟩ := handleFromScscf_delivers { s with toPcscf := rest } msg
  have hkeeps : Placed s.pcscf callId → Placed p callId :=
    placed_of_keeps (DialogAgreement.rxSection_keeps hsection)
  -- A second delivery follows a placed attempt, and a first one places it.
  have hinvite (htype : msg.type = .invite) (hid : msg.callId = callId) : Placed p callId := by
    have hp := hdelivers.pcscf
    rw [handleFromScscf, htype] at hp
    dsimp only at hp
    rw [routeInvite_pcscf] at hp
    split at hp
    · rename_i hmem
      rw [hid] at hmem
      exact hkeeps (h.delivered hmem)
    · rcases h.toPcscf msg (hpcscf ▸ List.mem_cons_self) htype hid with hold | ⟨hfrom, hto⟩
      · exact hkeeps hold
      · rw [← show _ = p from hp, ← hid]
        exact enterInvite_placed hfrom hto
  have hp : (handleFromScscf { s with toPcscf := rest } msg).1.pcscf = p := hdelivers.pcscf
  apply h.placed
  · have hhands := handleFromScscf_handsOn { s with toPcscf := rest } msg
    apply delivers_connInv h.conns hdelivers ⟨hhands.events, hhands.downlink⟩ hkeeps
    intro out hout htype hid
    rcases List.mem_cons.mp hout with rfl | hring
    · exact hinvite htype hid
    · rw [List.mem_singleton.mp hring] at htype
      cases htype
  · intro m out hforwarding
    rw [hdelivers.thread m] at hforwarding
    exact h.senders m out hforwarding
  · rw [hp]
    exact hkeeps
  · exact hdelivers.toScscf
  · exact hdelivers.scscf
  · intro out hout
    rw [hdelivers.toPcscf] at hout
    rw [hpcscf]
    exact List.mem_cons_of_mem msg hout
  · rw [hp]
    intro hmem
    cases hsection with
    | unchanged => exact h.delivered hmem
    | entered htype _ =>
        rw [enterInvite_delivered] at hmem
        rcases Finset.mem_insert.mp hmem with hsame | hold
        · exact hinvite htype hsame.symm
        · exact hkeeps (h.delivered hold)
    | answered target _ _ => exact hkeeps (h.delivered hmem)
  · rw [hp]
    intro target out hthread
    cases hsection with
    | unchanged => exact h.notifying target out hthread
    | entered _ _ =>
        rw [enterInvite_scscfThread] at hthread
        exact h.notifying target out hthread
    | answered other htype _ =>
        obtain ⟨-, rfl⟩ := ScscfThread.notifying.inj hthread
        rw [htype]
        simp

theorem pcscfNotify_inv (h : Inv callId known s) {target : Str} {msg : SipMessage}
    (hnotifying : s.pcscf.scscfThread = .notifying target msg) :
    Inv callId known (notify s target msg).1 := by
  have hdelivers := notify_delivers s target msg
  have hp : (notify s target msg).1.pcscf = { s.pcscf with scscfThread := .receiving } :=
    hdelivers.pcscf
  apply h.placed
  · apply delivers_connInv h.conns hdelivers (notify_handsOn s target msg) id
    intro out hout htype
    rw [List.mem_singleton.mp hout] at htype
    exact absurd htype (h.notifying target msg hnotifying)
  · intro m out hforwarding
    rw [hdelivers.thread m] at hforwarding
    exact h.senders m out hforwarding
  · rw [hp]
    exact id
  · exact hdelivers.toScscf
  · exact hdelivers.scscf
  · intro out hout
    rwa [hdelivers.toPcscf] at hout
  · rw [hp]
    exact h.delivered
  · rw [hp]
    intro other out hthread
    cases hthread

theorem scscfReceive_inv (h : Inv callId known s) {msg : SipMessage} {rest : List SipMessage}
    (hscscf : s.toScscf = msg :: rest) :
    Inv callId known { s with
      toScscf := rest
      scscf := (scscfHandle s.scscf msg).1
      toPcscf := s.toPcscf ++ (scscfHandle s.scscf msg).2 } := by
  obtain ⟨hfrom, hplaced⟩ := h.toScscf msg (hscscf ▸ List.mem_cons_self)
  refine { h with toScscf := ?_, calls := ?_, toPcscf := ?_ }
  · intro later hlater
    exact h.toScscf later (hscscf ▸ List.mem_cons_of_mem msg hlater)
  · intro id cs hcs
    rcases DialogAgreement.scscfHandle_calls hcs with ⟨old, hold, hcaller, -⟩ | ⟨htype, -, hsame, -⟩
    · rw [← hcaller]
      exact h.calls id old hold
    · rw [← hsame]
      exact hfrom htype
  · intro out hout htype hid
    rcases List.mem_append.mp hout with hold | hnew
    · exact h.toPcscf out hold htype hid
    · obtain ⟨hinvite, hcases⟩ := scscfHandle_invite_cases hnew htype
      rcases hcases with ⟨-, rfl⟩ | ⟨cs, hcs, ⟨-, rfl⟩ | ⟨-, hto, rfl⟩⟩
      · exact Or.inl (hplaced hid (Or.inl htype))
      · exact Or.inl (hplaced hid (Or.inl htype))
      · exact Or.inr ⟨h.calls _ cs hcs, hto⟩

theorem ims_inv {i : Input} {es : List CallSessionControl.Event} (hlinks : PhoneLinks label s)
    (h : Inv callId known s) (hguard : ∀ n ∈ actor i, ¬InCall (s.conns n).ue callId)
    (hstep : CallSessionControl.step label s i = some (s', es)) : Inv callId known s' := by
  cases step_cases hstep with
  | command n cmd => exact command_inv h cmd (hguard n rfl)
  | @ueReceive n msg rest hdownlink => exact ueReceive_inv h hdownlink (hguard n rfl)
  | pcscfRead _ huplink => exact pcscfRead_inv h hlinks huplink
  | pcscfForward hforwarding => exact pcscfForward_inv h hforwarding
  | pcscfCleanUp hcleaning => exact pcscfCleanUp_inv h hcleaning
  | pcscfReceive _ htoPcscf => exact pcscfReceive_inv h htoPcscf
  | pcscfNotify hnotifying => exact pcscfNotify_inv h hnotifying
  | scscfReceive htoScscf => exact scscfReceive_inv h htoScscf
  | setBarred _ _ => exact { h with }

theorem endedBy_placed {i : Input} (h : Inv callId known s) (hended : callId ∈ endedBy s i) :
    Placed s.pcscf callId := by
  unfold endedBy at hended
  split at hended
  · obtain ⟨msg, hmsg, hid⟩ := List.mem_map.mp hended
    obtain ⟨hfirst, hends⟩ := List.mem_filter.mp hmsg
    have htype : msg.type = .invite ∨ msg.type = .cancel := by
      rcases of_decide_eq_true hends with hcancel | ⟨hinvite, -⟩
      · exact Or.inr hcancel
      · exact Or.inl hinvite
    exact (h.toScscf msg (List.mem_of_mem_take hfirst)).2 hid htype
  · cases hended

end Steps

section Runs

variable {label : Nat → UeLabel} {callId : Str}

theorem run_inv {tr : List Event} {s : State}
    (hrun : Run (step label) (Unanswered callId) init tr s) :
    PhoneLinks label s ∧ Inv callId (.ended callId ∈ tr) s := by
  refine hrun.invariant
    (I := fun tr s => PhoneLinks label s ∧ Inv callId (.ended callId ∈ tr) s) ?_ ?_
  · refine ⟨?_, { init_inv with ended := ?_ }⟩
    · intro n msg hmsg
      cases hmsg
    · intro hended
      cases hended
  · rintro tr s i s' es ⟨hlinks, h⟩ hguard hstep
    obtain ⟨⟨next, shown⟩, hims, hresult⟩ := Option.map_eq_some_iff.mp hstep
    obtain ⟨rfl, rfl⟩ := Prod.ext_iff.mp hresult
    have hknown : Inv callId
        (.ended callId ∈ tr ++ ((endedBy s i).map .ended ++ shown.map .shown)) s := by
      refine { h with ended := ?_ }
      intro hmem
      rcases List.mem_append.mp hmem with hold | hnew
      · exact h.ended hold
      · apply endedBy_placed (i := i) h
        simpa using hnew
    exact ⟨step_links hlinks hims, ims_inv hlinks hknown hguard hims⟩

/-- In every run in which no phone gets into the call, an attempt that has ended is never cleared
from the tables. -/
theorem ended_not_cleared {tr : List Event} {s : State}
    (hrun : Run (step label) (Unanswered callId) init tr s) (hended : .ended callId ∈ tr) :
    ¬Cleared s callId := by
  intro hcleared
  obtain ⟨-, h⟩ := run_inv hrun
  obtain ⟨caller, callee, hcaller, -⟩ := h.ended hended
  rw [hcleared.caller] at hcaller
  cases hcaller

end Runs

section Schedules

instance (ue : Ue) (callId : Str) : Decidable (InCall ue callId) :=
  inferInstanceAs (Decidable ((_ ∨ _) ∧ _))

instance (callId : Str) (tr : List Event) (s : State) (i : Input) :
    Decidable (Unanswered callId tr s i) :=
  inferInstanceAs (Decidable (∀ n ∈ actor i, ¬_))

/-- Phones A and B register, A calls B, and B rejects the call. -/
def rejectedCall : List Input :=
  registration 0 ++ registration 1 ++ signalled 0 (.call (lit "B") (behind .a)) ++
    [.pcscfReceive, .pcscfReceive, .pcscfReceive, .ueReceive 1] ++ signalled 1 .reject

theorem rejected_not_cleared :
    ∃ tr s, Run (step threePhones) (Unanswered callAB) init tr s ∧ .ended callAB ∈ tr ∧
      ¬Cleared s callAB := by
  have hexec : (exec (step threePhones) init rejectedCall).map
      (fun p => decide (.ended callAB ∈ p.2)) = some true := by
    decide +kernel
  obtain ⟨tr, s, hrun, hmem⟩ :=
    exists_run_of_exec (P := Unanswered callAB) _ (by decide +kernel) hexec
  have hended : .ended callAB ∈ tr := of_decide_eq_true hmem
  exact ⟨tr, s, hrun, hended, ended_not_cleared hrun hended⟩

/-- Every message about a call between phones A and B has arrived. -/
structure Settled (s : State) : Prop where
  toScscf : s.toScscf = []
  toPcscf : s.toPcscf = []
  links : ∀ n < 2, (s.conns n).uplink = [] ∧ (s.conns n).downlink = []

instance (s : State) : Decidable (Settled s) :=
  decidable_of_iff (s.toScscf = [] ∧ s.toPcscf = [] ∧
    ∀ n < 2, (s.conns n).uplink = [] ∧ (s.conns n).downlink = [])
    ⟨fun h => ⟨h.1, h.2.1, h.2.2⟩, fun h => ⟨h.toScscf, h.toPcscf, h.links⟩⟩

/-- Every message about the rejected call has arrived, and the S-CSCF still stores it. -/
theorem not_cleared_settled :
    ¬ ∀ tr s, Run (step threePhones) (Unanswered callAB) init tr s → .ended callAB ∈ tr →
      Settled s → Cleared s callAB := by
  intro h
  have hexec : (exec (step threePhones) init (rejectedCall ++
      [.pcscfReceive, .pcscfReceive, .ueReceive 0, .ueReceive 0, .ueReceive 0, .ueReceive 0,
        .ueReceive 0])).map (fun p => decide (Event.ended callAB ∈ p.2 ∧ Settled p.1 ∧
        storedParties p.1.scscf callAB = some (impuA, impuB))) = some true := by
    decide +kernel
  obtain ⟨tr, s, hrun, hseen⟩ :=
    exists_run_of_exec (P := Unanswered callAB) _ (by decide +kernel) hexec
  obtain ⟨hended, hsettled, hstored⟩ := of_decide_eq_true hseen
  have hcall := (h tr s hrun hended hsettled).call
  rw [storedParties, hcall] at hstored
  cases hstored

end Schedules

end MobileCore.FailedAttempts
