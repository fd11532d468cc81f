import MobileCore.CallLegs
import MobileCore.HoldRequests
import MobileCore.OutstandingInvites
import MobileCore.ReleaseDelivery

/-!
# Requests to change an established session

A hold, a resume, an update and a change of the video go out as INVITEs within the call. The
S-CSCF hands each on to its To and answers it itself, and the P-CSCF sends a copy of the answer to
the callee that it has on record.
-/

namespace MobileCore.SessionChanges

open MobileCore.CallSessionControl hiding Event step
open MobileCore.CppText
open MobileCore.LabelledRuns
open MobileCore.LastWrite
open MobileCore.SipPhones
open CallLegs (asksConference)
open OutstandingInvites (Acked forwardedBy upstream upstream_phoneStep)

/-- The two parties of a call. -/
structure Parties where
  first : UeLabel
  second : UeLabel
  distinct : first ≠ second

def Parties.Has (p : Parties) (l : UeLabel) : Prop := l = p.first ∨ l = p.second

def Parties.peer (p : Parties) (l : UeLabel) : UeLabel := if l = p.first then p.second else p.first

def impuOf (l : UeLabel) : Str := (ueConfigs l).impu

/-- An INVITE of the call that asks for no conference. -/
def Modifies (callId : Str) (msg : SipMessage) : Prop :=
  msg.type = .invite ∧ msg.callId = callId ∧ asksConference msg = false

/-- The answer of the S-CSCF to such an INVITE. -/
def Grants (callId : Str) (msg : SipMessage) : Prop :=
  msg.type = .ok200 ∧ msg.callId = callId ∧ notifiesCallee msg.reason = true

instance (p : Parties) (l : UeLabel) : Decidable (p.Has l) := inferInstanceAs (Decidable (_ ∨ _))

instance (callId : Str) (msg : SipMessage) : Decidable (Modifies callId msg) :=
  inferInstanceAs (Decidable (_ ∧ _))

instance (callId : Str) (msg : SipMessage) : Decidable (Grants callId msg) :=
  inferInstanceAs (Decidable (_ ∧ _))

def grant (msg : SipMessage) : Str :=
  lit (if contains msg.sdp "inactive" || contains msg.sdp "sendonly" then "re-INVITE-HOLD"
    else if contains msg.sdp "video" && contains msg.sdp "H264" then
      if contains msg.sdp "port=0" then "VIDEO-REMOVE" else "VIDEO-ADD"
    else "re-INVITE-RESUME")

/-- `sent` is a message that a phone writes for a command. -/
inductive Event where
  | sent (msg : SipMessage)
  | shown (e : CallSessionControl.Event)
deriving DecidableEq

def spoken (label : Nat → UeLabel) (s : State) : Input → List SipMessage
  | .command n cmd =>
    (processCommand (cfgOf label n) (s.conns n).ue cmd).2.map fun msg => { msg with origin := n }
  | _ => []

def step (label : Nat → UeLabel) : Machine State Input Event
  | s, i => (CallSessionControl.step label s i).map fun r =>
    (r.1, (spoken label s i).map .sent ++ r.2.map .shown)

section Views

variable (callId : Str) (n : Nat)

def requestOf (msg : SipMessage) : Bool := decide (Modifies callId msg ∧ msg.origin = n)

def grantOf (msg : SipMessage) : Bool := decide (Grants callId msg ∧ msg.origin = n)

def requested : Event → Option SipMessage
  | .sent msg => if requestOf callId n msg then some msg else none
  | .shown _ => none

/-- A delivery of a message of a kind, and to whom. -/
def handedOver (kind : SipMessage → Bool) : CallSessionControl.Event → Option (Nat × SipMessage)
  | .delivered m msg => if kind msg then some (m, msg) else none
  | _ => none

def heard (kind : SipMessage → Bool) : Event → Option (Nat × SipMessage)
  | .shown e => handedOver kind e
  | .sent _ => none

/-- What is on its way from the connection of phone `n` to the S-CSCF. -/
def ahead (s : State) : List SipMessage :=
  s.toScscf ++ (forwardedBy (s.conns n).session.thread ++ (s.conns n).uplink)

def notifiedBy : ScscfThread → List SipMessage
  | .notifying _ msg => [msg]
  | .receiving => []

/-- The requests of phone `n` that the P-CSCF has not handed on. -/
def underWay (s : State) : List SipMessage := (upstream s n).filter (requestOf callId n)

/-- The answers to phone `n` that the P-CSCF has not handed out. -/
def due (s : State) : List Str :=
  ((notifiedBy s.pcscf.scscfThread ++ s.toPcscf).filter (grantOf callId n)).map SipMessage.reason ++
    ((ahead n s).filter (requestOf callId n)).map grant

end Views

/-- Between two states each request of phone `n` has gone once to the other party and to nobody
else, unless it is still under way, and its one answer to the phone and else at most to the other
party. Nobody has accepted a request anew. -/
structure Served (label : Nat → UeLabel) (p : Parties) (callId : Str) (n : Nat) (s : State)
    (tr : List Event) (s' : State) : Prop where
  requests : underWay callId n s ++ tr.filterMap (requested callId n) =
    (tr.filterMap (heard (requestOf callId n))).map Prod.snd ++ underWay callId n s'
  toPeer : ∀ d ∈ tr.filterMap (heard (requestOf callId n)), label d.1 = p.peer (label n)
  answers : due callId n s ++ (tr.filterMap (requested callId n)).map grant =
    ((tr.filterMap (heard (grantOf callId n))).filter fun d => decide (label d.1 = label n)).map
      (fun d => d.2.reason) ++ due callId n s'
  toParties : ∀ d ∈ tr.filterMap (heard (grantOf callId n)), p.Has (label d.1)
  unaccepted : ∀ m msg, .shown (.delivered m msg) ∈ tr → msg.callId = callId → ¬Acked msg

section Parties

variable {p : Parties} {l l' : UeLabel}

theorem Parties.peer_has (p : Parties) (l : UeLabel) : p.Has (p.peer l) := by
  unfold Parties.peer
  split
  · exact Or.inr rfl
  · exact Or.inl rfl

theorem Parties.peer_ne (p : Parties) (l : UeLabel) : p.peer l ≠ l := by
  unfold Parties.peer
  split
  · rename_i hfirst
    rw [hfirst]
    exact p.distinct.symm
  · rename_i hfirst
    exact Ne.symm hfirst

theorem Parties.eq_or_peer (h : p.Has l) (h' : p.Has l') : l' = l ∨ l' = p.peer l := by
  unfold Parties.peer
  rcases h with rfl | rfl
  · rw [if_pos rfl]
    exact h'
  · rw [if_neg p.distinct.symm]
    exact h'.symm

theorem impuOf_injective (h : impuOf l = impuOf l') : l = l' := by
  revert h
  cases l <;> cases l' <;> decide +kernel

theorem impuOf_ne_nil (l : UeLabel) : impuOf l ≠ [] := ueConfigs_impu_ne_nil l

end Parties

section Composition

variable {label : Nat → UeLabel} {p : Parties} {callId : Str} {n : Nat} {s s₁ s₂ : State}
  {tr tr₁ : List Event}

theorem Served.refl (s : State) : Served label p callId n s [] s where
  requests := by simp
  toPeer _ h := by cases h
  answers := by simp
  toParties _ h := by cases h
  unaccepted _ _ h := by cases h

theorem Served.trans (h : Served label p callId n s tr s₁)
    (h₁ : Served label p callId n s₁ tr₁ s₂) : Served label p callId n s (tr ++ tr₁) s₂ where
  requests := by
    rw [List.filterMap_append, List.filterMap_append, List.map_append, ← List.append_assoc,
      h.requests, List.append_assoc, h₁.requests, List.append_assoc]
  toPeer d hd := by
    rw [List.filterMap_append] at hd
    exact (List.mem_append.mp hd).elim (h.toPeer d) (h₁.toPeer d)
  answers := by
    rw [List.filterMap_append, List.filterMap_append, List.map_append, List.filter_append,
      List.map_append, ← List.append_assoc, h.answers, List.append_assoc, h₁.answers,
      List.append_assoc]
  toParties d hd := by
    rw [List.filterMap_append] at hd
    exact (List.mem_append.mp hd).elim (h.toParties d) (h₁.toParties d)
  unaccepted m msg hmsg := (List.mem_append.mp hmsg).elim (h.unaccepted m msg) (h₁.unaccepted m msg)

end Composition

section Phones

variable {cfg : UeConfig} {ue : Ue} {msg : SipMessage}

theorem audio_plain {text : Str} (h : contains text "conf" = false) :
    contains (audio cfg ++ text) "conf" = false := by
  rw [audio, HoldRequests.contains_number _ text _ (by decide +kernel), h, Bool.or_false]
  decide +kernel

theorem command_modifies {cmd : Command} (hcmd : cmd ∈ [.hold, .resume, .update, .video, .voice])
    (hmsg : msg ∈ (processCommand cfg ue cmd).2) : Modifies ue.currentCallId msg := by
  have hinvite {ue' : Ue} {sipTo sdp : Str} (hcurrent : ue'.currentCallId = ue.currentCallId)
      (hplain : contains sdp "conf" = false) (hmsg : msg ∈ (sendInvite cfg ue' sipTo sdp).2) :
      Modifies ue.currentCallId msg := by
    rw [List.mem_singleton.mp hmsg]
    exact ⟨rfl, hcurrent, by rw [asksConference, hplain, Bool.and_false]⟩
  have hguarded {p : Prop} [Decidable p] {out : Outcome} (hmsg : msg ∈ (if p then out else stay ue).2)
      (h : msg ∈ out.2 → Modifies ue.currentCallId msg) : Modifies ue.currentCallId msg := by
    split at hmsg
    · exact h hmsg
    · cases hmsg
  cases cmd with
  | hold => exact hguarded hmsg (hinvite rfl (audio_plain (by decide +kernel)))
  | resume => exact hguarded hmsg (hinvite rfl (audio_plain (by decide +kernel)))
  | update => exact hguarded hmsg (hinvite rfl (audio_plain (by decide +kernel)))
  | voice => exact hguarded hmsg (hinvite rfl (audio_plain (by decide +kernel)))
  | video =>
      refine hguarded hmsg (hinvite rfl ?_)
      rw [SipPhones.videoPort, HoldRequests.contains_number _ _ _ (by decide +kernel),
        audio_plain (by decide +kernel)]
      decide +kernel
  | _ => simp at hcmd

end Phones

section Scscf

variable {node : ScscfNode} {callId : Str} {msg out : SipMessage}

theorem not_grants_of_reason {reason : String} (hreason : notifiesCallee (lit reason) = false)
    (type : SipMsgType) (id sipFrom sipTo : Str) :
    ¬Grants callId (sendSipResponse msg type id sipFrom sipTo reason) := by
  rintro ⟨-, -, hnotifies⟩
  exact Bool.false_ne_true (hreason.symm.trans hnotifies)

theorem grant_notifies (msg : SipMessage) : notifiesCallee (grant msg) = true := by
  unfold grant
  split
  · decide
  split
  · split <;> decide
  · decide

theorem not_acked_of_notifies (h : notifiesCallee msg.reason = true) : ¬Acked msg := by
  have hinvite : notifiesCallee (lit "INVITE") = false := by decide
  have hnone : notifiesCallee [] = false := by decide
  rintro ⟨-, hreason | hreason⟩
  · rw [hreason, hinvite] at h
    cases h
  · rw [hreason, hnone] at h
    cases h

theorem handleReInvite_modifies (node : ScscfNode) (cs : CallState)
    (hasks : asksConference msg = false) :
    ∃ ans, (handleReInvite node cs msg).2 = [msg, ans] ∧ ans.type = .ok200 ∧
      ans.callId = msg.callId ∧ ans.reason = grant msg ∧ ans.origin = msg.origin := by
  unfold handleReInvite grant
  dsimp only
  split
  · exact ⟨_, rfl, rfl, rfl, rfl, rfl⟩
  split
  · rename_i hhold hconf
    simp [asksConference, hhold, hconf] at hasks
  split
  · exact ⟨_, rfl, rfl, rfl, rfl, rfl⟩
  · exact ⟨_, rfl, rfl, rfl, rfl, rfl⟩

theorem scscfHandle_modifies (hmsg : Modifies callId msg) (hstored : callId ∈ node.calls) :
    ∃ ans, (scscfHandle node msg).2 = [msg, ans] ∧ Grants callId ans ∧
      ans.reason = grant msg ∧ ans.origin = msg.origin := by
  obtain ⟨htype, rfl, hasks⟩ := hmsg
  obtain ⟨cs, hcs⟩ := Option.isSome_iff_exists.mp (AList.lookup_isSome.mpr hstored)
  obtain ⟨ans, hout, hok, hid, hreason, horigin⟩ := handleReInvite_modifies node cs
    hasks
  refine ⟨ans, ?_, ⟨hok, hid, ?_⟩, hreason, horigin⟩
  · rw [scscfHandle, htype]
    dsimp only
    rw [handleInvite, hcs]
    exact hout
  · rw [hreason]
    exact grant_notifies msg

theorem conferenceInvite_asks (cs : CallState) (msg : SipMessage) :
    asksConference (conferenceInvite cs msg) = true := by
  change asksConference { type := .invite, sdp := lit "audio:50000/AMR-WB/16000;conf;a=sendrecv" } =
    true
  decide +kernel

theorem handleInvite_others (htype : msg.type = .invite) (hother : ¬Modifies callId msg)
    (hout : out ∈ (handleInvite node msg).2) : ¬Modifies callId out ∧ ¬Grants callId out := by
  have hmsg : ¬Modifies callId msg ∧ ¬Grants callId msg := by
    refine ⟨hother, fun hgrants => ?_⟩
    have hok := hgrants.1
    rw [htype] at hok
    cases hok
  have hresponse {type : SipMsgType} (hinvite : type ≠ .invite) {reason : String}
      (hreason : notifiesCallee (lit reason) = false) (id sipFrom sipTo : Str) :
      ¬Modifies callId (sendSipResponse msg type id sipFrom sipTo reason) ∧
        ¬Grants callId (sendSipResponse msg type id sipFrom sipTo reason) :=
    ⟨fun h => hinvite h.1, not_grants_of_reason hreason type id sipFrom sipTo⟩
  unfold handleInvite at hout
  split at hout
  · rename_i cs _
    cases hasks : asksConference msg with
    | false =>
        have hid : msg.callId ≠ callId := fun hid => hother ⟨htype, hid, hasks⟩
        obtain ⟨ans, hans, -, hansId, -⟩ := handleReInvite_modifies node cs hasks
        rw [hans] at hout
        rcases List.mem_pair.mp hout with rfl | rfl
        · exact hmsg
        · exact ⟨fun h => hid (hansId.symm.trans h.2.1), fun h => hid (hansId.symm.trans h.2.1)⟩
    | true =>
        obtain ⟨hhold, hconf⟩ := Bool.and_eq_true_iff.mp hasks
        have hactive : ¬(contains msg.sdp "inactive" || contains msg.sdp "sendonly") = true := by
          simpa using hhold
        rw [handleReInvite, if_neg hactive, if_pos hconf] at hout
        rcases List.mem_append.mp hout with hinvite | hok
        · split at hinvite
          · cases hinvite
          · rw [List.mem_singleton.mp hinvite]
            refine ⟨fun h => ?_, fun h => ?_⟩
            · rw [Modifies, conferenceInvite_asks] at h
              cases h.2.2
            · cases h.1
        · rw [List.mem_singleton.mp hok]
          exact hresponse (by simp) (by decide) _ _ _
  · dsimp only at hout
    split at hout
    · rcases List.mem_cons.mp hout with rfl | hout
      · exact hresponse (by simp) (by decide) _ _ _
      · rcases List.mem_pair.mp hout with rfl | rfl
        · exact hmsg
        · exact hresponse (by simp) (by decide) _ _ _
    · rcases List.mem_pair.mp hout with rfl | rfl
      · exact hresponse (by simp) (by decide) _ _ _
      · exact hresponse (by simp) (by decide) _ _ _

theorem scscfHandle_others (hother : ¬Modifies callId msg)
    (hgrants : ¬(msg.type = .ok200 ∧ notifiesCallee msg.reason = true))
    (hout : out ∈ (scscfHandle node msg).2) : ¬Modifies callId out ∧ ¬Grants callId out := by
  have hmsg : ¬Modifies callId msg ∧ ¬Grants callId msg := ⟨hother, fun h => hgrants ⟨h.1, h.2.2⟩⟩
  have hresponse {reason : String} (hreason : notifiesCallee (lit reason) = false)
      (id sipFrom sipTo : Str) :
      ¬Modifies callId (sendSipResponse msg .ok200 id sipFrom sipTo reason) ∧
        ¬Grants callId (sendSipResponse msg .ok200 id sipFrom sipTo reason) :=
    ⟨(fun h => by cases h.1), not_grants_of_reason hreason .ok200 id sipFrom sipTo⟩
  have hknown (hout : out ∈ forwardKnown node msg) :
      ¬Modifies callId out ∧ ¬Grants callId out := by
    unfold forwardKnown at hout
    split at hout
    · rw [List.mem_singleton.mp hout]
      exact hmsg
    · cases hout
  unfold scscfHandle at hout
  split at hout
  · rw [List.mem_singleton.mp hout]
    exact hresponse (by decide) _ _ _
  · rename_i htype
    exact handleInvite_others htype hother hout
  · exact hknown hout
  · rw [List.mem_singleton.mp hout]
    exact hmsg
  · rcases List.mem_pair.mp hout with rfl | rfl
    · exact hresponse (by decide) _ _ _
    · exact hmsg
  · rcases List.mem_append.mp hout with hforwarded | hok
    · exact hknown hforwarded
    · rw [List.mem_singleton.mp hok]
      exact hresponse (by decide) _ _ _
  · cases hout

theorem scscfHandle_own (hstored : callId ∈ node.calls)
    (hgrants : ¬(msg.type = .ok200 ∧ notifiesCallee msg.reason = true))
    (hout : out ∈ (scscfHandle node msg).2) :
    out = msg ∨ out.type ≠ .bye ∧ ¬Acked out ∧ ¬Modifies callId out := by
  have hmodified : out = msg ∨ ¬Modifies callId out := by
    by_cases hmodifies : Modifies callId msg
    · obtain ⟨ans, hsent, hans, -⟩ := scscfHandle_modifies hmodifies hstored
      rw [hsent] at hout
      rcases List.mem_pair.mp hout with rfl | rfl
      · exact Or.inl rfl
      · refine Or.inr fun hinvite => ?_
        have htype := hans.1
        rw [hinvite.1] at htype
        cases htype
    · exact Or.inr (scscfHandle_others hmodifies hgrants hout).1
  have hsends := scscfHandle_sends hout
  by_cases hsame : out = msg
  · exact Or.inl hsame
  have hplain := (OutstandingInvites.sends_plain hsends).resolve_left hsame
  refine Or.inr ⟨?_, hplain.accepts, hmodified.resolve_left hsame⟩
  cases hsends with
  | forwarded => exact absurd rfl hsame
  | conference cs _ => simp [conferenceInvite]
  | @response type reason _ _ _ hresponse =>
      have htypes : ∀ r ∈ responses, r.1 ≠ .bye := by decide
      exact htypes _ hresponse
  | byeAnswered _ => simp [sendSipResponse]

theorem scscfHandle_stored (hstored : callId ∈ node.calls)
    (hbye : msg.callId = callId → msg.type ≠ .bye) : callId ∈ (scscfHandle node msg).1.calls := by
  have hset (cs : CallState) : callId ∈ (setCall node cs msg.callId).calls :=
    (AList.mem_insert _).mpr (Or.inr hstored)
  unfold scscfHandle
  split
  · exact hstored
  · unfold handleInvite
    split
    · unfold handleReInvite
      dsimp only
      split
      · exact hset _
      split
      · exact hset _
      split
      · exact hstored
      · exact hset _
    · dsimp only
      split
      · exact hset _
      · exact hstored
  · exact hstored
  · exact hstored
  · rename_i htype
    refine AList.mem_erase.mpr ⟨?_, hstored⟩
    rintro rfl
    exact hbye rfl htype
  · exact hstored
  · exact hstored

end Scscf

end MobileCore.SessionChanges
