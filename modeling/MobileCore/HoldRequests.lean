import MobileCore.CallSessionControl

namespace MobileCore.HoldRequests

open MobileCore.CallSessionControl
open MobileCore.CppText
open MobileCore.LastWrite
open MobileCore.SipPhones (Command SipMessage SipMsgType Ue UeConfig UeLabel audio contains
  processCommand sendInvite ueConfigs)

structure Request where
  label : UeLabel
  ue : Ue
  cmd : Command
  msg : SipMessage
  issued : msg ∈ (processCommand (ueConfigs label) ue cmd).2

/-- What the S-CSCF may have to handle next. -/
inductive Input where
  | request (r : Request)
  | other (msg : SipMessage) (h : msg.type ≠ .invite)
  | setBarred (impu : Str) (barred : Bool)

/-- `started` is a new dialog; the others are requests in a dialog that is stored. -/
inductive Event where
  | started (callId : Str)
  | held (callId : Str)
  | resumed (callId : Str)

def handle (node : ScscfNode) : Input → ScscfNode
  | .request r => (scscfHandle node r.msg).1
  | .other msg _ => (scscfHandle node msg).1
  | .setBarred impu barred =>
    { node with barred := if barred then insert impu node.barred else node.barred.erase impu }

def accepted (node : ScscfNode) : Input → List Event
  | .request r =>
    if r.msg.type ≠ .invite then []
    else if (node.calls.lookup r.msg.callId).isSome then
      match r.cmd with
      | .hold => [.held r.msg.callId]
      | .resume => [.resumed r.msg.callId]
      | _ => []
    else if invokeMtas node r.msg.sipTo then [.started r.msg.callId]
    else []
  | _ => []

def serve (p : ScscfNode × List Event) (i : Input) : ScscfNode × List Event :=
  (handle p.1 i, p.2 ++ accepted p.1 i)

def run (is : List Input) : ScscfNode × List Event := is.foldl serve ({}, [])

/-- The hold flag of a stored dialog. -/
def holdOf (node : ScscfNode) (callId : Str) : Option Bool :=
  (node.calls.lookup callId).map CallState.onHold

def names (callId : Str) : Event → Bool
  | .started id => id = callId
  | .held id => id = callId
  | .resumed id => id = callId

/-- Of the holds and resumes of the dialog that were accepted the last was a hold. -/
def lastHeld (tr : List Event) (callId : Str) : Bool :=
  match lastWhere (names callId) tr with
  | some (.held _) => true
  | _ => false

def Agrees (p : ScscfNode × List Event) : Prop :=
  ∀ callId held, holdOf p.1 callId = some held → held = lastHeld p.2 callId

def toggles : Input → Prop
  | .request r => r.cmd = .hold ∨ r.cmd = .resume
  | _ => False

/-- The flags follow the holds and the resumes, and no other request changes one. -/
structure HoldKept (is : List Input) : Prop where
  agrees : ∀ before, before <+: is → Agrees (run before)
  framed : ∀ before i, before ++ [i] <+: is → ¬toggles i → ∀ callId held held',
    holdOf (run before).1 callId = some held →
    holdOf (run (before ++ [i])).1 callId = some held' → held' = held

/-- An UPDATE of a dialog that is on hold. -/
def UpdatesHeld (node : ScscfNode) : Input → Prop
  | .request r => r.cmd = .update ∧ holdOf node r.msg.callId = some true
  | _ => False

section Texts

def heldAfter (sdp : Str) (held : Bool) : Bool :=
  if contains sdp "inactive" || contains sdp "sendonly" then true
  else if contains sdp "conf" then held
  else if contains sdp "video" && contains sdp "H264" then held
  else false

theorem contains_iff (text : Str) (needle : String) :
    contains text needle = true ↔ lit needle <:+: text := find_isSome_iff _ _

theorem contains_number (front back : Str) (n : Nat) {needle : String}
    (hdigits : ∀ c ∈ lit needle, c < 48 ∨ 57 < c) :
    contains (front ++ natText n ++ back) needle =
      (contains front needle || contains back needle) := by
  rw [Bool.eq_iff_iff, Bool.or_eq_true, contains_iff, contains_iff, contains_iff]
  apply infix_separated (natText_ne_nil n)
  intro c hc hneedle
  exact not_mem_natText n c (hdigits c hneedle) hc

variable (cfg : UeConfig) (held : Bool)

theorem heldAfter_number (front back : Str) (n : Nat)
    (hcodec : contains back "H264" = (contains front "video" || contains back "video")) :
    heldAfter (front ++ natText n ++ back) held =
      if contains front "inactive" || contains back "inactive" ||
          (contains front "sendonly" || contains back "sendonly") then true
      else if contains front "conf" || contains back "conf" then held
      else if contains front "video" || contains back "video" then held
      else false := by
  have hvideo : (contains (front ++ natText n ++ back) "video" &&
      contains (front ++ natText n ++ back) "H264") =
        (contains front "video" || contains back "video") := by
    rw [contains_number front back n (by decide +kernel), ← hcodec]
    cases hback : contains back "H264" with
    | false => rfl
    | true =>
        rw [Bool.true_and, contains_iff]
        exact List.infix_append_of_infix_right ((contains_iff back "H264").mp hback)
  rw [heldAfter, hvideo, contains_number front back n (by decide +kernel),
    contains_number front back n (by decide +kernel),
    contains_number front back n (by decide +kernel)]

theorem heldAfter_hold : heldAfter (audio cfg ++ lit "/AMR-WB;a=sendonly") held = true := by
  rw [audio, heldAfter_number held _ _ _ (by decide)]
  rfl

theorem heldAfter_resume : heldAfter (audio cfg ++ lit "/AMR-WB;a=sendrecv") held = false := by
  rw [audio, heldAfter_number held _ _ _ (by decide)]
  rfl

theorem heldAfter_update :
    heldAfter
      (audio cfg ++ lit "/AMR-WB;a=curr:qos local sendrecv;a=des:qos mandatory local sendrecv")
      held = false := by
  rw [audio, heldAfter_number held _ _ _ (by decide)]
  rfl

theorem heldAfter_voice :
    heldAfter (audio cfg ++ lit "/AMR-WB;video:0/H264/90000;port=0;a=sendrecv") held = held := by
  rw [audio, heldAfter_number held _ _ _ (by decide)]
  rfl

theorem heldAfter_ports (mid back : Str) (n k : Nat) (hmid : contains mid "video" = true)
    (hback : contains back "H264" = true)
    (hplain : ∀ needle ∈ ["inactive", "sendonly", "conf"],
      contains mid needle = false ∧ contains back needle = false) :
    heldAfter (lit "audio:" ++ natText n ++ mid ++ natText k ++ back) held = held := by
  have hneedle (needle : String) (h : needle ∈ ["inactive", "sendonly", "conf"])
      (hdigits : ∀ c ∈ lit needle, c < 48 ∨ 57 < c)
      (hfront : contains (lit "audio:") needle = false) :
      contains (lit "audio:" ++ natText n ++ mid) needle = false := by
    rw [contains_number _ mid n hdigits, hfront, (hplain needle h).1]
    rfl
  have hvideo : contains (lit "audio:" ++ natText n ++ mid) "video" = true := by
    rw [contains_number _ mid n (by decide +kernel), hmid, Bool.or_true]
  rw [heldAfter_number held _ back k (by rw [hback, hvideo, Bool.true_or]),
    hneedle "inactive" (by simp) (by decide +kernel) (by decide), hvideo,
    hneedle "sendonly" (by simp) (by decide +kernel) (by decide),
    hneedle "conf" (by simp) (by decide +kernel) (by decide),
    (hplain "inactive" (by simp)).2, (hplain "sendonly" (by simp)).2, (hplain "conf" (by simp)).2]
  rfl

theorem heldAfter_video :
    heldAfter
      (audio cfg ++ lit "/AMR-WB;video:" ++ SipPhones.videoPort cfg ++
        lit "/H264/90000;a=sendrecv") held = held :=
  heldAfter_ports held _ _ _ _ (by decide) (by decide) (by decide)

theorem heldAfter_call :
    heldAfter
      (audio cfg ++ lit "/AMR-WB,video:" ++ SipPhones.videoPort cfg ++ lit "/H264") held = held :=
  heldAfter_ports held _ _ _ _ (by decide) (by decide) (by decide)

theorem heldAfter_conference (n : Nat) :
    heldAfter
      (lit "sip:conf-" ++ natText n ++ lit "@mrfc." ++ SipPhones.imsDomain ++
        lit ";a=sendrecv;conf") held = held := by
  rw [List.append_assoc (lit "sip:conf-" ++ natText n),
    List.append_assoc (lit "sip:conf-" ++ natText n), heldAfter_number held _ _ _ (by decide +kernel)]
  rfl

end Texts

section Commands

open SipPhones

variable {cfg : UeConfig} {ue ue' : Ue} {held held' : Bool}

/-- The INVITEs that a phone sends leave the flag `held'` where it was `held`. -/
def Leaves (held held' : Bool) (out : Outcome) : Prop :=
  ∀ msg ∈ out.2, msg.type = .invite → heldAfter msg.sdp held = held'

theorem stay_leaves : Leaves held held' (stay ue) := by
  intro msg hmsg
  cases hmsg

theorem sendInvite_leaves {sipTo sdp : Str} (h : heldAfter sdp held = held') :
    Leaves held held' (sendInvite cfg ue sipTo sdp) := by
  intro msg hmsg _
  rw [List.mem_singleton.mp hmsg]
  exact h

theorem send_leaves {msg : SipMessage} (h : msg.type ≠ .invite) :
    Leaves held held' (send ue msg) := by
  intro out hout htype
  rw [List.mem_singleton.mp hout] at htype
  exact absurd htype h

theorem doCall_leaves (target behind : Str) :
    Leaves held held (doCall cfg ue target behind) := by
  apply guarded stay_leaves
  intro _
  split
  · exact stay_leaves
  · exact sendInvite_leaves (heldAfter_call cfg held)

theorem doConference_leaves (thirdId : Str) : Leaves held held (doConference cfg ue thirdId) := by
  apply guarded stay_leaves
  intro _
  split
  · exact stay_leaves
  · exact sendInvite_leaves (heldAfter_conference held _)

theorem doRegister_leaves : Leaves held held (doRegister cfg ue) := by
  rw [doRegister]
  split
  · exact stay_leaves
  · exact send_leaves (by simp)

theorem processCommand_leaves (cmd : Command) (held : Bool) :
    Leaves held
      (match cmd with
        | .hold => true
        | .resume => false
        | .update => false
        | _ => held)
      (processCommand cfg ue cmd) := by
  cases cmd with
  | register => exact doRegister_leaves
  | call target behind => exact doCall_leaves target behind
  | accept => exact guarded stay_leaves fun _ => send_leaves (by simp)
  | reject => exact guarded stay_leaves fun _ => send_leaves (by simp)
  | hold => exact guarded stay_leaves fun _ => sendInvite_leaves (heldAfter_hold cfg held)
  | resume => exact guarded stay_leaves fun _ => sendInvite_leaves (heldAfter_resume cfg held)
  | conference third => exact doConference_leaves third
  | update => exact guarded stay_leaves fun _ => sendInvite_leaves (heldAfter_update cfg held)
  | video => exact guarded stay_leaves fun _ => sendInvite_leaves (heldAfter_video cfg held)
  | voice => exact guarded stay_leaves fun _ => sendInvite_leaves (heldAfter_voice cfg held)
  | bye => exact guarded stay_leaves fun _ => send_leaves (by simp)

theorem update_invites {msg : SipMessage} (hmsg : msg ∈ (processCommand cfg ue .update).2) :
    msg.type = .invite := by
  simp only [processCommand, doUpdate] at hmsg
  split at hmsg
  · rw [List.mem_singleton.mp hmsg]
  · cases hmsg

end Commands

section Scscf

variable {node : ScscfNode} {msg : SipMessage}

theorem holdOf_setCall (node : ScscfNode) (cs : CallState) (id callId : Str) :
    holdOf (setCall node cs id) callId =
      if id = callId then some cs.onHold else holdOf node callId := by
  rw [holdOf, setCall]
  split
  · rename_i hkey
    subst hkey
    simp
  · rename_i hkey
    rw [holdOf, AList.lookup_insert_ne (Ne.symm hkey)]

theorem handleReInvite_holdOf {cs : CallState} (hcs : node.calls.lookup msg.callId = some cs)
    (callId : Str) :
    holdOf (handleReInvite node cs msg).1 callId =
      if msg.callId = callId then some (heldAfter msg.sdp cs.onHold) else holdOf node callId := by
  rw [handleReInvite, heldAfter]
  split
  · exact holdOf_setCall node _ _ _
  split
  · exact holdOf_setCall node _ _ _
  split
  · dsimp only
    by_cases hkey : msg.callId = callId
    · rw [if_pos hkey, holdOf, ← hkey, hcs]
      rfl
    · rw [if_neg hkey]
  · exact holdOf_setCall node _ _ _

theorem scscfHandle_holdOf (htype : msg.type = .invite) (callId : Str) :
    holdOf (scscfHandle node msg).1 callId =
      if msg.callId = callId then
        match holdOf node callId with
        | some held => some (heldAfter msg.sdp held)
        | none => if invokeMtas node msg.sipTo then some false else none
      else holdOf node callId := by
  rw [scscfHandle, htype]
  dsimp only
  rw [handleInvite]
  cases hcs : node.calls.lookup msg.callId with
  | some cs =>
      dsimp only
      rw [handleReInvite_holdOf hcs callId]
      split
      · rename_i hkey
        rw [holdOf, ← hkey, hcs]
        rfl
      · rfl
  | none =>
      dsimp only
      have hnone {callId : Str} (hkey : msg.callId = callId) : holdOf node callId = none := by
        rw [holdOf, ← hkey, hcs]
        rfl
      split
      · rw [holdOf_setCall]
        split
        · rename_i hkey
          rw [hnone hkey]
        · rfl
      · split
        · rename_i hkey
          rw [hnone hkey]
        · rfl

theorem scscfHandle_holdOf_other (htype : msg.type ≠ .invite) (callId : Str) {held : Bool}
    (h : holdOf (scscfHandle node msg).1 callId = some held) : holdOf node callId = some held := by
  cases hmsg : msg.type with
  | invite => exact absurd hmsg htype
  | bye =>
      simp only [scscfHandle, hmsg, handleBye, holdOf] at h
      by_cases hkey : callId = msg.callId
      · rw [hkey, AList.lookup_erase] at h
        cases h
      · rwa [AList.lookup_erase_ne hkey] at h
  | _ =>
      simp only [scscfHandle, hmsg] at h
      exact h

end Scscf

section Runs

variable {node : ScscfNode} {tr : List Event}

theorem lastHeld_held (tr : List Event) (id callId : Str) :
    lastHeld (tr ++ [.held id]) callId = if id = callId then true else lastHeld tr callId := by
  rw [lastHeld, lastWhere_snoc, names]
  by_cases hid : id = callId
  · rw [if_pos (decide_eq_true hid), if_pos hid]
  · rw [if_neg (by simp [hid]), if_neg hid, lastHeld]

theorem lastHeld_resumed (tr : List Event) (id callId : Str) :
    lastHeld (tr ++ [.resumed id]) callId = if id = callId then false else lastHeld tr callId := by
  rw [lastHeld, lastWhere_snoc, names]
  by_cases hid : id = callId
  · rw [if_pos (decide_eq_true hid), if_pos hid]
  · rw [if_neg (by simp [hid]), if_neg hid, lastHeld]

theorem lastHeld_started (tr : List Event) (id callId : Str) :
    lastHeld (tr ++ [.started id]) callId = if id = callId then false else lastHeld tr callId := by
  rw [lastHeld, lastWhere_snoc, names]
  by_cases hid : id = callId
  · rw [if_pos (decide_eq_true hid), if_pos hid]
  · rw [if_neg (by simp [hid]), if_neg hid, lastHeld]

theorem lastHeld_accepted (tr : List Event) {r : Request} (htype : r.msg.type = .invite)
    (callId : Str) :
    lastHeld (tr ++ accepted node (.request r)) callId =
      if r.msg.callId = callId then
        match holdOf node callId with
        | some _ =>
          match r.cmd with
          | .hold => true
          | .resume => false
          | _ => lastHeld tr callId
        | none => if invokeMtas node r.msg.sipTo then false else lastHeld tr callId
      else lastHeld tr callId := by
  have hstored : (node.calls.lookup r.msg.callId).isSome =
      (holdOf node r.msg.callId).isSome := by
    rw [holdOf, Option.isSome_map]
  rw [accepted, if_neg (not_not_intro htype), hstored]
  by_cases hkey : r.msg.callId = callId
  · subst hkey
    rw [if_pos rfl]
    cases holdOf node r.msg.callId with
    | some held =>
        rw [Option.isSome_some, if_pos rfl]
        dsimp only
        split
        · rw [lastHeld_held, if_pos rfl]
        · rw [lastHeld_resumed, if_pos rfl]
        · rw [List.append_nil]
    | none =>
        rw [if_neg (by simp)]
        dsimp only
        split
        · rw [lastHeld_started, if_pos rfl]
        · rw [List.append_nil]
  · rw [if_neg hkey]
    split
    · split <;> simp [lastHeld_held, lastHeld_resumed, hkey]
    · split <;> simp [lastHeld_started, hkey]

theorem holdOf_other {i : Input} (hother : ∀ r, i = .request r → r.msg.type ≠ .invite)
    (callId : Str) {held : Bool} (h : holdOf (handle node i) callId = some held) :
    holdOf node callId = some held := by
  cases i with
  | request r => exact scscfHandle_holdOf_other (hother r rfl) callId h
  | other msg htype => exact scscfHandle_holdOf_other htype callId h
  | setBarred impu barred => exact h

theorem accepted_other {i : Input} (hother : ∀ r, i = .request r → r.msg.type ≠ .invite) :
    accepted node i = [] := by
  cases i with
  | request r => exact if_pos (hother r rfl)
  | other msg htype => rfl
  | setBarred impu barred => rfl

theorem invite_or_other (i : Input) :
    (∃ r, i = .request r ∧ r.msg.type = .invite) ∨
      ∀ r, i = .request r → r.msg.type ≠ .invite := by
  by_cases h : ∃ r, i = .request r ∧ r.msg.type = .invite
  · exact Or.inl h
  · exact Or.inr fun r hr htype => h ⟨r, hr, htype⟩

theorem Request.heldAfter (r : Request) (htype : r.msg.type = .invite) (held : Bool) :
    heldAfter r.msg.sdp held =
      match r.cmd with
      | .hold => true
      | .resume => false
      | .update => false
      | _ => held :=
  processCommand_leaves r.cmd held r.msg r.issued htype

theorem serve_agrees {i : Input} (h : Agrees (node, tr)) (hupdate : ¬UpdatesHeld node i) :
    Agrees (serve (node, tr) i) := by
  intro callId held' hheld'
  rcases invite_or_other i with ⟨r, rfl, htype⟩ | hother
  · have hflag := hheld'
    rw [serve, handle, scscfHandle_holdOf htype] at hflag
    rw [serve, lastHeld_accepted tr htype]
    split at hflag
    · rename_i hkey
      rw [if_pos hkey]
      cases hheld : holdOf node callId with
      | some held =>
          rw [hheld] at hflag
          obtain rfl := Option.some.inj hflag
          have hagrees : held = lastHeld tr callId := h callId held hheld
          rw [r.heldAfter htype]
          dsimp only
          rw [← hagrees]
          cases hcmd : r.cmd with
          | update =>
              rw [UpdatesHeld, hkey, hheld] at hupdate
              cases held with
              | false => rfl
              | true => exact absurd ⟨hcmd, rfl⟩ hupdate
          | _ => rfl
      | none =>
          rw [hheld] at hflag
          dsimp only at hflag ⊢
          split at hflag
          · rename_i hadmitted
            rw [if_pos hadmitted]
            exact (Option.some.inj hflag).symm
          · cases hflag
    · rename_i hkey
      rw [if_neg hkey]
      exact h callId held' hflag
  · rw [serve, accepted_other hother, List.append_nil]
    exact h callId held' (holdOf_other hother callId hheld')

theorem handle_framed {i : Input} (hupdate : ¬UpdatesHeld node i) (htoggles : ¬toggles i)
    {callId : Str} {held held' : Bool} (hheld : holdOf node callId = some held)
    (hheld' : holdOf (handle node i) callId = some held') : held' = held := by
  rcases invite_or_other i with ⟨r, rfl, htype⟩ | hother
  · rw [handle, scscfHandle_holdOf htype, hheld] at hheld'
    split at hheld'
    · rename_i hkey
      obtain rfl := Option.some.inj hheld'
      rw [r.heldAfter htype]
      cases hcmd : r.cmd with
      | hold => exact absurd (Or.inl hcmd) htoggles
      | resume => exact absurd (Or.inr hcmd) htoggles
      | update =>
          rw [UpdatesHeld, hkey, hheld] at hupdate
          cases held with
          | false => rfl
          | true => exact absurd ⟨hcmd, rfl⟩ hupdate
      | _ => rfl
    · exact (Option.some.inj hheld').symm
  · have hsame := holdOf_other hother callId hheld'
    rw [hheld] at hsame
    exact (Option.some.inj hsame).symm

theorem handle_updatesHeld {i : Input} (h : UpdatesHeld node i) :
    ¬toggles i ∧ ∃ callId, holdOf node callId = some true ∧
      holdOf (handle node i) callId = some false := by
  cases i with
  | request r =>
      obtain ⟨hcmd, hheld⟩ := h
      have htype : r.msg.type = .invite := update_invites (hcmd ▸ r.issued)
      refine ⟨?_, r.msg.callId, hheld, ?_⟩
      · rintro (hhold | hresume)
        · rw [hcmd] at hhold
          cases hhold
        · rw [hcmd] at hresume
          cases hresume
      · rw [handle, scscfHandle_holdOf htype, if_pos rfl, hheld]
        dsimp only
        rw [r.heldAfter htype, hcmd]
  | other msg htype => exact h.elim
  | setBarred impu barred => exact h.elim

theorem run_snoc (before : List Input) (i : Input) : run (before ++ [i]) = serve (run before) i := by
  rw [run, List.foldl_append]
  rfl

/-- The hold flags are right in a run exactly when no UPDATE meets a dialog that is on hold. -/
theorem holdKept_iff (is : List Input) :
    HoldKept is ↔ ∀ before i, before ++ [i] <+: is → ¬UpdatesHeld (run before).1 i := by
  constructor
  · intro hkept before i hbefore hupdate
    obtain ⟨htoggles, callId, hheld, hresumed⟩ := handle_updatesHeld hupdate
    have hafter : holdOf (run (before ++ [i])).1 callId = some false := by
      rw [run_snoc]
      exact hresumed
    have hsame := hkept.framed before i hbefore htoggles callId true false hheld hafter
    cases hsame
  · intro hupdate
    constructor
    · intro before
      induction before using List.reverseRecOn with
      | nil =>
          intro _ callId held hheld
          cases hheld
      | append_singleton before i ih =>
          intro hbefore
          rw [run_snoc]
          apply serve_agrees
          · exact ih ((List.prefix_append before [i]).trans hbefore)
          · exact hupdate before i hbefore
    · intro before i hbefore htoggles callId held held' hheld hheld'
      rw [run_snoc] at hheld'
      exact handle_framed (hupdate before i hbefore) htoggles hheld hheld'

end Runs

section Schedules

open SipPhones

def callerIn (state : UeState) : Ue :=
  { state, currentCallId := lit "gingB-1", calleeImpu := impuB }

def requestOf (ue : Ue) (cmd : Command) (msg : SipMessage)
    (issued : msg ∈ (processCommand (ueConfigs .a) ue cmd).2) : Input :=
  .request ⟨.a, ue, cmd, msg, issued⟩

def updatesHeld : List Input :=
  [requestOf { state := .registered } (.call (lit "B") (lit "ging")) _ (List.mem_singleton.mpr rfl),
    requestOf (callerIn .inCall) .hold _ (List.mem_singleton.mpr rfl),
    requestOf (callerIn .onHold) .update _ (List.mem_singleton.mpr rfl)]

/-- The UPDATE resumes the call, whose last accepted request was the hold. -/
theorem update_resumes_held : ¬HoldKept updatesHeld := by
  intro hkept
  apply (holdKept_iff updatesHeld).mp hkept (updatesHeld.take 2)
  · exact List.prefix_rfl
  · exact ⟨rfl, by decide +kernel⟩

end Schedules

end MobileCore.HoldRequests
