import MobileCore.SessionChanges

namespace MobileCore.ReInviteDelivery

open MobileCore.CallSessionControl hiding Event step
open MobileCore.CppText
open MobileCore.LabelledRuns
open MobileCore.LastWrite
open MobileCore.SipPhones
open MobileCore.SessionChanges
open CallLegs (handleIncoming_sent)
open OutstandingInvites (Acked forwardedBy upstream)

section Sources

variable {label : Nat → UeLabel} {s s' : State}

/-- The message is a request's answer, which no phone sends. -/
def Answers (msg : SipMessage) : Prop := msg.type = .ok200 ∧ notifiesCallee msg.reason = true

/-- Connections carry the messages of their own phones, and no answers to requests. -/
structure Sources (s : State) : Prop where
  conn : ∀ n, ∀ msg ∈ forwardedBy (s.conns n).session.thread ++ (s.conns n).uplink,
    msg.origin = n ∧ ¬Answers msg
  toScscf : ∀ msg ∈ s.toScscf, ¬Answers msg

theorem sources_of_conns (h : Sources s) (htoScscf : s'.toScscf = s.toScscf)
    (hconn : ∀ n, ∀ msg ∈ forwardedBy (s'.conns n).session.thread ++ (s'.conns n).uplink,
      msg ∈ forwardedBy (s.conns n).session.thread ++ (s.conns n).uplink) : Sources s' where
  conn n msg hmsg := h.conn n msg (hconn n msg hmsg)
  toScscf msg hmsg := h.toScscf msg (htoScscf ▸ hmsg)

section Phones

variable {cfg : UeConfig} {ue : Ue} {msg : SipMessage}

theorem stay_unanswering : ∀ msg ∈ (stay ue).2, ¬Answers msg := by
  intro msg hmsg
  cases hmsg

theorem send_unanswering {sent : SipMessage} (h : ¬Answers sent) :
    ∀ msg ∈ (send ue sent).2, ¬Answers msg := by
  intro msg hmsg
  rw [List.mem_singleton.mp hmsg]
  exact h

theorem processCommand_unanswering (cmd : Command) :
    ∀ msg ∈ (processCommand cfg ue cmd).2, ¬Answers msg := by
  have hguarded {p : Prop} [Decidable p] {out : Outcome} (h : ∀ msg ∈ out.2, ¬Answers msg) :
      ∀ msg ∈ (if p then out else stay ue).2, ¬Answers msg :=
    guarded (P := fun out => ∀ msg ∈ out.2, ¬Answers msg) stay_unanswering fun _ => h
  have hother {msg : SipMessage} (h : msg.type ≠ .ok200) : ¬Answers msg := fun hans => h hans.1
  cases cmd with
  | register =>
      rw [processCommand, doRegister]
      split
      · exact stay_unanswering
      · exact send_unanswering (hother (by simp))
  | call target | conference target =>
      apply hguarded
      split
      · exact stay_unanswering
      · exact send_unanswering (hother (by simp))
  | accept =>
      refine hguarded (send_unanswering fun h => ?_)
      have hinvite : notifiesCallee (lit "INVITE") = false := by decide
      exact Bool.false_ne_true (hinvite.symm.trans h.2)
  | reject | bye => exact hguarded (send_unanswering (hother (by simp)))
  | hold | resume | update | video | voice => exact hguarded (send_unanswering (hother (by simp)))

theorem handleIncoming_unanswering : ∀ out ∈ (handleIncoming cfg ue msg).2, ¬Answers out := by
  rintro out hout ⟨htype, -⟩
  rw [handleIncoming_sent hout] at htype
  cases htype

end Phones

theorem phoneStep_sources (h : Sources s) (n : Nat) {out : Outcome}
    (hout : ∀ msg ∈ out.2, ¬Answers msg) : Sources (phoneStep s n out) where
  conn m msg hmsg := by
    rw [phoneStep_thread, phoneStep, State.modify_conns] at hmsg
    split at hmsg
    · rename_i hm
      rw [hm, ← List.append_assoc] at hmsg
      rcases List.mem_append.mp hmsg with hold | hnew
      · rw [hm]
        exact h.conn n msg hold
      · obtain ⟨sent, hsent, rfl⟩ := List.mem_map.mp hnew
        exact ⟨hm.symm, hout sent hsent⟩
    · exact h.conn m msg hmsg
  toScscf := h.toScscf

theorem step_sources {i : Input} {es : List CallSessionControl.Event} (h : Sources s)
    (hstep : CallSessionControl.step label s i = some (s', es)) : Sources s' := by
  cases step_cases hstep with
  | command n cmd => exact phoneStep_sources h n (processCommand_unanswering cmd)
  | @ueReceive n msg rest _ =>
      refine phoneStep_sources (s := s.modify n fun c => { c with downlink := rest })
        (sources_of_conns h rfl fun m out hout => ?_) n handleIncoming_unanswering
      rw [modify_thread s n (fun c => { c with downlink := rest }) rfl, State.modify_conns] at hout
      split at hout
      · rename_i hm
        rwa [hm] at hout ⊢
      · exact hout
  | @pcscfRead n msg rest hthread huplink =>
      have henters := handleFromUe_enters
        (setThread (s.modify n fun c => { c with uplink := rest }) n (.forwarding msg)) n msg
      refine sources_of_conns h henters.toScscf fun m out hout => ?_
      rw [henters.thread, henters.uplink, setThread_thread, (setThread_conns _ n _ m).2.1,
        modify_thread s n (fun c => { c with uplink := rest }) rfl, State.modify_conns] at hout
      split at hout
      · rename_i hm
        rw [hm, huplink]
        exact List.mem_append_right _ hout
      · exact hout
  | @pcscfForward n msg hthread =>
      constructor
      · intro m out hout
        rw [setThread_thread, (setThread_conns _ n _ m).2.1] at hout
        split at hout
        · rename_i hm
          refine h.conn m out (List.mem_append_right _ ?_)
          split at hout <;> exact hout
        · exact h.conn m out hout
      · intro out hout
        rcases List.mem_append.mp hout with hold | hnew
        · exact h.toScscf out hold
        · rw [List.mem_singleton.mp hnew]
          refine (h.conn n msg ?_).2
          rw [hthread]
          exact List.mem_cons_self
  | @pcscfCleanUp n callId hthread =>
      refine sources_of_conns h rfl fun m out hout => ?_
      rw [setThread_thread, (setThread_conns _ n _ m).2.1] at hout
      split at hout
      · exact List.mem_append_right _ hout
      · exact hout
  | @pcscfReceive msg rest _ _ =>
      obtain ⟨p, -, hdelivers⟩ := handleFromScscf_delivers { s with toPcscf := rest } msg
      refine sources_of_conns h hdelivers.toScscf fun m out hout => ?_
      rwa [hdelivers.thread m, hdelivers.uplink m] at hout
  | @pcscfNotify target msg _ =>
      have hdelivers := notify_delivers s target msg
      refine sources_of_conns h hdelivers.toScscf fun m out hout => ?_
      rwa [hdelivers.thread m, hdelivers.uplink m] at hout
  | @scscfReceive msg rest htoScscf =>
      refine ⟨h.conn, fun out hout => h.toScscf out ?_⟩
      rw [htoScscf]
      exact List.mem_cons_of_mem msg hout
  | setBarred _ _ => exact ⟨h.conn, h.toScscf⟩

theorem reach_sources {tr : List CallSessionControl.Event}
    (hrun : Reach (CallSessionControl.step label) init tr s) : Sources s := by
  refine hrun.invariant (I := fun _ s => Sources s) ⟨?_, ?_⟩ ?_
  · intro n msg hmsg
    cases hmsg
  · intro msg hmsg
    cases hmsg
  · intro _ _ _ _ _ h _ hstep
    exact step_sources h hstep

end Sources

section Conditions

variable (label : Nat → UeLabel) (p : Parties) (callId : Str)

/-- The message is in a thread of the P-CSCF or between the proxies. -/
inductive Passing (s : State) (msg : SipMessage) : Prop
  | forwarding (n : Nat) : (s.conns n).session.thread = .forwarding msg → Passing s msg
  | toScscf : msg ∈ s.toScscf → Passing s msg
  | toPcscf : msg ∈ s.toPcscf → Passing s msg

/-- A message of the call neither ends it nor accepts an INVITE, and a request of a party goes to
the other. -/
def Orderly (msg : SipMessage) : Prop :=
  msg.type ≠ .bye ∧ ¬Acked msg ∧
    (Modifies callId msg → p.Has (label msg.origin) →
      msg.sipTo = impuOf (p.peer (label msg.origin)))

/-- What is on its way for the call is orderly. -/
structure Settled (s : State) : Prop where
  passing : ∀ msg, Passing s msg → msg.callId = callId → Orderly label p callId msg
  cleaning : ∀ n, (s.conns n).session.thread ≠ .cleaningUp callId
  notifying : ∀ target msg, s.pcscf.scscfThread = .notifying target msg → Grants callId msg →
    p.Has (label msg.origin) → ∃ l, p.Has l ∧ target = impuOf l

/-- The callee on record is the party that an answer to `target` does not go to anyway. -/
def Paired (node : PcscfNode) (target : Str) : Prop :=
  (target = impuOf p.first → node.callToCallee.lookup callId = some (impuOf p.second)) ∧
    (target = impuOf p.second → node.callToCallee.lookup callId = some (impuOf p.first))

/-- The P-CSCF reads only orderly messages of the call. When it takes an answer up the caller that
it has on record is a party, and when it hands the answer out the callee on record is the other. -/
def Kept (_ : List Event) (s : State) : Input → Prop
  | .pcscfRead n => ∀ msg ∈ (s.conns n).uplink.head?, msg.callId = callId →
      Orderly label p callId msg
  | .pcscfReceive => ∀ msg ∈ s.toPcscf.head?, Grants callId msg → p.Has (label msg.origin) →
      s.pcscf.callToCaller.lookup callId = some (impuOf p.first) ∨
        s.pcscf.callToCaller.lookup callId = some (impuOf p.second)
  | .pcscfNotify => ∀ target msg, s.pcscf.scscfThread = .notifying target msg →
      Grants callId msg → p.Has (label msg.origin) → Paired p callId s.pcscf target
  | _ => True

/-- What holds of every state in which both parties are registered. -/
structure Grounded (s : State) : Prop where
  known : ∀ impu n, s.pcscf.ueByImpu.lookup impu = some n → impu = impuOf (label n)
  registered : ∀ l, p.Has l → (s.pcscf.ueByImpu.lookup (impuOf l)).isSome
  notifies : NotifiesOk s.pcscf
  sources : Sources s

end Conditions

section Order

variable {label : Nat → UeLabel} {p : Parties} {callId : Str} {s s' : State}

theorem Settled.of_passing (h : Settled label p callId s)
    (hpassing : ∀ out, Passing s' out → Passing s out)
    (hcleaning : ∀ m, (s'.conns m).session.thread = .cleaningUp callId →
      (s.conns m).session.thread = .cleaningUp callId)
    (hthread : ∀ target out, s'.pcscf.scscfThread = .notifying target out →
      s.pcscf.scscfThread = .notifying target out) : Settled label p callId s' where
  passing out hout := h.passing out (hpassing out hout)
  cleaning m hm := h.cleaning m (hcleaning m hm)
  notifying target out hout := h.notifying target out (hthread target out hout)

theorem passing_of_frame (hthread : ∀ m, (s'.conns m).session.thread = (s.conns m).session.thread)
    (htoScscf : s'.toScscf = s.toScscf) (htoPcscf : ∀ out ∈ s'.toPcscf, out ∈ s.toPcscf)
    (h : Passing s' out) : Passing s out := by
  cases h with
  | forwarding m hout => exact .forwarding m (hthread m ▸ hout)
  | toScscf hout => exact .toScscf (htoScscf ▸ hout)
  | toPcscf hout => exact .toPcscf (htoPcscf out hout)

theorem Settled.of_frame (h : Settled label p callId s)
    (hthread : ∀ m, (s'.conns m).session.thread = (s.conns m).session.thread)
    (htoScscf : s'.toScscf = s.toScscf) (htoPcscf : ∀ out ∈ s'.toPcscf, out ∈ s.toPcscf)
    (hnotifying : ∀ target out, s'.pcscf.scscfThread = .notifying target out →
      s.pcscf.scscfThread = .notifying target out) : Settled label p callId s' :=
  h.of_passing (fun _ => passing_of_frame hthread htoScscf htoPcscf)
    (fun m hm => hthread m ▸ hm) hnotifying

end Order

section Deliveries

variable {label : Nat → UeLabel} {p : Parties} {callId : Str} {s s' : State} {n : Nat}
  {msg : SipMessage} {l : UeLabel} {kind : SipMessage → Bool}
  {es : List CallSessionControl.Event}

theorem handedOver_nil (h : ∀ m out, .delivered m out ∈ es → kind out = false) :
    es.filterMap (handedOver kind) = [] := by
  rw [List.filterMap_eq_nil_iff]
  intro e he
  cases e with
  | delivered m out => rw [handedOver, h m out he]; rfl
  | _ => rfl

theorem filterMap_requested (L : List SipMessage) (es : List CallSessionControl.Event) :
    (L.map Event.sent ++ es.map Event.shown).filterMap (requested callId n) =
      L.filter (requestOf callId n) := by
  have hshown : (es.map Event.shown).filterMap (requested callId n) = [] := by
    rw [List.filterMap_map, List.filterMap_eq_nil_iff]
    intro e _
    rfl
  rw [List.filterMap_append, hshown, List.append_nil, List.filterMap_map,
    ← List.filterMap_eq_filter]
  apply List.filterMap_congr
  intro msg _
  change (if requestOf callId n msg = true then some msg else none) = _
  rw [Option.guard]

theorem filterMap_heard (L : List SipMessage) (es : List CallSessionControl.Event) :
    (L.map Event.sent ++ es.map Event.shown).filterMap (heard kind) =
      es.filterMap (handedOver kind) := by
  have hsent : (L.map Event.sent).filterMap (heard kind) = [] := by
    rw [List.filterMap_map, List.filterMap_eq_nil_iff]
    intro e _
    rfl
  rw [List.filterMap_append, hsent, List.nil_append, List.filterMap_map]
  rfl

theorem served_of_lists (L : List SipMessage) {requests answers : List (Nat × SipMessage)}
    (hrequests : es.filterMap (handedOver (requestOf callId n)) = requests)
    (hanswers : es.filterMap (handedOver (grantOf callId n)) = answers)
    (hunderWay : underWay callId n s ++ L.filter (requestOf callId n) =
      requests.map Prod.snd ++ underWay callId n s')
    (hpeer : ∀ d ∈ requests, label d.1 = p.peer (label n))
    (hdue : due callId n s ++ (L.filter (requestOf callId n)).map grant =
      (answers.filter fun d => decide (label d.1 = label n)).map (fun d => d.2.reason) ++
        due callId n s')
    (hparties : ∀ d ∈ answers, p.Has (label d.1))
    (hunaccepted : ∀ m msg, .delivered m msg ∈ es → msg.callId = callId → ¬Acked msg) :
    Served label p callId n s (L.map .sent ++ es.map .shown) s' where
  requests := by rw [filterMap_requested, filterMap_heard, hrequests, hunderWay]
  toPeer d hd := by
    rw [filterMap_heard, hrequests] at hd
    exact hpeer d hd
  answers := by rw [filterMap_requested, filterMap_heard, hanswers, hdue]
  toParties d hd := by
    rw [filterMap_heard, hanswers] at hd
    exact hparties d hd
  unaccepted m msg hmsg := by
    rcases List.mem_append.mp hmsg with hsent | hshown
    · obtain ⟨_, -, hcontra⟩ := List.mem_map.mp hsent
      cases hcontra
    · obtain ⟨e, he, hsame⟩ := List.mem_map.mp hshown
      rw [Event.shown.inj hsame] at he
      exact hunaccepted m msg he

theorem served_silent (hunderWay : underWay callId n s' = underWay callId n s)
    (hdue : due callId n s' = due callId n s)
    (hes : ∀ m msg, .delivered m msg ∈ es → requestOf callId n msg = false ∧
      grantOf callId n msg = false ∧ (msg.callId = callId → ¬Acked msg)) :
    Served label p callId n s (es.map .shown) s' := by
  refine served_of_lists []
    (handedOver_nil fun m msg hmsg => (hes m msg hmsg).1)
    (handedOver_nil fun m msg hmsg => (hes m msg hmsg).2.1) ?_ (fun _ h => by cases h) ?_
    (fun _ h => by cases h) fun m msg hmsg => (hes m msg hmsg).2.2
  · rw [hunderWay]
    exact List.append_nil _
  · rw [hdue]
    exact List.append_nil _

theorem lists_congr (callId : Str) (htoPcscf : s'.toPcscf = s.toPcscf) (htoScscf : s'.toScscf = s.toScscf)
    (hconn : forwardedBy (s'.conns n).session.thread ++ (s'.conns n).uplink =
      forwardedBy (s.conns n).session.thread ++ (s.conns n).uplink)
    (hthread : s'.pcscf.scscfThread = s.pcscf.scscfThread) :
    underWay callId n s' = underWay callId n s ∧ due callId n s' = due callId n s := by
  constructor
  · rw [underWay, upstream, htoPcscf, htoScscf, hconn, underWay, upstream]
  · rw [due, ahead, htoPcscf, htoScscf, hconn, hthread, due, ahead]

theorem served_in_place (htoPcscf : s'.toPcscf = s.toPcscf) (htoScscf : s'.toScscf = s.toScscf)
    (hconn : forwardedBy (s'.conns n).session.thread ++ (s'.conns n).uplink =
      forwardedBy (s.conns n).session.thread ++ (s.conns n).uplink)
    (hthread : s'.pcscf.scscfThread = s.pcscf.scscfThread)
    (hes : ∀ m msg, .delivered m msg ∉ es) :
    Served label p callId n s (es.map .shown) s' := by
  obtain ⟨hunderWay, hdue⟩ := lists_congr callId htoPcscf htoScscf hconn hthread
  exact served_silent hunderWay hdue fun m msg hmsg => absurd hmsg (hes m msg)

end Deliveries

section Phones

variable {label : Nat → UeLabel} {p : Parties} {callId : Str} {s : State} {n m : Nat}
  {out : Outcome}

theorem dropDownlink_lists (callId : Str) (n : Nat) (s : State) (m : Nat) (rest : List SipMessage) :
    underWay callId n (s.modify m fun c => { c with downlink := rest }) = underWay callId n s ∧
      due callId n (s.modify m fun c => { c with downlink := rest }) = due callId n s := by
  refine lists_congr callId rfl rfl ?_ rfl
  rw [modify_thread s m (fun c => { c with downlink := rest }) rfl, State.modify_conns]
  split
  · rename_i hn
    rw [hn]
  · rfl

theorem phoneStep_lists (callId : Str) (n : Nat) (s : State) (m : Nat) (out : Outcome) :
    underWay callId n (phoneStep s m out) = underWay callId n s ++
        (out.2.map fun msg => { msg with origin := m }).filter (requestOf callId n) ∧
      due callId n (phoneStep s m out) = due callId n s ++
        ((out.2.map fun msg => { msg with origin := m }).filter (requestOf callId n)).map grant := by
  have hahead : (ahead n (phoneStep s m out)).filter (requestOf callId n) =
      (ahead n s).filter (requestOf callId n) ++
        (out.2.map fun msg => { msg with origin := m }).filter (requestOf callId n) := by
    rw [ahead, phoneStep_thread, phoneStep, State.modify_conns]
    split
    · rename_i hn
      rw [hn, ← List.filter_append]
      simp only [ahead, State.modify, List.append_assoc]
    · rename_i hn
      have hnone : (out.2.map fun msg => { msg with origin := m }).filter (requestOf callId n) =
          [] := by
        rw [List.filter_eq_nil_iff]
        intro msg hmsg
        obtain ⟨sent, -, rfl⟩ := List.mem_map.mp hmsg
        simp [requestOf, Ne.symm hn]
      rw [hnone, List.append_nil]
      rfl
  constructor
  · change (s.toPcscf ++ ahead n (phoneStep s m out)).filter _ = (s.toPcscf ++ ahead n s).filter _ ++ _
    rw [List.filter_append, hahead, List.filter_append, List.append_assoc]
  · rw [due, hahead, List.map_append, due, List.append_assoc]
    rfl

theorem command_served (cmd : Command) : Served label p callId n s
    ((spoken label s (.command m cmd)).map .sent ++ ([] : List CallSessionControl.Event).map .shown)
    (phoneStep s m (processCommand (cfgOf label m) (s.conns m).ue cmd)) := by
  obtain ⟨hunderWay, hdue⟩ := phoneStep_lists callId n s m
    (processCommand (cfgOf label m) (s.conns m).ue cmd)
  exact served_of_lists _ rfl rfl hunderWay.symm
    (fun _ h => by cases h) hdue.symm (fun _ h => by cases h) fun _ _ h => by cases h

theorem ueReceive_served {msg : SipMessage} {rest : List SipMessage} : Served label p callId n s
    (([] : List CallSessionControl.Event).map .shown)
    (phoneStep (s.modify m fun c => { c with downlink := rest }) m
      (handleIncoming (cfgOf label m) (s.conns m).ue msg)) := by
  obtain ⟨hunderWay, hdue⟩ := phoneStep_lists callId n
    (s.modify m fun c => { c with downlink := rest }) m
    (handleIncoming (cfgOf label m) (s.conns m).ue msg)
  obtain ⟨hunderWay₀, hdue₀⟩ := dropDownlink_lists callId n s m rest
  have hnone : ((handleIncoming (cfgOf label m) (s.conns m).ue msg).2.map
      fun msg => { msg with origin := m }).filter (requestOf callId n) = [] := by
    rw [List.filter_eq_nil_iff]
    intro out hout
    obtain ⟨sent, hsent, rfl⟩ := List.mem_map.mp hout
    simp [requestOf, Modifies, handleIncoming_sent hsent]
  rw [hnone, List.append_nil, hunderWay₀] at hunderWay
  rw [hnone, List.map_nil, List.append_nil, hdue₀] at hdue
  exact served_silent hunderWay hdue fun _ _ h => by cases h

end Phones

section Connections

variable {label : Nat → UeLabel} {p : Parties} {callId : Str} {s : State} {n m : Nat}
  {msg : SipMessage} {rest : List SipMessage}

theorem read_served (hthread : (s.conns m).session.thread = .receiving)
    (huplink : (s.conns m).uplink = msg :: rest) : Served label p callId n s
    ((handleFromUe (setThread (s.modify m fun c => { c with uplink := rest }) m (.forwarding msg))
      m msg).2.map .shown)
    (handleFromUe (setThread (s.modify m fun c => { c with uplink := rest }) m (.forwarding msg))
      m msg).1 := by
  have henters := handleFromUe_enters
    (setThread (s.modify m fun c => { c with uplink := rest }) m (.forwarding msg)) m msg
  refine served_in_place henters.toPcscf henters.toScscf ?_ henters.scscfThread fun _ _ =>
    handleFromUe_events
  rw [henters.thread, henters.uplink, setThread_thread, (setThread_conns _ m _ n).2.1,
    modify_thread s m (fun c => { c with uplink := rest }) rfl, State.modify_conns]
  split
  · rename_i hn
    rw [hn, hthread, huplink]
    rfl
  · rfl

theorem forward_served (h : Sources s) (hthread : (s.conns m).session.thread = .forwarding msg)
    {thread : UeThread} (hdone : forwardedBy thread = []) : Served label p callId n s
    (([] : List CallSessionControl.Event).map .shown)
    (setThread { s with toScscf := s.toScscf ++ [msg] } m thread) := by
  have horigin : msg.origin = m := by
    refine (h.conn m msg ?_).1
    rw [hthread]
    exact List.mem_cons_self
  have hahead : (ahead n (setThread { s with toScscf := s.toScscf ++ [msg] } m thread)).filter
      (requestOf callId n) = (ahead n s).filter (requestOf callId n) := by
    rw [ahead, setThread_thread, (setThread_conns _ m thread n).2.1]
    change ((s.toScscf ++ [msg]) ++ _).filter _ = _
    split
    · rename_i hn
      rw [hdone, hn, ahead, hthread, List.append_assoc]
      rfl
    · rename_i hn
      have hother : requestOf callId n msg = false := by simp [requestOf, horigin, Ne.symm hn]
      simp only [ahead, List.filter_append, List.filter_cons, hother, List.filter_nil,
        List.append_nil, Bool.false_eq_true, if_false]
  refine served_silent ?_ ?_ fun _ _ hmsg => by cases hmsg
  · change (s.toPcscf ++ ahead n _).filter _ = (s.toPcscf ++ ahead n s).filter _
    rw [List.filter_append, hahead, List.filter_append]
  · rw [due, hahead, due]
    rfl

theorem cleanUp_served {id : Str} (hthread : (s.conns m).session.thread = .cleaningUp id) :
    Served label p callId n s
      (([.callerErased id] : List CallSessionControl.Event).map .shown)
      (setThread { s with pcscf := cleanUp s.pcscf id } m .receiving) := by
  refine served_in_place rfl rfl ?_ rfl fun k out hout => by cases List.mem_singleton.mp hout
  rw [setThread_thread, (setThread_conns _ m _ n).2.1]
  split
  · rename_i hn
    rw [hn, hthread]
    rfl
  · rfl

theorem scscf_served (h : Sources s) (hstored : callId ∈ s.scscf.calls)
    (htoScscf : s.toScscf = msg :: rest) : Served label p callId n s
    (([] : List CallSessionControl.Event).map .shown)
    { s with
      toScscf := rest
      scscf := (scscfHandle s.scscf msg).1
      toPcscf := s.toPcscf ++ (scscfHandle s.scscf msg).2 } := by
  have hlists : ((scscfHandle s.scscf msg).2).filter (requestOf callId n) =
        [msg].filter (requestOf callId n) ∧
      (((scscfHandle s.scscf msg).2).filter (grantOf callId n)).map SipMessage.reason =
        ([msg].filter (requestOf callId n)).map grant := by
    by_cases hmodifies : Modifies callId msg
    · obtain ⟨ans, hout, hgrants, hreason, horigin⟩ := scscfHandle_modifies hmodifies hstored
      have hnotGrants : ¬Grants callId msg := by
        intro hok
        have htype := hmodifies.1
        rw [hok.1] at htype
        cases htype
      have hnotModifies : ¬Modifies callId ans := by
        intro hinvite
        have htype := hgrants.1
        rw [hinvite.1] at htype
        cases htype
      rw [hout]
      by_cases hn : msg.origin = n
      · simp [requestOf, grantOf, hmodifies, hgrants, hnotGrants, hnotModifies, hn, horigin, hreason]
      · simp [requestOf, grantOf, hmodifies, hgrants, hnotGrants, hnotModifies, hn, horigin]
    · have hothers (out : SipMessage) (hout : out ∈ (scscfHandle s.scscf msg).2) :
          ¬Modifies callId out ∧ ¬Grants callId out :=
        scscfHandle_others hmodifies (h.toScscf msg (htoScscf ▸ List.mem_cons_self)) hout
      have hnone : [msg].filter (requestOf callId n) = [] := by
        simp [requestOf, hmodifies]
      rw [hnone, List.filter_eq_nil_iff.mpr, List.filter_eq_nil_iff.mpr]
      · exact ⟨rfl, rfl⟩
      · intro out hout
        simp [grantOf, (hothers out hout).2]
      · intro out hout
        simp [requestOf, (hothers out hout).1]
  obtain ⟨hrequests, hanswers⟩ := hlists
  have hhead : s.toScscf = [msg] ++ rest := htoScscf
  refine served_silent ?_ ?_ fun _ _ hmsg => by cases hmsg
  · simp only [underWay, upstream, hhead, List.filter_append, List.append_assoc]
    rw [hrequests]
  · simp only [due, ahead, hhead, List.filter_append, List.map_append, List.append_assoc]
    rw [hanswers]

end Connections

section Routing

variable {label : Nat → UeLabel} {p : Parties} {callId : Str} {s : State} {n : Nat}
  {msg : SipMessage} {rest : List SipMessage} {l : UeLabel} {kind : SipMessage → Bool}

instance (msg : SipMessage) : Decidable (Answers msg) := inferInstanceAs (Decidable (_ ∧ _))

theorem handleFromScscf_answers (h : Answers msg) : handleFromScscf s msg =
    ({ s with
        pcscf := { s.pcscf with
          scscfThread := .notifying (nonEmptyOr (callerOf s.pcscf msg.callId) msg.sipFrom) msg } },
      []) := by
  obtain ⟨htype, hnotifies⟩ := h
  have hregister : msg.reason ≠ lit "REGISTER" := by
    intro hreason
    have hnone : notifiesCallee (lit "REGISTER") = false := by decide
    rw [hreason, hnone] at hnotifies
    cases hnotifies
  rw [handleFromScscf, htype]
  dsimp only
  rw [route200Ok, if_neg hregister]
  dsimp only
  rw [if_pos hnotifies]

theorem handleFromScscf_thread (h : ¬Answers msg) :
    (handleFromScscf s msg).1.pcscf.scscfThread = s.pcscf.scscfThread := by
  obtain ⟨node, hsection, hdelivers⟩ := handleFromScscf_delivers s msg
  rw [hdelivers.pcscf]
  cases hsection with
  | unchanged => rfl
  | entered _ _ => exact enterInvite_scscfThread s.pcscf msg
  | answered _ htype hnotifies => exact absurd ⟨htype, hnotifies⟩ h

theorem sendToUe_other (hkind : kind msg = false) (s : State) (impu : Str) :
    (sendToUe s impu msg).2.filterMap (handedOver kind) = [] := by
  refine handedOver_nil fun m out hout => ?_
  rw [List.mem_singleton.mp ((sendToUe_handsOn (List.mem_singleton_self msg) s impu).events m out hout)]
  exact hkind

theorem routeInvite_deliveries (h : Grounded label p s) (hl : p.Has l) (hto : msg.sipTo = impuOf l)
    (hkind : kind msg = true) (hring : kind (ring msg) = false) :
    ∃ m, label m = l ∧ (routeInvite s msg).2.filterMap (handedOver kind) = [(m, msg)] := by
  obtain ⟨m, hm⟩ := Option.isSome_iff_exists.mp (h.registered l hl)
  have hsent {s₁ : State} (hsame : s₁.pcscf.ueByImpu = s.pcscf.ueByImpu) :
      (sendToUe s₁ msg.sipTo msg).2.filterMap (handedOver kind) = [(m, msg)] := by
    rw [sendToUe, hto, hsame, hm]
    simp [handedOver, hkind]
  refine ⟨m, (impuOf_injective (h.known _ m hm)).symm, ?_⟩
  unfold routeInvite
  split
  · exact hsent rfl
  · have hentered : (enterInvite s.pcscf msg).2.filterMap (handedOver kind) = [] := by
      refine handedOver_nil fun k out hout => ?_
      unfold enterInvite at hout
      dsimp only at hout
      split at hout
      · cases List.mem_singleton.mp hout
      · cases hout
    dsimp only
    rw [List.filterMap_append, List.filterMap_append, hentered,
      hsent (enterInvite_ueByImpu s.pcscf msg), sendToUe_other hring]
    rfl

theorem notify_deliveries (h : Grounded label p s) (hl : p.Has l)
    (hcallee : s.pcscf.callToCallee.lookup msg.callId = some (impuOf (p.peer l)))
    (hkind : kind msg = true) : ∃ m k, label m = p.peer l ∧ label k = l ∧
      (notify s (impuOf l) msg).2.filterMap (handedOver kind) = [(m, msg), (k, msg)] := by
  obtain ⟨m, hm⟩ := Option.isSome_iff_exists.mp (h.registered _ (p.peer_has l))
  obtain ⟨k, hk⟩ := Option.isSome_iff_exists.mp (h.registered l hl)
  refine ⟨m, k, (impuOf_injective (h.known _ m hm)).symm, (impuOf_injective (h.known _ k hk)).symm, ?_⟩
  have hsent (s₁ : State) {l' : UeLabel} {k' : Nat}
      (hk' : s.pcscf.ueByImpu.lookup (impuOf l') = some k')
      (hsame : s₁.pcscf.ueByImpu = s.pcscf.ueByImpu) :
      (deliver s₁ (impuOf l') msg).2 = [.delivered k' msg] := by
    rw [deliver, if_neg (impuOf_ne_nil l'), sendToUe, hsame, hk']
  have hrecord : calleeOf s.pcscf msg.callId = impuOf (p.peer l) := by
    rw [calleeOf, hcallee]
    rfl
  change ((deliver _ (calleeOf s.pcscf msg.callId) msg).2 ++ (deliver
    (deliver _ (calleeOf s.pcscf msg.callId) msg).1 (impuOf l) msg).2).filterMap _ = _
  rw [hrecord, hsent _ hm, hsent _ hk]
  · simp [handedOver, hkind]
  · rw [(deliver_delivers _ _ msg).pcscf]
  · rfl

theorem receive_lists (callId : Str) (n : Nat) (hthread : s.pcscf.scscfThread = .receiving)
    (htoPcscf : s.toPcscf = msg :: rest) :
    underWay callId n s = [msg].filter (requestOf callId n) ++
        underWay callId n (handleFromScscf { s with toPcscf := rest } msg).1 ∧
      due callId n (handleFromScscf { s with toPcscf := rest } msg).1 = due callId n s := by
  obtain ⟨node, -, hdelivers⟩ := handleFromScscf_delivers { s with toPcscf := rest } msg
  have hahead : ahead n (handleFromScscf { s with toPcscf := rest } msg).1 = ahead n s := by
    rw [ahead, hdelivers.toScscf, hdelivers.thread, hdelivers.uplink, ahead]
  have hrest : (handleFromScscf { s with toPcscf := rest } msg).1.toPcscf = rest := hdelivers.toPcscf
  have hhead : s.toPcscf = [msg] ++ rest := htoPcscf
  constructor
  · change (s.toPcscf ++ ahead n s).filter _ = _ ++ (_ ++ ahead n _).filter _
    rw [hahead, hrest, hhead, List.append_assoc, List.filter_append]
  · rw [due, hahead, hrest, due, hthread, hhead]
    by_cases hanswers : Answers msg
    · rw [handleFromScscf_answers hanswers]
      rfl
    · rw [handleFromScscf_thread hanswers]
      have hnone : grantOf callId n msg = false := by
        simp only [grantOf, decide_eq_false_iff_not]
        exact fun h => hanswers ⟨h.1.1, h.1.2.2⟩
      have hdrop : ([msg] ++ rest).filter (grantOf callId n) = rest.filter (grantOf callId n) := by
        simp [hnone]
      change ((notifiedBy s.pcscf.scscfThread ++ rest).filter _).map _ ++ _ =
        (([msg] ++ rest).filter _).map _ ++ _
      rw [hthread, hdrop]
      rfl

theorem receive_served (h : Grounded label p s) (hsettled : Settled label p callId s)
    (hn : p.Has (label n)) (hthread : s.pcscf.scscfThread = .receiving)
    (htoPcscf : s.toPcscf = msg :: rest) : Served label p callId n s
    ((handleFromScscf { s with toPcscf := rest } msg).2.map .shown)
    (handleFromScscf { s with toPcscf := rest } msg).1 := by
  obtain ⟨hunderWay, hdue⟩ := receive_lists callId n hthread htoPcscf
  have horderly (hid : msg.callId = callId) : Orderly label p callId msg :=
    hsettled.passing msg (.toPcscf (htoPcscf ▸ List.mem_cons_self)) hid
  have hring {out : SipMessage} (hout : out = ring msg) : out.type = .ringing180 := by
    rw [hout]
    rfl
  have hevents (m : Nat) (out : SipMessage)
      (hout : .delivered m out ∈ (handleFromScscf { s with toPcscf := rest } msg).2) :
      out = msg ∨ out = ring msg :=
    List.mem_pair.mp ((handleFromScscf_handsOn { s with toPcscf := rest } msg).events m out hout)
  have hunaccepted (m : Nat) (out : SipMessage)
      (hout : .delivered m out ∈ (handleFromScscf { s with toPcscf := rest } msg).2)
      (hid : out.callId = callId) : ¬Acked out := by
    rcases hevents m out hout with rfl | hsame
    · exact (horderly hid).2.1
    · simp [Acked, hring hsame]
  have hkinds {out : SipMessage} (hout : out = ring msg) :
      requestOf callId n out = false ∧ grantOf callId n out = false := by
    simp [requestOf, Modifies, grantOf, Grants, hring hout]
  by_cases hrequest : requestOf callId n msg = true
  · obtain ⟨hmodifies, horigin⟩ := of_decide_eq_true hrequest
    have hto := (horderly hmodifies.2.1).2.2 hmodifies (horigin.symm ▸ hn)
    have hgrounded : Grounded label p { s with toPcscf := rest } :=
      ⟨h.known, h.registered, h.notifies, h.sources.conn, h.sources.toScscf⟩
    have hrouted : handleFromScscf { s with toPcscf := rest } msg =
        routeInvite { s with toPcscf := rest } msg := by
      rw [handleFromScscf, hmodifies.1]
    obtain ⟨m, hm, hrequests⟩ := routeInvite_deliveries hgrounded (p.peer_has _) hto hrequest
      (hkinds rfl).1
    have hanswers : (handleFromScscf { s with toPcscf := rest } msg).2.filterMap
        (handedOver (grantOf callId n)) = [] := by
      refine handedOver_nil fun k out hout => ?_
      rcases hevents k out hout with rfl | hsame
      · simp [grantOf, Grants, hmodifies.1]
      · exact (hkinds hsame).2
    rw [← hrouted] at hrequests
    refine served_of_lists [] hrequests hanswers ?_ ?_ ?_ (fun _ hd => by cases hd) hunaccepted
    · rw [hunderWay, List.filter_singleton, hrequest]
      exact List.append_nil _
    · intro d hd
      rw [List.mem_singleton.mp hd, hm, horigin]
    · rw [hdue]
      exact List.append_nil _
  · have hother : requestOf callId n msg = false := by simpa using hrequest
    rw [List.filter_singleton, hother] at hunderWay
    refine served_silent hunderWay.symm hdue fun m out hout => ?_
    refine ⟨?_, ?_, hunaccepted m out hout⟩
    · rcases hevents m out hout with rfl | hsame
      · exact hother
      · exact (hkinds hsame).1
    · rcases hevents m out hout with rfl | hsame
      · by_cases hanswers : Answers out
        · rw [handleFromScscf_answers hanswers] at hout
          cases hout
        · simp only [grantOf, decide_eq_false_iff_not]
          exact fun hgrants => hanswers ⟨hgrants.1.1, hgrants.1.2.2⟩
      · exact (hkinds hsame).2

theorem notify_served (h : Grounded label p s) (hsettled : Settled label p callId s)
    (hn : p.Has (label n)) {target : Str}
    (hthread : s.pcscf.scscfThread = .notifying target msg)
    (hpaired : Grants callId msg → p.Has (label msg.origin) → Paired p callId s.pcscf target) :
    Served label p callId n s ((notify s target msg).2.map .shown) (notify s target msg).1 := by
  obtain ⟨htype, hnotifies⟩ := h.notifies target msg hthread
  have hdelivers := notify_delivers s target msg
  have hahead : ahead n (notify s target msg).1 = ahead n s := by
    rw [ahead, hdelivers.toScscf, hdelivers.thread, hdelivers.uplink, ahead]
  have hunderWay : underWay callId n (notify s target msg).1 = underWay callId n s := by
    change (_ ++ ahead n _).filter _ = (_ ++ ahead n s).filter _
    rw [hahead, hdelivers.toPcscf]
  have hdue : due callId n s = ([msg].filter (grantOf callId n)).map SipMessage.reason ++
      due callId n (notify s target msg).1 := by
    rw [due, due, hahead, hdelivers.toPcscf, hdelivers.pcscf, hthread, ← List.append_assoc,
      ← List.map_append, ← List.filter_append]
    rfl
  have hevents (m : Nat) (out : SipMessage) (hout : .delivered m out ∈ (notify s target msg).2) :
      out = msg := List.mem_singleton.mp ((notify_handsOn s target msg).events m out hout)
  have hrequest : requestOf callId n msg = false := by simp [requestOf, Modifies, htype]
  have hunaccepted (m : Nat) (out : SipMessage) (hout : .delivered m out ∈ (notify s target msg).2) :
      ¬Acked out := by
    rw [hevents m out hout]
    exact not_acked_of_notifies hnotifies
  have hrequests : (notify s target msg).2.filterMap (handedOver (requestOf callId n)) = [] := by
    refine handedOver_nil fun m out hout => ?_
    rw [hevents m out hout]
    exact hrequest
  by_cases hgrant : grantOf callId n msg = true
  · obtain ⟨hgrants, horigin⟩ := of_decide_eq_true hgrant
    have hparty : p.Has (label msg.origin) := horigin.symm ▸ hn
    obtain ⟨l, hl, rfl⟩ := hsettled.notifying target msg hthread hgrants hparty
    have hcallee : s.pcscf.callToCallee.lookup msg.callId = some (impuOf (p.peer l)) := by
      obtain ⟨hfirst, hsecond⟩ := hpaired hgrants hparty
      rw [hgrants.2.1, Parties.peer]
      rcases hl with rfl | rfl
      · rw [if_pos rfl]
        exact hfirst rfl
      · rw [if_neg p.distinct.symm]
        exact hsecond rfl
    obtain ⟨m, k, hm, hk, hanswers⟩ := notify_deliveries h hl hcallee hgrant
    refine served_of_lists [] hrequests hanswers ?_ (fun _ hd => by cases hd)
      ?_ ?_ fun m out hout _ => hunaccepted m out hout
    · rw [hunderWay]
      exact List.append_nil _
    · rw [hdue, List.filter_singleton, hgrant]
      rcases Parties.eq_or_peer hl hn with hown | hown
      · simp [hm, hk, hown, p.peer_ne l]
      · simp [hm, hk, hown, (p.peer_ne l).symm]
    · intro d hd
      rcases List.mem_pair.mp hd with rfl | rfl
      · rw [hm]
        exact p.peer_has l
      · rw [hk]
        exact hl
  · have hother : grantOf callId n msg = false := by simpa using hgrant
    rw [List.filter_singleton, hother] at hdue
    refine served_silent hunderWay hdue.symm fun m out hout => ?_
    rw [hevents m out hout]
    exact ⟨hrequest, hother, fun _ => not_acked_of_notifies hnotifies⟩

end Routing

end MobileCore.ReInviteDelivery
