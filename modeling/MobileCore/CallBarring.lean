import MobileCore.CallSessionControl

/-!
# Call barring

The S-CSCF thread and the operator who bars and unbars identities. The thread asks the MTAS about a
new call before it stores the call and forwards the INVITE, and the operator may act in between.
-/

namespace MobileCore.CallBarring

open MobileCore.CallSessionControl
open MobileCore.CppText
open MobileCore.LabelledRuns
open MobileCore.LastWrite
open MobileCore.SipPhones

/-- What the thread has still to do for the message it read. -/
inductive Thread where
  | receiving
  | admitted (msg : SipMessage)

def Thread.waiting : Thread → Option SipMessage
  | .receiving => none
  | .admitted msg => some msg

structure State where
  node : ScscfNode := {}
  thread : Thread := .receiving

inductive Input where
  | receive (msg : SipMessage)
  | forward
  | setBarred (impu : Str) (barred : Bool)

inductive Event where
  | sent (msg : SipMessage)
  | barred (impu : Str)
  | unbarred (impu : Str)
deriving DecidableEq

/-- An INVITE of a new call that the MTAS lets through. -/
def admits (node : ScscfNode) (msg : SipMessage) : Bool :=
  msg.type = .invite && (node.calls.lookup msg.callId).isNone && invokeMtas node msg.sipTo

def step : Machine State Input Event
  | s, .receive msg =>
    match s.thread with
    | .admitted _ => none
    | .receiving =>
      if admits s.node msg then
        some ({ s with thread := .admitted msg },
          [.sent (sendSipResponse msg .trying100 msg.callId msg.sipFrom msg.sipTo "INVITE")])
      else
        let r := scscfHandle s.node msg
        some ({ s with node := r.1 }, r.2.map .sent)
  | s, .forward =>
    match s.thread with
    | .receiving => none
    | .admitted msg =>
      some (⟨setCall s.node ⟨msg.sipFrom, msg.sipTo, msg.callId, false, false⟩ msg.callId, .receiving⟩,
        [.sent msg,
          .sent (sendSipResponse msg .progress183 msg.callId msg.sipFrom msg.sipTo "INVITE")])
  | s, .setBarred impu true =>
    some ({ s with node := { s.node with barred := insert impu s.node.barred } }, [.barred impu])
  | s, .setBarred impu false =>
    some ({ s with node := { s.node with barred := s.node.barred.erase impu } }, [.unbarred impu])

def init : State := {}

/-- Without the operator in between, the steps for a message do what its handler does. -/
theorem scscfHandle_exec (node : ScscfNode) (msg : SipMessage) :
    ∃ is, exec step ⟨node, .receiving⟩ (.receive msg :: is) =
      some (⟨(scscfHandle node msg).1, .receiving⟩, (scscfHandle node msg).2.map .sent) := by
  cases hadmits : admits node msg with
  | false =>
      refine ⟨[], ?_⟩
      simp [exec, step, hadmits]
  | true =>
      refine ⟨[.forward], ?_⟩
      simp only [admits, Bool.and_eq_true, decide_eq_true_eq, Option.isNone_iff_eq_none] at hadmits
      obtain ⟨⟨htype, hnew⟩, hmtas⟩ := hadmits
      have hhandle : scscfHandle node msg = handleInvite node msg := by
        rw [scscfHandle, htype]
      rw [hhandle, handleInvite, hnew]
      simp [exec, step, admits, htype, hnew, hmtas]

def barredAfter (tr : List Event) : Finset Str :=
  tr.foldl (fun barred e =>
    match e with
    | .sent _ => barred
    | .barred impu => insert impu barred
    | .unbarred impu => barred.erase impu) ∅

theorem barredAfter_snoc (tr : List Event) (e : Event) :
    barredAfter (tr ++ [e]) =
      match e with
      | .sent _ => barredAfter tr
      | .barred impu => insert impu (barredAfter tr)
      | .unbarred impu => (barredAfter tr).erase impu := by
  rw [barredAfter, List.foldl_append]
  cases e <;> rfl

theorem barredAfter_sent (tr : List Event) (out : List SipMessage) :
    barredAfter (tr ++ out.map .sent) = barredAfter tr := by
  induction out using List.reverseRecOn with
  | nil => simp
  | append_singleton out msg ih =>
      rw [List.map_append, ← List.append_assoc]
      exact (barredAfter_snoc _ (.sent msg)).trans ih

/-- What an INVITE needs: neither its sender nor its target is barred. -/
def Allowed (before : List Event) : Event → Prop
  | .sent msg =>
    msg.type = .invite → msg.sipFrom ∉ barredAfter before ∧ msg.sipTo ∉ barredAfter before
  | _ => True

/-- Every INVITE that was sent was allowed when it was sent. -/
def BarringObeyed : List Event → Prop := Backed Allowed

/-- The re-INVITEs that ask for a conference. -/
def asksConference (msg : SipMessage) : Bool :=
  !(contains msg.sdp "inactive" || contains msg.sdp "sendonly") && contains msg.sdp "conf"

def reInviter (cs : CallState) (msg : SipMessage) : Str :=
  if asksConference msg then cs.callerImpu else msg.sipFrom

/-- What the code leaves unchecked goes well: no barred caller starts a call, a re-INVITE of a
stored call sets off no INVITE from or to a barred identity, and no party of an INVITE is barred
between its check and its forwarding. -/
def PartiesUnbarred (_ : List Event) (s : State) : Input → Prop
  | .receive msg =>
    msg.type = .invite →
      (s.node.calls.lookup msg.callId = none → invokeMtas s.node msg.sipTo →
        msg.sipFrom ∉ s.node.barred) ∧
      ∀ cs ∈ s.node.calls.lookup msg.callId, (asksConference msg → msg.sipTo ≠ []) →
        reInviter cs msg ∉ s.node.barred ∧ msg.sipTo ∉ s.node.barred
  | .setBarred impu true => ∀ msg ∈ s.thread.waiting, impu ≠ msg.sipFrom ∧ impu ≠ msg.sipTo
  | _ => True

theorem handleReInvite_invite_eq {node : ScscfNode} {cs : CallState} {msg out : SipMessage}
    (hout : out ∈ (handleReInvite node cs msg).2) (htype : out.type = .invite) :
    (asksConference msg = false ∧ out = msg) ∨
      (asksConference msg = true ∧ msg.sipTo ≠ [] ∧ out = conferenceInvite cs msg) := by
  have hpair {reason : String} (h : out ∈ [msg,
      sendSipResponse msg .ok200 msg.callId cs.callerImpu cs.calleeImpu reason]) : out = msg := by
    rcases List.mem_cons.mp h with h | h
    · exact h
    · rw [List.mem_singleton.mp h] at htype
      cases htype
  unfold handleReInvite at hout
  dsimp only at hout
  split at hout
  · rename_i hhold
    exact Or.inl ⟨by simp [asksConference, hhold], hpair hout⟩
  split at hout
  · rename_i hhold hconf
    rcases List.mem_append.mp hout with hout | hout
    · split at hout
      · cases hout
      · rename_i hto
        exact Or.inr ⟨by simp [asksConference, hhold, hconf], hto, List.mem_singleton.mp hout⟩
    · rw [List.mem_singleton.mp hout] at htype
      cases htype
  · rename_i hhold hconf
    have hconf : asksConference msg = false := by simp [asksConference, hconf]
    split at hout <;> exact Or.inl ⟨hconf, hpair hout⟩

theorem handleReInvite_invites {node : ScscfNode} {cs : CallState} {msg out : SipMessage}
    (hout : out ∈ (handleReInvite node cs msg).2) (htype : out.type = .invite) :
    (asksConference msg → msg.sipTo ≠ []) ∧ out.sipFrom = reInviter cs msg ∧
      out.sipTo = msg.sipTo := by
  rcases handleReInvite_invite_eq hout htype with ⟨hconf, rfl⟩ | ⟨hconf, hto, rfl⟩
  · simp [reInviter, hconf]
  · simp [reInviter, hconf, hto, conferenceInvite]

theorem scscfHandle_invites {node : ScscfNode} {msg out : SipMessage}
    (hadmits : admits node msg = false) (hout : out ∈ (scscfHandle node msg).2)
    (htype : out.type = .invite) :
    msg.type = .invite ∧ ∃ cs, node.calls.lookup msg.callId = some cs ∧
      out ∈ (handleReInvite node cs msg).2 := by
  have hsame (h : out = msg) (hother : msg.type ≠ .invite) : False := hother (h ▸ htype)
  have hknown (h : out ∈ forwardKnown node msg) : out = msg := by
    unfold forwardKnown at h
    split at h
    · exact List.mem_singleton.mp h
    · cases h
  unfold scscfHandle at hout
  split at hout
  · rw [List.mem_singleton.mp hout] at htype
    cases htype
  · rename_i hinvite
    refine ⟨hinvite, ?_⟩
    unfold handleInvite at hout
    split at hout
    · rename_i cs hcs
      exact ⟨cs, hcs, hout⟩
    · rename_i hnew
      have hmtas : invokeMtas node msg.sipTo = false := by
        simpa [admits, hinvite, hnew] using hadmits
      simp only [hmtas, Bool.false_eq_true, if_false] at hout
      rcases List.mem_cons.mp hout with hout | hout
      · rw [hout] at htype
        cases htype
      · rw [List.mem_singleton.mp hout] at htype
        cases htype
  · rename_i hack
    exact absurd (hknown hout) fun h => hsame h (by rw [hack]; decide)
  · rename_i hok
    exact absurd (List.mem_singleton.mp hout) fun h => hsame h (by rw [hok]; decide)
  · rename_i hbye
    rcases List.mem_cons.mp hout with hout | hout
    · rw [hout] at htype
      cases htype
    · exact absurd (List.mem_singleton.mp hout) fun h => hsame h (by rw [hbye]; decide)
  · rename_i hcancel
    rcases List.mem_append.mp hout with hout | hout
    · exact absurd (hknown hout) fun h => hsame h (by rw [hcancel]; decide)
    · rw [List.mem_singleton.mp hout] at htype
      cases htype
  · cases hout

theorem scscfHandle_invite_cases {node : ScscfNode} {msg out : SipMessage}
    (hout : out ∈ (scscfHandle node msg).2) (htype : out.type = .invite) :
    msg.type = .invite ∧
      (admits node msg = true ∧ out = msg ∨
        ∃ cs, node.calls.lookup msg.callId = some cs ∧
          (asksConference msg = false ∧ out = msg ∨
            asksConference msg = true ∧ msg.sipTo ≠ [] ∧ out = conferenceInvite cs msg)) := by
  cases hadmits : admits node msg with
  | false =>
      obtain ⟨hinvite, cs, hcs, hreInvite⟩ := scscfHandle_invites hadmits hout htype
      exact ⟨hinvite, Or.inr ⟨cs, hcs, handleReInvite_invite_eq hreInvite htype⟩⟩
  | true =>
      simp only [admits, Bool.and_eq_true, decide_eq_true_eq, Option.isNone_iff_eq_none] at hadmits
      obtain ⟨⟨hinvite, hnew⟩, hmtas⟩ := hadmits
      have hresponse {type : SipMsgType} {reason : String} (hother : type ≠ .invite) :
          out ≠ sendSipResponse msg type msg.callId msg.sipFrom msg.sipTo reason := by
        intro h
        rw [h] at htype
        exact hother htype
      rw [scscfHandle, hinvite] at hout
      simp only [handleInvite, hnew, hmtas, if_true, List.mem_cons, List.not_mem_nil,
        or_false] at hout
      refine ⟨hinvite, Or.inl ⟨rfl, ?_⟩⟩
      rcases hout with h | h | h
      · exact absurd h (hresponse (by simp))
      · exact h
      · exact absurd h (hresponse (by simp))

theorem scscfHandle_barred (node : ScscfNode) (msg : SipMessage) :
    (scscfHandle node msg).1.barred = node.barred := by
  have hreInvite (cs : CallState) : (handleReInvite node cs msg).1.barred = node.barred := by
    unfold handleReInvite
    dsimp only
    split
    · rfl
    split
    · rfl
    split <;> rfl
  unfold scscfHandle
  split
  · rfl
  · unfold handleInvite
    split
    · exact hreInvite _
    · dsimp only
      split <;> rfl
  all_goals rfl

/-- The operator's list is the one of the trace, and an INVITE that waits to be forwarded is
allowed. -/
structure Inv (tr : List Event) (s : State) : Prop where
  barred : barredAfter tr = s.node.barred
  obeyed : BarringObeyed tr
  waiting : ∀ msg ∈ s.thread.waiting, msg.sipFrom ∉ s.node.barred ∧ msg.sipTo ∉ s.node.barred

theorem init_inv : Inv [] init where
  barred := rfl
  obeyed := Backed.nil Allowed
  waiting := by
    intro msg hmsg
    cases hmsg

theorem obeyed_sent {tr : List Event} (h : BarringObeyed tr) {out : List SipMessage}
    (hout : ∀ msg ∈ out, msg.type = .invite →
      msg.sipFrom ∉ barredAfter tr ∧ msg.sipTo ∉ barredAfter tr) :
    BarringObeyed (tr ++ out.map .sent) := by
  apply Backed.append h
  intro before e after hsplit
  obtain ⟨sent, rest, rfl, rfl, hrest⟩ := List.map_eq_append_iff.mp hsplit
  obtain ⟨msg, rest, rfl, rfl, _⟩ := List.map_eq_cons_iff.mp hrest
  intro htype
  rw [barredAfter_sent]
  exact hout msg (List.mem_append_right sent List.mem_cons_self) htype

theorem receive_inv {tr : List Event} {s s' : State} {msg : SipMessage} {es : List Event}
    (hinv : Inv tr s) (hguard : PartiesUnbarred tr s (.receive msg))
    (h : step s (.receive msg) = some (s', es)) : Inv (tr ++ es) s' := by
  simp only [step] at h
  split at h
  · cases h
  rename_i hreceiving
  split at h
  · rename_i hadmits
    simp only [admits, Bool.and_eq_true, decide_eq_true_eq, Option.isNone_iff_eq_none] at hadmits
    obtain ⟨⟨htype, hnew⟩, hmtas⟩ := hadmits
    obtain ⟨rfl, rfl⟩ := Prod.ext_iff.mp (Option.some.inj h)
    have hfrom : msg.sipFrom ∉ s.node.barred := (hguard htype).1 hnew hmtas
    have hto : msg.sipTo ∉ s.node.barred := by simpa [invokeMtas] using hmtas
    constructor
    · exact (barredAfter_snoc tr _).trans hinv.barred
    · apply Backed.snoc hinv.obeyed
      intro htrying
      cases htrying
    · intro waiting hwaiting
      obtain rfl : msg = waiting := Option.some.inj hwaiting
      exact ⟨hfrom, hto⟩
  · rename_i hadmits
    obtain ⟨rfl, rfl⟩ := Prod.ext_iff.mp (Option.some.inj h)
    have hsame := scscfHandle_barred s.node msg
    constructor
    · rw [barredAfter_sent, hinv.barred]
      exact hsame.symm
    · apply obeyed_sent hinv.obeyed
      intro out hout htype
      obtain ⟨hinvite, cs, hcs, hout⟩ :=
        scscfHandle_invites (Bool.eq_false_iff.mpr hadmits) hout htype
      obtain ⟨hconf, hfrom, hto⟩ := handleReInvite_invites hout htype
      rw [hinv.barred, hfrom, hto]
      exact (hguard hinvite).2 cs hcs hconf
    · intro waiting hwaiting
      rw [show s.thread = .receiving from hreceiving] at hwaiting
      cases hwaiting

theorem forward_inv {tr : List Event} {s s' : State} {es : List Event} (hinv : Inv tr s)
    (h : step s .forward = some (s', es)) : Inv (tr ++ es) s' := by
  simp only [step] at h
  split at h
  · cases h
  rename_i msg hadmitted
  obtain ⟨rfl, rfl⟩ := Prod.ext_iff.mp (Option.some.inj h)
  have hparties := hinv.waiting msg (by rw [hadmitted]; rfl)
  let progress := sendSipResponse msg .progress183 msg.callId msg.sipFrom msg.sipTo "INVITE"
  have hsent : BarringObeyed (tr ++ [msg, progress].map .sent) := by
    apply obeyed_sent hinv.obeyed
    intro out hout htype
    rcases List.mem_cons.mp hout with rfl | hout
    · rw [hinv.barred]
      exact hparties
    · rw [List.mem_singleton.mp hout] at htype
      cases htype
  constructor
  · exact (barredAfter_sent tr [msg, progress]).trans hinv.barred
  · exact hsent
  · intro waiting hwaiting
    cases hwaiting

theorem setBarred_inv {tr : List Event} {s s' : State} {impu : Str} {barred : Bool}
    {es : List Event} (hinv : Inv tr s) (hguard : PartiesUnbarred tr s (.setBarred impu barred))
    (h : step s (.setBarred impu barred) = some (s', es)) : Inv (tr ++ es) s' := by
  cases barred with
  | true =>
      obtain ⟨rfl, rfl⟩ := Prod.ext_iff.mp (Option.some.inj h)
      constructor
      · rw [barredAfter_snoc]
        exact congrArg (insert impu) hinv.barred
      · exact Backed.snoc hinv.obeyed trivial
      · intro msg hmsg
        have hother : impu ≠ msg.sipFrom ∧ impu ≠ msg.sipTo := hguard msg hmsg
        obtain ⟨hfrom, hto⟩ := hinv.waiting msg hmsg
        simp only [Finset.mem_insert, not_or]
        exact ⟨⟨hother.1.symm, hfrom⟩, hother.2.symm, hto⟩
  | false =>
      obtain ⟨rfl, rfl⟩ := Prod.ext_iff.mp (Option.some.inj h)
      constructor
      · rw [barredAfter_snoc]
        exact congrArg (Finset.erase · impu) hinv.barred
      · exact Backed.snoc hinv.obeyed trivial
      · intro msg hmsg
        obtain ⟨hfrom, hto⟩ := hinv.waiting msg hmsg
        exact ⟨fun h => hfrom (Finset.mem_of_mem_erase h), fun h => hto (Finset.mem_of_mem_erase h)⟩

theorem step_inv {tr : List Event} {s s' : State} {i : Input} {es : List Event}
    (hinv : Inv tr s) (hguard : PartiesUnbarred tr s i) (h : step s i = some (s', es)) :
    Inv (tr ++ es) s' := by
  cases i with
  | receive msg => exact receive_inv hinv hguard h
  | forward => exact forward_inv hinv h
  | setBarred impu barred => exact setBarred_inv hinv hguard h

/-- In every run in which the unchecked INVITEs involve no barred identity, the S-CSCF sends no
INVITE from or to an identity that is barred then. -/
theorem barring_obeyed {tr : List Event} {s : State} (hrun : Run step PartiesUnbarred init tr s) :
    BarringObeyed tr := by
  have hinv : Inv tr s := by
    refine hrun.invariant init_inv ?_
    intro tr s i s' es hinv hguard hstep
    exact step_inv hinv hguard hstep
  exact hinv.obeyed

instance PartiesUnbarred.decidable (tr : List Event) (s : State) :
    (i : Input) → Decidable (PartiesUnbarred tr s i)
  | .receive msg => inferInstanceAs (Decidable (msg.type = .invite → _ ∧ ∀ cs ∈ _, _ → _))
  | .setBarred _ true => inferInstanceAs (Decidable (∀ msg ∈ s.thread.waiting, _))
  | .setBarred _ false => .isTrue trivial
  | .forward => .isTrue trivial

def phoneA : Str := (ueConfigs .a).impu

def phoneB : Str := (ueConfigs .b).impu

def phoneC : Str := (ueConfigs .c).impu

def call (caller callee : Str) : SipMessage :=
  { type := .invite, callId := lit "call", sipFrom := caller, sipTo := callee }

/-- With C barred, a call to C is declined and a call to B goes through. -/
theorem other_calls_forwarded :
    ∃ tr s, Run step PartiesUnbarred init tr s ∧ .barred phoneC ∈ tr ∧
      .sent (call phoneA phoneB) ∈ tr ∧ BarringObeyed tr := by
  have hexec : (exec step init [.setBarred phoneC true, .receive (call phoneA phoneC),
      .receive (call phoneA phoneB), .forward]).map
      (fun p => decide (.barred phoneC ∈ p.2 ∧ .sent (call phoneA phoneB) ∈ p.2)) = some true := by
    decide +kernel
  obtain ⟨tr, s, hrun, hmem⟩ :=
    exists_run_of_exec (P := PartiesUnbarred) _ (by decide +kernel) hexec
  obtain ⟨hbarred, hcall⟩ := of_decide_eq_true hmem
  exact ⟨tr, s, hrun, hbarred, hcall, barring_obeyed hrun⟩

/-- A barred phone calls an unbarred one, and the S-CSCF forwards its INVITE. -/
theorem barred_caller_forwarded : ¬∀ tr s, Reach step init tr s → BarringObeyed tr := by
  intro h
  have hexec : (exec step init [.setBarred phoneA true, .receive (call phoneA phoneB),
      .forward]).map (fun p => (p.2.take 2, p.2[2]?)) =
      some ([.barred phoneA, .sent (sendSipResponse (call phoneA phoneB) .trying100 (lit "call")
        phoneA phoneB "INVITE")], some (.sent (call phoneA phoneB))) := by decide +kernel
  obtain ⟨tr, s, hrun, hsent⟩ := exists_reach_of_exec hexec
  obtain ⟨hbefore, hnext⟩ := Prod.ext_iff.mp hsent
  obtain ⟨hlength, hget⟩ := List.getElem?_eq_some_iff.mp hnext
  have hsplit : tr = tr.take 2 ++ .sent (call phoneA phoneB) :: tr.drop 3 := by
    rw [← hget, ← List.drop_eq_getElem_cons hlength, List.take_append_drop]
  have hallowed := h tr s hrun _ _ _ hsplit rfl
  rw [show tr.take 2 = _ from hbefore] at hallowed
  exact hallowed.1 (by decide +kernel)

end MobileCore.CallBarring
