import MobileCore.AddressAllocation
import MobileCore.RegistrationAuthentication

/-!
# Who gets a PDU Session Accept

The AMF keeps no record of who is registered: a context is what the UE's last challenge left, and a
session request is accepted with it, without it, and whatever became of the challenge.
-/

namespace MobileCore.SessionAcceptance

open MobileCore.AccessManagement
open MobileCore.AddressAllocation (acceptText)
open MobileCore.CppText
open MobileCore.LabelledRuns
open MobileCore.LastWrite
open MobileCore.RegistrationAuthentication (challenges concerns)
open MobileCore.SimplifiedAka
open MobileCore.WireJson

/-- The UE that a session is accepted for, as the gNB reads it. -/
def sessionUe : Event → Option Int
  | .pduSessionAccept text => stoi (get text (lit "ranUeNgapId"))
  | _ => none

/-- Every session is accepted for a UE whose last challenge or accept is an accept. -/
def SessionsRegistered : List Event → Prop :=
  Backed fun before e => ∀ ueId, sessionUe e = some ueId →
    ∃ resStar text, lastWhere (concerns ueId) before = some (.registrationAccept ueId resStar text)

/-- The UE and the session of a PDU Session Request whose ids `stoi` reads. -/
def sessionIds (text : Str) : Option (Int × Int) :=
  if get text (lit "msgType") = lit "PduSessionRequest" then
    match stoi (get text (lit "ranUeNgapId")),
      if (get text (lit "pduSessionId")).isEmpty then some 1
      else stoi (get text (lit "pduSessionId")) with
    | some ueId, some psi => some (ueId, psi)
    | _, _ => none
  else none

/-- The SUPI in the answer of the UDM that a challenge was made of. -/
def challengeSupi : Event → Str
  | .authenticationRequest _ _ body _ => get body (lit "supi")
  | _ => []

/-- The SUPI of the UE's last challenge; of a UE without one, an IMSI made of its id. -/
def sessionSupi (tr : List Event) (ueId : Int) : Str :=
  match lastWhere (challenges ueId) tr with
  | some e => challengeSupi e
  | none => lit "imsi-404100000000" ++ intText ueId

/-- The call of the SMF and the accept, for any history. -/
def sessionAnswer (tr : List Event) (i : Input) (ueId psi : Int) : List Event :=
  let dnn := get i.text (lit "dnn")
  let call := callSmf (sessionSupi tr ueId) psi dnn i.smf
  call.1 ++
    [.pduSessionAccept (acceptText ueId psi
      (if call.2.isEmpty then lit "10.45.0.2" else call.2) dnn)]

def accepts : Event → Bool
  | .pduSessionAccept _ => true
  | _ => false

/-- A context holds the SUPI of its UE's last challenge, and is there when there was one. -/
def ContextsCurrent (tr : List Event) (s : State) : Prop :=
  ∀ ueId, (s.ctx.lookup ueId).map UeContext.supi = (lastWhere (challenges ueId) tr).map challengeSupi

/-- What a handler does to the contexts: nothing, or the write that goes with its challenge. -/
inductive Contexts (s s' : State) (es : List Event) : Prop
  | kept (hctx : s'.ctx = s.ctx) (hquiet : ∀ ueId, ∀ e ∈ es, challenges ueId e = false)
  | challenged (ueId : Int) (complete : Bool) (body text : Str) (c : UeContext) (sent : List Event)
      (hctx : s'.ctx = s.ctx.insert ueId c) (hsupi : c.supi = get body (lit "supi"))
      (hevents : es = sent ++ [.authenticationRequest ueId complete body text])
      (hquiet : ∀ ueId, ∀ e ∈ sent, challenges ueId e = false)

theorem contexts_inv {tr es : List Event} {s s' : State} (hinv : ContextsCurrent tr s)
    (h : Contexts s s' es) : ContextsCurrent (tr ++ es) s' := by
  intro u
  cases h with
  | kept hctx hquiet =>
      rw [hctx, lastWhere_append_of_forall tr (hquiet u)]
      exact hinv u
  | challenged ueId complete body text c sent hctx hsupi hevents hquiet =>
      rw [hctx, hevents, ← List.append_assoc, lastWhere_snoc]
      rcases eq_or_ne u ueId with rfl | hne
      · rw [AList.lookup_insert, if_pos (by simp [challenges])]
        exact congrArg some hsupi
      · have hother : ¬challenges u (.authenticationRequest ueId complete body text) = true := by
          simpa [challenges] using hne.symm
        rw [AList.lookup_insert_ne hne, if_neg hother, lastWhere_append_of_forall tr (hquiet u)]
        exact hinv u

/-- The messages of a handler that neither challenge a UE nor accept a session. -/
def Plain (es : List Event) : Prop :=
  (∀ ueId, ∀ e ∈ es, challenges ueId e = false) ∧ ∀ e ∈ es, accepts e = false

theorem plain_nil : Plain [] := ⟨by simp, by simp⟩

theorem plain_append {es es' : List Event} (h : Plain es) (h' : Plain es') : Plain (es ++ es') := by
  constructor
  · intro ueId e he
    rcases List.mem_append.mp he with he | he
    · exact h.1 ueId e he
    · exact h'.1 ueId e he
  · intro e he
    rcases List.mem_append.mp he with he | he
    · exact h.2 e he
    · exact h'.2 e he

theorem crash_plain (s : State) {sent : List Event} (h : Plain sent) : Plain (crash s sent).2 :=
  plain_append h ⟨by simp [challenges], by simp [accepts]⟩

theorem callUdm_plain {req : Str} {answer : UdmAnswer} {sent : List Event}
    {result : Option (Bool × Str)} (hcall : callUdm req answer = (sent, result)) : Plain sent := by
  obtain rfl : (callUdm req answer).1 = sent := congrArg Prod.fst hcall
  cases answer with
  | unreachable => exact plain_nil
  | malformed => exact ⟨by simp [callUdm, challenges], by simp [callUdm, accepts]⟩
  | received complete body => exact ⟨by simp [callUdm, challenges], by simp [callUdm, accepts]⟩

theorem handleRegistrationRequest_contexts (plmn : Plmn) (s : State) (i : Input) :
    Contexts s (handleRegistrationRequest plmn s i).1 (handleRegistrationRequest plmn s i).2 ∧
      ∀ e ∈ (handleRegistrationRequest plmn s i).2, accepts e = false := by
  unfold handleRegistrationRequest
  split
  · have hplain := crash_plain s plain_nil
    exact ⟨.kept rfl hplain.1, hplain.2⟩
  rename_i ueId _
  dsimp only
  split
  · exact ⟨.kept rfl (by simp [challenges]), by simp [accepts]⟩
  split
  · rename_i sent hcall
    have hplain := crash_plain s (callUdm_plain hcall)
    exact ⟨.kept rfl hplain.1, hplain.2⟩
  · rename_i sent complete body hcall
    have hplain := callUdm_plain hcall
    constructor
    · exact .challenged ueId complete body _ _ sent rfl rfl rfl hplain.1
    · intro e he
      rcases List.mem_append.mp he with he | he
      · exact hplain.2 e he
      · rw [List.mem_singleton.mp he]
        rfl

theorem handleAuthResponse_plain (plmn : Plmn) (s : State) (i : Input) :
    (handleAuthResponse plmn s i).1.ctx = s.ctx ∧ Plain (handleAuthResponse plmn s i).2 := by
  unfold handleAuthResponse
  split
  · exact ⟨rfl, crash_plain s plain_nil⟩
  dsimp only
  split
  · exact ⟨rfl, plain_nil⟩
  split
  · exact ⟨rfl, by simp [challenges], by simp [accepts]⟩
  split
  · rename_i sent hcall
    exact ⟨rfl, crash_plain s (callUdm_plain hcall)⟩
  · rename_i sent answer hcall
    exact ⟨rfl, plain_append (callUdm_plain hcall) ⟨by simp [challenges], by simp [accepts]⟩⟩

theorem handleRegistrationComplete_plain (s : State) (i : Input) :
    (handleRegistrationComplete s i).1.ctx = s.ctx ∧ Plain (handleRegistrationComplete s i).2 := by
  unfold handleRegistrationComplete
  split
  · exact ⟨rfl, crash_plain s plain_nil⟩
  · exact ⟨rfl, plain_nil⟩

theorem callSmf_plain (supi : Str) (psi : Int) (dnn : Str) (answer : SmfAnswer) :
    Plain (callSmf supi psi dnn answer).1 := by
  cases answer with
  | unreachable => exact plain_nil
  | closed => exact ⟨by simp [callSmf, challenges], by simp [callSmf, accepts]⟩
  | answered body => exact ⟨by simp [callSmf, challenges], by simp [callSmf, accepts]⟩

theorem sessionAnswer_quiet (tr : List Event) (i : Input) (ueId psi u : Int) :
    ∀ e ∈ sessionAnswer tr i ueId psi, challenges u e = false := by
  intro e he
  rcases List.mem_append.mp he with he | he
  · exact (callSmf_plain _ _ _ _).1 u e he
  · rw [List.mem_singleton.mp he]
    rfl

theorem supi_of_contexts {tr : List Event} {s : State} (hinv : ContextsCurrent tr s) (ueId : Int) :
    (match s.ctx.lookup ueId with
      | some c => c.supi
      | none => lit "imsi-404100000000" ++ intText ueId) = sessionSupi tr ueId := by
  have hctx := hinv ueId
  unfold sessionSupi
  cases hc : s.ctx.lookup ueId with
  | none =>
      rw [hc] at hctx
      rw [Option.map_eq_none_iff.mp hctx.symm]
  | some c =>
      rw [hc] at hctx
      obtain ⟨e, he, hsupi⟩ := Option.map_eq_some_iff.mp hctx.symm
      rw [he]
      exact hsupi.symm

theorem handlePduSessionRequest_some {tr : List Event} {s : State} (hinv : ContextsCurrent tr s)
    {i : Input} {ueId psi : Int} (hids : sessionIds i.text = some (ueId, psi)) :
    handlePduSessionRequest s i = (s, sessionAnswer tr i ueId psi) := by
  unfold sessionIds at hids
  split at hids
  · split at hids
    · rename_i ueId' psi' hue hpsi
      obtain ⟨rfl, rfl⟩ := Prod.mk.inj (Option.some.inj hids)
      rw [handlePduSessionRequest]
      simp only [hue]
      split
      · rename_i hnone
        cases hpsi.symm.trans hnone
      · rename_i psi hsome
        obtain rfl := Option.some.inj (hpsi.symm.trans hsome)
        unfold sessionAnswer
        rw [← supi_of_contexts hinv ueId']
        rfl
    · cases hids
  · cases hids

theorem handlePduSessionRequest_none {s : State} {i : Input} (hids : sessionIds i.text = none)
    (hmsg : get i.text (lit "msgType") = lit "PduSessionRequest") :
    (handlePduSessionRequest s i).1.ctx = s.ctx ∧ Plain (handlePduSessionRequest s i).2 := by
  have hcrash : Plain (crash s []).2 := crash_plain s plain_nil
  unfold sessionIds at hids
  rw [if_pos hmsg] at hids
  unfold handlePduSessionRequest
  split
  · exact ⟨rfl, hcrash⟩
  · rename_i ueId hue
    dsimp only
    split
    · exact ⟨rfl, hcrash⟩
    · rename_i psi hpsi
      simp only [hue] at hids
      split at hids
      · cases hids
      · rename_i hneither
        exact (hneither ueId psi rfl hpsi).elim

/-- What the handling of a frame does, with the history that made the contexts. -/
theorem handleFrame_session (plmn : Plmn) {tr : List Event} {s : State}
    (hinv : ContextsCurrent tr s) (i : Input) :
    Contexts s (handleFrame plmn s i).1 (handleFrame plmn s i).2 ∧
      match sessionIds i.text with
      | some (ueId, psi) => (handleFrame plmn s i).2 = sessionAnswer tr i ueId psi
      | none => ∀ e ∈ (handleFrame plmn s i).2, accepts e = false := by
  have hother (h : get i.text (lit "msgType") ≠ lit "PduSessionRequest") :
      sessionIds i.text = none := if_neg h
  unfold handleFrame
  dsimp only
  split
  · rename_i hmsg
    rw [hother (by rw [hmsg]; decide)]
    exact handleRegistrationRequest_contexts plmn s i
  split
  · rename_i hmsg
    rw [hother (by rw [hmsg]; decide)]
    obtain ⟨hctx, hplain⟩ := handleAuthResponse_plain plmn s i
    exact ⟨.kept hctx hplain.1, hplain.2⟩
  split
  · rename_i hmsg
    rw [hother (by rw [hmsg]; decide)]
    obtain ⟨hctx, hplain⟩ := handleRegistrationComplete_plain s i
    exact ⟨.kept hctx hplain.1, hplain.2⟩
  split
  · rename_i hmsg
    cases hids : sessionIds i.text with
    | none =>
        obtain ⟨hctx, hplain⟩ := handlePduSessionRequest_none (s := s) hids hmsg
        exact ⟨.kept hctx hplain.1, hplain.2⟩
    | some ids =>
        obtain ⟨ueId, psi⟩ := ids
        rw [handlePduSessionRequest_some hinv hids]
        exact ⟨.kept rfl (sessionAnswer_quiet tr i ueId psi), rfl⟩
  · rename_i hmsg
    rw [hother hmsg]
    exact ⟨.kept rfl plain_nil.1, plain_nil.2⟩

theorem contextsCurrent_of_reach {plmn : Plmn} {tr : List Event} {s : State}
    (hrun : Reach (step plmn) init tr s) : ContextsCurrent tr s := by
  refine Run.invariant (M := step plmn) (I := ContextsCurrent) ?_ ?_ hrun
  · intro ueId
    rfl
  · intro tr s i s' es hinv _ hstep
    simp only [step] at hstep
    split at hstep
    · obtain ⟨rfl, rfl⟩ := Prod.ext_iff.mp (Option.some.inj hstep)
      exact contexts_inv hinv (handleFrame_session plmn hinv i).1
    · cases hstep

/-- In every reachable state a PDU Session Request whose ids can be read is accepted, for the SUPI
of the UE's last challenge or a made-up one, and nothing else is. -/
theorem sessions_accepted (plmn : Plmn) {tr es : List Event} {s s' : State} {i : Input}
    (hrun : Reach (step plmn) init tr s) (hstep : step plmn s i = some (s', es)) :
    match sessionIds i.text with
    | some (ueId, psi) => es = sessionAnswer tr i ueId psi
    | none => ∀ e ∈ es, accepts e = false := by
  simp only [step] at hstep
  split at hstep
  · obtain ⟨rfl, rfl⟩ := Prod.ext_iff.mp (Option.some.inj hstep)
    exact (handleFrame_session plmn (contextsCurrent_of_reach hrun) i).2
  · cases hstep

def sessionRequest : Input :=
  { text := obj [(lit "msgType", str (lit "PduSessionRequest")), (lit "ranUeNgapId", num 7)] }

def registrationRequest : Input :=
  { text := obj [(lit "msgType", str (lit "RegistrationRequest")), (lit "ranUeNgapId", num 7),
      (lit "suci", str (suci {} 1))],
    udm := .received true (obj [(lit "supi", str (lit "imsi-404100000000001"))]) }

/-- A UE with an unanswered challenge: its session is asked for under the SUPI of the challenge. -/
theorem challenged_session_accepted :
    ∃ tr s s' es, Reach (step {}) init tr s ∧ step {} s sessionRequest = some (s', es) ∧
      sessionSupi tr 7 = lit "imsi-404100000000001" ∧
      es = sessionAnswer tr sessionRequest 7 1 := by
  have hexec : (exec (step {}) init [registrationRequest]).map
      (fun r => (sessionSupi r.2 7, (step {} r.1 sessionRequest).isSome)) =
      some (lit "imsi-404100000000001", true) := by decide +kernel
  obtain ⟨tr, s, hrun, hpair⟩ := exists_reach_of_exec hexec
  obtain ⟨hsupi, hsome⟩ := Prod.mk.inj hpair
  obtain ⟨⟨s', es⟩, hstep⟩ := Option.isSome_iff_exists.mp hsome
  have hids : sessionIds sessionRequest.text = some (7, 1) := by decide +kernel
  have haccepted := sessions_accepted {} hrun hstep
  rw [hids] at haccepted
  exact ⟨tr, s, s', es, hrun, hstep, hsupi, haccepted⟩

/-- The first message is the session request of a UE that never registered. -/
theorem unregistered_session_accepted :
    ¬∀ plmn tr s, Reach (step plmn) init tr s → SessionsRegistered tr := by
  intro h
  have hexec : (exec (step {}) init [sessionRequest]).map (fun r => r.2.map sessionUe) =
      some [some 7] := by decide +kernel
  obtain ⟨tr, s, hrun, hue⟩ := exists_reach_of_exec hexec
  obtain ⟨e, rest, htr, hseven, _⟩ := List.map_eq_cons_iff.mp hue
  obtain ⟨_, _, hlast⟩ := h {} tr s hrun [] e rest htr 7 hseven
  cases hlast

end MobileCore.SessionAcceptance
