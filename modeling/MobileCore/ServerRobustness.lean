import MobileCore.AccessManagement
import MobileCore.FunctionRepository

/-!
# What a peer can do to the SBI servers

Each server reads a connection to its end and handles what it finds. None of them catches an
exception of its own conversions, so one that throws ends the process.
-/

namespace MobileCore.ServerRobustness

open CppText HttpConnections WireJson
open AccessManagement (Input SmfAnswer UdmAnswer handleFrame)
open SessionManagement (handleOne isCreate pduSessionId)
open SimplifiedAka (Plmn)

def serveNrf (room : Nat) (s : FunctionRepository.State) (stream : Str) :
    FunctionRepository.State × List FunctionRepository.Event :=
  match httpRecv room stream with
  | .closed => (s, [])
  | .thrown => (s, [.crashed])
  | .message req => FunctionRepository.handleRequest s req

def serveSmf (room : Nat) (s : SessionManagement.State) (stream : Str) :
    SessionManagement.State × List SessionManagement.Event :=
  match httpRecv room stream with
  | .closed => (s, [])
  | .thrown => ({ s with alive := false }, [.crashed])
  | .message req => handleOne s req

/-- What the fault injector, the UDM and the SMF do while a frame is handled. -/
structure Environment where
  chaosDrop : Bool
  udm : UdmAnswer
  smf : SmfAnswer

def amfInputs (env : Nat → Environment) (stream : Str) : List Input :=
  (n2Frames stream.length stream).mapIdx fun k text =>
    { text, chaosDrop := (env k).chaosDrop, udm := (env k).udm, smf := (env k).smf }

/-- The frames of one N2 connection, up to one that ends the process. -/
def serveAmf (plmn : Plmn) (s : AccessManagement.State) :
    List Input → AccessManagement.State × List AccessManagement.Event
  | [] => (s, [])
  | i :: rest =>
    let r := handleFrame plmn s i
    if .crashed ∈ r.2 then r
    else
      let r' := serveAmf plmn r.1 rest
      (r'.1, r.2 ++ r'.2)

/-- No exception gets out, and the profiles change only with an accepted registration. -/
def NrfRobust (room : Nat) (s : FunctionRepository.State) (stream : Str) : Prop :=
  .crashed ∉ (serveNrf room s stream).2 ∧
    ((∀ text, .registered text ∉ (serveNrf room s stream).2) → (serveNrf room s stream).1 = s)

def SmfRobust (room : Nat) (s : SessionManagement.State) (stream : Str) : Prop :=
  .crashed ∉ (serveSmf room s stream).2 ∧
    ((∀ location body text, .created location body text ∉ (serveSmf room s stream).2) →
      (serveSmf room s stream).1 = s)

/-- A frame that is not answered with an authentication request leaves the UE contexts alone. -/
def AmfRobust (plmn : Plmn) (s : AccessManagement.State) (inputs : List Input) : Prop :=
  .crashed ∉ (serveAmf plmn s inputs).2 ∧
    ∀ before i after, inputs = before ++ i :: after →
      let s' := (serveAmf plmn s before).1
      (∀ ueId complete body text,
        .authenticationRequest ueId complete body text ∉ (handleFrame plmn s' i).2) →
        (handleFrame plmn s' i).1.ctx = s'.ctx

/-- Every conversion that the NRF makes of a stream succeeds. -/
def NrfConverts (room : Nat) (stream : Str) : Prop :=
  LengthReads room stream ∧
    ∀ req, httpRecv room stream = .message req → FunctionRepository.isRegister req = true →
      (stoi (get req.body (lit "port"))).isSome

def SmfConverts (room : Nat) (stream : Str) : Prop :=
  LengthReads room stream ∧
    ∀ req, httpRecv room stream = .message req → isCreate req = true → (pduSessionId req).isSome

def answers : UdmAnswer → Bool
  | .received _ _ => true
  | _ => false

/-- Every conversion of a frame succeeds, and the UDM answers where it is asked. -/
def FrameConverts (s : AccessManagement.State) (i : Input) : Prop :=
  let msgType := get i.text (lit "msgType")
  let ueId := stoi (get i.text (lit "ranUeNgapId"))
  if msgType = lit "RegistrationRequest" then
    ueId.isSome = true ∧ (i.chaosDrop = true ∨ answers i.udm = true)
  else if msgType = lit "AuthenticationResponse" then
    ueId.isSome = true ∧ ∀ c, ueId.bind s.ctx.lookup = some c →
      get i.text (lit "resStar") = c.xresStar → answers i.udm = true
  else if msgType = lit "RegistrationComplete" then ueId.isSome = true
  else if msgType = lit "PduSessionRequest" then
    ueId.isSome = true ∧ ((get i.text (lit "pduSessionId")).isEmpty = true ∨
      (stoi (get i.text (lit "pduSessionId"))).isSome = true)
  else True

/-- The frames of a connection convert one after the other. -/
def AmfConverts (plmn : Plmn) (s : AccessManagement.State) : List Input → Prop
  | [] => True
  | i :: rest => FrameConverts s i ∧ AmfConverts plmn (handleFrame plmn s i).1 rest

theorem nrfRobust_iff (room : Nat) (s : FunctionRepository.State) (stream : Str) :
    NrfRobust room s stream ↔ NrfConverts room stream := by
  rw [NrfRobust, NrfConverts, serveNrf]
  cases hrecv : httpRecv room stream with
  | closed =>
      have hreads := lengthReads_of_httpRecv hrecv (by simp)
      simp [hreads]
  | thrown =>
      have hreads := (httpRecv_thrown_iff room stream).mp hrecv
      simp [hreads]
  | message req =>
      have hreads := lengthReads_of_httpRecv hrecv (by simp)
      have hcrashed := FunctionRepository.crashed_handleRequest s req
      have hprofiles := FunctionRepository.profiles_handleRequest s req
      simp only [Received.message.injEq, forall_eq', hreads, true_and]
      rw [hcrashed, and_iff_left hprofiles, not_and, Option.isSome_iff_ne_none]

theorem crashed_handleOne (s : SessionManagement.State) (req : SessionManagement.HttpMessage) :
    .crashed ∈ (handleOne s req).2 ↔ isCreate req = true ∧ pduSessionId req = none := by
  rw [handleOne]
  cases isCreate req with
  | false => simp
  | true => cases pduSessionId req <;> simp

theorem state_handleOne (s : SessionManagement.State) (req : SessionManagement.HttpMessage)
    (halive : .crashed ∉ (handleOne s req).2)
    (hnone : ∀ location body text, .created location body text ∉ (handleOne s req).2) :
    (handleOne s req).1 = s := by
  rw [handleOne] at halive hnone ⊢
  cases hcreate : isCreate req with
  | false => rfl
  | true =>
      cases hpsi : pduSessionId req with
      | none => simp [hcreate, hpsi] at halive
      | some psi =>
          simp only [hcreate, hpsi] at hnone
          exact absurd (List.mem_cons_of_mem _ (List.mem_singleton_self _)) (hnone _ _ _)

theorem smfRobust_iff (room : Nat) (s : SessionManagement.State) (stream : Str) :
    SmfRobust room s stream ↔ SmfConverts room stream := by
  rw [SmfRobust, SmfConverts, serveSmf]
  cases hrecv : httpRecv room stream with
  | closed =>
      have hreads := lengthReads_of_httpRecv hrecv (by simp)
      simp [hreads]
  | thrown =>
      have hreads := (httpRecv_thrown_iff room stream).mp hrecv
      simp [hreads]
  | message req =>
      have hreads := lengthReads_of_httpRecv hrecv (by simp)
      have hcrashed := crashed_handleOne s req
      have hstate := state_handleOne s req
      simp only [Received.message.injEq, forall_eq', hreads, true_and]
      rw [and_iff_left_of_imp hstate, hcrashed, not_and, Option.isSome_iff_ne_none]

theorem crashed_handleRegistrationRequest (plmn : Plmn) (s : AccessManagement.State) (i : Input) :
    .crashed ∉ (AccessManagement.handleRegistrationRequest plmn s i).2 ↔
      (stoi (get i.text (lit "ranUeNgapId"))).isSome ∧
        (i.chaosDrop = true ∨ answers i.udm = true) := by
  rw [AccessManagement.handleRegistrationRequest]
  cases stoi (get i.text (lit "ranUeNgapId")) with
  | none => simp [AccessManagement.crash]
  | some ueId =>
      cases i.chaosDrop with
      | true => simp
      | false =>
          cases i.udm <;> simp [AccessManagement.crash, AccessManagement.callUdm, answers]

theorem crashed_handleAuthResponse (plmn : Plmn) (s : AccessManagement.State) (i : Input) :
    .crashed ∉ (AccessManagement.handleAuthResponse plmn s i).2 ↔
      (stoi (get i.text (lit "ranUeNgapId"))).isSome ∧
        ∀ c, (stoi (get i.text (lit "ranUeNgapId"))).bind s.ctx.lookup = some c →
          get i.text (lit "resStar") = c.xresStar → answers i.udm = true := by
  rw [AccessManagement.handleAuthResponse]
  cases stoi (get i.text (lit "ranUeNgapId")) with
  | none => simp [AccessManagement.crash]
  | some ueId =>
      dsimp only [Option.bind_some]
      cases s.ctx.lookup ueId with
      | none => simp
      | some c =>
          dsimp only
          split
          · rename_i hne
            simp [hne]
          · rename_i heq
            rw [not_not] at heq
            cases i.udm <;> simp [AccessManagement.crash, AccessManagement.callUdm, answers, heq]

theorem crashed_handleRegistrationComplete (s : AccessManagement.State) (i : Input) :
    .crashed ∉ (AccessManagement.handleRegistrationComplete s i).2 ↔
      (stoi (get i.text (lit "ranUeNgapId"))).isSome := by
  rw [AccessManagement.handleRegistrationComplete]
  cases stoi (get i.text (lit "ranUeNgapId")) <;> simp [AccessManagement.crash]

theorem crashed_handlePduSessionRequest (s : AccessManagement.State) (i : Input) :
    .crashed ∉ (AccessManagement.handlePduSessionRequest s i).2 ↔
      (stoi (get i.text (lit "ranUeNgapId"))).isSome ∧
        ((get i.text (lit "pduSessionId")).isEmpty = true ∨
          (stoi (get i.text (lit "pduSessionId"))).isSome) := by
  rw [AccessManagement.handlePduSessionRequest]
  cases stoi (get i.text (lit "ranUeNgapId")) with
  | none => simp [AccessManagement.crash]
  | some ueId =>
      dsimp only
      cases hempty : (get i.text (lit "pduSessionId")).isEmpty with
      | true => cases i.smf <;> simp [AccessManagement.callSmf]
      | false =>
          cases stoi (get i.text (lit "pduSessionId")) with
          | none => simp [AccessManagement.crash]
          | some pduSessId => cases i.smf <;> simp [AccessManagement.callSmf]

theorem crashed_handleFrame (plmn : Plmn) (s : AccessManagement.State) (i : Input) :
    .crashed ∉ (handleFrame plmn s i).2 ↔ FrameConverts s i := by
  rw [handleFrame, FrameConverts]
  split
  · exact crashed_handleRegistrationRequest plmn s i
  · split
    · exact crashed_handleAuthResponse plmn s i
    · split
      · exact crashed_handleRegistrationComplete s i
      · split
        · exact crashed_handlePduSessionRequest s i
        · simp

theorem ctx_handleFrame (plmn : Plmn) (s : AccessManagement.State) (i : Input)
    (h : ∀ ueId complete body text,
      .authenticationRequest ueId complete body text ∉ (handleFrame plmn s i).2) :
    (handleFrame plmn s i).1.ctx = s.ctx := by
  rw [handleFrame] at h ⊢
  split
  · rename_i hregistration
    rw [if_pos hregistration, AccessManagement.handleRegistrationRequest] at h
    rw [AccessManagement.handleRegistrationRequest]
    cases hueId : stoi (get i.text (lit "ranUeNgapId")) with
    | none => rfl
    | some ueId =>
        cases hdrop : i.chaosDrop with
        | true => rfl
        | false =>
            cases hudm : i.udm with
            | unreachable => rfl
            | malformed => rfl
            | received complete body =>
                simp only [hueId, hdrop, hudm, AccessManagement.callUdm] at h
                exact absurd (List.mem_cons_of_mem _ (List.mem_singleton_self _)) (h _ _ _ _)
  · split
    · rw [AccessManagement.handleAuthResponse]
      cases stoi (get i.text (lit "ranUeNgapId")) with
      | none => rfl
      | some ueId =>
          dsimp only
          cases s.ctx.lookup ueId with
          | none => rfl
          | some c =>
              dsimp only
              split
              · rfl
              · cases i.udm <;> rfl
    · split
      · rw [AccessManagement.handleRegistrationComplete]
        cases stoi (get i.text (lit "ranUeNgapId")) <;> rfl
      · split
        · rw [AccessManagement.handlePduSessionRequest]
          cases stoi (get i.text (lit "ranUeNgapId")) with
          | none => rfl
          | some ueId =>
              dsimp only
              split <;> rfl
        · rfl

theorem crashed_serveAmf (plmn : Plmn) (s : AccessManagement.State) (inputs : List Input) :
    .crashed ∉ (serveAmf plmn s inputs).2 ↔ AmfConverts plmn s inputs := by
  induction inputs generalizing s with
  | nil => simp [serveAmf, AmfConverts]
  | cons i rest ih =>
      have hframe := crashed_handleFrame plmn s i
      rw [serveAmf, AmfConverts, ← hframe, ← ih (handleFrame plmn s i).1]
      dsimp only
      split
      · rename_i hcrashed
        exact iff_of_false (not_not_intro hcrashed) fun h => h.1 hcrashed
      · rename_i halive
        rw [List.mem_append, not_or]

theorem amfRobust_iff (plmn : Plmn) (s : AccessManagement.State) (inputs : List Input) :
    AmfRobust plmn s inputs ↔ AmfConverts plmn s inputs := by
  rw [AmfRobust, ← crashed_serveAmf plmn s inputs]
  apply and_iff_left
  intro before i after hsplit
  exact ctx_handleFrame plmn _ i

/-- The servers withstand a stream exactly when all their conversions of it succeed. -/
theorem servers_robust_iff (room : Nat) (plmn : Plmn) (nrf : FunctionRepository.State)
    (smf : SessionManagement.State) (amf : AccessManagement.State) (stream : Str)
    (env : Nat → Environment) :
    (NrfRobust room nrf stream ↔ NrfConverts room stream) ∧
      (SmfRobust room smf stream ↔ SmfConverts room stream) ∧
      (AmfRobust plmn amf (amfInputs env stream) ↔
        AmfConverts plmn amf (amfInputs env stream)) :=
  ⟨nrfRobust_iff room nrf stream, smfRobust_iff room smf stream,
    amfRobust_iff plmn amf (amfInputs env stream)⟩

/-- A registration without a port ends the NRF. -/
theorem not_nrfRobust_portless :
    ¬ ∀ room s stream, NrfRobust room s stream := by
  intro h
  have hrobust := h 65536 {} (lit
    "PUT /nnrf-nfm/v1/nf-instances/x HTTP/1.1\r\nContent-Length: 2\r\n\r\n\x7b\x7d")
  exact hrobust.1 (by decide +kernel)

end MobileCore.ServerRobustness
