import MobileCore.AddressAllocation
import MobileCore.UnifiedDataManagement
import Mathlib.Data.List.TakeWhile

/-!
# The procedures of the 5G core

The gNB runs one procedure at a time over its N2 connection. The AMF reads the frames in order and
asks the UDM and the SMF while it handles one.
-/

namespace MobileCore.CoreProcedures

open AddressAllocation (N2Frame acceptText addresses smfRequestOf)
open AccessManagement (UdmAnswer guti handleFrame)
open CppText FlatObjects LabelledRuns LastWrite SessionManagement SimplifiedAka
open SubscriptionIdentifiers UnifiedDataManagement WireJson

inductive Slice where
  | embb
  | urllc
deriving DecidableEq

inductive Procedure where
  | registration (ueId : Int)
  | session (ueId pduSessId : Int)
deriving DecidableEq

/-- Where the gNB waits: for a command, or in a procedure for a frame of the AMF. -/
inductive Waiting where
  | command
  | challenge (ueId : Int)
  | outcome (ueId : Int)
  | session (ueId pduSessId : Int)
deriving DecidableEq

structure State where
  core : AddressAllocation.State := {}
  up : Bool := true
  gnb : Waiting := .command
  toAmf : List Str := []
  toGnb : List Str := []

inductive Input where
  | reg (ueId : Int) (slice : Slice)
  | pdu (ueId pduSessId : Int) (dnn : Str)
  | amf (chaosDrop : Bool) (draws : Draws)
  | gnb

/-- What the gNB reports of its procedures, the end of the connection, and what the core shows. -/
inductive Event where
  | started (p : Procedure)
  | finished (p : Procedure) (result : Str)
  | failed (p : Procedure)
  | disconnected
  | core (e : AddressAllocation.Event)
deriving DecidableEq

def nssai : Slice → Str
  | .embb => lit "\x7b\"sst\":1,\"sd\":\"000001\"\x7d"
  | .urllc => lit "\x7b\"sst\":2,\"sd\":\"000002\"\x7d"

def registrationRequest (plmn : Plmn) (ueId : Int) (slice : Slice) : Str :=
  obj [(lit "msgType", str (lit "RegistrationRequest")),
    (lit "ranUeNgapId", num ueId),
    (lit "suci", str (suci plmn ueId)),
    (lit "registrationType", str (lit "initial")),
    (lit "requestedNssai", str (nssai slice))]

def authenticationResponse (ueId : Int) (resStar : Str) : Str :=
  obj [(lit "msgType", str (lit "AuthenticationResponse")),
    (lit "ranUeNgapId", num ueId),
    (lit "resStar", str resStar)]

def registrationComplete (ueId : Int) : Str :=
  obj [(lit "msgType", str (lit "RegistrationComplete")), (lit "ranUeNgapId", num ueId)]

def pduSessionRequest (ueId pduSessId : Int) (dnn : Str) : Str :=
  obj [(lit "msgType", str (lit "PduSessionRequest")),
    (lit "ranUeNgapId", num ueId),
    (lit "pduSessionId", num pduSessId),
    (lit "dnn", str dnn),
    (lit "sNssai", str (lit "\x7b\"sst\":1,\"sd\":\"000001\"\x7d"))]

def maxFrame : Nat := 65536

def received (s : State) (text : Str) : Option (State × List Event) :=
  match s.gnb with
  | .command => none
  | .challenge ueId =>
    if get text (lit "msgType") ≠ lit "AuthenticationRequest" then
      some ({ s with gnb := .command }, [.failed (.registration ueId)])
    else
      match resStar (msin ueId) (get text (lit "rand")) with
      | none => some ({ s with gnb := .command, up := false },
          [.failed (.registration ueId), .disconnected])
      | some resStar =>
        some ({ s with
          gnb := .outcome ueId
          toAmf := s.toAmf ++ [authenticationResponse ueId resStar] }, [])
  | .outcome ueId =>
    if get text (lit "msgType") ≠ lit "RegistrationAccept" then
      some ({ s with gnb := .command }, [.failed (.registration ueId)])
    else
      some ({ s with gnb := .command, toAmf := s.toAmf ++ [registrationComplete ueId] },
        [.finished (.registration ueId) (get text (lit "5gGuti"))])
  | .session ueId pduSessId =>
    if get text (lit "msgType") ≠ lit "PduSessionAccept" then
      some ({ s with gnb := .command }, [.failed (.session ueId pduSessId)])
    else
      some ({ s with gnb := .command },
        [.finished (.session ueId pduSessId) (get text (lit "ueIpAddress"))])

def udmRequestOf (plmn : Plmn) (amf : AccessManagement.State) (text : Str) (chaosDrop : Bool) :
    Option Str :=
  (handleFrame plmn amf { text, chaosDrop, udm := .malformed }).2.findSome? fun e =>
    match e with
    | .udmRequest req => some req
    | _ => none

def frame (plmn : Plmn) (amf : AccessManagement.State) (text : Str) (chaosDrop : Bool)
    (draws : Draws) : N2Frame :=
  { text
    chaosDrop
    udm :=
      match udmRequestOf plmn amf text chaosDrop with
      | none => .unreachable
      | some req => answer plmn draws req }

def reply : AddressAllocation.Event → Option Str
  | .amf (.authenticationRequest _ _ _ text) => some text
  | .amf (.registrationAccept _ _ text) => some text
  | .amf (.registrationReject text) => some text
  | .amf (.pduSessionAccept text) => some text
  | _ => none

/-- After the connection has ended there are no more commands. -/
def step (plmn : Plmn) : Machine State Input Event
  | s, .reg ueId slice =>
    if s.up ∧ s.gnb = .command then
      some ({ s with
        gnb := .challenge ueId
        toAmf := s.toAmf ++ [registrationRequest plmn ueId slice] },
        [.started (.registration ueId)])
    else none
  | s, .pdu ueId pduSessId dnn =>
    if s.up ∧ s.gnb = .command then
      some ({ s with
        gnb := .session ueId pduSessId
        toAmf := s.toAmf ++ [pduSessionRequest ueId pduSessId dnn] },
        [.started (.session ueId pduSessId)])
    else none
  | s, .amf chaosDrop draws =>
    match s.toAmf with
    | [] => none
    | text :: rest =>
      if ¬s.up then none
      else if maxFrame < text.length then some ({ s with up := false }, [.disconnected])
      else
        let call := if s.core.smf.alive then .answered else .unreachable
        match AddressAllocation.step plmn s.core
            (.n2 (frame plmn s.core.amf text chaosDrop draws) call) with
        | none => none
        | some (core, es) =>
          some ({ s with
            core
            up := core.amf.alive
            toAmf := rest
            toGnb := s.toGnb ++ es.filterMap reply }, es.map .core)
  | s, .gnb =>
    match s.toGnb with
    | [] => none
    | text :: rest =>
      if maxFrame < text.length then some ({ s with up := false }, [.disconnected])
      else received { s with toGnb := rest } text

def init : State := {}

section Texts

theorem get_msgType {m : Str} (hm : Quoteless m) (kv : List (Str × Str)) :
    get (obj ((lit "msgType", str m) :: kv)) (lit "msgType") = m := by
  rw [get_obj, look_plain kv (by decide) (by decide) (.quoted m hm), if_pos rfl]

theorem get_ranUeNgapId {m : Str} (hm : Quoteless m) (ueId : Int) (kv : List (Str × Str)) :
    get (obj ((lit "msgType", str m) :: (lit "ranUeNgapId", num ueId) :: kv)) (lit "ranUeNgapId") =
      num ueId := by
  rw [get_obj, look_plain _ (by decide) (by decide) (.quoted m hm), if_neg (by decide),
    look_plain _ (by decide) (by decide) (flat_num ueId), if_pos rfl]

theorem get_behind {m k : Str} (hm : Quoteless m) (ueId : Int) (kv : List (Str × Str))
    (hk : Plain k) (htype : lit "msgType" ≠ k) (hue : lit "ranUeNgapId" ≠ k) :
    get (obj ((lit "msgType", str m) :: (lit "ranUeNgapId", num ueId) :: kv)) k = look k kv := by
  rw [get_obj, look_plain _ hk (by decide) (.quoted m hm), if_neg htype,
    look_plain _ hk (by decide) (flat_num ueId), if_neg hue]

theorem takeWhile_quote (value rest : Str) :
    (value ++ 34 :: rest).takeWhile (· != 34) = value.takeWhile (· != 34) := by
  induction value with
  | nil => rfl
  | cons c value ih => rw [List.cons_append, List.takeWhile_cons, List.takeWhile_cons, ih]

/-- A string is read up to its first quote, whatever stands behind it. -/
theorem look_string (k value : Str) (kv : List (Str × Str)) :
    look k ((k, str value) :: kv) = value.takeWhile (· != 34) := by
  have hsplit : members ((k, str value) :: kv) ++ [125] = needle k ++ (str value ++ rest kv) := by
    rw [members_cons, needle]
    simp
  have hstr : str value ++ rest kv = 34 :: (value ++ 34 :: rest kv) := by
    show ([34] ++ value ++ [34]) ++ rest kv = _
    simp
  rw [look, hsplit, needle, behind_front, Option.map_some, Option.getD_some, hstr, token,
    takeWhile_quote]

end Texts

def InRange (n : Int) : Prop := -2 ^ 31 ≤ n ∧ n < 2 ^ 31

instance (n : Int) : Decidable (InRange n) :=
  inferInstanceAs (Decidable (-2 ^ 31 ≤ n ∧ n < 2 ^ 31))

theorem read_num {n : Int} (hn : InRange n) :
    (if (num n).isEmpty then some 1 else stoi (num n)) = some n := by
  have hnonempty : (num n).isEmpty = false := by
    rw [List.isEmpty_eq_false_iff, num]
    cases n with
    | ofNat n => exact natText_ne_nil n
    | negSucc n => exact List.cons_ne_nil _ _
  rw [hnonempty, if_neg Bool.false_ne_true]
  exact stoi_intText hn.1 hn.2

section Frames

variable (net : Network) {amf : AccessManagement.State} {i : AccessManagement.Input}
  {draws : Draws} {ueId : Int}

def authenticationRequest (ueId : Int) (draws : Draws) : Str :=
  obj [(lit "msgType", str (lit "AuthenticationRequest")),
    (lit "ranUeNgapId", num ueId),
    (lit "rand", str (toHex draws.rnd.toList)),
    (lit "autn", str (toHex draws.autn.toList))]

def registrationAccept (plmn : Plmn) (ueId : Int) (nssai : Str) : Str :=
  obj [(lit "msgType", str (lit "RegistrationAccept")),
    (lit "ranUeNgapId", num ueId),
    (lit "5gGuti", str (guti plmn ueId)),
    (lit "allowedNssai", AccessManagement.allowedNssai nssai)]

/-- The answer to a challenge, whatever key it is computed with. -/
def response (draws : Draws) : Str := toHex (xorBytes draws.rnd.toList sharedKey)

def context (plmn : Plmn) (ueId : Int) (draws : Draws) : AccessManagement.UeContext :=
  { suci := suci plmn ueId
    supi := supiFromSuci plmn (suci plmn ueId)
    xresStar := response draws
    nssai := lit "\x7b" }

theorem handleFrame_complete (hrange : InRange ueId) (htext : i.text = registrationComplete ueId) :
    handleFrame net.toPlmn amf i = (amf, []) := by
  have htype : get i.text (lit "msgType") = lit "RegistrationComplete" := by
    rw [htext]
    exact get_msgType (by decide) _
  have hue : stoi (get i.text (lit "ranUeNgapId")) = some ueId := by
    rw [htext, registrationComplete, get_ranUeNgapId (by decide)]
    exact stoi_intText hrange.1 hrange.2
  unfold handleFrame
  dsimp only
  rw [htype, if_neg (by decide), if_neg (by decide), if_pos rfl,
    AccessManagement.handleRegistrationComplete, hue]

/-- The getter takes the requested slice up to the first quote inside it. -/
theorem handleFrame_registration {slice : Slice} (hrange : InRange ueId)
    (htext : i.text = registrationRequest net.toPlmn ueId slice) (hchaos : i.chaosDrop = false) :
    handleFrame net.toPlmn amf i =
      match AccessManagement.callUdm (authDataRequest net.toPlmn (suci net.toPlmn ueId)) i.udm with
      | (sent, none) => AccessManagement.crash amf sent
      | (sent, some (complete, resp)) =>
        ({ amf with
            ctx := amf.ctx.insert ueId
              ⟨suci net.toPlmn ueId, get resp (lit "supi"), get resp (lit "xresStar"), lit "\x7b"⟩ },
          sent ++ [.authenticationRequest ueId complete resp
            (obj [(lit "msgType", str (lit "AuthenticationRequest")),
              (lit "ranUeNgapId", num ueId),
              (lit "rand", str (get resp (lit "rand"))),
              (lit "autn", str (get resp (lit "autn")))])]) := by
  have hsuci := (net.suci_segment ueId).quoteless
  have htype : get i.text (lit "msgType") = lit "RegistrationRequest" := by
    rw [htext]
    exact get_msgType (by decide) _
  have hue : stoi (get i.text (lit "ranUeNgapId")) = some ueId := by
    rw [htext, registrationRequest, get_ranUeNgapId (by decide)]
    exact stoi_intText hrange.1 hrange.2
  have hid : get i.text (lit "suci") = suci net.toPlmn ueId := by
    rw [htext, registrationRequest, get_behind (by decide) _ _ (by decide) (by decide) (by decide),
      look_found _ (by decide) hsuci]
  have hnssai : get i.text (lit "requestedNssai") = lit "\x7b" := by
    rw [htext, registrationRequest, get_behind (by decide) _ _ (by decide) (by decide) (by decide),
      look_pass _ (by decide) (by decide) hsuci (by decide),
      look_pass _ (by decide) (by decide) (by decide) (by decide), look_string]
    cases slice <;> rfl
  unfold handleFrame
  dsimp only
  rw [htype, if_pos rfl, AccessManagement.handleRegistrationRequest, hue]
  dsimp only
  rw [hchaos, if_neg Bool.false_ne_true, hid, hnssai]
  rfl

theorem handleFrame_response {c : AccessManagement.UeContext} (hrange : InRange ueId)
    (hlookup : amf.ctx.lookup ueId = some c) (hres : Quoteless c.xresStar)
    (htext : i.text = authenticationResponse ueId c.xresStar) :
    handleFrame net.toPlmn amf i =
      match AccessManagement.callUdm (amDataRequest net.toPlmn c.supi) i.udm with
      | (sent, none) => AccessManagement.crash amf sent
      | (sent, some _) =>
        (amf, sent ++ [.registrationAccept ueId c.xresStar
          (registrationAccept net.toPlmn ueId c.nssai)]) := by
  have htype : get i.text (lit "msgType") = lit "AuthenticationResponse" := by
    rw [htext]
    exact get_msgType (by decide) _
  have hue : stoi (get i.text (lit "ranUeNgapId")) = some ueId := by
    rw [htext, authenticationResponse, get_ranUeNgapId (by decide)]
    exact stoi_intText hrange.1 hrange.2
  have hresStar : get i.text (lit "resStar") = c.xresStar := by
    rw [htext, authenticationResponse, get_behind (by decide) _ _ (by decide) (by decide) (by decide),
      look_found _ (by decide) hres]
  unfold handleFrame
  dsimp only
  rw [htype, if_neg (by decide), if_pos rfl, AccessManagement.handleAuthResponse, hue]
  dsimp only
  rw [hlookup]
  dsimp only
  rw [hresStar, if_neg (not_not_intro rfl)]
  rfl

def subscriber (amf : AccessManagement.State) (ueId : Int) : Str :=
  match amf.ctx.lookup ueId with
  | some c => c.supi
  | none => lit "imsi-404100000000" ++ intText ueId

theorem handleFrame_session {pduSessId : Int} {dnn : Str} (hrange : InRange ueId)
    (hpsi : InRange pduSessId) (htext : i.text = pduSessionRequest ueId pduSessId dnn) :
    handleFrame net.toPlmn amf i =
      (amf, (AccessManagement.callSmf (subscriber amf ueId) pduSessId (dnn.takeWhile (· != 34))
          i.smf).1 ++
        [.pduSessionAccept (acceptText ueId pduSessId
          (if (AccessManagement.callSmf (subscriber amf ueId) pduSessId (dnn.takeWhile (· != 34))
              i.smf).2.isEmpty then lit "10.45.0.2"
            else (AccessManagement.callSmf (subscriber amf ueId) pduSessId
              (dnn.takeWhile (· != 34)) i.smf).2) (dnn.takeWhile (· != 34)))]) := by
  have htype : get i.text (lit "msgType") = lit "PduSessionRequest" := by
    rw [htext]
    exact get_msgType (by decide) _
  have hue : stoi (get i.text (lit "ranUeNgapId")) = some ueId := by
    rw [htext, pduSessionRequest, get_ranUeNgapId (by decide)]
    exact stoi_intText hrange.1 hrange.2
  have hid : get i.text (lit "pduSessionId") = num pduSessId := by
    rw [htext, pduSessionRequest, get_behind (by decide) _ _ (by decide) (by decide) (by decide),
      look_plain _ (by decide) (by decide) (flat_num pduSessId), if_pos rfl]
  have hdnn : get i.text (lit "dnn") = dnn.takeWhile (· != 34) := by
    rw [htext, pduSessionRequest, get_behind (by decide) _ _ (by decide) (by decide) (by decide),
      look_plain _ (by decide) (by decide) (flat_num pduSessId), if_neg (by decide), look_string]
  unfold handleFrame
  dsimp only
  rw [htype, if_neg (by decide), if_neg (by decide), if_neg (by decide), if_pos rfl,
    AccessManagement.handlePduSessionRequest, hue]
  dsimp only
  rw [hid, read_num hpsi, hdnn]
  rfl

end Frames

section Core

variable {net : Network} {core : AddressAllocation.State} {frame : N2Frame} {ueId : Int}

theorem core_quiet {call : AddressAllocation.SmfCall} {amf : AccessManagement.State}
    {es : List AccessManagement.Event} (halive : core.amf.alive = true)
    (hframe : ∀ smf, handleFrame net.toPlmn core.amf (frame.input smf) = (amf, es))
    (hes : ∀ e ∈ es, AddressAllocation.isSession e = false) :
    AddressAllocation.step net.toPlmn core (.n2 frame call) =
      some ({ core with amf }, es.map .amf) := by
  have hnone : smfRequestOf net.toPlmn core.amf frame = none := by
    apply AddressAllocation.smfRequestOf_sessionless
    intro smf
    rw [hframe]
    exact hes
  rw [AddressAllocation.step, if_neg (not_not_intro halive), hnone]
  dsimp only
  rw [AddressAllocation.amfStep, hframe]

theorem httpRequest_httpBuild {startLine extraHeader : Str} (body : Str)
    (hstart : HttpMessages.Plain startLine) (hextra : HttpMessages.Plain extraHeader) :
    AddressAllocation.httpRequest (httpBuild startLine body extraHeader) = { startLine, body } := by
  have hline : (httpBuild startLine body extraHeader).takeWhile (· != 13) = startLine := by
    have hall : ∀ c ∈ startLine, (c != 13) = true := by
      intro c hc
      rw [bne_iff_ne]
      rintro rfl
      exact hstart.1 hc
    rw [httpBuild_messages, HttpMessages.httpBuild]
    simp only [List.append_assoc]
    rw [List.takeWhile_append_of_pos hall]
    exact List.append_nil startLine
  have hbody : behind (lit "\r\n\r\n") (httpBuild startLine body extraHeader) = some body := by
    have hblank : lit "\r\n\r\n" = HttpConnections.blankLine := rfl
    rw [httpBuild_messages, HttpMessages.httpBuild_eq, behind, hblank, HttpMessages.find_head]
    · rw [Option.map_some, ← List.append_assoc, ← List.length_append, List.drop_left]
    · intro line hline
      rcases List.mem_cons.mp hline with rfl | hline
      · exact hstart.1
      · exact (HttpMessages.plain_headerLines body hextra line hline).1.1
    · exact fun line hline => (HttpMessages.plain_headerLines body hextra line hline).2
  rw [AddressAllocation.httpRequest, hline, hbody, Option.getD_some]

def sessionBody (supi : Str) (pduSessId : Int) (dnn : Str) : Str :=
  obj [(lit "supi", str supi),
    (lit "pduSessionId", num pduSessId),
    (lit "dnn", str (if dnn.isEmpty then lit "internet" else dnn)),
    (lit "snssai", str (lit "\x7b\"sst\":1,\"sd\":\"000001\"\x7d")),
    (lit "servingNssai", str (lit "5G:mnc010.mcc404.3gppnetwork.org")),
    (lit "anType", str (lit "3GPP_ACCESS"))]

theorem pduSessionId_sessionBody {supi dnn : Str} {pduSessId : Int} (hsupi : Quoteless supi)
    (hpsi : InRange pduSessId) (startLine : Str) :
    pduSessionId { startLine, body := sessionBody supi pduSessId dnn } = some pduSessId := by
  have hid : get (sessionBody supi pduSessId dnn) (lit "pduSessionId") = num pduSessId := by
    rw [sessionBody, get_obj, look_pass _ (by decide) (by decide) hsupi (by decide),
      look_plain _ (by decide) (by decide) (flat_num pduSessId), if_pos rfl]
  rw [pduSessionId]
  dsimp only
  rw [hid]
  exact read_num hpsi

def sessionRequest (supi : Str) (pduSessId : Int) (dnn : Str) : Str :=
  httpBuild (lit "POST /nsmf-pdusession/v1/sm-contexts HTTP/1.1") (sessionBody supi pduSessId dnn)
    (lit "Host: smf.5gc.mnc010.mcc404.3gppnetwork.org")

theorem handleOne_session (smf : SessionManagement.State) {supi : Str} {pduSessId : Int} (dnn : Str)
    (hsupi : Quoteless supi) (hpsi : InRange pduSessId) :
    ∃ smf' location body text pkt,
      handleOne smf (AddressAllocation.httpRequest (sessionRequest supi pduSessId dnn)) =
        (smf', [.n4Request pkt, .created location body text]) ∧
      get body (lit "ueIpAddress") = ueIpText smf.ueIpCounter ∧
      smf'.ueIpCounter = smf.ueIpCounter + 1 ∧ smf'.alive = smf.alive := by
  have hread : AddressAllocation.httpRequest (sessionRequest supi pduSessId dnn) =
      { startLine := lit "POST /nsmf-pdusession/v1/sm-contexts HTTP/1.1"
        body := sessionBody supi pduSessId dnn } :=
    httpRequest_httpBuild _ ⟨by decide, by decide⟩ ⟨by decide, by decide⟩
  have hcreate (body : Str) : isCreate
      { startLine := lit "POST /nsmf-pdusession/v1/sm-contexts HTTP/1.1", body } = true := by
    have hline : (find (lit "POST") (lit "POST /nsmf-pdusession/v1/sm-contexts HTTP/1.1")).isSome &&
        (find (lit "sm-contexts") (lit "POST /nsmf-pdusession/v1/sm-contexts HTTP/1.1")).isSome := by
      decide
    exact hline
  rw [hread, handleOne, hcreate, if_neg (by decide), pduSessionId_sessionBody hsupi hpsi]
  exact ⟨_, _, _, _, _, rfl, get_contextBody _ _ _ _ (ueIpText_quoteless _), rfl, rfl⟩

theorem core_session {pduSessId : Int} {dnn : Str} (halive : core.amf.alive = true)
    (hsmf : core.smf.alive = true) (hsupi : Quoteless (subscriber core.amf ueId))
    (hrange : InRange ueId) (hpsi : InRange pduSessId)
    (htext : frame.text = pduSessionRequest ueId pduSessId dnn) :
    ∃ smf es, AddressAllocation.step net.toPlmn core (.n2 frame .answered) =
        some ({ core with smf }, es) ∧
      smf.alive = true ∧ smf.ueIpCounter = core.smf.ueIpCounter + 1 ∧
      es.filterMap reply = [acceptText ueId pduSessId (ueIpText core.smf.ueIpCounter)
        (dnn.takeWhile (· != 34))] ∧
      addresses es = [ueIpText core.smf.ueIpCounter] := by
  have hframe (smf : AccessManagement.SmfAnswer) :=
    @handleFrame_session net core.amf (frame.input smf) ueId pduSessId dnn hrange hpsi htext
  generalize dnn.takeWhile (· != 34) = dnn' at hframe ⊢
  have hrequest : smfRequestOf net.toPlmn core.amf frame =
      some (sessionRequest (subscriber core.amf ueId) pduSessId dnn') := by
    rw [smfRequestOf, hframe]
    rfl
  obtain ⟨smf, location, body, text, pkt, hserved, hbody, hcounter, hkept⟩ :=
    handleOne_session core.smf dnn' hsupi hpsi
  have haddress : (AccessManagement.callSmf (subscriber core.amf ueId) pduSessId dnn'
      (.answered body)).2 = ueIpText core.smf.ueIpCounter := hbody
  have hnonempty : (ueIpText core.smf.ueIpCounter).isEmpty = false := rfl
  have hanswer : AddressAllocation.answerBody [.n4Request pkt, .created location body text] =
      some body := rfl
  have haccept : AddressAllocation.amfStep net.toPlmn { core with smf } frame (.answered body) =
      ({ core with smf }, [.amf (.smfRequest (sessionRequest (subscriber core.amf ueId) pduSessId dnn')),
        .amf (.pduSessionAccept
          (acceptText ueId pduSessId (ueIpText core.smf.ueIpCounter) dnn'))]) := by
    rw [AddressAllocation.amfStep, hframe]
    simp only [N2Frame.input, haddress, hnonempty]
    rfl
  refine ⟨smf, [.smf (.n4Request pkt), .smf (.created location body text),
      .amf (.smfRequest (sessionRequest (subscriber core.amf ueId) pduSessId dnn')),
      .amf (.pduSessionAccept (acceptText ueId pduSessId (ueIpText core.smf.ueIpCounter) dnn'))],
    ?_, hkept.trans hsmf, hcounter, ?_, ?_⟩
  · rw [AddressAllocation.step, if_neg (not_not_intro halive), hrequest]
    dsimp only
    rw [if_neg (not_not_intro hsmf), hserved, hanswer]
    dsimp only
    rw [haccept]
    rfl
  · rfl
  · exact congrArg (fun a => [a])
      (AddressAllocation.get_acceptText ueId pduSessId _ dnn' (ueIpText_quoteless _))

theorem udm_answers {text req : Str} {draws : Draws} {body : Str}
    (hreq : udmRequestOf net.toPlmn core.amf text false = some req)
    (hanswer : answer net.toPlmn draws req = .received true body) :
    (CoreProcedures.frame net.toPlmn core.amf text false draws).udm = .received true body := by
  rw [CoreProcedures.frame]
  dsimp only
  rw [hreq]
  exact hanswer

theorem core_complete {call : AddressAllocation.SmfCall} {draws : Draws}
    (halive : core.amf.alive = true) (hrange : InRange ueId) :
    AddressAllocation.step net.toPlmn core
        (.n2 (CoreProcedures.frame net.toPlmn core.amf (registrationComplete ueId) false draws) call) =
      some (core, []) :=
  core_quiet halive (fun _ => handleFrame_complete net hrange rfl) (by simp)

theorem core_registration {call : AddressAllocation.SmfCall} {draws : Draws} {slice : Slice}
    (halive : core.amf.alive = true) (hrange : InRange ueId) :
    AddressAllocation.step net.toPlmn core
        (.n2 (CoreProcedures.frame net.toPlmn core.amf
          (registrationRequest net.toPlmn ueId slice) false draws) call) =
      some ({ core with
          amf := { core.amf with ctx := core.amf.ctx.insert ueId (context net.toPlmn ueId draws) } },
        [.amf (.udmRequest (authDataRequest net.toPlmn (suci net.toPlmn ueId))),
          .amf (.authenticationRequest ueId true
            (authData net.toPlmn draws (suci net.toPlmn ueId) (response draws))
            (authenticationRequest ueId draws))]) := by
  have hsegment := net.suci_segment ueId
  have hresponse : Quoteless (response draws) := (segment_toHex _).quoteless
  have hreq : udmRequestOf net.toPlmn core.amf (registrationRequest net.toPlmn ueId slice) false =
      some (authDataRequest net.toPlmn (suci net.toPlmn ueId)) := by
    rw [udmRequestOf, handleFrame_registration net hrange rfl rfl]
    rfl
  have hudm := udm_answers hreq (answer_authDataRequest net draws hsegment (by simp [suci, lit])
    (net.length_suci_le hrange.1 hrange.2))
  obtain ⟨hsupi, hrand, hautn, hxres⟩ := get_authData net draws hsegment hresponse
  have hframe (smf : AccessManagement.SmfAnswer) : handleFrame net.toPlmn core.amf
      ((CoreProcedures.frame net.toPlmn core.amf (registrationRequest net.toPlmn ueId slice) false
        draws).input smf) =
      ({ core.amf with ctx := core.amf.ctx.insert ueId (context net.toPlmn ueId draws) },
        [.udmRequest (authDataRequest net.toPlmn (suci net.toPlmn ueId)),
          .authenticationRequest ueId true
            (authData net.toPlmn draws (suci net.toPlmn ueId) (response draws))
            (authenticationRequest ueId draws)]) := by
    rw [handleFrame_registration net hrange rfl rfl]
    dsimp only [N2Frame.input]
    rw [hudm]
    dsimp only [AccessManagement.callUdm]
    rw [← response, hsupi, hrand, hautn, hxres]
    rfl
  exact core_quiet halive hframe (by simp [AddressAllocation.isSession])

theorem core_response {call : AddressAllocation.SmfCall} {draws draws' : Draws}
    (halive : core.amf.alive = true) (hrange : InRange ueId)
    (hlookup : core.amf.ctx.lookup ueId = some (context net.toPlmn ueId draws)) :
    AddressAllocation.step net.toPlmn core
        (.n2 (CoreProcedures.frame net.toPlmn core.amf
          (authenticationResponse ueId (response draws)) false draws') call) =
      some (core, [.amf (.udmRequest (amDataRequest net.toPlmn (context net.toPlmn ueId draws).supi)),
          .amf (.registrationAccept ueId (response draws)
            (registrationAccept net.toPlmn ueId (lit "\x7b")))]) := by
  have hsegment := supiFromSuci_segment net (net.suci_segment ueId)
  have hresponse : Quoteless (response draws) := (segment_toHex _).quoteless
  have hlength : (context net.toPlmn ueId draws).supi.length ≤ 4000 := by
    have hsuci := net.length_suci_le hrange.1 hrange.2
    exact (length_supiFromSuci_le net (suci net.toPlmn ueId)).trans (by omega)
  have hreq : udmRequestOf net.toPlmn core.amf (authenticationResponse ueId (response draws)) false =
      some (amDataRequest net.toPlmn (context net.toPlmn ueId draws).supi) := by
    rw [udmRequestOf, handleFrame_response net hrange hlookup hresponse rfl]
    rfl
  have hudm := udm_answers hreq (answer_amDataRequest net draws' hsegment (c := 105) rfl (by decide)
    hlength)
  have hframe (smf : AccessManagement.SmfAnswer) : handleFrame net.toPlmn core.amf
      ((CoreProcedures.frame net.toPlmn core.amf (authenticationResponse ueId (response draws)) false
        draws').input smf) =
      (core.amf, [.udmRequest (amDataRequest net.toPlmn (context net.toPlmn ueId draws).supi),
        .registrationAccept ueId (response draws)
          (registrationAccept net.toPlmn ueId (lit "\x7b"))]) := by
    rw [handleFrame_response net hrange hlookup hresponse rfl]
    dsimp only [N2Frame.input]
    rw [hudm]
    rfl
  exact core_quiet halive hframe (by simp [AddressAllocation.isSession])

end Core

end MobileCore.CoreProcedures
