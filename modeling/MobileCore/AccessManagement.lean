import MobileCore.LabelledRuns
import MobileCore.LastWrite
import MobileCore.SimplifiedAka
import MobileCore.WireJson

/-!
# The AMF

The N2 server loop over the UE contexts. The answers of the UDM and the SMF and the fault injector
are part of each input; an exception that no handler catches ends the process.
-/

namespace MobileCore.AccessManagement

open MobileCore.CppText
open MobileCore.LabelledRuns
open MobileCore.LastWrite
open MobileCore.SimplifiedAka
open MobileCore.WireJson

structure UeContext where
  suci : Str
  supi : Str
  xresStar : Str
  nssai : Str
deriving DecidableEq

structure State where
  alive : Bool := true
  ctx : Table Int UeContext := ∅

/-- How a call of the UDM ends: nobody listens, an answer that `httpRecv` throws on, or the body
that `httpRecv` left, which the AMF uses whether it is complete or not. -/
inductive UdmAnswer where
  | unreachable
  | malformed
  | received (complete : Bool) (body : Str)
deriving DecidableEq

/-- How a call of the SMF ends: nobody listens, no complete answer, or an answer. -/
inductive SmfAnswer where
  | unreachable
  | closed
  | answered (body : Str)
deriving DecidableEq

/-- One N2 frame and what the environment answers while it is handled. -/
structure Input where
  text : Str
  chaosDrop : Bool := false
  udm : UdmAnswer := .unreachable
  smf : SmfAnswer := .unreachable

inductive Event where
  | udmRequest (text : Str)
  | smfRequest (text : Str)
  | authenticationRequest (ueId : Int) (complete : Bool) (body text : Str)
  | registrationAccept (ueId : Int) (resStar text : Str)
  | registrationReject (text : Str)
  | pduSessionAccept (text : Str)
  | crashed
deriving DecidableEq

def crash (s : State) (sent : List Event) : State × List Event :=
  ({ s with alive := false }, sent ++ [.crashed])

def callUdm (req : Str) : UdmAnswer → List Event × Option (Bool × Str)
  | .unreachable => ([], none)
  | .malformed => ([.udmRequest req], none)
  | .received complete body => ([.udmRequest req], some (complete, body))

def callSmf (supi : Str) (pduSessId : Int) (dnn : Str) (answer : SmfAnswer) : List Event × Str :=
  let body := obj
    [(lit "supi", str supi),
      (lit "pduSessionId", num pduSessId),
      (lit "dnn", str (if dnn.isEmpty then lit "internet" else dnn)),
      (lit "snssai", str (lit "\x7b\"sst\":1,\"sd\":\"000001\"\x7d")),
      (lit "servingNssai", str (lit "5G:mnc010.mcc404.3gppnetwork.org")),
      (lit "anType", str (lit "3GPP_ACCESS"))]
  let req := httpBuild (lit "POST /nsmf-pdusession/v1/sm-contexts HTTP/1.1") body
    (lit "Host: smf.5gc.mnc010.mcc404.3gppnetwork.org")
  match answer with
  | .unreachable => ([], [])
  | .closed => ([.smfRequest req], [])
  | .answered body => ([.smfRequest req], get body (lit "ueIpAddress"))

def udmHostHeader (plmn : Plmn) : Str :=
  lit "Host: udm.5gc." ++ plmnDomain plmn ++ lit ".3gppnetwork.org"

def handleRegistrationRequest (plmn : Plmn) (s : State) (i : Input) : State × List Event :=
  match stoi (get i.text (lit "ranUeNgapId")) with
  | none => crash s []
  | some ueId =>
    let suci := get i.text (lit "suci")
    let nssai := get i.text (lit "requestedNssai")
    let body := obj [(lit "servingNetworkName",
      str (lit "5G:" ++ plmnDomain plmn ++ lit ".3gppnetwork.org"))]
    let req := httpBuild (lit "POST /nudm-ueau/v2/" ++ suci ++
      lit "/security-information/generate-auth-data HTTP/1.1") body (udmHostHeader plmn)
    if i.chaosDrop then
      (s, [.registrationReject (obj
        [(lit "msgType", str (lit "RegistrationReject")),
          (lit "ranUeNgapId", str (lit "0")),
          (lit "cause", str (lit "chaos-udm-drop"))])])
    else
      match callUdm req i.udm with
      | (sent, none) => crash s sent
      | (sent, some (complete, resp)) =>
        let rand := get resp (lit "rand")
        let autn := get resp (lit "autn")
        let xresStar := get resp (lit "xresStar")
        let supi := get resp (lit "supi")
        ({ s with ctx := s.ctx.insert ueId ⟨suci, supi, xresStar, nssai⟩ },
          sent ++ [.authenticationRequest ueId complete resp (obj
            [(lit "msgType", str (lit "AuthenticationRequest")),
              (lit "ranUeNgapId", num ueId),
              (lit "rand", str rand),
              (lit "autn", str autn)])])

def guti (plmn : Plmn) (ueId : Int) : Str :=
  lit "5g-guti-" ++ plmn.mcc ++ lit "-" ++ plmn.mnc ++ lit "-amf01-" ++
    padLeft 5 48 (intText ueId)

def allowedNssai (nssai : Str) : Str :=
  if nssai.isEmpty then lit "[\x7b\"sst\":1,\"sd\":\"000001\"\x7d]"
  else lit "[" ++ nssai ++ lit "]"

def handleAuthResponse (plmn : Plmn) (s : State) (i : Input) : State × List Event :=
  match stoi (get i.text (lit "ranUeNgapId")) with
  | none => crash s []
  | some ueId =>
    let resStar := get i.text (lit "resStar")
    match s.ctx.lookup ueId with
    | none => (s, [])
    | some c =>
      if resStar ≠ c.xresStar then
        (s, [.registrationReject (obj
          [(lit "msgType", str (lit "RegistrationReject")),
            (lit "ranUeNgapId", num ueId),
            (lit "cause", str (lit "authentication-failure"))])])
      else
        let req := httpBuild (lit "GET /nudm-sdm/v2/" ++ c.supi ++ lit "/am-data HTTP/1.1") []
          (udmHostHeader plmn)
        match callUdm req i.udm with
        | (sent, none) => crash s sent
        | (sent, some _) =>
          (s, sent ++ [.registrationAccept ueId resStar (obj
            [(lit "msgType", str (lit "RegistrationAccept")),
              (lit "ranUeNgapId", num ueId),
              (lit "5gGuti", str (guti plmn ueId)),
              (lit "allowedNssai", allowedNssai c.nssai)])])

def handleRegistrationComplete (s : State) (i : Input) : State × List Event :=
  match stoi (get i.text (lit "ranUeNgapId")) with
  | none => crash s []
  | some _ => (s, [])

def handlePduSessionRequest (s : State) (i : Input) : State × List Event :=
  match stoi (get i.text (lit "ranUeNgapId")) with
  | none => crash s []
  | some ueId =>
    let ps := get i.text (lit "pduSessionId")
    match if ps.isEmpty then some 1 else stoi ps with
    | none => crash s []
    | some pduSessId =>
      let dnn := get i.text (lit "dnn")
      let supi :=
        match s.ctx.lookup ueId with
        | some c => c.supi
        | none => lit "imsi-404100000000" ++ intText ueId
      let (sent, answered) := callSmf supi pduSessId dnn i.smf
      let ueIp := if answered.isEmpty then lit "10.45.0.2" else answered
      (s, sent ++ [.pduSessionAccept (obj
        [(lit "msgType", str (lit "PduSessionAccept")),
          (lit "ranUeNgapId", num ueId),
          (lit "pduSessionId", num pduSessId),
          (lit "ueIpAddress", str ueIp),
          (lit "upfIp", str (lit "10.1.0.4")),
          (lit "upfTeid", str (lit "0x00000101")),
          (lit "dnn", str (if dnn.isEmpty then lit "internet" else dnn))])])

/-- The handling of one frame; an unknown message type is only logged. -/
def handleFrame (plmn : Plmn) (s : State) (i : Input) : State × List Event :=
  let msgType := get i.text (lit "msgType")
  if msgType = lit "RegistrationRequest" then handleRegistrationRequest plmn s i
  else if msgType = lit "AuthenticationResponse" then handleAuthResponse plmn s i
  else if msgType = lit "RegistrationComplete" then handleRegistrationComplete s i
  else if msgType = lit "PduSessionRequest" then handlePduSessionRequest s i
  else (s, [])

def step (plmn : Plmn) : Machine State Input Event
  | s, i => if s.alive then some (handleFrame plmn s i) else none

def init : State := {}

end MobileCore.AccessManagement
