import MobileCore.MobilityManagement

/-!
# The S-GW, the P-GW and the PCRF behind the MME

S11 and S5 are datagrams, delivered in any order or never; Gx is a TCP stream. A node that waits
for an answer takes the next one that its socket delivers, or its wait times out.
-/

namespace MobileCore.PacketGateways

open MobileCore.LabelledRuns
open MobileCore.MobilityManagement (S11Response)

/-- The values of a Create Session Request, with the defaults of the decode loops. -/
structure CreateSession where
  imsi : UInt64 := 0
  apn : String := ""
  ebi : UInt8 := 5
  qci : UInt8 := 9
  ambrUl : UInt32 := 50000000
  ambrDl : UInt32 := 100000000
deriving DecidableEq

inductive S11Request where
  | createSession (req : CreateSession)
  | modifyBearer (enbTeid : UInt32) (imsi : UInt64)
deriving DecidableEq

/-- The S-GW's request to the P-GW; `senderTeid` is its S11 TEID. -/
structure S5Request where
  session : CreateSession
  senderTeid : UInt32
deriving DecidableEq

/-- A datagram of the P-GW. It names no subscriber; `answers` records, for the statements only,
whose request it answers. -/
structure S5Response where
  answers : UInt64
  cause : UInt8 := 0
  senderTeid : UInt32 := 0
  ueIp : List UInt8 := []
  ebi : UInt8 := 0
deriving DecidableEq

structure Ccr where
  imsi : UInt64
  apn : String
  qci : UInt8
deriving DecidableEq

structure Cca where
  resultCode : UInt8
  imsi : UInt64
deriving DecidableEq

inductive SgwThread where
  | receiving
  | awaitPgw (req : CreateSession) (s11Teid s1uTeid : UInt32)
deriving DecidableEq

structure SgwNode where
  nextTeid : UInt32 := 1000
  thread : SgwThread := .receiving

inductive PgwThread where
  | receiving
  | awaitCca (req : S5Request)
deriving DecidableEq

structure PgwNode where
  nextTeid : UInt32 := 2000
  nextIp : UInt32 := 0x0A000001
  thread : PgwThread := .receiving

structure State where
  mme : MobilityManagement.State := MobilityManagement.init
  sgw : SgwNode := {}
  pgw : PgwNode := {}
  toSgw : List S11Request := []
  toMme : List S11Response := []
  toPgw : List S5Request := []
  fromPgw : List S5Response := []
  toPcrf : List Ccr := []
  fromPcrf : List Cca := []

inductive Input where
  | mme (i : MobilityManagement.Input)
  | mmeAnswer (n : Nat)
  | sgwReceive (n : Nat)
  | sgwAnswer (n : Nat)
  | sgwTimeout
  | pgwReceive (n : Nat)
  | pgwAnswer
  | pgwTimeout
  | pcrf

inductive Event where
  | mme (e : MobilityManagement.Event)
  | sgwSession (imsi : UInt64) (s11Teid s1uTeid : UInt32)
  | pgwSession (imsi : UInt64) (teid : UInt32) (ueIp : List UInt8)
deriving DecidableEq

def toSgw? : MobilityManagement.Event → Option S11Request
  | .createSessionSent _ imsi => some (.createSession { imsi := imsi, apn := "internet" })
  | .modifyBearerSent enbTeid imsi => some (.modifyBearer enbTeid imsi)
  | .pathSwitchSent _ enbTeid imsi => some (.modifyBearer enbTeid imsi)
  | _ => none

def mmeStep (s : State) (i : MobilityManagement.Input) : Option (State × List Event) :=
  (MobilityManagement.step s.mme i).map fun (mme, es) =>
    ({ s with mme := mme, toSgw := s.toSgw ++ es.filterMap toSgw? }, es.map .mme)

def handleCreateSessionReq (s : State) (req : CreateSession) : State × List Event :=
  let s11Teid := s.sgw.nextTeid
  let s1uTeid := s11Teid + 1
  ({ s with
      sgw := { nextTeid := s1uTeid + 1, thread := .awaitPgw req s11Teid s1uTeid }
      toPgw := s.toPgw ++ [{ session := req, senderTeid := s11Teid }] },
    [.sgwSession req.imsi s11Teid s1uTeid])

def handleModifyBearerReq (s : State) : State × List Event :=
  ({ s with toMme := s.toMme ++ [{ cause := 16 }] }, [])

def sgwHandle (s : State) : S11Request → State × List Event
  | .createSession req => handleCreateSessionReq s req
  | .modifyBearer _ _ => handleModifyBearerReq s

/-- The S-GW's answer, once the P-GW's is there; a failure is not reported to the MME. -/
def pgwAnswered (s : State) (req : CreateSession) (s11Teid s1uTeid : UInt32) (resp : S5Response) :
    State :=
  let s := { s with sgw := { s.sgw with thread := .receiving } }
  if resp.cause ≠ 16 ∨ resp.ueIp.length < 4 then s
  else
    { s with toMme := s.toMme ++ [{ cause := 16, senderTeid := s11Teid, bearerTeid := s1uTeid,
                                    imsi := req.imsi, ueIp := resp.ueIp.take 4 }] }

def sendCcr (s : State) (req : S5Request) : State :=
  let apn := if req.session.apn = "" then "internet" else req.session.apn
  { s with
    pgw := { s.pgw with thread := .awaitCca req }
    toPcrf := s.toPcrf ++ [{ imsi := req.session.imsi, apn := apn, qci := req.session.qci }] }

def rejectSession (s : State) (req : S5Request) : State :=
  { s with
    pgw := { s.pgw with thread := .receiving }
    fromPgw := s.fromPgw ++ [{ answers := req.session.imsi, cause := 64 }] }

/-- The bytes of an address, which `allocateIP` prints and its caller scans. -/
def ipBytes (raw : UInt32) : List UInt8 :=
  [(raw >>> 24).toUInt8, (raw >>> 16).toUInt8, (raw >>> 8).toUInt8, raw.toUInt8]

def acceptSession (s : State) (req : S5Request) : State × List Event :=
  let ueIp := ipBytes s.pgw.nextIp
  let resp : S5Response :=
    { answers := req.session.imsi, cause := 16, senderTeid := s.pgw.nextTeid, ueIp := ueIp,
      ebi := req.session.ebi }
  ({ s with
      pgw := { nextTeid := s.pgw.nextTeid + 1, nextIp := s.pgw.nextIp + 1, thread := .receiving }
      fromPgw := s.fromPgw ++ [resp] },
    [.pgwSession req.session.imsi s.pgw.nextTeid ueIp])

def handleCcr (ccr : Ccr) : Cca := { resultCode := 1, imsi := ccr.imsi }

def step : Machine State Input Event
  | _, .mme (.s11 _) => none
  | s, .mme i => mmeStep s i
  | s, .mmeAnswer n =>
    match s.toMme[n]? with
    | some resp => mmeStep { s with toMme := s.toMme.eraseIdx n } (.s11 resp)
    | none => none
  | s, .sgwReceive n =>
    match s.sgw.thread, s.toSgw[n]? with
    | .receiving, some req => some (sgwHandle { s with toSgw := s.toSgw.eraseIdx n } req)
    | _, _ => none
  | s, .sgwAnswer n =>
    match s.sgw.thread, s.fromPgw[n]? with
    | .awaitPgw req s11Teid s1uTeid, some resp =>
      some (pgwAnswered { s with fromPgw := s.fromPgw.eraseIdx n } req s11Teid s1uTeid resp, [])
    | _, _ => none
  | s, .sgwTimeout =>
    match s.sgw.thread with
    | .awaitPgw _ _ _ => some ({ s with sgw := { s.sgw with thread := .receiving } }, [])
    | .receiving => none
  | s, .pgwReceive n =>
    match s.pgw.thread, s.toPgw[n]? with
    | .receiving, some req => some (sendCcr { s with toPgw := s.toPgw.eraseIdx n } req, [])
    | _, _ => none
  | s, .pgwAnswer =>
    match s.pgw.thread, s.fromPcrf with
    | .awaitCca req, cca :: rest =>
      let s := { s with fromPcrf := rest }
      if cca.resultCode = 1 then some (acceptSession s req) else some (rejectSession s req, [])
    | _, _ => none
  | s, .pgwTimeout =>
    match s.pgw.thread with
    | .awaitCca req => some (rejectSession s req, [])
    | .receiving => none
  | s, .pcrf =>
    match s.toPcrf with
    | ccr :: rest =>
      some ({ s with toPcrf := rest, fromPcrf := s.fromPcrf ++ [handleCcr ccr] }, [])
    | [] => none

def init : State := {}

end MobileCore.PacketGateways
