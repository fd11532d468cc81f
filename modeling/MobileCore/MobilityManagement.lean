import MobileCore.LabelledRuns
import MobileCore.ShardedStore

/-!
# The MME

Its receive thread handles one S1AP message at a time and may block in the middle of a handler for
the HSS or the S-GW; the thread that reads the HSS runs beside it. Messages are the values that the
decode loops leave in a handler's variables. A context is a place in `heap`, the store holds places.
-/

namespace MobileCore.MobilityManagement

open MobileCore.LabelledRuns
open MobileCore.LastWrite
open MobileCore.ShardedStore

inductive EmmState where
  | deregistered
  | registeredInitiated
  | authPending
  | sessionPending
  | registered
  | deregisteredInitiated
deriving DecidableEq

structure AuthVectors where
  rand : Vector UInt8 16 := Vector.replicate 16 0
  autn : Vector UInt8 16 := Vector.replicate 16 0
  xres : Vector UInt8 8 := Vector.replicate 8 0
  kasme : Vector UInt8 32 := Vector.replicate 32 0
deriving DecidableEq

/-- The first four bytes of an address, which the source keeps in dotted form. -/
structure Ipv4 where
  a : UInt8
  b : UInt8
  c : UInt8
  d : UInt8
deriving DecidableEq

structure Bearer where
  ebi : UInt8 := 0
  qci : UInt8 := 0
  sgwS11Teid : UInt32 := 0
  sgwS1uTeid : UInt32 := 0
  pgwS5Teid : UInt32 := 0
  enbS1uTeid : UInt32 := 0
  ueIp : Ipv4
deriving DecidableEq

structure UeContext where
  imsi : UInt64
  mmeUeS1apId : UInt32
  enbUeS1apId : UInt32
  emmState : EmmState := .deregistered
  auth : AuthVectors := {}
  bearers : List Bearer := []
  taiMcc : UInt16 := 0
  taiMnc : UInt16 := 0
  taiTac : UInt16 := 0
deriving DecidableEq

def UeContext.defaultBearer (ctx : UeContext) : Option Bearer :=
  ctx.bearers.find? fun b => b.ebi == 5

/-- The write through the pointer that `defaultBearer` returns. -/
def setEnbTeid (teid : UInt32) : List Bearer → List Bearer
  | [] => []
  | b :: rest =>
    if b.ebi == 5 then { b with enbS1uTeid := teid } :: rest else b :: setEnbTeid teid rest

inductive S1apUplink where
  | initialUeMsg (enbId : UInt32) (imsi : UInt64) (mcc mnc tac : UInt16)
  | ulNasTransport (mmeId enbId : UInt32) (nasType : UInt8) (res : List UInt8)
  | icSetupResponse (mmeId enbTeid : UInt32)
  | tauRequest (mmeId enbId : UInt32) (imsi : UInt64) (tauType : UInt8)
  | handoverRequired (mmeId enbId : UInt32) (imsi : UInt64)
  | handoverRequestAck (mmeId enbId newTeid : UInt32)
  | enbStatusTransfer (mmeId enbId pdcpUl pdcpDl : UInt32)
  | handoverNotify (mmeId enbId newTeid : UInt32)
  | ueContextRelCmpl (mmeId enbId : UInt32)
  | unexpected
deriving DecidableEq

inductive S1apDownlink where
  | dlNasTransport (mmeId enbId : UInt32) (nasType : UInt8) (rand autn : List UInt8)
  | icSetupRequest (mmeId enbId sgwTeid : UInt32) (ebi : UInt8) (ueIp : Ipv4)
  | tauAccept (mmeId enbId : UInt32)
  | handoverRequest (mmeId enbId : UInt32)
  | handoverCommand (mmeId enbId : UInt32)
  | mmeStatusTransfer (mmeId enbId pdcpUl pdcpDl : UInt32)
  | ueContextReleaseCmd (mmeId enbId : UInt32)
deriving DecidableEq

/-- A datagram of the S-GW as the MME reads it: an absent field keeps its default. -/
structure S11Response where
  cause : UInt8 := 0
  senderTeid : UInt32 := 0
  bearerTeid : UInt32 := 0
  imsi : UInt64 := 0
  ueIp : List UInt8 := []
deriving DecidableEq

/-- Where the receive thread is: in its loop, or blocked in a handler. -/
inductive Thread where
  | receiving
  | awaitAia (mmeId enbId : UInt32) (imsi : UInt64)
  | awaitCreateSession (mmeId : UInt32) (ctx : Nat)
  | awaitModifyBearer
  | awaitPathSwitch (mmeId enbId : UInt32)
deriving DecidableEq

structure State where
  store : UeContextStore Nat := {}
  heap : List UeContext := []
  pendingAuth : Table UInt64 AuthVectors := ∅
  thread : Thread := .receiving

inductive Input where
  | s1ap (msg : S1apUplink)
  | aia (imsi : UInt64) (av : AuthVectors)
  | aiaWakeup (chaosDrop : Bool)
  | s11 (resp : S11Response)
  | s11Timeout

inductive Event where
  | airSent (imsi : UInt64) (mcc mnc : UInt16)
  | aiaReceived (imsi : UInt64) (av : AuthVectors)
  | vectorsStored (ctx : Nat) (av : AuthVectors)
  | authAccepted (ctx : Nat) (res : List UInt8)
  | toEnb (msg : S1apDownlink)
  | createSessionSent (ctx : Nat) (imsi : UInt64)
  | bearerStored (ctx : Nat) (b : Bearer) (resp : S11Response)
  | modifyBearerSent (enbTeid : UInt32) (imsi : UInt64)
  | pathSwitchSent (mmeId enbTeid : UInt32) (imsi : UInt64)
deriving DecidableEq

def update (s : State) (ctx : Nat) (f : UeContext → UeContext) : State :=
  { s with heap := s.heap.modify ctx f }

def findCtx (s : State) (mmeId : UInt32) : Option (Nat × UeContext) :=
  match s.store.find mmeId with
  | none => none
  | some p => (s.heap[p]?).map fun ctx => (p, ctx)

def handleInitialUeMsg (s : State) (enbId : UInt32) (imsi : UInt64) (mcc mnc tac : UInt16) :
    State × List Event :=
  let (store, mmeId) := s.store.insert s.heap.length
  let ctx : UeContext :=
    { imsi := imsi, mmeUeS1apId := mmeId, enbUeS1apId := enbId, emmState := .registeredInitiated,
      taiMcc := mcc, taiMnc := mnc, taiTac := tac }
  ({ s with
      store := store
      heap := s.heap ++ [ctx]
      thread := .awaitAia mmeId enbId imsi },
    [.airSent imsi mcc mnc])

/-- The rest of `handleInitialUEMsg`, once the vectors for the IMSI are there. -/
def authVectorsReady (s : State) (mmeId enbId : UInt32) (imsi : UInt64) (av : AuthVectors)
    (chaosDrop : Bool) : State × List Event :=
  let s := { s with pendingAuth := s.pendingAuth.erase imsi, thread := .receiving }
  let (s, stored) : State × List Event :=
    match s.store.find mmeId with
    | none => (s, [])
    | some p =>
      (update s p fun ctx => { ctx with auth := av, emmState := .authPending },
        [.vectorsStored p av])
  if chaosDrop then (s, stored)
  else (s, stored ++
    [.toEnb (.dlNasTransport mmeId enbId 0x52 av.rand.toList av.autn.toList)])

def handleUlNasTransport (s : State) (mmeId : UInt32) (nasType : UInt8) (res : List UInt8) :
    State × List Event :=
  match nasType with
  | 0x53 =>
    match findCtx s mmeId with
    | none => (s, [])
    | some (p, ctx) =>
      if 8 ≤ res.length ∧ res.take 8 = ctx.auth.xres.toList then
        ({ update s p (fun ctx => { ctx with emmState := .sessionPending }) with
            thread := .awaitCreateSession mmeId p },
          [.authAccepted p res, .toEnb (.dlNasTransport mmeId ctx.enbUeS1apId 0x5D [] []),
            .createSessionSent p ctx.imsi])
      else (s, [])
  | 0x46 =>
    match findCtx s mmeId with
    | none => (s, [])
    | some (p, _) => (update s p fun ctx => { ctx with emmState := .registered }, [])
  | _ => (s, [])

/-- The rest of `handleAuthSuccess`, once the bearer is stored. -/
def sendIcSetupRequest (s : State) (mmeId : UInt32) (p : Nat) : List Event :=
  match s.heap[p]? with
  | none => []
  | some ctx =>
    match ctx.defaultBearer with
    | none => []
    | some b => [.toEnb (.icSetupRequest mmeId ctx.enbUeS1apId b.sgwS1uTeid b.ebi b.ueIp)]

def sessionBearer (resp : S11Response) (ueIp : Ipv4) : Bearer :=
  { ebi := 5, qci := 9, sgwS11Teid := resp.senderTeid, sgwS1uTeid := resp.bearerTeid,
    ueIp := ueIp }

/-- The answer that `sendCreateSession` waits for: the next datagram from the S-GW. -/
def createSessionAnswered (s : State) (mmeId : UInt32) (p : Nat) (resp : S11Response) :
    State × List Event :=
  let s := { s with thread := .receiving }
  match resp.cause, resp.ueIp with
  | 16, a :: b :: c :: d :: _ =>
    let bearer := sessionBearer resp ⟨a, b, c, d⟩
    let (s, stored) : State × List Event :=
      match s.store.find mmeId with
      | none => (s, [])
      | some q =>
        (update s q fun ctx => { ctx with bearers := ctx.bearers ++ [bearer] },
          [.bearerStored q bearer resp])
    (s, stored ++ sendIcSetupRequest s mmeId p)
  | _, _ => (s, [])

def storeEnbTeid (s : State) (mmeId enbTeid : UInt32) : State :=
  match s.store.find mmeId with
  | none => s
  | some p => update s p fun ctx => { ctx with bearers := setEnbTeid enbTeid ctx.bearers }

def imsiOf (s : State) (mmeId : UInt32) : UInt64 :=
  match findCtx s mmeId with
  | none => 0
  | some (_, ctx) => ctx.imsi

def handleIcSetupResponse (s : State) (mmeId enbTeid : UInt32) : State × List Event :=
  ({ storeEnbTeid s mmeId enbTeid with thread := .awaitModifyBearer },
    [.modifyBearerSent enbTeid (imsiOf s mmeId)])

def handleHandoverRequestAck (s : State) (mmeId enbId newTeid : UInt32) : State × List Event :=
  (storeEnbTeid s mmeId newTeid, [.toEnb (.handoverCommand mmeId enbId)])

/-- The path switch takes the TEID of the Handover Notify, and the stored one only when that is
zero. -/
def finalTeid (s : State) (mmeId newTeid : UInt32) : UInt32 :=
  if newTeid ≠ 0 then newTeid
  else
    match (findCtx s mmeId).bind fun c => c.2.defaultBearer with
    | some b => b.enbS1uTeid
    | none => 200

def handleHandoverNotify (s : State) (mmeId enbId newTeid : UInt32) : State × List Event :=
  ({ s with thread := .awaitPathSwitch mmeId enbId },
    [.pathSwitchSent mmeId (finalTeid s mmeId newTeid) (imsiOf s mmeId)])

def handleS1ap (s : State) : S1apUplink → State × List Event
  | .initialUeMsg enbId imsi mcc mnc tac => handleInitialUeMsg s enbId imsi mcc mnc tac
  | .ulNasTransport mmeId _ nasType res => handleUlNasTransport s mmeId nasType res
  | .icSetupResponse mmeId enbTeid => handleIcSetupResponse s mmeId enbTeid
  | .tauRequest mmeId enbId _ _ => (s, [.toEnb (.tauAccept mmeId enbId)])
  | .handoverRequired mmeId enbId _ => (s, [.toEnb (.handoverRequest mmeId enbId)])
  | .handoverRequestAck mmeId enbId newTeid => handleHandoverRequestAck s mmeId enbId newTeid
  | .enbStatusTransfer mmeId enbId pdcpUl pdcpDl =>
    (s, [.toEnb (.mmeStatusTransfer mmeId enbId pdcpUl pdcpDl)])
  | .handoverNotify mmeId enbId newTeid => handleHandoverNotify s mmeId enbId newTeid
  | .ueContextRelCmpl _ _ => (s, [])
  | .unexpected => (s, [])

/-- What the thread does with a datagram, or with the timeout of its wait. -/
def s11Wakeup (s : State) (resp : Option S11Response) : Option (State × List Event) :=
  match s.thread, resp with
  | .awaitCreateSession mmeId p, some resp => some (createSessionAnswered s mmeId p resp)
  | .awaitCreateSession _ _, none => some ({ s with thread := .receiving }, [])
  | .awaitModifyBearer, _ => some ({ s with thread := .receiving }, [])
  | .awaitPathSwitch mmeId enbId, _ =>
    some ({ s with thread := .receiving }, [.toEnb (.ueContextReleaseCmd mmeId enbId)])
  | _, _ => none

def step : Machine State Input Event
  | s, .s1ap msg => if s.thread = .receiving then some (handleS1ap s msg) else none
  | s, .aia imsi av =>
    some ({ s with pendingAuth := s.pendingAuth.insert imsi av }, [.aiaReceived imsi av])
  | s, .aiaWakeup chaosDrop =>
    match s.thread with
    | .awaitAia mmeId enbId imsi =>
      (s.pendingAuth.lookup imsi).map fun av => authVectorsReady s mmeId enbId imsi av chaosDrop
    | _ => none
  | s, .s11 resp => s11Wakeup s (some resp)
  | s, .s11Timeout => s11Wakeup s none

def init : State := {}

end MobileCore.MobilityManagement
