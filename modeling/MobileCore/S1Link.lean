import MobileCore.MobilityManagement

/-!
# The eNB and its S1 connection to the MME

The eNB's command thread and its receive thread write whole frames to one TCP stream. The receive
thread handles a frame, and `rxOut` holds what its handler has still to send.
-/

namespace MobileCore.S1Link

open MobileCore.LabelledRuns
open MobileCore.MobilityManagement

structure EnbNode where
  nextEnbTeid : UInt32 := 100
  nextEnbUeId : UInt32 := 1
  rxOut : List S1apUplink := []

def baseImsi : UInt64 := 404100000000000

/-- One message of the operator's commands; `CR n` is `n` attaches. -/
inductive Command where
  | attach
  | tau (ueId : UInt32)
  | handover (ueId : UInt32)
deriving DecidableEq

inductive Purpose where
  | attach
  | handover
deriving DecidableEq

structure State where
  enb : EnbNode := {}
  mme : MobilityManagement.State := MobilityManagement.init
  uplink : List S1apUplink := []
  downlink : List S1apDownlink := []

inductive Input where
  | command (cmd : Command)
  | enbReceive
  | enbSend
  | mmeReceive
  | mme (i : MobilityManagement.Input)

inductive Event where
  | teidAllocated (mmeId : UInt32) (purpose : Purpose) (teid : UInt32)
  | received (msg : S1apUplink)
  | mme (e : MobilityManagement.Event)
deriving DecidableEq

def processCommand (enb : EnbNode) : Command → EnbNode × S1apUplink
  | .attach =>
    ({ enb with nextEnbUeId := enb.nextEnbUeId + 1 },
      .initialUeMsg enb.nextEnbUeId (baseImsi + enb.nextEnbUeId.toUInt64) 404 10 1)
  | .tau ueId => (enb, .tauRequest ueId ueId (baseImsi + ueId.toUInt64) 0)
  | .handover ueId => (enb, .handoverRequired ueId ueId (baseImsi + ueId.toUInt64))

/-- The UE's simplified AKA: RES is RAND xor 0x55. -/
def handleDlNas (mmeId enbId : UInt32) (nasType : UInt8) (rand : List UInt8) : List S1apUplink :=
  if nasType = 0x5D then [.ulNasTransport mmeId enbId 0x5E []]
  else if nasType = 0x52 ∧ 8 ≤ rand.length then
    [.ulNasTransport mmeId enbId 0x53 ((rand.take 8).map (· ^^^ 0x55))]
  else []

def handleIcsr (enb : EnbNode) (mmeId enbId : UInt32) : EnbNode × List Event :=
  let enbTeid := enb.nextEnbTeid
  ({ enb with
      nextEnbTeid := enbTeid + 1
      rxOut := [.icSetupResponse mmeId enbTeid, .ulNasTransport mmeId enbId 0x46 []] },
    [.teidAllocated mmeId .attach enbTeid])

def handleHoRequest (enb : EnbNode) (mmeId enbId : UInt32) : EnbNode × List Event :=
  let newTeid := enb.nextEnbTeid
  ({ enb with
      nextEnbTeid := newTeid + 1
      rxOut := [.handoverRequestAck mmeId enbId newTeid] },
    [.teidAllocated mmeId .handover newTeid])

/-- The Handover Notify reports the last value of the shared counter. -/
def handleMmeStatusXfer (enb : EnbNode) (mmeId enbId : UInt32) : EnbNode :=
  { enb with rxOut := [.handoverNotify mmeId enbId (enb.nextEnbTeid - 1)] }

def enbHandle (enb : EnbNode) : S1apDownlink → EnbNode × List Event
  | .dlNasTransport mmeId enbId nasType rand _ =>
    ({ enb with rxOut := handleDlNas mmeId enbId nasType rand }, [])
  | .icSetupRequest mmeId enbId _ _ _ => handleIcsr enb mmeId enbId
  | .tauAccept _ _ => (enb, [])
  | .handoverRequest mmeId enbId => handleHoRequest enb mmeId enbId
  | .handoverCommand mmeId enbId =>
    ({ enb with rxOut := [.enbStatusTransfer mmeId enbId 42 37] }, [])
  | .mmeStatusTransfer mmeId enbId _ _ => (handleMmeStatusXfer enb mmeId enbId, [])
  | .ueContextReleaseCmd mmeId enbId => ({ enb with rxOut := [.ueContextRelCmpl mmeId enbId] }, [])

def toEnb? : MobilityManagement.Event → Option S1apDownlink
  | .toEnb msg => some msg
  | _ => none

def mmeStep (s : State) (i : MobilityManagement.Input) : Option (State × List Event) :=
  (MobilityManagement.step s.mme i).map fun (mme, es) =>
    ({ s with mme := mme, downlink := s.downlink ++ es.filterMap toEnb? }, es.map .mme)

def step : Machine State Input Event
  | s, .command cmd =>
    let (enb, msg) := processCommand s.enb cmd
    some ({ s with enb := enb, uplink := s.uplink ++ [msg] }, [])
  | s, .enbReceive =>
    match s.enb.rxOut, s.downlink with
    | [], msg :: rest =>
      let (enb, es) := enbHandle s.enb msg
      some ({ s with enb := enb, downlink := rest }, es)
    | _, _ => none
  | s, .enbSend =>
    match s.enb.rxOut with
    | msg :: rest =>
      some ({ s with enb := { s.enb with rxOut := rest }, uplink := s.uplink ++ [msg] }, [])
    | [] => none
  | s, .mmeReceive =>
    match s.uplink with
    | msg :: rest =>
      (mmeStep { s with uplink := rest } (.s1ap msg)).map fun r => (r.1, .received msg :: r.2)
    | [] => none
  | _, .mme (.s1ap _) => none
  | s, .mme i => mmeStep s i

def init : State := {}

end MobileCore.S1Link
