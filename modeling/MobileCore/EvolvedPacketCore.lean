import MobileCore.PacketGateways
import MobileCore.S1Link

/-!
# The eNB, the MME, the HSS and the gateways together

S1 and S6a are TCP streams. The MME's frames for the eNB and for the HSS, and its datagrams for the
S-GW, are written in the step that handles a message.
-/

namespace MobileCore.EvolvedPacketCore

open MobileCore.LabelledRuns
open MobileCore.MobilityManagement (S1apUplink S1apDownlink AuthVectors)
open MobileCore.S1Link (EnbNode Command processCommand enbHandle)

/-- The words of `std::mt19937` after its seeding. -/
def seedWord (seed : UInt32) : Nat → UInt32
  | 0 => seed
  | n + 1 =>
    let word := seedWord seed n
    (1812433253 : UInt32) * (word ^^^ (word >>> 30)) + UInt32.ofNat (n + 1)

def twist (high low far : UInt32) : UInt32 :=
  let word := (high &&& 0x80000000) ||| (low &&& 0x7FFFFFFF)
  far ^^^ (word >>> 1) ^^^ (if word &&& 1 = 0 then 0 else 0x9908B0DF)

def temper (word : UInt32) : UInt32 :=
  let word := word ^^^ (word >>> 11)
  let word := word ^^^ ((word <<< 7) &&& 0x9D2C5680)
  let word := word ^^^ ((word <<< 15) &&& 0xEFC60000)
  word ^^^ (word >>> 18)

/-- The numbers that `std::mt19937` draws before it comes back to a word that it has twisted. -/
def mt19937 (seed : UInt32) (n : Nat) : UInt32 :=
  temper (twist (seedWord seed n) (seedWord seed (n + 1)) (seedWord seed (n + 397)))

def generateAuthVectors (imsi : UInt64) : AuthVectors :=
  let rand := Vector.ofFn fun i : Fin 16 => (mt19937 (imsi ^^^ (imsi >>> 32)).toUInt32 i).toUInt8
  { rand := rand
    autn := rand.map (· ^^^ 0xAA)
    xres := Vector.ofFn fun i : Fin 8 => rand[i] ^^^ 0x55
    kasme := Vector.replicate 32 0 }

structure State where
  enb : EnbNode := {}
  core : PacketGateways.State := PacketGateways.init
  uplink : List S1apUplink := []
  downlink : List S1apDownlink := []
  toHss : List UInt64 := []
  fromHss : List (UInt64 × AuthVectors) := []

inductive Input where
  | command (cmd : Command)
  | enbReceive
  | enbSend
  | mmeReceive
  | hss
  | hssReceive
  | core (i : PacketGateways.Input)

inductive Event where
  | commanded (cmd : Command)
  | enb (e : S1Link.Event)
  | core (e : PacketGateways.Event)
deriving DecidableEq

def toEnb? : PacketGateways.Event → Option S1apDownlink
  | .mme e => S1Link.toEnb? e
  | _ => none

/-- The IMSI of an Authentication Information Request; the HSS only logs the PLMN. -/
def toHss? : PacketGateways.Event → Option UInt64
  | .mme (.airSent imsi _ _) => some imsi
  | _ => none

def coreStep (s : State) (i : PacketGateways.Input) : Option (State × List Event) :=
  (PacketGateways.step s.core i).map fun (core, es) =>
    ({ s with
        core := core
        downlink := s.downlink ++ es.filterMap toEnb?
        toHss := s.toHss ++ es.filterMap toHss? },
      es.map .core)

def handleAir (imsi : UInt64) : UInt64 × AuthVectors := (imsi, generateAuthVectors imsi)

def step : Machine State Input Event
  | s, .command cmd =>
    let (enb, msg) := processCommand s.enb cmd
    some ({ s with enb := enb, uplink := s.uplink ++ [msg] }, [.commanded cmd])
  | s, .enbReceive =>
    match s.enb.rxOut, s.downlink with
    | [], msg :: rest =>
      let (enb, es) := enbHandle s.enb msg
      some ({ s with enb := enb, downlink := rest }, es.map .enb)
    | _, _ => none
  | s, .enbSend =>
    match s.enb.rxOut with
    | msg :: rest =>
      some ({ s with enb := { s.enb with rxOut := rest }, uplink := s.uplink ++ [msg] }, [])
    | [] => none
  | s, .mmeReceive =>
    match s.uplink with
    | msg :: rest => coreStep { s with uplink := rest } (.mme (.s1ap msg))
    | [] => none
  | s, .hss =>
    match s.toHss with
    | imsi :: rest => some ({ s with toHss := rest, fromHss := s.fromHss ++ [handleAir imsi] }, [])
    | [] => none
  | s, .hssReceive =>
    match s.fromHss with
    | (imsi, av) :: rest => coreStep { s with fromHss := rest } (.mme (.aia imsi av))
    | [] => none
  | _, .core (.mme (.s1ap _)) => none
  | _, .core (.mme (.aia _ _)) => none
  | s, .core i => coreStep s i

def init : State := {}

end MobileCore.EvolvedPacketCore
