import MobileCore.RecordOwnership
import Mathlib.Logic.Function.Basic

/-!
# CBSD agents behind the Domain Proxy

An agent takes one command after another, sends a request for it and waits for the response. Its
state is a copy of what the proxy records, kept by tests of its own.
-/

namespace MobileCore.CbsdAgent

open CppText BinaryFloats LabelledRuns
open NestedObjects (get)
open WireJson (num obj str)
open SasStub (Kind)
open DomainProxy (SpectrumState)

structure CbsdConfig where
  fccId : Str
  callSign : Str
  category : Str
  latitude : Double
  longitude : Double
  heightMeters : Double
  antennaGainDbi : Double
  desiredFreqMHz : Double
  desiredBwMHz : Double

def literal (text : String) : Double := (stod (lit text)).getD (zero false)

def cbsdProfiles (profileId : Str) : Option CbsdConfig :=
  if profileId = lit "1" then
    some { fccId := lit "FCC-DEVICE-001", callSign := lit "KA1ABC", category := lit "A",
           latitude := literal "37.4219", longitude := literal "-122.0841",
           heightMeters := literal "5.0", antennaGainDbi := literal "6.0",
           desiredFreqMHz := literal "3555.0", desiredBwMHz := literal "10.0" }
  else if profileId = lit "2" then
    some { fccId := lit "FCC-DEVICE-002", callSign := lit "KA2DEF", category := lit "A",
           latitude := literal "37.4220", longitude := literal "-122.0845",
           heightMeters := literal "8.0", antennaGainDbi := literal "6.0",
           desiredFreqMHz := literal "3565.0", desiredBwMHz := literal "10.0" }
  else if profileId = lit "3" then
    some { fccId := lit "FCC-DEVICE-003", callSign := lit "KB3GHI", category := lit "B",
           latitude := literal "37.4225", longitude := literal "-122.0850",
           heightMeters := literal "30.0", antennaGainDbi := literal "8.0",
           desiredFreqMHz := literal "3580.0", desiredBwMHz := literal "20.0" }
  else none

inductive Command where
  | register
  | grant
  | heartbeat
  | relinquish
  | deregister
deriving DecidableEq

def Command.kind : Command → Kind
  | .register => .registration
  | .grant => .grant
  | .heartbeat => .heartbeat
  | .relinquish => .relinquishment
  | .deregister => .deregistration

def command? (line : Str) : Option Command :=
  if line = lit "REGISTER" ∨ line = lit "register" then some .register
  else if line = lit "GRANT" ∨ line = lit "grant" then some .grant
  else if line = lit "HEARTBEAT" ∨ line = lit "heartbeat" then some .heartbeat
  else if line = lit "RELINQUISH" ∨ line = lit "relinquish" then some .relinquish
  else if line = lit "DEREGISTER" ∨ line = lit "deregister" then some .deregister
  else none

def quits (line : Str) : Bool := line = lit "QUIT" ∨ line = lit "quit"

/-- Where an agent is in its loop, with the message that is on its way. -/
inductive Phase where
  | idle
  | sent (cmd : Command) (req : Str)
  | awaiting (cmd : Command)
  | answered (cmd : Command) (resp : Str)
  | ended
deriving DecidableEq

structure Agent where
  cfg : CbsdConfig
  state : SpectrumState := .unregistered
  cbsdId : Str := []
  grantId : Str := []
  phase : Phase := .idle

def registrationRequest (cfg : CbsdConfig) : Str :=
  obj [(lit "type", str (lit "RegistrationRequest")), (lit "fccId", str cfg.fccId),
    (lit "callSign", str cfg.callSign), (lit "cbsdCategory", str cfg.category),
    (lit "radioTechnology", str (lit "NR")), (lit "latitude", flt cfg.latitude),
    (lit "longitude", flt cfg.longitude), (lit "height", flt cfg.heightMeters),
    (lit "heightType", str (lit "AGL")), (lit "antennaGain", flt cfg.antennaGainDbi),
    (lit "measCapability", str (lit "RECEIVED_POWER_WITH_GRANT"))]

def grantRequest (a : Agent) : Str :=
  obj [(lit "type", str (lit "GrantRequest")), (lit "cbsdId", str a.cbsdId),
    (lit "operationFrequencyMHz", flt a.cfg.desiredFreqMHz),
    (lit "operationBandwidthMHz", flt a.cfg.desiredBwMHz),
    (lit "maxEirp", num (if a.cfg.category = lit "A" then 30 else 47))]

def heartbeatRequest (a : Agent) : Str :=
  let opState := if a.state = .authorized then lit "AUTHORIZED" else lit "GRANTED"
  obj [(lit "type", str (lit "HeartbeatRequest")), (lit "cbsdId", str a.cbsdId),
    (lit "grantId", str a.grantId), (lit "operationState", str opState)]

def relinquishmentRequest (a : Agent) : Str :=
  obj [(lit "type", str (lit "RelinquishmentRequest")), (lit "cbsdId", str a.cbsdId),
    (lit "grantId", str a.grantId)]

def deregistrationRequest (a : Agent) : Str :=
  obj [(lit "type", str (lit "DeregistrationRequest")), (lit "cbsdId", str a.cbsdId)]

def Agent.request? (a : Agent) : Command → Option Str
  | .register => if a.state ≠ .unregistered then none else some (registrationRequest a.cfg)
  | .grant => if a.state ≠ .registered then none else some (grantRequest a)
  | .heartbeat =>
    if a.state ≠ .granted ∧ a.state ≠ .authorized then none else some (heartbeatRequest a)
  | .relinquish => if a.grantId.isEmpty then none else some (relinquishmentRequest a)
  | .deregister => if a.cbsdId.isEmpty then none else some (deregistrationRequest a)

/-- The agent's test of a response; three of the commands have none. -/
def accepts (cmd : Command) (resp : Str) : Bool :=
  match cmd with
  | .register => get resp (lit "responseCode") = lit "0" ∨ get resp (lit "cbsdId") ≠ []
  | .grant => get resp (lit "responseCode") = lit "0" ∨ get resp (lit "grantId") ≠ []
  | .heartbeat => true
  | .relinquish => true
  | .deregister => true

def Agent.handle (a : Agent) (cmd : Command) (resp : Str) : Agent :=
  match cmd with
  | .register =>
    { a with cbsdId := get resp (lit "cbsdId"),
             state := if accepts cmd resp then .registered else a.state }
  | .grant =>
    { a with grantId := get resp (lit "grantId"),
             state := if accepts cmd resp then .granted else a.state }
  | .heartbeat => { a with state := .authorized }
  | .relinquish => { a with grantId := [], state := .registered }
  | .deregister => { a with cbsdId := [], grantId := [], state := .unregistered }

/-- The agents are numbered as their connections at the proxy. -/
structure State where
  agents : Nat → Option Agent := fun _ => none
  proxy : DomainProxy.State := {}

inductive Input where
  | start (profileId : Str)
  | line (c : Nat) (text : Str)
  | deliver (c : Nat)
  | exchange (c : Nat) (resp : Str)
  | update (c : Nat)
  | receive (c : Nat)
  | hangup (c : Nat)

/-- An agent has handled the response to its request. -/
inductive Event where
  | completed (c : Nat) (cmd : Command) (resp : Str)
deriving DecidableEq

def Receivable (text : Str) : Prop := 1 ≤ text.length ∧ text.length ≤ 65536

instance (text : Str) : Decidable (Receivable text) := inferInstanceAs (Decidable (_ ∧ _))

def State.setAgent (s : State) (c : Nat) (a : Agent) : State :=
  { s with agents := Function.update s.agents c (some a) }

def Agent.read (a : Agent) (text : Str) : Agent :=
  match command? text with
  | some cmd =>
    match a.request? cmd with
    | some req => { a with phase := .sent cmd req }
    | none => a
  | none => if quits text then { a with phase := .ended } else a

/-- What comes back for a request that has reached the proxy; an agent whose connection the proxy
closes ends. -/
def delivered (cmd : Command) : List DomainProxy.Event → Phase
  | [.accepted _ _] => .awaiting cmd
  | [.rejected _ _ text] => .answered cmd text
  | _ => .ended

def Agent.answer (a : Agent) (es : List DomainProxy.Event) : Agent :=
  match a.phase, es with
  | .awaiting cmd, .answered _ resp :: _ => { a with phase := .answered cmd resp }
  | _, _ => a

def deliver (s : State) (c : Nat) (a : Agent) (cmd : Command) (req : Str) : State :=
  let i := if Receivable req then .message c req else .disconnect c
  match DomainProxy.step s.proxy i with
  | some (proxy, es) => { s with proxy := proxy }.setAgent c { a with phase := delivered cmd es }
  | none => s.setAgent c { a with phase := .ended }

def step : Machine State Input Event
  | s, .start profileId =>
    match cbsdProfiles profileId, DomainProxy.step s.proxy .accept with
    | some cfg, some (proxy, _) =>
      some ({ s with proxy := proxy }.setAgent s.proxy.conns.length { cfg := cfg }, [])
    | _, _ => none
  | s, .line c text =>
    match s.agents c with
    | some a => if a.phase = .idle then some (s.setAgent c (a.read text), []) else none
    | none => none
  | s, .deliver c =>
    match s.agents c with
    | some a =>
      match a.phase with
      | .sent cmd req => some (deliver s c a cmd req, [])
      | _ => none
    | none => none
  | s, .exchange c resp =>
    match DomainProxy.step s.proxy (.exchange c resp) with
    | some (proxy, _) => if resp.length ≤ 65536 then some ({ s with proxy := proxy }, []) else none
    | none => none
  | s, .update c =>
    match s.agents c, DomainProxy.step s.proxy (.update c) with
    | some a, some (proxy, es) => some ({ s with proxy := proxy }.setAgent c (a.answer es), [])
    | _, _ => none
  | s, .receive c =>
    match s.agents c with
    | some a =>
      match a.phase with
      | .answered cmd resp =>
        if Receivable resp then
          some (s.setAgent c { a.handle cmd resp with phase := .idle }, [.completed c cmd resp])
        else some (s.setAgent c { a with phase := .ended }, [])
      | _ => none
    | none => none
  | s, .hangup c =>
    match s.agents c with
    | some a =>
      if a.phase = .ended then
        match DomainProxy.step s.proxy (.disconnect c) with
        | some (proxy, _) => some ({ s with proxy := proxy }, [])
        | none => none
      else none
    | none => none

def init : State := {}

theorem agents_setAgent (s : State) (c d : Nat) (a : Agent) :
    (s.setAgent c a).agents d = if d = c then some a else s.agents d :=
  Function.update_apply s.agents c (some a) d

inductive Steps (s : State) : Input → State → List Event → Prop where
  | start {profileId : Str} {cfg : CbsdConfig} {proxy : DomainProxy.State}
      {told : List DomainProxy.Event}
      (hproxy : DomainProxy.step s.proxy .accept = some (proxy, told)) :
      Steps s (.start profileId)
        ({ s with proxy := proxy }.setAgent s.proxy.conns.length { cfg := cfg }) []
  | line {c : Nat} {text : Str} {a : Agent} (ha : s.agents c = some a) (hphase : a.phase = .idle) :
      Steps s (.line c text) (s.setAgent c (a.read text)) []
  | deliver {c : Nat} {a : Agent} {cmd : Command} {req : Str} (ha : s.agents c = some a)
      (hphase : a.phase = .sent cmd req) : Steps s (.deliver c) (deliver s c a cmd req) []
  | exchange {c : Nat} {resp : Str} {proxy : DomainProxy.State} {told : List DomainProxy.Event}
      (hproxy : DomainProxy.step s.proxy (.exchange c resp) = some (proxy, told)) :
      Steps s (.exchange c resp) { s with proxy := proxy } []
  | update {c : Nat} {a : Agent} {proxy : DomainProxy.State} {told : List DomainProxy.Event}
      (ha : s.agents c = some a)
      (hproxy : DomainProxy.step s.proxy (.update c) = some (proxy, told)) :
      Steps s (.update c) ({ s with proxy := proxy }.setAgent c (a.answer told)) []
  | receive {c : Nat} {a : Agent} {cmd : Command} {resp : Str} (ha : s.agents c = some a)
      (hphase : a.phase = .answered cmd resp) (hresp : Receivable resp) :
      Steps s (.receive c) (s.setAgent c { a.handle cmd resp with phase := .idle })
        [.completed c cmd resp]
  | lost {c : Nat} {a : Agent} {cmd : Command} {resp : Str} (ha : s.agents c = some a)
      (hphase : a.phase = .answered cmd resp) :
      Steps s (.receive c) (s.setAgent c { a with phase := .ended }) []
  | hangup {c : Nat} {a : Agent} {proxy : DomainProxy.State} {told : List DomainProxy.Event}
      (ha : s.agents c = some a) (hphase : a.phase = .ended)
      (hproxy : DomainProxy.step s.proxy (.disconnect c) = some (proxy, told)) :
      Steps s (.hangup c) { s with proxy := proxy } []

theorem step_steps {s s' : State} {i : Input} {es : List Event} (h : step s i = some (s', es)) :
    Steps s i s' es := by
  cases i with
  | start profileId =>
      rw [step] at h
      split at h
      · rename_i hproxy
        cases h
        exact .start hproxy
      · cases h
  | line c text =>
      rw [step] at h
      split at h
      · rename_i ha
        split at h
        · rename_i hphase
          cases h
          exact .line ha hphase
        · cases h
      · cases h
  | deliver c =>
      rw [step] at h
      split at h
      · rename_i ha
        split at h
        · rename_i hphase
          cases h
          exact .deliver ha hphase
        · cases h
      · cases h
  | exchange c resp =>
      rw [step] at h
      split at h
      · rename_i hproxy
        split at h
        · cases h
          exact .exchange hproxy
        · cases h
      · cases h
  | update c =>
      rw [step] at h
      split at h
      · rename_i ha hproxy
        cases h
        exact .update ha hproxy
      · cases h
  | receive c =>
      rw [step] at h
      split at h
      · rename_i ha
        split at h
        · rename_i hphase
          split at h
          · rename_i hresp
            cases h
            exact .receive ha hphase hresp
          · cases h
            exact .lost ha hphase
        · cases h
      · cases h
  | hangup c =>
      rw [step] at h
      split at h
      · rename_i ha
        split at h
        · rename_i hphase
          split at h
          · rename_i hproxy
            cases h
            exact .hangup ha hphase hproxy
          · cases h
        · cases h
      · cases h

end MobileCore.CbsdAgent
