import MobileCore.LastWrite
import MobileCore.SasStub

/-!
# The Domain Proxy

One thread for each CBSD connection takes its messages in turn, passes them on to the SAS and
follows the responses in a registry that all threads share. What the SAS answers is an input; an
empty text stands for a response that could not be read.
-/

namespace MobileCore.DomainProxy

open CppText BinaryFloats LastWrite LabelledRuns
open NestedObjects (get)
open WireJson (num obj str)
open SasStub (Kind requestKind?)

inductive SpectrumState where
  | unregistered
  | registered
  | granted
  | authorized
deriving DecidableEq

structure CbsdInfo where
  cbsdId : Str := []
  fccId : Str := []
  callSign : Str := []
  category : Str := []
  state : SpectrumState := .unregistered
  grantId : Str := []
  grantFreqMHz : Double := zero false
  grantBwMHz : Double := zero false
  maxEirp : Double := zero false
deriving DecidableEq

abbrev CbsdRegistry := Table Str CbsdInfo

namespace CbsdRegistry

def upsert (store : CbsdRegistry) (info : CbsdInfo) : CbsdRegistry := store.insert info.cbsdId info

/-- What `get` leaves in a fresh `CbsdInfo`. -/
def get (store : CbsdRegistry) (cbsdId : Str) : CbsdInfo := (store.lookup cbsdId).getD {}

def update (store : CbsdRegistry) (cbsdId : Str) (f : CbsdInfo → CbsdInfo) : CbsdRegistry :=
  match store.lookup cbsdId with
  | some info => store.insert cbsdId (f info)
  | none => store

def setState (store : CbsdRegistry) (cbsdId : Str) (s : SpectrumState) : CbsdRegistry :=
  store.update cbsdId fun info => { info with state := s }

def setGrant (store : CbsdRegistry) (cbsdId grantId : Str) (freqMHz bwMHz maxEirp : Double) :
    CbsdRegistry :=
  store.update cbsdId fun info =>
    { info with grantId := grantId, grantFreqMHz := freqMHz, grantBwMHz := bwMHz,
                maxEirp := maxEirp, state := .granted }

def clearGrant (store : CbsdRegistry) (cbsdId : Str) : CbsdRegistry :=
  store.update cbsdId fun info => { info with grantId := [], state := .registered }

def remove (store : CbsdRegistry) (cbsdId : Str) : CbsdRegistry := store.erase cbsdId

end CbsdRegistry

/-- Where a thread is: at its connection, in `forwardToSas`, behind it, or at its end. -/
inductive Thread where
  | receiving
  | forwarding (req : Str)
  | updating (req resp : Str)
  | exited
deriving DecidableEq

structure Conn where
  myCbsdId : Str := []
  thread : Thread := .receiving
deriving DecidableEq

structure State where
  registry : CbsdRegistry := ∅
  conns : List Conn := []

inductive Input where
  | accept
  | message (c : Nat) (req : Str)
  | disconnect (c : Nat)
  | exchange (c : Nat) (resp : Str)
  | update (c : Nat)
deriving DecidableEq

/-- What comes from a CBSD and goes to it, what goes through the SAS, and the ends of threads. -/
inductive Event where
  | accepted (c : Nat) (req : Str)
  | rejected (c : Nat) (req text : Str)
  | forwarded (c : Nat) (req resp : Str)
  | answered (c : Nat) (text : Str)
  | exited (c : Nat)
deriving DecidableEq

def info (s : State) (conn : Conn) : CbsdInfo :=
  if conn.myCbsdId.isEmpty then {} else s.registry.get conn.myCbsdId

def error (type : Str) (code : Int) (text : Str) : Str :=
  obj [(lit "type", str type),
    (lit "response", obj [(lit "responseCode", num code), (lit "responseMessage", str text)])]

/-- The error that the guard answers with instead of forwarding. -/
def stateMachineGuard (state : SpectrumState) (type : Str) : Option Str :=
  if type = lit "GrantRequest" ∧ state ≠ .registered then
    some (error (lit "GrantResponse") 103 (lit "Must be REGISTERED first"))
  else if type = lit "HeartbeatRequest" ∧ state ≠ .granted ∧ state ≠ .authorized then
    some (error (lit "HeartbeatResponse") 400 (lit "TERMINATED_GRANT"))
  else none

def success (rc : Str) : Bool := rc = lit "0" ∨ rc.isEmpty

/-- A number of the response, zero where the conversion throws. -/
def number (resp field : Str) : Double := (stod (get resp field)).getD (zero false)

/-- The registry and the thread's own identifier after a response, and whether the loop ends. -/
def updateState (registry : CbsdRegistry) (myCbsdId req resp : Str) : CbsdRegistry × Str × Bool :=
  let respType := get resp (lit "type")
  let ok := success (get resp (lit "responseCode"))
  if respType = lit "RegistrationResponse" ∧ ok then
    let cbsdId := get resp (lit "cbsdId")
    (registry.upsert { cbsdId := cbsdId, fccId := get req (lit "fccId"),
                       callSign := get req (lit "callSign"),
                       category := get req (lit "cbsdCategory"), state := .registered },
      cbsdId, false)
  else if respType = lit "GrantResponse" ∧ ok then
    (registry.setGrant myCbsdId (get resp (lit "grantId"))
      (number resp (lit "operationFrequencyMHz")) (number resp (lit "operationBandwidthMHz"))
      (number resp (lit "maxEirp")), myCbsdId, false)
  else if respType = lit "HeartbeatResponse" ∧ ok then
    (registry.setState myCbsdId .authorized, myCbsdId, false)
  else if respType = lit "RelinquishmentResponse" ∧ ok then
    (registry.clearGrant myCbsdId, myCbsdId, false)
  else if respType = lit "DeregistrationResponse" then
    (registry.remove myCbsdId, myCbsdId, true)
  else (registry, myCbsdId, false)

def State.setConn (s : State) (c : Nat) (conn : Conn) : State :=
  { s with conns := s.conns.set c conn }

def handleMessage (s : State) (c : Nat) (conn : Conn) (req : Str) : State × List Event :=
  match stateMachineGuard (info s conn).state (get req (lit "type")) with
  | some err => (s, [.rejected c req err])
  | none => (s.setConn c { conn with thread := .forwarding req }, [.accepted c req])

def handleDisconnect (s : State) (c : Nat) (conn : Conn) : State × List Event :=
  let registry :=
    if conn.myCbsdId.isEmpty then s.registry else s.registry.remove conn.myCbsdId
  ({ s with registry := registry }.setConn c { conn with thread := .exited }, [.exited c])

def handleUpdate (s : State) (c : Nat) (conn : Conn) (req resp : Str) : State × List Event :=
  let (registry, myCbsdId, ended) := updateState s.registry conn.myCbsdId req resp
  let thread := if ended then .exited else .receiving
  ({ s with registry := registry }.setConn c { myCbsdId := myCbsdId, thread := thread },
    .answered c resp :: if ended then [.exited c] else [])

/-- `exchange` is the whole of `forwardToSas`, which holds the mutex of the SAS socket. -/
def step : Machine State Input Event
  | s, .accept => some ({ s with conns := s.conns ++ [{}] }, [])
  | s, .message c req =>
    match s.conns[c]? with
    | some conn => if conn.thread = .receiving then some (handleMessage s c conn req) else none
    | none => none
  | s, .disconnect c =>
    match s.conns[c]? with
    | some conn => if conn.thread = .receiving then some (handleDisconnect s c conn) else none
    | none => none
  | s, .exchange c resp =>
    match s.conns[c]? with
    | some ⟨myCbsdId, .forwarding req⟩ =>
      some (s.setConn c ⟨myCbsdId, .updating req resp⟩, [.forwarded c req resp])
    | _ => none
  | s, .update c =>
    match s.conns[c]? with
    | some ⟨myCbsdId, .updating req resp⟩ =>
      some (handleUpdate s c ⟨myCbsdId, .updating req resp⟩ req resp)
    | _ => none

def init : State := {}

section Registry

variable (store : CbsdRegistry) (cbsdId : Str)

theorem lookup_update (f : CbsdInfo → CbsdInfo) (k : Str) :
    (store.update cbsdId f).lookup k =
      if k = cbsdId then (store.lookup cbsdId).map f else store.lookup k := by
  rw [CbsdRegistry.update]
  split
  · rename_i info hlookup
    split
    · rename_i heq
      rw [heq, AList.lookup_insert, hlookup]
      rfl
    · rename_i hne
      exact AList.lookup_insert_ne hne
  · rename_i hlookup
    split
    · rename_i heq
      rw [heq, hlookup]
      rfl
    · rfl

theorem lookup_upsert (info : CbsdInfo) (k : Str) :
    (store.upsert info).lookup k = if k = info.cbsdId then some info else store.lookup k := by
  rw [CbsdRegistry.upsert]
  split
  · rename_i heq
    rw [heq, AList.lookup_insert]
  · rename_i hne
    exact AList.lookup_insert_ne hne

theorem lookup_remove (k : Str) :
    (store.remove cbsdId).lookup k = if k = cbsdId then none else store.lookup k := by
  rw [CbsdRegistry.remove]
  split
  · rename_i heq
    rw [heq, AList.lookup_erase]
  · rename_i hne
    exact AList.lookup_erase_ne hne

end Registry

def newInfo (req resp : Str) : CbsdInfo :=
  { cbsdId := get resp (lit "cbsdId"), fccId := get req (lit "fccId"),
    callSign := get req (lit "callSign"), category := get req (lit "cbsdCategory"),
    state := .registered }

/-- The ways in which a response changes the registry. -/
inductive Updates (registry : CbsdRegistry) (myCbsdId req resp : Str) :
    CbsdRegistry → Str → Bool → Prop where
  | registered (htype : get resp (lit "type") = Kind.registration.response)
      (hok : success (get resp (lit "responseCode")) = true) :
      Updates registry myCbsdId req resp (registry.upsert (newInfo req resp))
        (get resp (lit "cbsdId")) false
  | granted (htype : get resp (lit "type") = Kind.grant.response)
      (hok : success (get resp (lit "responseCode")) = true) :
      Updates registry myCbsdId req resp
        (registry.setGrant myCbsdId (get resp (lit "grantId"))
          (number resp (lit "operationFrequencyMHz")) (number resp (lit "operationBandwidthMHz"))
          (number resp (lit "maxEirp"))) myCbsdId false
  | authorized (htype : get resp (lit "type") = Kind.heartbeat.response)
      (hok : success (get resp (lit "responseCode")) = true) :
      Updates registry myCbsdId req resp (registry.setState myCbsdId .authorized) myCbsdId false
  | relinquished (htype : get resp (lit "type") = Kind.relinquishment.response)
      (hok : success (get resp (lit "responseCode")) = true) :
      Updates registry myCbsdId req resp (registry.clearGrant myCbsdId) myCbsdId false
  | deregistered (htype : get resp (lit "type") = Kind.deregistration.response) :
      Updates registry myCbsdId req resp (registry.remove myCbsdId) myCbsdId true
  | unchanged (h : ∀ kind : Kind, get resp (lit "type") = kind.response →
        kind ≠ .deregistration ∧ success (get resp (lit "responseCode")) = false) :
      Updates registry myCbsdId req resp registry myCbsdId false

theorem updateState_updates {registry registry' : CbsdRegistry} {myCbsdId id req resp : Str}
    {ended : Bool} (h : updateState registry myCbsdId req resp = (registry', id, ended)) :
    Updates registry myCbsdId req resp registry' id ended := by
  rw [updateState] at h
  dsimp only at h
  split at h
  · rename_i hreg
    cases h
    exact .registered hreg.1 hreg.2
  · rename_i hreg
    split at h
    · rename_i hgrant
      cases h
      exact .granted hgrant.1 hgrant.2
    · rename_i hgrant
      split at h
      · rename_i hheartbeat
        cases h
        exact .authorized hheartbeat.1 hheartbeat.2
      · rename_i hheartbeat
        split at h
        · rename_i hrelinquish
          cases h
          exact .relinquished hrelinquish.1 hrelinquish.2
        · rename_i hrelinquish
          split at h
          · rename_i hderegister
            cases h
            exact .deregistered hderegister
          · rename_i hderegister
            cases h
            refine .unchanged fun kind htype => ?_
            have hfails {t : Str} (ht : kind.response = t)
                (hnot : ¬(get resp (lit "type") = t ∧
                  success (get resp (lit "responseCode")) = true)) :
                success (get resp (lit "responseCode")) = false := by
              rw [← Bool.not_eq_true]
              exact fun hok => hnot ⟨htype.trans ht, hok⟩
            cases kind with
            | registration => exact ⟨by decide, hfails rfl hreg⟩
            | grant => exact ⟨by decide, hfails rfl hgrant⟩
            | heartbeat => exact ⟨by decide, hfails rfl hheartbeat⟩
            | relinquishment => exact ⟨by decide, hfails rfl hrelinquish⟩
            | deregistration => exact absurd htype hderegister

inductive Steps (s : State) : Input → State → List Event → Prop where
  | accept : Steps s .accept { s with conns := s.conns ++ [{}] } []
  | reject {c : Nat} {conn : Conn} {req err : Str} (hconn : s.conns[c]? = some conn)
      (hthread : conn.thread = .receiving)
      (hguard : stateMachineGuard (info s conn).state (get req (lit "type")) = some err) :
      Steps s (.message c req) s [.rejected c req err]
  | forward {c : Nat} {conn : Conn} {req : Str} (hconn : s.conns[c]? = some conn)
      (hthread : conn.thread = .receiving)
      (hguard : stateMachineGuard (info s conn).state (get req (lit "type")) = none) :
      Steps s (.message c req) (s.setConn c { conn with thread := .forwarding req })
        [.accepted c req]
  | disconnect {c : Nat} {conn : Conn} (hconn : s.conns[c]? = some conn)
      (hthread : conn.thread = .receiving) :
      Steps s (.disconnect c) (handleDisconnect s c conn).1 [.exited c]
  | exchange {c : Nat} {id req resp : Str} (hconn : s.conns[c]? = some ⟨id, .forwarding req⟩) :
      Steps s (.exchange c resp) (s.setConn c ⟨id, .updating req resp⟩) [.forwarded c req resp]
  | update {c : Nat} {id id' req resp : Str} {registry : CbsdRegistry} {ended : Bool}
      (hconn : s.conns[c]? = some ⟨id, .updating req resp⟩)
      (hupdates : Updates s.registry id req resp registry id' ended) :
      Steps s (.update c)
        ({ s with registry := registry }.setConn c
          ⟨id', if ended then .exited else .receiving⟩)
        (.answered c resp :: if ended then [.exited c] else [])

theorem step_steps {s s' : State} {i : Input} {es : List Event} (h : step s i = some (s', es)) :
    Steps s i s' es := by
  cases i with
  | accept =>
      cases h
      exact .accept
  | message c req =>
      rw [step] at h
      split at h
      · rename_i conn hconn
        split at h
        · rename_i hthread
          rw [handleMessage] at h
          split at h
          · rename_i err hguard
            cases h
            exact .reject hconn hthread hguard
          · rename_i hguard
            cases h
            exact .forward hconn hthread hguard
        · cases h
      · cases h
  | disconnect c =>
      rw [step] at h
      split at h
      · rename_i conn hconn
        split at h
        · rename_i hthread
          cases h
          exact .disconnect hconn hthread
        · cases h
      · cases h
  | exchange c resp =>
      rw [step] at h
      split at h
      · rename_i id req hconn
        cases h
        exact .exchange hconn
      · cases h
  | update c =>
      rw [step] at h
      split at h
      · rename_i id req resp hconn
        rw [handleUpdate] at h
        cases h
        exact .update hconn (updateState_updates rfl)
      · cases h

section Connections

variable {s : State} {c : Nat} {conn old : Conn} {registry : CbsdRegistry}

@[simp] theorem registry_setConn : (s.setConn c conn).registry = s.registry := rfl

theorem conns_setConn (hold : s.conns[c]? = some old) (d : Nat) :
    ({ s with registry := registry }.setConn c conn).conns[d]? =
      if d = c then some conn else s.conns[d]? := by
  rw [State.setConn, List.getElem?_set]
  split
  · rename_i heq
    obtain ⟨hlt, -⟩ := List.getElem?_eq_some_iff.mp hold
    rw [if_pos heq.symm, if_pos hlt]
  · rename_i hne
    rw [if_neg fun heq => hne heq.symm]

theorem conns_setConn_self (hold : s.conns[c]? = some old) :
    ({ s with registry := registry }.setConn c conn).conns[c]? = some conn :=
  (conns_setConn hold c).trans (if_pos rfl)

theorem conns_setConn_cases (hold : s.conns[c]? = some old) {d : Nat} {other : Conn}
    (h : ({ s with registry := registry }.setConn c conn).conns[d]? = some other) :
    (d = c ∧ other = conn) ∨ (d ≠ c ∧ s.conns[d]? = some other) := by
  rw [conns_setConn hold] at h
  split at h
  · rename_i hd
    exact Or.inl ⟨hd, (Option.some.inj h).symm⟩
  · rename_i hd
    exact Or.inr ⟨hd, h⟩

end Connections

end MobileCore.DomainProxy
