import MobileCore.BinaryFloats
import MobileCore.LabelledRuns
import MobileCore.NestedObjects

/-!
# The simulated Spectrum Access System

One thread for each Domain Proxy answers its requests one at a time and takes new identifiers from
counters that all of them share. An exception in any of them ends the process.
-/

namespace MobileCore.SasStub

open CppText BinaryFloats LabelledRuns
open FlatObjects (Quoteless)
open NestedObjects (get get_obj look_plain)
open WireJson (num obj str)

/-- The exchanges between a CBSD and the SAS. -/
inductive Kind where
  | registration
  | grant
  | heartbeat
  | relinquishment
  | deregistration
deriving DecidableEq

def Kind.request : Kind → Str
  | .registration => lit "RegistrationRequest"
  | .grant => lit "GrantRequest"
  | .heartbeat => lit "HeartbeatRequest"
  | .relinquishment => lit "RelinquishmentRequest"
  | .deregistration => lit "DeregistrationRequest"

def Kind.response : Kind → Str
  | .registration => lit "RegistrationResponse"
  | .grant => lit "GrantResponse"
  | .heartbeat => lit "HeartbeatResponse"
  | .relinquishment => lit "RelinquishmentResponse"
  | .deregistration => lit "DeregistrationResponse"

/-- The exchange that a request of the type opens. -/
def requestKind? (type : Str) : Option Kind :=
  if type = lit "RegistrationRequest" then some .registration
  else if type = lit "GrantRequest" then some .grant
  else if type = lit "HeartbeatRequest" then some .heartbeat
  else if type = lit "RelinquishmentRequest" then some .relinquishment
  else if type = lit "DeregistrationRequest" then some .deregistration
  else none

/-- The exchange that a response of the type closes. -/
def responseKind? (type : Str) : Option Kind :=
  [Kind.registration, .grant, .heartbeat, .relinquishment, .deregistration].find?
    fun kind => kind.response = type

theorem mem_responseKind? {type : Str} {kind : Kind} :
    kind ∈ responseKind? type ↔ type = kind.response := by
  constructor
  · intro h
    have hresponse := List.find?_some h
    exact (of_decide_eq_true hresponse).symm
  · rintro rfl
    cases kind <;> decide

/-- The counters, of type `atomic<int>`. -/
structure Counters where
  cbsd : Int := 1
  grant : Int := 1
deriving DecidableEq

def increment (n : Int) : Int := (n + 1).bmod (2 ^ 32)

def makeCbsdId (s : Counters) : Str × Counters :=
  (lit "CBSD-SAS-" ++ intText s.cbsd, { s with cbsd := increment s.cbsd })

def makeGrantId (s : Counters) : Str × Counters :=
  (lit "GRANT-" ++ intText s.grant, { s with grant := increment s.grant })

def registrationResponse (cbsdId : Str) : Str :=
  obj [(lit "type", str (lit "RegistrationResponse")), (lit "cbsdId", str cbsdId),
    (lit "response", obj [(lit "responseCode", num 0), (lit "responseMessage", str (lit "SUCCESS"))])]

def grantResponse (cbsdId grantId : Str) (freq bw eirp : Double) : Str :=
  obj [(lit "type", str (lit "GrantResponse")), (lit "cbsdId", str cbsdId),
    (lit "grantId", str grantId), (lit "channelType", str (lit "GAA")),
    (lit "operationFrequencyMHz", flt freq), (lit "operationBandwidthMHz", flt bw),
    (lit "maxEirp", num eirp.toInt), (lit "grantExpireTime", num 3600),
    (lit "heartbeatInterval", num 120), (lit "response", obj [(lit "responseCode", num 0)])]

def heartbeatResponse (cbsdId grantId : Str) : Str :=
  obj [(lit "type", str (lit "HeartbeatResponse")), (lit "cbsdId", str cbsdId),
    (lit "grantId", str grantId), (lit "transmitExpireTime", num 3600),
    (lit "heartbeatInterval", num 120), (lit "response", obj [(lit "responseCode", num 0)])]

def relinquishmentResponse (cbsdId grantId : Str) : Str :=
  obj [(lit "type", str (lit "RelinquishmentResponse")), (lit "cbsdId", str cbsdId),
    (lit "grantId", str grantId), (lit "response", obj [(lit "responseCode", num 0)])]

def deregistrationResponse (cbsdId : Str) : Str :=
  obj [(lit "type", str (lit "DeregistrationResponse")), (lit "cbsdId", str cbsdId),
    (lit "response", obj [(lit "responseCode", num 0)])]

def errorResponse : Str :=
  obj [(lit "type", str (lit "ErrorResponse")),
    (lit "response",
      obj [(lit "responseCode", num 103), (lit "responseMessage", str (lit "INVALID_VALUE"))])]

def numericField (text : Str) (default : Nat) : Option Double :=
  if text.isEmpty then some (ofNat default) else stod text

def cap (limit : Nat) (v : Double) : Double := if v.gt limit then ofNat limit else v

/-- `none` where a conversion throws. -/
def handleGrant (s : Counters) (req : Str) : Option (Counters × Str) :=
  match numericField (get req (lit "operationFrequencyMHz")) 3555,
      numericField (get req (lit "operationBandwidthMHz")) 10,
      numericField (get req (lit "maxEirp")) 30 with
  | some freq, some bw, some eirp =>
    let (grantId, s) := makeGrantId s
    some (s, grantResponse (get req (lit "cbsdId")) grantId freq (cap 20 bw) (cap 30 eirp))
  | _, _, _ => none

/-- What the loop of `handleDpConnection` does with one request. -/
def handleRequest (s : Counters) (req : Str) : Option (Counters × Str) :=
  let type := get req (lit "type")
  if type = lit "RegistrationRequest" then
    let (cbsdId, s) := makeCbsdId s
    some (s, registrationResponse cbsdId)
  else if type = lit "GrantRequest" then handleGrant s req
  else if type = lit "HeartbeatRequest" then
    some (s, heartbeatResponse (get req (lit "cbsdId")) (get req (lit "grantId")))
  else if type = lit "RelinquishmentRequest" then
    some (s, relinquishmentResponse (get req (lit "cbsdId")) (get req (lit "grantId")))
  else if type = lit "DeregistrationRequest" then
    some (s, deregistrationResponse (get req (lit "cbsdId")))
  else some (s, errorResponse)

/-- One thread's requests, among identifiers that other threads take. -/
inductive Input where
  | request (text : Str)
  | takeCbsdId
  | takeGrantId

inductive Event where
  | response (text : Str)
  | terminated
deriving DecidableEq

structure State where
  counters : Counters := {}
  running : Bool := true

def handleDpConnection : Machine State Input Event
  | s, i =>
    if s.running then
      match i with
      | .request req =>
        match handleRequest s.counters req with
        | some (counters, resp) => some ({ s with counters := counters }, [.response resp])
        | none => some ({ s with running := false }, [.terminated])
      | .takeCbsdId => some ({ s with counters := (makeCbsdId s.counters).2 }, [])
      | .takeGrantId => some ({ s with counters := (makeGrantId s.counters).2 }, [])
    else none

section Responses

theorem get_type {t : Str} (h : Quoteless t) (kv : List (Str × Str)) :
    get (obj ((lit "type", str t) :: kv)) (lit "type") = t := by
  rw [get_obj, look_plain kv (by decide) (by decide) (.quoted t h)]
  exact if_pos rfl

def answerType (type : Str) : Str :=
  match requestKind? type with
  | some kind => kind.response
  | none => lit "ErrorResponse"

/-- Each numeric field of a grant request is empty or a number. -/
def Converts (req : Str) : Prop :=
  get req (lit "type") = lit "GrantRequest" →
    ∀ field ∈ [lit "operationFrequencyMHz", lit "operationBandwidthMHz", lit "maxEirp"],
      get req field = [] ∨ (stod (get req field)).isSome = true

instance (req : Str) : Decidable (Converts req) :=
  inferInstanceAs (Decidable (_ → ∀ field ∈ _, _))

theorem numericField_isSome (text : Str) (default : Nat) :
    (numericField text default).isSome = true ↔ text = [] ∨ (stod text).isSome = true := by
  rw [numericField]
  split
  · rename_i hempty
    exact iff_of_true rfl (Or.inl (List.isEmpty_iff.mp hempty))
  · rename_i hsome
    rw [List.isEmpty_iff] at hsome
    exact ⟨Or.inr, fun h => h.resolve_left hsome⟩

theorem handleGrant_isSome (s : Counters) (req : Str) :
    (handleGrant s req).isSome = true ↔
      ∀ field ∈ [lit "operationFrequencyMHz", lit "operationBandwidthMHz", lit "maxEirp"],
        get req field = [] ∨ (stod (get req field)).isSome = true := by
  have hfields : (handleGrant s req).isSome = true ↔
      (numericField (get req (lit "operationFrequencyMHz")) 3555).isSome = true ∧
        (numericField (get req (lit "operationBandwidthMHz")) 10).isSome = true ∧
        (numericField (get req (lit "maxEirp")) 30).isSome = true := by
    rw [handleGrant]
    split
    · rename_i hfreq hbw heirp
      rw [hfreq, hbw, heirp]
      simp
    · rename_i hnone
      refine iff_of_false (by simp) ?_
      rintro ⟨hfreq, hbw, heirp⟩
      obtain ⟨freq, hfreq⟩ := Option.isSome_iff_exists.mp hfreq
      obtain ⟨bw, hbw⟩ := Option.isSome_iff_exists.mp hbw
      obtain ⟨eirp, heirp⟩ := Option.isSome_iff_exists.mp heirp
      exact hnone freq bw eirp hfreq hbw heirp
  rw [hfields, numericField_isSome, numericField_isSome, numericField_isSome]
  simp

theorem handleRequest_isSome (s : Counters) (req : Str) :
    (handleRequest s req).isSome = true ↔ Converts req := by
  rw [Converts, ← handleGrant_isSome s req, handleRequest]
  dsimp only
  split
  · rename_i htype
    rw [htype]
    exact iff_of_true rfl fun h => absurd h (by decide)
  · split
    · rename_i htype
      exact ⟨fun h _ => h, fun h => h htype⟩
    · rename_i htype
      refine iff_of_true ?_ fun h => absurd h htype
      split <;> try rfl
      split <;> try rfl
      split <;> rfl

theorem handleRequest_answers {s s' : Counters} {req resp : Str}
    (h : handleRequest s req = some (s', resp)) :
    get resp (lit "type") = answerType (get req (lit "type")) := by
  rw [handleRequest] at h
  rw [answerType, requestKind?]
  split at h
  · rename_i htype
    obtain ⟨-, rfl⟩ := Prod.mk.inj (Option.some.inj h)
    rw [if_pos htype]
    exact get_type (by decide) _
  · rename_i hreg
    rw [if_neg hreg]
    split at h
    · rename_i htype
      rw [if_pos htype]
      rw [handleGrant] at h
      split at h
      · obtain ⟨-, rfl⟩ := Prod.mk.inj (Option.some.inj h)
        exact get_type (by decide) _
      · cases h
    · rename_i hgrant
      rw [if_neg hgrant]
      split at h
      · rename_i htype
        obtain ⟨-, rfl⟩ := Prod.mk.inj (Option.some.inj h)
        rw [if_pos htype]
        exact get_type (by decide) _
      · rename_i hheartbeat
        rw [if_neg hheartbeat]
        split at h
        · rename_i htype
          obtain ⟨-, rfl⟩ := Prod.mk.inj (Option.some.inj h)
          rw [if_pos htype]
          exact get_type (by decide) _
        · rename_i hrelinquish
          rw [if_neg hrelinquish]
          split at h
          · rename_i htype
            obtain ⟨-, rfl⟩ := Prod.mk.inj (Option.some.inj h)
            rw [if_pos htype]
            exact get_type (by decide) _
          · rename_i hderegister
            obtain ⟨-, rfl⟩ := Prod.mk.inj (Option.some.inj h)
            rw [if_neg hderegister]
            exact get_type (by decide) _

theorem answerType_registration {type : Str} (h : answerType type = lit "RegistrationResponse") :
    type = lit "RegistrationRequest" := by
  rw [answerType, requestKind?] at h
  split at h
  · rename_i kind hkind
    split at hkind
    · assumption
    · cases kind with
      | registration =>
          split at hkind
          · cases hkind
          · split at hkind
            · cases hkind
            · split at hkind
              · cases hkind
              · split at hkind <;> cases hkind
      | grant => exact absurd h (by decide)
      | heartbeat => exact absurd h (by decide)
      | relinquishment => exact absurd h (by decide)
      | deregistration => exact absurd h (by decide)
  · exact absurd h (by decide)

theorem handleRequest_registration {req : Str}
    (h : get req (lit "type") = lit "RegistrationRequest") (s : Counters) :
    handleRequest s req =
      some ((makeCbsdId s).2, registrationResponse (makeCbsdId s).1) := by
  rw [handleRequest, h]
  exact if_pos rfl

theorem handleRequest_cbsd {s s' : Counters} {req resp : Str}
    (hreq : get req (lit "type") ≠ lit "RegistrationRequest")
    (h : handleRequest s req = some (s', resp)) : s'.cbsd = s.cbsd := by
  rw [handleRequest] at h
  dsimp only at h
  rw [if_neg hreq] at h
  split at h
  · rw [handleGrant] at h
    split at h
    · cases h
      rfl
    · cases h
  · split at h
    · cases h
      rfl
    · split at h
      · cases h
        rfl
      · split at h <;>
        · cases h
          rfl

theorem get_registrationResponse {cbsdId : Str} (h : Quoteless cbsdId) :
    get (registrationResponse cbsdId) (lit "cbsdId") = cbsdId := by
  rw [registrationResponse, get_obj, look_plain _ (by decide) (by decide) (.quoted _ (by decide)),
    if_neg (by decide), look_plain _ (by decide) (by decide) (.quoted _ h), if_pos rfl]

end Responses

section Robustness

/-- The request is answered with one response of its kind and the thread goes on; one that does
not convert is answered with an error and takes no identifier. -/
def Handles (s : State) (req : Str) : Prop :=
  ∃ s' resp, handleDpConnection s (.request req) = some (s', [.response resp]) ∧
    s'.running = true ∧
    (Converts req → get resp (lit "type") = answerType (get req (lit "type"))) ∧
    (¬Converts req → get resp (lit "type") = lit "ErrorResponse" ∧ s'.counters = s.counters)

/-- Every request finds the thread where it left off and is handled. -/
def Robust (s : State) (is : List Input) : Prop :=
  ∀ front req back, is = front ++ .request req :: back →
    ∃ s' tr, exec handleDpConnection s front = some (s', tr) ∧ Handles s' req

theorem handles_of_converts {s : State} {req : Str} (hrunning : s.running = true)
    (h : Converts req) : Handles s req := by
  obtain ⟨⟨counters, resp⟩, hresp⟩ :=
    Option.isSome_iff_exists.mp ((handleRequest_isSome s.counters req).mpr h)
  have htype := handleRequest_answers hresp
  refine ⟨{ s with counters := counters }, resp, ?_, hrunning, fun _ => htype,
    fun hnot => absurd h hnot⟩
  rw [handleDpConnection, if_pos hrunning, hresp]

theorem converts_of_handles {s : State} {req : Str} (h : Handles s req) : Converts req := by
  obtain ⟨s', resp, hstep, -⟩ := h
  rw [handleDpConnection] at hstep
  split at hstep
  · rw [← handleRequest_isSome s.counters req]
    split at hstep
    · rename_i hresp
      rw [hresp]
      rfl
    · cases hstep
  · cases hstep

theorem exec_running {s : State} {is : List Input} (hrunning : s.running = true)
    (h : ∀ req, .request req ∈ is → Converts req) :
    ∃ s' tr, exec handleDpConnection s is = some (s', tr) ∧ s'.running = true := by
  induction is generalizing s with
  | nil => exact ⟨s, [], rfl, hrunning⟩
  | cons i is ih =>
      have hnext : ∃ s₁ es, handleDpConnection s i = some (s₁, es) ∧ s₁.running = true := by
        cases i with
        | request req =>
            obtain ⟨s₁, resp, hstep, hon, -⟩ :=
              handles_of_converts hrunning (h req List.mem_cons_self)
            exact ⟨s₁, _, hstep, hon⟩
        | takeCbsdId =>
            refine ⟨{ s with counters := (makeCbsdId s.counters).2 }, [], ?_, hrunning⟩
            rw [handleDpConnection, if_pos hrunning]
        | takeGrantId =>
            refine ⟨{ s with counters := (makeGrantId s.counters).2 }, [], ?_, hrunning⟩
            rw [handleDpConnection, if_pos hrunning]
      obtain ⟨s₁, es, hstep, hon⟩ := hnext
      obtain ⟨s', tr, hexec, hend⟩ := ih hon fun req hreq => h req (List.mem_cons_of_mem i hreq)
      refine ⟨s', es ++ tr, ?_, hend⟩
      simp only [exec, hstep, hexec]

/-- The requests are handled exactly when the numeric fields of every grant request convert. -/
theorem robust_iff (counters : Counters) (is : List Input) :
    Robust { counters := counters } is ↔ ∀ req, .request req ∈ is → Converts req := by
  constructor
  · intro h req hreq
    obtain ⟨front, back, hsplit⟩ := List.append_of_mem hreq
    obtain ⟨s', tr, -, hhandles⟩ := h front req back hsplit
    exact converts_of_handles hhandles
  · rintro h front req back rfl
    obtain ⟨s', tr, hexec, hrunning⟩ := exec_running (s := { counters := counters }) rfl
      fun r hr => h r (List.mem_append_left _ hr)
    refine ⟨s', tr, hexec, handles_of_converts hrunning ?_⟩
    exact h req (List.mem_append_right _ List.mem_cons_self)

/-- The bandwidth of a grant request is not a number. -/
theorem not_robust_wide :
    ¬∀ (counters : Counters) (is : List Input), Robust { counters := counters } is := by
  intro h
  obtain ⟨s', tr, hexec, hhandles⟩ := h {} [.request (obj [(lit "type", str (lit "GrantRequest")),
    (lit "operationBandwidthMHz", str (lit "wide"))])] [] _ [] rfl
  exact absurd (converts_of_handles hhandles) (by decide)

end Robustness

end MobileCore.SasStub
