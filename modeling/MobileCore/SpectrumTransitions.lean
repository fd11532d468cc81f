import MobileCore.RecordOwnership

/-!
# The documented transitions of a CBSD

The guard looks at the type of a request, and only at two of the five; the registry follows the
type of the response. Where the messages keep to the documented order the recorded states do.
-/

namespace MobileCore.SpectrumTransitions

open CppText LabelledRuns
open NestedObjects (get)
open WireJson (obj str)
open SasStub (Kind requestKind? responseKind? mem_responseKind?)
open DomainProxy RecordOwnership

/-- The documented transitions. -/
def next? : SpectrumState → Kind → Option SpectrumState
  | .unregistered, .registration => some .registered
  | .registered, .grant => some .granted
  | .granted, .heartbeat => some .authorized
  | .authorized, .heartbeat => some .authorized
  | .granted, .relinquishment => some .registered
  | .authorized, .relinquishment => some .registered
  | .registered, .deregistration => some .unregistered
  | .granted, .deregistration => some .unregistered
  | .authorized, .deregistration => some .unregistered
  | _, _ => none

/-- Where the transitions of an exchange lead, from whatever state. -/
def target : Kind → SpectrumState
  | .registration => .registered
  | .grant => .granted
  | .heartbeat => .authorized
  | .relinquishment => .registered
  | .deregistration => .unregistered

theorem next?_target {state : SpectrumState} {kind : Kind} (h : (next? state kind).isSome = true) :
    next? state kind = some (target kind) := by
  cases state <;> cases kind <;> first | rfl | cases h

/-- The state has a transition for a request of the type. -/
def Permitted (state : SpectrumState) (type : Str) : Prop :=
  ∃ kind, requestKind? type = some kind ∧ (next? state kind).isSome = true

instance (state : SpectrumState) (type : Str) : Decidable (Permitted state type) :=
  decidable_of_iff (((requestKind? type).bind (next? state)).isSome = true) (by
    cases h : requestKind? type <;> simp [Permitted, h])

def stateOf (s : State) (cbsdId : Str) : SpectrumState := (s.registry.get cbsdId).state

/-- The identifier whose record a response is about. -/
def subject (kind : Kind) (myCbsdId resp : Str) : Str :=
  if kind = .registration then get resp (lit "cbsdId") else myCbsdId

/-- What a step does to the recorded state of an identifier. -/
inductive Along (s : State) (i : Input) (s' : State) (cbsdId : Str) : Prop where
  | same (h : stateOf s' cbsdId = stateOf s cbsdId)
  | disconnected (c : Nat) (hi : i = .disconnect c)
      (howner : (s.conns[c]?.map Conn.myCbsdId) = some cbsdId)
      (hstate : stateOf s' cbsdId = .unregistered)
  | answered (c : Nat) (id req resp : Str) (kind : Kind) (hi : i = .update c)
      (hconn : s.conns[c]? = some ⟨id, .updating req resp⟩)
      (hreq : requestKind? (get req (lit "type")) = some kind)
      (hresp : get resp (lit "type") = kind.response)
      (hcode : get resp (lit "responseCode") = lit "0")
      (hsubject : cbsdId = subject kind id resp)
      (hnext : next? (stateOf s cbsdId) kind = some (stateOf s' cbsdId))

/-- The step keeps every record to the documented transitions, and a request without one is
answered with an error and goes no further. -/
structure Follows (s : State) (i : Input) (s' : State) (es : List Event) : Prop where
  records : ∀ cbsdId, Along s i s' cbsdId
  refused : ∀ (c : Nat) (req : Str) (conn : Conn), i = .message c req → s.conns[c]? = some conn →
    ¬Permitted (info s conn).state (get req (lit "type")) →
    s' = s ∧ ∃ type code text, code ≠ 0 ∧ es = [.rejected c req (error type code text)]

/-- A response of one of the five types succeeds with the code zero and belongs to the request, or
fails with a code and is not about a deregistration. -/
def Matches (req resp : Str) : Prop :=
  ∀ kind ∈ responseKind? (get resp (lit "type")),
    (get resp (lit "responseCode") = lit "0" ∧
        requestKind? (get req (lit "type")) = some kind) ∨
      (success (get resp (lit "responseCode")) = false ∧ kind ≠ .deregistration)

instance (req resp : Str) : Decidable (Matches req resp) :=
  inferInstanceAs (Decidable (∀ kind ∈ _, _))

/-- Requests that the guard does not look at come in a state that has a transition for them. -/
def Orderly (s : State) : Input → Prop
  | .message c req =>
    ∀ conn ∈ s.conns[c]?, get req (lit "type") = lit "GrantRequest" ∨
      get req (lit "type") = lit "HeartbeatRequest" ∨
      Permitted (info s conn).state (get req (lit "type"))
  | .exchange c resp =>
    ∀ conn ∈ s.conns[c]?, ∀ req ∈ passing? conn.thread, Matches req resp
  | .update c => ∀ conn ∈ s.conns[c]?, ∀ resp ∈ following? conn.thread, Fresh s resp
  | _ => True

instance Orderly.decidable (s : State) : (i : Input) → Decidable (Orderly s i)
  | .message c _ => inferInstanceAs (Decidable (∀ conn ∈ s.conns[c]?, _))
  | .exchange c _ => inferInstanceAs (Decidable (∀ conn ∈ s.conns[c]?, _))
  | .update c => inferInstanceAs (Decidable (∀ conn ∈ s.conns[c]?, _))
  | .accept => .isTrue trivial
  | .disconnect _ => .isTrue trivial

theorem Orderly.freshIds {s : State} {i : Input} (h : Orderly s i) : FreshIds s i := by
  cases i with
  | update c => exact h
  | _ => trivial

def Passed (_ : Str) (r : CbsdInfo) (req : Str) : Prop := Permitted r.state (get req (lit "type"))

def Answered (_ : Str) (r : CbsdInfo) (req resp : Str) : Prop :=
  Permitted r.state (get req (lit "type")) ∧ Matches req resp

structure Tracked (s : State) : Prop where
  owned : Owned s
  threads : Carries Passed Answered s
  recorded : ∀ cbsdId r, s.registry.lookup cbsdId = some r →
    r.state ≠ .unregistered ∧ (cbsdId = [] → r.state = .registered)

theorem stateMachineGuard_none {state : SpectrumState} {type : Str} (h : stateMachineGuard state type = none) :
    (type = lit "GrantRequest" → state = .registered) ∧
      (type = lit "HeartbeatRequest" → state = .granted ∨ state = .authorized) := by
  rw [stateMachineGuard] at h
  split at h
  · cases h
  · rename_i hgrant
    split at h
    · cases h
    · rename_i hheartbeat
      constructor
      · intro htype
        by_contra hstate
        exact hgrant ⟨htype, hstate⟩
      · intro htype
        by_contra hstate
        rw [not_or] at hstate
        exact hheartbeat ⟨htype, hstate⟩

theorem permitted_of_guard_none {state : SpectrumState} {type : Str}
    (h : stateMachineGuard state type = none)
    (htype : type = lit "GrantRequest" ∨ type = lit "HeartbeatRequest") :
    Permitted state type := by
  obtain ⟨hgrant, hheartbeat⟩ := stateMachineGuard_none h
  rcases htype with htype | htype
  · rw [hgrant htype, htype]
    decide
  · rcases hheartbeat htype with hstate | hstate
    · rw [hstate, htype]
      decide
    · rw [hstate, htype]
      decide

theorem stateMachineGuard_some {state : SpectrumState} {type err : Str} (h : stateMachineGuard state type = some err) :
    ∃ t code text, code ≠ 0 ∧ err = error t code text := by
  rw [stateMachineGuard] at h
  split at h
  · cases h
    exact ⟨_, 103, _, by decide, rfl⟩
  · split at h
    · cases h
      exact ⟨_, 400, _, by decide, rfl⟩
    · cases h

section Responses

variable {s : State} {c : Nat} {id req resp : Str} {kind : Kind}

theorem Tracked.answers (h : Tracked s) (hconn : s.conns[c]? = some ⟨id, .updating req resp⟩)
    (htype : get resp (lit "type") = kind.response)
    (hchange : success (get resp (lit "responseCode")) = true ∨ kind = .deregistration) :
    get resp (lit "responseCode") = lit "0" ∧ requestKind? (get req (lit "type")) = some kind ∧
      (next? (info s ⟨id, .updating req resp⟩).state kind).isSome = true := by
  obtain ⟨⟨kind', hreq', hnext⟩, hmatches⟩ := h.threads.updating c id req resp hconn
  rcases hmatches kind (mem_responseKind?.mpr htype) with ⟨hcode, hreq⟩ | ⟨hfail, hne⟩
  · rw [hreq] at hreq'
    cases hreq'
    exact ⟨hcode, hreq, hnext⟩
  · rcases hchange with hok | hkind
    · rw [hfail] at hok
      cases hok
    · exact absurd hkind hne

theorem Tracked.id_ne_nil (h : Tracked s) (hconn : s.conns[c]? = some ⟨id, .updating req resp⟩)
    (htype : get resp (lit "type") = kind.response)
    (hchange : success (get resp (lit "responseCode")) = true ∨ kind = .deregistration)
    (hkind : kind ≠ .registration) : id ≠ [] := by
  rintro rfl
  obtain ⟨-, -, hnext⟩ := h.answers hconn htype hchange
  rw [info_of_empty rfl] at hnext
  cases kind with
  | registration => exact hkind rfl
  | grant => cases hnext
  | heartbeat => cases hnext
  | relinquishment => cases hnext
  | deregistration => cases hnext

end Responses

section Steps

variable {s s' : State} {i : Input} {es : List Event} {c : Nat}

theorem holds_updating {id req resp : Str} (hold : s.conns[c]? = some ⟨id, .updating req resp⟩)
    (hid : id ≠ []) : Holds s c ⟨id, .updating req resp⟩ :=
  ⟨hold, (fun hexited => by cases hexited), hid⟩

/-- The records after a step. No change that a response makes in place concerns the record under
the empty identifier, which only a registration can write. -/
theorem recorded_step (h : Tracked s) (hstep : step s i = some (s', es)) {k : Str}
    {r : CbsdInfo} (hlookup : s'.registry.lookup k = some r) :
    r.state ≠ .unregistered ∧ (k = [] → r.state = .registered) := by
  have hupdated {id : Str} (hid : id ≠ []) {f : CbsdInfo → CbsdInfo} {state : SpectrumState}
      (hafter : (s.registry.update id f).lookup k = some r) (hf : ∀ r, (f r).state = state)
      (hstate : state ≠ .unregistered) :
      r.state ≠ .unregistered ∧ (k = [] → r.state = .registered) := by
    rw [lookup_update] at hafter
    split at hafter
    · rename_i hk
      obtain ⟨r₀, -, rfl⟩ := Option.map_eq_some_iff.mp hafter
      exact ⟨hf r₀ ▸ hstate, fun hempty => absurd (hk.symm.trans hempty) hid⟩
    · exact h.recorded k r hafter
  have hremoved {id : Str} (hafter : (s.registry.remove id).lookup k = some r) :
      r.state ≠ .unregistered ∧ (k = [] → r.state = .registered) := by
    rw [lookup_remove] at hafter
    split at hafter
    · cases hafter
    · exact h.recorded k r hafter
  cases step_steps hstep with
  | accept => exact h.recorded k r hlookup
  | reject => exact h.recorded k r hlookup
  | forward => exact h.recorded k r hlookup
  | exchange => exact h.recorded k r hlookup
  | disconnect =>
      rw [handleDisconnect, registry_setConn] at hlookup
      split at hlookup
      · exact h.recorded k r hlookup
      · exact hremoved hlookup
  | @update c _ _ _ _ _ _ hold hupdates =>
      cases hupdates with
      | registered htype hok =>
          rw [registry_setConn, lookup_upsert] at hlookup
          split at hlookup
          · cases hlookup
            exact ⟨(fun hstate => by cases hstate), fun _ => rfl⟩
          · exact h.recorded k r hlookup
      | granted htype hok =>
          rw [registry_setConn, CbsdRegistry.setGrant] at hlookup
          have hid := h.id_ne_nil hold htype (Or.inl hok) (by decide)
          exact hupdated hid hlookup (fun _ => rfl) (by decide)
      | authorized htype hok =>
          rw [registry_setConn, CbsdRegistry.setState] at hlookup
          have hid := h.id_ne_nil hold htype (Or.inl hok) (by decide)
          exact hupdated hid hlookup (fun _ => rfl) (by decide)
      | relinquished htype hok =>
          rw [registry_setConn, CbsdRegistry.clearGrant] at hlookup
          have hid := h.id_ne_nil hold htype (Or.inl hok) (by decide)
          exact hupdated hid hlookup (fun _ => rfl) (by decide)
      | deregistered => exact hremoved hlookup
      | unchanged => exact h.recorded k r hlookup

theorem tracked_step (h : Tracked s) (hguard : Orderly s i) (hstep : step s i = some (s', es)) :
    Tracked s' where
  owned := owned_step h.owned hguard.freshIds hstep
  threads := by
    apply h.threads.step h.owned hguard.freshIds hstep
    · rintro c conn req rfl hconn hnone
      rcases hguard conn hconn with hgrant | hheartbeat | hpermitted
      · exact permitted_of_guard_none hnone (Or.inl hgrant)
      · exact permitted_of_guard_none hnone (Or.inr hheartbeat)
      · exact hpermitted
    · rintro c id req resp rfl hconn hpassed
      exact ⟨hpassed, hguard _ hconn req rfl⟩
  recorded _ _ hlookup := recorded_step h hstep hlookup

theorem stateOf_updated {c : Nat} {conn : Conn} {id k : Str} {f : CbsdInfo → CbsdInfo} :
    stateOf ({ s with registry := s.registry.update id f }.setConn c conn) k =
      if k = id ∧ (s.registry.lookup id).isSome = true then (f (s.registry.get id)).state
      else stateOf s k := by
  rw [stateOf, registry_setConn, CbsdRegistry.get, lookup_update]
  by_cases hk : k = id
  · subst hk
    cases hlookup : s.registry.lookup k with
    | none => simp [stateOf, CbsdRegistry.get, hlookup]
    | some r => simp [CbsdRegistry.get, hlookup]
  · simp [hk, stateOf, CbsdRegistry.get]

theorem Tracked.along_updated (h : Tracked s) {c : Nat} {conn : Conn} {id req resp : Str}
    (hconn : s.conns[c]? = some ⟨id, .updating req resp⟩) {kind : Kind}
    (hkind : kind ≠ .registration ∧ kind ≠ .deregistration)
    (htype : get resp (lit "type") = kind.response)
    (hok : success (get resp (lit "responseCode")) = true) {f : CbsdInfo → CbsdInfo}
    (hf : ∀ r, (f r).state = target kind) (k : Str) :
    Along s (.update c) ({ s with registry := s.registry.update id f }.setConn c conn) k := by
  have hid := h.id_ne_nil hconn htype (Or.inl hok) hkind.1
  have hheld : (s.registry.lookup id).isSome = true :=
    h.owned.held c _ (holds_updating hconn hid)
  obtain ⟨hcode, hreq, hpermitted⟩ := h.answers hconn htype (Or.inl hok)
  have hinfo : (info s ⟨id, .updating req resp⟩).state = stateOf s id :=
    congrArg CbsdInfo.state (info_of_ne hid)
  rw [hinfo] at hpermitted
  by_cases hk : k = id
  · apply Along.answered c id req resp kind rfl hconn hreq htype hcode
    · rw [subject, if_neg hkind.1, hk]
    · rw [stateOf_updated, if_pos ⟨hk, hheld⟩, hf, hk]
      exact next?_target hpermitted
  · apply Along.same
    rw [stateOf_updated, if_neg fun hboth => hk hboth.1]

theorem along_disconnected {c : Nat} {conn : Conn} (hconn : s.conns[c]? = some conn) (k : Str) :
    Along s (.disconnect c) (handleDisconnect s c conn).1 k := by
  by_cases hk : k = conn.myCbsdId ∧ conn.myCbsdId ≠ []
  · apply Along.disconnected c rfl
    · rw [hconn, hk.1]
      rfl
    · rw [handleDisconnect, stateOf, registry_setConn,
        if_neg fun hempty => hk.2 (List.isEmpty_iff.mp hempty), CbsdRegistry.get,
        lookup_remove, if_pos hk.1]
      rfl
  · apply Along.same
    rw [handleDisconnect, stateOf, registry_setConn, stateOf]
    split
    · rfl
    · rename_i hne
      rw [List.isEmpty_iff] at hne
      rw [CbsdRegistry.get, lookup_remove, if_neg fun heq => hk ⟨heq, hne⟩]
      rfl

theorem Tracked.along_registered (h : Tracked s) {c : Nat} {id req resp : Str}
    (hconn : s.conns[c]? = some ⟨id, .updating req resp⟩)
    (htype : get resp (lit "type") = Kind.registration.response)
    (hok : success (get resp (lit "responseCode")) = true)
    (hfresh : get resp (lit "cbsdId") = [] ∨
      s.registry.lookup (get resp (lit "cbsdId")) = none) (k : Str) :
    Along s (.update c) ({ s with registry := s.registry.upsert (newInfo req resp) }.setConn c
      ⟨get resp (lit "cbsdId"), .receiving⟩) k := by
  have hafter : stateOf ({ s with registry := s.registry.upsert (newInfo req resp) }.setConn c
      ⟨get resp (lit "cbsdId"), .receiving⟩) k =
      if k = get resp (lit "cbsdId") then .registered else stateOf s k := by
    rw [stateOf, registry_setConn, CbsdRegistry.get, lookup_upsert]
    split
    · rename_i hk
      exact (if_pos hk).symm
    · rename_i hk
      exact (if_neg hk).symm
  by_cases hk : k = get resp (lit "cbsdId")
  · rw [if_pos hk] at hafter
    cases hlookup : s.registry.lookup k with
    | none =>
        obtain ⟨hcode, hreq, -⟩ := h.answers hconn htype (Or.inl hok)
        apply Along.answered c id req resp .registration rfl hconn hreq htype hcode
        · exact hk
        · have hbefore : stateOf s k = .unregistered := by
            rw [stateOf, CbsdRegistry.get, hlookup]
            rfl
          rw [hbefore]
          exact congrArg some hafter.symm
    | some r =>
        rcases hfresh with hempty | hnone
        · apply Along.same
          refine hafter.trans ?_
          rw [stateOf, CbsdRegistry.get, hlookup]
          exact ((h.recorded k r hlookup).2 (hk.trans hempty)).symm
        · rw [hk, hnone] at hlookup
          cases hlookup
  · apply Along.same
    exact hafter.trans (if_neg hk)

theorem Tracked.along_deregistered (h : Tracked s) {c : Nat} {id req resp : Str}
    (hconn : s.conns[c]? = some ⟨id, .updating req resp⟩)
    (htype : get resp (lit "type") = Kind.deregistration.response) (k : Str) :
    Along s (.update c)
      ({ s with registry := s.registry.remove id }.setConn c ⟨id, .exited⟩) k := by
  have hid := h.id_ne_nil hconn htype (Or.inr rfl) (by decide)
  obtain ⟨hcode, hreq, hpermitted⟩ := h.answers hconn htype (Or.inr rfl)
  have hinfo : (info s ⟨id, .updating req resp⟩).state = stateOf s id :=
    congrArg CbsdInfo.state (info_of_ne hid)
  rw [hinfo] at hpermitted
  have hafter : stateOf ({ s with registry := s.registry.remove id }.setConn c
      ⟨id, .exited⟩) k = if k = id then .unregistered else stateOf s k := by
    rw [stateOf, registry_setConn, CbsdRegistry.get, lookup_remove]
    split
    · rfl
    · rfl
  by_cases hk : k = id
  · apply Along.answered c id req resp .deregistration rfl hconn hreq htype hcode
    · exact hk
    · refine Eq.trans ?_ (congrArg some (hafter.trans (if_pos hk)).symm)
      rw [hk]
      exact next?_target hpermitted
  · apply Along.same
    exact hafter.trans (if_neg hk)

theorem follows_step (h : Tracked s) (hguard : Orderly s i) (hstep : step s i = some (s', es)) :
    Follows s i s' es := by
  cases step_steps hstep with
  | accept => exact ⟨fun _ => .same rfl, fun _ _ _ hi => by cases hi⟩
  | @reject c conn req err hconn hthread hsome =>
      refine ⟨fun _ => .same rfl, ?_⟩
      intro c' req' conn' hi hconn' _
      cases hi
      obtain ⟨type, code, text, hcode, rfl⟩ := stateMachineGuard_some hsome
      exact ⟨rfl, type, code, text, hcode, rfl⟩
  | @forward c conn req hconn hthread hnone =>
      refine ⟨fun _ => .same rfl, ?_⟩
      intro c' req' conn' hi hconn' hnot
      cases hi
      rw [hconn] at hconn'
      cases hconn'
      rcases hguard conn hconn with hgrant | hheartbeat | hpermitted
      · exact absurd (permitted_of_guard_none hnone (Or.inl hgrant)) hnot
      · exact absurd (permitted_of_guard_none hnone (Or.inr hheartbeat)) hnot
      · exact absurd hpermitted hnot
  | disconnect hconn => exact ⟨along_disconnected hconn, fun _ _ _ hi => by cases hi⟩
  | exchange => exact ⟨fun _ => .same rfl, fun _ _ _ hi => by cases hi⟩
  | @update c id id' req resp registry ended hconn hupdates =>
      refine ⟨fun k => ?_, fun _ _ _ hi => by cases hi⟩
      cases hupdates with
      | registered htype hok =>
          exact h.along_registered hconn htype hok (hguard _ hconn resp rfl htype hok) k
      | granted htype hok =>
          exact h.along_updated hconn (by decide) htype hok (fun _ => rfl) k
      | authorized htype hok =>
          exact h.along_updated hconn (by decide) htype hok (fun _ => rfl) k
      | relinquished htype hok =>
          exact h.along_updated hconn (by decide) htype hok (fun _ => rfl) k
      | deregistered htype => exact h.along_deregistered hconn htype k
      | unchanged hnone => exact .same rfl

end Steps

theorem tracked_run {tr : List Event} {s : State}
    (hrun : Run step (fun _ => Orderly) init tr s) : Tracked s := by
  refine Run.invariant (I := fun _ => Tracked) ?_ ?_ hrun
  · refine ⟨owned_init, carries_init, ?_⟩
    intro k r hlookup
    cases hlookup
  · intro tr s i s' es h hguard hstep
    exact tracked_step h hguard hstep

/-- In a run of orderly steps every step follows the documented transitions. -/
theorem follows_of_orderly {tr es : List Event} {s s' : State} {i : Input}
    (hrun : Run step (fun _ => Orderly) init tr s) (hguard : Orderly s i)
    (hstep : step s i = some (s', es)) : Follows s i s' es :=
  follows_step (tracked_run hrun) hguard hstep

def registrationRequest : Str :=
  obj [(lit "type", str (lit "RegistrationRequest")), (lit "fccId", str (lit "FCC-DEVICE-001"))]

/-- The first registration. -/
theorem follows_registration : ∃ tr s s' es, Run step (fun _ => Orderly) init tr s ∧
    step s (.update 0) = some (s', es) ∧ Follows s (.update 0) s' es := by
  have hexec : (exec step init [.accept, .message 0 registrationRequest,
      .exchange 0 (SasStub.registrationResponse (lit "CBSD-SAS-1"))]).map
      (fun x => ((step x.1 (.update 0)).isSome, decide (Orderly x.1 (.update 0)))) =
      some (true, true) := by decide
  obtain ⟨tr, s, hrun, hview⟩ :=
    exists_run_of_exec (P := fun _ => Orderly) _ (by decide) hexec
  obtain ⟨hsome, hguard⟩ := Prod.mk.inj hview
  obtain ⟨⟨s', es⟩, hstep⟩ := Option.isSome_iff_exists.mp hsome
  exact ⟨tr, s, s', es, hrun, hstep, follows_of_orderly hrun (of_decide_eq_true hguard) hstep⟩

/-- A connection that has not registered relinquishes a grant. -/
theorem not_follows_relinquishment : ¬∀ tr s i s' es, Reach step init tr s →
    step s i = some (s', es) → Follows s i s' es := by
  intro h
  have hrun : Reach step init [] { conns := [({} : Conn)] } :=
    Run.single (i := .accept) trivial rfl
  have hstep : step { conns := [({} : Conn)] }
      (.message 0 (obj [(lit "type", str (lit "RelinquishmentRequest"))])) =
      some (({ conns := [({} : Conn)] } : State).setConn 0
        ⟨[], .forwarding (obj [(lit "type", str (lit "RelinquishmentRequest"))])⟩,
        [.accepted 0 (obj [(lit "type", str (lit "RelinquishmentRequest"))])]) := by rfl
  obtain ⟨-, type, code, text, -, hes⟩ :=
    (h _ _ _ _ _ hrun hstep).refused 0 _ {} rfl rfl (by decide)
  cases hes

end MobileCore.SpectrumTransitions
