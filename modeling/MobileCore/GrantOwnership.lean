import MobileCore.RecordOwnership

/-!
# Whose grant a request names

The proxy passes a message on as it came and compares the identifiers in it with nothing. What an
authorized record stands for depends on the CBSDs putting their own identifiers into their
messages.
-/

namespace MobileCore.GrantOwnership

open CppText LabelledRuns
open NestedObjects (get)
open WireJson (num obj str)
open SasStub (Kind requestKind? responseKind? mem_responseKind?)
open DomainProxy RecordOwnership

def assigns? (c : Nat) : Event → Option Str
  | .answered d resp =>
    if d = c ∧ get resp (lit "type") = lit "RegistrationResponse" ∧
        success (get resp (lit "responseCode")) then
      some (get resp (lit "cbsdId"))
    else none
  | _ => none

/-- The identifier that the SAS assigned to the connection last. -/
def assigned (c : Nat) (tr : List Event) : Str := ((tr.filterMap (assigns? c)).getLast?).getD []

/-- The response is a successful answer to a heartbeat. -/
def HeartbeatOk (resp : Str) : Prop :=
  get resp (lit "type") = lit "HeartbeatResponse" ∧
    success (get resp (lit "responseCode")) = true

/-- What is forwarded is what the CBSD sent, and a record is authorized because the SAS confirmed
a request that was forwarded for a connection with the identifier of the record. -/
structure Confirmed (tr : List Event) (s : State) : Prop where
  unmodified : Backed (fun before e => ∀ c req resp, e = .forwarded c req resp →
    .accepted c req ∈ before) tr
  authorized : ∀ cbsdId r, s.registry.lookup cbsdId = some r → r.state = .authorized →
    ∃ before c req resp after, tr = before ++ .answered c resp :: after ∧
      .forwarded c req resp ∈ before ∧ HeartbeatOk resp ∧ assigned c before = cbsdId

/-- The identifiers of a request are those recorded for its connection. -/
def NamesOwn (conn : Conn) (r : CbsdInfo) (req : Str) : Prop :=
  ∀ kind ∈ requestKind? (get req (lit "type")), kind ≠ .registration →
    get req (lit "cbsdId") = conn.myCbsdId ∧
      (get req (lit "grantId") = r.grantId ∨
        (get req (lit "grantId") = [] ∧ kind ≠ .heartbeat))

instance (conn : Conn) (r : CbsdInfo) (req : Str) : Decidable (NamesOwn conn r req) :=
  inferInstanceAs (Decidable (∀ kind ∈ _, _))

/-- Requests are forwarded with the identifiers of their connection, and a record is authorized
because the SAS confirmed a heartbeat for it and its grant. -/
structure OwnIds (tr : List Event) (s : State) : Prop where
  forwarding : ∀ (c : Nat) (conn : Conn) (req : Str), s.conns[c]? = some conn →
    conn.thread = .forwarding req → NamesOwn conn (info s conn) req
  authorized : ∀ cbsdId r, s.registry.lookup cbsdId = some r → r.state = .authorized →
    ∃ c req resp, .forwarded c req resp ∈ tr ∧ HeartbeatOk resp ∧
      get req (lit "type") = lit "HeartbeatRequest" ∧ get req (lit "cbsdId") = cbsdId ∧
      get req (lit "grantId") = r.grantId

/-- CBSDs name what is recorded for them, and the SAS answers requests with responses of their
kind and registrations with identifiers that are not in use. -/
def Named (s : State) : Input → Prop
  | .message c req => ∀ conn ∈ s.conns[c]?, NamesOwn conn (info s conn) req
  | .exchange c resp =>
    ∀ conn ∈ s.conns[c]?, ∀ req ∈ passing? conn.thread,
      ∀ kind ∈ responseKind? (get resp (lit "type")), requestKind? (get req (lit "type")) = some kind
  | .update c => ∀ conn ∈ s.conns[c]?, ∀ resp ∈ following? conn.thread, Fresh s resp
  | _ => True

instance Named.decidable (s : State) : (i : Input) → Decidable (Named s i)
  | .message c _ => inferInstanceAs (Decidable (∀ conn ∈ s.conns[c]?, _))
  | .exchange c _ => inferInstanceAs (Decidable (∀ conn ∈ s.conns[c]?, _))
  | .update c => inferInstanceAs (Decidable (∀ conn ∈ s.conns[c]?, _))
  | .accept => .isTrue trivial
  | .disconnect _ => .isTrue trivial

theorem assigned_append (c : Nat) (tr es : List Event) :
    assigned c (tr ++ es) =
      if (es.filterMap (assigns? c)) = [] then assigned c tr else assigned c es := by
  rw [assigned, assigned, assigned, List.filterMap_append]
  split
  · rename_i hnil
    rw [hnil, List.append_nil]
  · rename_i hsome
    rw [List.getLast?_append_of_ne_nil _ hsome]

theorem assigned_of_silent {c : Nat} {es : List Event} (h : ∀ e ∈ es, assigns? c e = none)
    (tr : List Event) : assigned c (tr ++ es) = assigned c tr := by
  rw [assigned_append, if_pos]
  exact List.filterMap_eq_nil_iff.mpr h

theorem assigned_of_silent_event {c : Nat} {e : Event} (h : assigns? c e = none)
    (tr : List Event) : assigned c (tr ++ [e]) = assigned c tr := by
  apply assigned_of_silent
  intro e' he
  rw [List.mem_singleton.mp he]
  exact h

theorem assigns?_other {c d : Nat} (h : d ≠ c) (resp : Str) :
    assigns? d (.answered c resp) = none := by
  rw [assigns?, if_neg]
  exact fun hboth => h hboth.1.symm

theorem assigned_updates {registry registry' : CbsdRegistry} {c : Nat} {id id' req resp : Str}
    {ended : Bool} {tr : List Event} (hid : id = assigned c tr)
    (h : Updates registry id req resp registry' id' ended) :
    id' = assigned c (tr ++ .answered c resp :: if ended then [.exited c] else []) := by
  have hsilent (hnot : ¬(get resp (lit "type") = lit "RegistrationResponse" ∧
      success (get resp (lit "responseCode")) = true)) :
      ∀ e ∈ Event.answered c resp :: if ended then [.exited c] else [], assigns? c e = none := by
    intro e he
    rcases List.mem_cons.mp he with rfl | he
    · rw [assigns?, if_neg]
      exact fun hall => hnot hall.2
    · split at he
      · rw [List.mem_singleton.mp he]
        rfl
      · cases he
  have hother {kind : Kind} (htype : get resp (lit "type") = kind.response)
      (hkind : kind.response ≠ lit "RegistrationResponse") :
      id = assigned c (tr ++ .answered c resp :: if ended then [.exited c] else []) := by
    rw [assigned_of_silent (hsilent fun hboth => hkind (htype.symm.trans hboth.1)), hid]
  cases h with
  | registered htype hok =>
      have hnew : assigns? c (.answered c resp) = some (get resp (lit "cbsdId")) := by
        rw [assigns?, if_pos ⟨rfl, htype, hok⟩]
      rw [assigned_append, if_neg, assigned]
      · simp [hnew]
      · simp [hnew]
  | granted htype => exact hother htype (by decide)
  | authorized htype => exact hother htype (by decide)
  | relinquished htype => exact hother htype (by decide)
  | deregistered htype => exact hother htype (by decide)
  | unchanged hnone =>
      rw [assigned_of_silent, hid]
      apply hsilent
      rintro ⟨htype, hok⟩
      have hfails := (hnone .registration htype).2
      rw [hok] at hfails
      cases hfails

/-- What the trace tells of the threads. -/
structure Traced (tr : List Event) (s : State) : Prop where
  ids : ∀ (c : Nat) (conn : Conn), s.conns[c]? = some conn → conn.myCbsdId = assigned c tr
  later : ∀ c, s.conns.length ≤ c → assigned c tr = []
  accepted : ∀ (c : Nat) (conn : Conn) (req : Str), s.conns[c]? = some conn →
    conn.thread = .forwarding req → .accepted c req ∈ tr
  forwarded : ∀ (c : Nat) (conn : Conn) (req resp : Str), s.conns[c]? = some conn →
    conn.thread = .updating req resp → .forwarded c req resp ∈ tr

section Steps

variable {tr es : List Event} {s s' : State} {i : Input}

theorem Traced.set (h : Traced tr s) {c : Nat} {old conn : Conn} {registry : CbsdRegistry}
    (hold : s.conns[c]? = some old) (hid : conn.myCbsdId = assigned c (tr ++ es))
    (hsilent : ∀ d, d ≠ c → ∀ e ∈ es, assigns? d e = none)
    (haccepted : ∀ req, conn.thread = .forwarding req → .accepted c req ∈ tr ++ es)
    (hforwarded : ∀ req resp, conn.thread = .updating req resp →
      .forwarded c req resp ∈ tr ++ es) :
    Traced (tr ++ es) ({ s with registry := registry }.setConn c conn) where
  ids d other hother := by
    rcases conns_setConn_cases hold hother with ⟨rfl, rfl⟩ | ⟨hd, hbefore⟩
    · exact hid
    · rw [assigned_of_silent (hsilent d hd)]
      exact h.ids d other hbefore
  later d hd := by
    rw [State.setConn, List.length_set] at hd
    rw [assigned_of_silent, h.later d hd]
    apply hsilent
    rintro rfl
    obtain ⟨hlt, -⟩ := List.getElem?_eq_some_iff.mp hold
    exact absurd hlt (Nat.not_lt.mpr hd)
  accepted d other req hother hthread := by
    rcases conns_setConn_cases hold hother with ⟨rfl, rfl⟩ | ⟨-, hbefore⟩
    · exact haccepted req hthread
    · exact List.mem_append_left es (h.accepted d other req hbefore hthread)
  forwarded d other req resp hother hthread := by
    rcases conns_setConn_cases hold hother with ⟨rfl, rfl⟩ | ⟨-, hbefore⟩
    · exact hforwarded req resp hthread
    · exact List.mem_append_left es (h.forwarded d other req resp hbefore hthread)

theorem Traced.connected (h : Traced tr s) :
    Traced tr { s with conns := s.conns ++ [({} : Conn)] } := by
  have hnew {d : Nat} {other : Conn} (hother : (s.conns ++ [({} : Conn)])[d]? = some other) :
      s.conns[d]? = some other ∨ (other = {} ∧ s.conns.length ≤ d) := by
    rw [List.getElem?_append] at hother
    split at hother
    · exact Or.inl hother
    · rename_i hd
      exact Or.inr ⟨List.mem_singleton.mp (List.mem_of_getElem? hother), Nat.le_of_not_lt hd⟩
  constructor
  · intro d other hother
    rcases hnew hother with hold | ⟨rfl, hd⟩
    · exact h.ids d other hold
    · exact (h.later d hd).symm
  · intro d hd
    apply h.later
    apply Nat.le_trans _ hd
    rw [List.length_append]
    exact Nat.le_add_right _ _
  · intro d other req hother hthread
    rcases hnew hother with hold | ⟨rfl, hd⟩
    · exact h.accepted d other req hold hthread
    · cases hthread
  · intro d other req resp hother hthread
    rcases hnew hother with hold | ⟨rfl, hd⟩
    · exact h.forwarded d other req resp hold hthread
    · cases hthread

theorem Traced.told (h : Traced tr s) {e : Event} (hsilent : ∀ d, assigns? d e = none) :
    Traced (tr ++ [e]) s where
  ids d conn hconn := by
    rw [assigned_of_silent_event (hsilent d)]
    exact h.ids d conn hconn
  later d hd := by
    rw [assigned_of_silent_event (hsilent d)]
    exact h.later d hd
  accepted d conn req hconn hthread :=
    List.mem_append_left _ (h.accepted d conn req hconn hthread)
  forwarded d conn req resp hconn hthread :=
    List.mem_append_left _ (h.forwarded d conn req resp hconn hthread)

theorem Traced.moved (h : Traced tr s) {c : Nat} {old : Conn} {thread : Thread}
    {registry : CbsdRegistry} {e : Event} (hold : s.conns[c]? = some old)
    (hsilent : ∀ d, assigns? d e = none)
    (haccepted : ∀ req, thread = .forwarding req → e = .accepted c req)
    (hforwarded : ∀ req resp, thread = .updating req resp → e = .forwarded c req resp) :
    Traced (tr ++ [e])
      ({ s with registry := registry }.setConn c { old with thread := thread }) := by
  apply h.set hold
  · rw [assigned_of_silent_event (hsilent c)]
    exact h.ids c old hold
  · intro d _ e' he
    rw [List.mem_singleton.mp he]
    exact hsilent d
  · intro req hthread
    rw [← haccepted req hthread]
    exact List.mem_append_right tr (List.mem_singleton_self e)
  · intro req resp hthread
    rw [← hforwarded req resp hthread]
    exact List.mem_append_right tr (List.mem_singleton_self e)

theorem traced_step (h : Traced tr s) (hstep : step s i = some (s', es)) :
    Traced (tr ++ es) s' := by
  cases step_steps hstep with
  | accept =>
      rw [List.append_nil]
      exact h.connected
  | reject => exact h.told fun _ => rfl
  | @forward c conn req hold _ _ =>
      apply h.moved hold (fun _ => rfl)
      · intro req' hthread
        cases hthread
        rfl
      · intro req' resp hthread
        cases hthread
  | @disconnect c conn hold _ =>
      apply h.moved hold (fun _ => rfl)
      · intro req hthread
        cases hthread
      · intro req resp hthread
        cases hthread
  | @exchange c id req resp hold =>
      apply h.moved hold (fun _ => rfl)
      · intro req' hthread
        cases hthread
      · intro req' resp' hthread
        cases hthread
        rfl
  | @update c id id' req resp registry ended hold hupdates =>
      apply h.set hold
      · exact assigned_updates (h.ids c _ hold) hupdates
      · intro d hd e he
        rcases List.mem_cons.mp he with rfl | he
        · exact assigns?_other hd resp
        · split at he
          · rw [List.mem_singleton.mp he]
            rfl
          · cases he
      · intro req' hreq
        cases ended <;> cases hreq
      · intro req' resp' hreq
        cases ended <;> cases hreq

theorem authorized_step (hstep : step s i = some (s', es)) {k : Str} {r : CbsdInfo}
    (hlookup : s'.registry.lookup k = some r) (hstate : r.state = .authorized) :
    s.registry.lookup k = some r ∨
      ∃ c req resp rest r₀, s.conns[c]? = some ⟨k, .updating req resp⟩ ∧ HeartbeatOk resp ∧
        s.registry.lookup k = some r₀ ∧ r₀.grantId = r.grantId ∧ es = .answered c resp :: rest := by
  have hother {id : Str} {f : CbsdInfo → CbsdInfo} (hf : ∀ r, (f r).state ≠ .authorized)
      (hafter : (s.registry.update id f).lookup k = some r) : s.registry.lookup k = some r := by
    rw [lookup_update] at hafter
    split at hafter
    · obtain ⟨r₀, -, rfl⟩ := Option.map_eq_some_iff.mp hafter
      exact absurd hstate (hf r₀)
    · exact hafter
  have hremoved {id : Str} (hafter : (s.registry.remove id).lookup k = some r) :
      s.registry.lookup k = some r := by
    rw [lookup_remove] at hafter
    split at hafter
    · cases hafter
    · exact hafter
  cases step_steps hstep with
  | accept => exact Or.inl hlookup
  | reject => exact Or.inl hlookup
  | forward => exact Or.inl hlookup
  | exchange => exact Or.inl hlookup
  | disconnect =>
      rw [handleDisconnect, registry_setConn] at hlookup
      split at hlookup
      · exact Or.inl hlookup
      · exact Or.inl (hremoved hlookup)
  | @update c id id' req resp registry ended hold hupdates =>
      rw [registry_setConn] at hlookup
      cases hupdates with
      | registered htype hok =>
          rw [lookup_upsert] at hlookup
          split at hlookup
          · cases hlookup
            cases hstate
          · exact Or.inl hlookup
      | granted => exact Or.inl (hother (fun _ h => by cases h) hlookup)
      | authorized htype hok =>
          rw [CbsdRegistry.setState, lookup_update] at hlookup
          split at hlookup
          · rename_i hk
            subst hk
            obtain ⟨r₀, hbefore, rfl⟩ := Option.map_eq_some_iff.mp hlookup
            exact Or.inr ⟨c, req, resp, _, r₀, hold, ⟨htype, hok⟩, hbefore, rfl, rfl⟩
          · exact Or.inl hlookup
      | relinquished => exact Or.inl (hother (fun _ h => by cases h) hlookup)
      | deregistered => exact Or.inl (hremoved hlookup)
      | unchanged => exact Or.inl hlookup

theorem confirmed_step (h : Confirmed tr s) (htraced : Traced tr s)
    (hstep : step s i = some (s', es)) : Confirmed (tr ++ es) s' where
  unmodified := by
    apply h.unmodified.append
    intro before e after hsplit c req resp he
    subst he
    have hmem : .forwarded c req resp ∈ es := by
      rw [hsplit]
      exact List.mem_append_right before List.mem_cons_self
    cases step_steps hstep with
    | accept => cases hmem
    | reject => cases List.mem_singleton.mp hmem
    | forward => cases List.mem_singleton.mp hmem
    | disconnect => cases List.mem_singleton.mp hmem
    | exchange hold =>
        cases List.mem_singleton.mp hmem
        exact List.mem_append_left before (htraced.accepted c _ req hold rfl)
    | update =>
        rcases List.mem_cons.mp hmem with hmem | hmem
        · cases hmem
        · split at hmem
          · cases List.mem_singleton.mp hmem
          · cases hmem
  authorized k r hlookup hstate := by
    rcases authorized_step hstep hlookup hstate with
      hbefore | ⟨c, req, resp, rest, r₀, hold, hok, -, -, rfl⟩
    · obtain ⟨before, c, req, resp, after, rfl, hforwarded, hok, hid⟩ :=
        h.authorized k r hbefore hstate
      refine ⟨before, c, req, resp, after ++ es, ?_, hforwarded, hok, hid⟩
      rw [List.append_assoc, List.cons_append]
    · refine ⟨tr, c, req, resp, rest, rfl, htraced.forwarded c _ req resp hold rfl, hok, ?_⟩
      exact (htraced.ids c _ hold).symm

end Steps

theorem confirmed_run {tr : List Event} {s : State} (hrun : Reach step init tr s) :
    Confirmed tr s ∧ Traced tr s := by
  refine Run.invariant (I := fun tr s => Confirmed tr s ∧ Traced tr s) ?_ ?_ hrun
  · refine ⟨⟨.nil _, ?_⟩, ?_, fun _ _ => rfl, ?_, ?_⟩
    · intro k r hlookup
      cases hlookup
    · intro c conn hconn
      cases hconn
    · intro c conn req hconn
      cases hconn
    · intro c conn req resp hconn
      cases hconn
  · rintro tr s i s' es ⟨h, htraced⟩ - hstep
    exact ⟨confirmed_step h htraced hstep, traced_step htraced hstep⟩

/-- What passed the guard names its own identifiers, and a heartbeat has an active grant. -/
def Passed (id : Str) (r : CbsdInfo) (req : Str) : Prop :=
  NamesOwn ⟨id, .receiving⟩ r req ∧
    (get req (lit "type") = lit "HeartbeatRequest" → r.state = .granted ∨ r.state = .authorized)

def Answered (id : Str) (r : CbsdInfo) (req resp : Str) : Prop :=
  Passed id r req ∧
    ∀ kind ∈ responseKind? (get resp (lit "type")), requestKind? (get req (lit "type")) = some kind

structure Own (tr : List Event) (s : State) : Prop where
  owned : Owned s
  traced : Traced tr s
  threads : Carries Passed Answered s
  ids : OwnIds tr s

theorem Named.freshIds {s : State} {i : Input} (h : Named s i) : FreshIds s i := by
  cases i with
  | accept => trivial
  | message => trivial
  | disconnect => trivial
  | exchange => trivial
  | update c => exact h

section OwnSteps

variable {tr es : List Event} {s s' : State} {i : Input}

end OwnSteps

def registrationRequest : Str :=
  obj [(lit "type", str (lit "RegistrationRequest")), (lit "fccId", str (lit "FCC-DEVICE-001"))]

def grantRequest (cbsdId : Str) : Str :=
  obj [(lit "type", str (lit "GrantRequest")), (lit "cbsdId", str cbsdId),
    (lit "operationFrequencyMHz", lit "3555"), (lit "maxEirp", num 30)]

def heartbeatRequest (cbsdId grantId : Str) : Str :=
  obj [(lit "type", str (lit "HeartbeatRequest")), (lit "cbsdId", str cbsdId),
    (lit "grantId", str grantId)]

def recordedState (s : State) (cbsdId : Str) : Option SpectrumState :=
  (s.registry.lookup cbsdId).map CbsdInfo.state

/-- Both connections have a request under way at once, and the second one's ends first. -/
def overlapping (req₀ resp₀ req₁ resp₁ : Str) : List Input :=
  [.message 0 req₀, .message 1 req₁, .exchange 1 resp₁, .exchange 0 resp₀, .update 1, .update 0]

end MobileCore.GrantOwnership
