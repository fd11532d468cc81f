import MobileCore.GrantOwnership
import MobileCore.LayeredMachines
import MobileCore.SasStream

/-!
# The records of the live registrations

Here the SAS answers what the proxy forwards, with identifiers from its counter. As long as no
connection registers twice, the registry has one record for each registered connection.
-/

namespace MobileCore.LiveRegistrations

open CppText LabelledRuns LayeredMachines
open FlatObjects (Quoteless)
open NestedObjects (get)
open WireJson (obj str)
open TlvMessages (gu32)
open SasStub (Counters handleRequest increment registrationResponse)
open DomainProxy RecordOwnership GrantOwnership

/-- The SAS behind its connection to the proxy. How many identifiers it has taken is recorded for
the statements only. -/
structure SasLink where
  counters : Counters := {}
  up : Bool := true
  toDp : Str := []
  taken : Nat := 0

def takes (req : Str) : Nat := if get req (lit "type") = lit "RegistrationRequest" then 1 else 0

def SasLink.handle (l : SasLink) (req : Str) : SasLink × Str :=
  if l.up then
    match handleRequest l.counters req with
    | some (counters, resp) =>
      ({ l with counters := counters, taken := l.taken + takes req }, SasStream.sendMsg resp)
    | none => ({ l with up := false }, [])
  else (l, [])

/-- A read that comes to the end of the bytes waits, or fails when the SAS is gone. -/
def SasLink.starved (l : SasLink) : Option (SasLink × Str) :=
  if l.up then none else some ({ l with toDp := [] }, [])

/-- `recvMsg`, with the empty text that it leaves where it fails. -/
def SasLink.recvMsg (l : SasLink) : Option (SasLink × Str) :=
  if l.toDp.length < 4 then l.starved
  else
    let plen := gu32 (l.toDp.take 4)
    let rest := l.toDp.drop 4
    if plen = 0 ∨ 65536 < plen then some ({ l with toDp := rest }, [])
    else if rest.length < plen.toNat then l.starved
    else some ({ l with toDp := rest.drop plen.toNat }, rest.take plen.toNat)

def SasLink.forwardToSas (l : SasLink) (req : Str) : Option (SasLink × Str) :=
  let (l, bytes) := l.handle req
  { l with toDp := l.toDp ++ bytes }.recvMsg

/-- What a CBSD does, an exchange with the SAS, or a request of another proxy. -/
inductive Input where
  | proxy (i : DomainProxy.Input)
  | exchange (c : Nat)
  | otherProxy (req : Str)

/-- What `recvMsg` can return. -/
def Receivable : DomainProxy.Input → Bool
  | .message _ req => decide (1 ≤ req.length ∧ req.length ≤ 65536)
  | .exchange _ _ => false
  | _ => true

def move (l : SasLink) (s : State) : Input → Option (SasLink × Option DomainProxy.Input)
  | .proxy i => if Receivable i then some (l, some i) else none
  | .exchange c =>
    match s.conns[c]? with
    | some ⟨_, .forwarding req⟩ =>
      match l.forwardToSas req with
      | some (l, resp) => some (l, some (.exchange c resp))
      | none => none
    | _ => none
  | .otherProxy req => some ((l.handle req).1, none)

def system : Machine (Layered SasLink State) Input Event := layer step move

/-- The connection is open and the identifier is the last that the SAS assigned to it. -/
def Current (tr : List Event) (s : State) (c : Nat) (cbsdId : Str) : Prop :=
  (∃ conn, s.conns[c]? = some conn ∧ conn.thread ≠ .exited) ∧ assigned c tr = cbsdId ∧ cbsdId ≠ []

/-- The registry has exactly the records of the connections that are registered. -/
structure Registered (tr : List Event) (s : State) : Prop where
  records : ∀ cbsdId, (s.registry.lookup cbsdId).isSome = true ↔ ∃ c, Current tr s c cbsdId
  keyed : ∀ cbsdId r, s.registry.lookup cbsdId = some r → r.cbsdId = cbsdId
  distinct : ∀ c d cbsdId, Current tr s c cbsdId → Current tr s d cbsdId → c = d

/-- The SAS has an identifier for the request that it has not assigned before. -/
def Counts (l : SasLink) (req : Str) : Prop := l.taken + takes req ≤ 2 ^ 32

/-- The response to the request fits a frame. -/
def Framed (l : SasLink) (req : Str) : Prop :=
  ∀ x ∈ handleRequest l.counters req, x.2.length ≤ 65536

/-- A connection registers only while it has no identifier; the SAS has a new identifier for it
and answers in frames that the proxy accepts. -/
def Once (s : Layered SasLink State) : Input → Prop
  | .proxy (.message c req) =>
    get req (lit "type") = lit "RegistrationRequest" →
      ∀ conn ∈ s.lower.conns[c]?, conn.myCbsdId = []
  | .exchange c =>
    ∀ conn ∈ s.lower.conns[c]?, ∀ req ∈ passing? conn.thread,
      Counts s.upper req ∧ Framed s.upper req
  | .otherProxy req => Counts s.upper req
  | _ => True

instance (l : SasLink) (req : Str) : Decidable (Counts l req) :=
  inferInstanceAs (Decidable (_ ≤ _))

instance (l : SasLink) (req : Str) : Decidable (Framed l req) :=
  inferInstanceAs (Decidable (∀ x ∈ handleRequest l.counters req, _))

instance Once.decidable (s : Layered SasLink State) : (i : Input) → Decidable (Once s i)
  | .proxy (.message c _) => inferInstanceAs (Decidable (_ → ∀ conn ∈ s.lower.conns[c]?, _))
  | .exchange c => inferInstanceAs (Decidable (∀ conn ∈ s.lower.conns[c]?, _))
  | .otherProxy req => inferInstanceAs (Decidable (Counts s.upper req))
  | .proxy .accept => .isTrue trivial
  | .proxy (.disconnect _) => .isTrue trivial
  | .proxy (.exchange _ _) => .isTrue trivial
  | .proxy (.update _) => .isTrue trivial

def idAt (n : Nat) : Str := lit "CBSD-SAS-" ++ intText ((1 + n : Int).bmod (2 ^ 32))

/-- The identifier whose record the connection has. -/
def heldBy (conn : Conn) : Str := if conn.thread = .exited then [] else conn.myCbsdId

/-- The identifier of the connection, also when its thread is still to follow the response. -/
def claim (conn : Conn) : Str :=
  match conn.thread with
  | .updating _ resp =>
    if get resp (lit "type") = lit "RegistrationResponse" then get resp (lit "cbsdId")
    else conn.myCbsdId
  | .exited => []
  | _ => conn.myCbsdId

def Registering (conn : Conn) : Prop :=
  match conn.thread with
  | .forwarding req =>
    get req (lit "type") = lit "RegistrationRequest" → conn.myCbsdId = []
  | .updating _ resp =>
    get resp (lit "type") = lit "RegistrationResponse" →
      conn.myCbsdId = [] ∧ get resp (lit "cbsdId") ≠ []
  | _ => True

structure Linked (l : SasLink) (s : State) : Prop where
  drained : l.toDp = []
  counted : l.counters.cbsd = (1 + l.taken : Int).bmod (2 ^ 32)
  registering : ∀ (c : Nat) (conn : Conn), s.conns[c]? = some conn → Registering conn
  issued : ∀ (c : Nat) (conn : Conn), s.conns[c]? = some conn → claim conn ≠ [] →
    ∃ n, n < l.taken ∧ claim conn = idAt n
  distinct : ∀ (c d : Nat) (conn other : Conn), s.conns[c]? = some conn → s.conns[d]? = some other →
    claim conn ≠ [] → claim conn = claim other → c = d
  records : ∀ cbsdId, (s.registry.lookup cbsdId).isSome = true ↔
    cbsdId ≠ [] ∧ ∃ (c : Nat) (conn : Conn), s.conns[c]? = some conn ∧ heldBy conn = cbsdId
  keyed : ∀ cbsdId r, s.registry.lookup cbsdId = some r → r.cbsdId = cbsdId

section Identifiers

theorem idAt_injective {m n : Nat} (hm : m < 2 ^ 32) (hn : n < 2 ^ 32) (h : idAt m = idAt n) :
    m = n := by
  have hmod := congrArg (· % ((2 ^ 32 : Nat) : Int)) (intText_injective (List.append_cancel_left h))
  simp only [Int.bmod_emod] at hmod
  omega

theorem idAt_ne_nil (n : Nat) : idAt n ≠ [] :=
  List.append_ne_nil_of_left_ne_nil (by decide) _

theorem quoteless_idAt (n : Nat) : Quoteless (idAt n) := by
  intro hquote
  rcases List.mem_append.mp hquote with hquote | hquote
  · exact absurd hquote (by decide)
  · exact not_mem_intText _ 34 (Or.inl (by decide)) hquote

theorem increment_bmod (n : Nat) :
    increment ((1 + n : Int).bmod (2 ^ 32)) = (1 + (n + 1 : Nat) : Int).bmod (2 ^ 32) := by
  rw [increment, Int.bmod_add_bmod, Nat.cast_add, Nat.cast_one, Int.add_assoc]

theorem claim_of_held {conn : Conn} (h : Registering conn) (hheld : heldBy conn ≠ []) :
    claim conn = heldBy conn := by
  obtain ⟨id, thread⟩ := conn
  cases thread with
  | receiving => rfl
  | forwarding => rfl
  | exited => rfl
  | updating req resp =>
      show (if _ then _ else _) = id
      split
      · rename_i htype
        exact absurd (h htype).1 hheld
      · rfl

end Identifiers

section Exchanges

variable {l l' : SasLink} {req resp : Str}

theorem recvMsg_framed (hsome : 1 ≤ resp.length) (hle : resp.length ≤ 65536) :
    { l with toDp := FrameTransport.framed resp }.recvMsg = some ({ l with toDp := [] }, resp) := by
  have hlength := FrameTransport.length_framed resp
  have hheader : (FrameTransport.framed resp).take 4 =
      TlvMessages.pu32 (UInt32.ofNat resp.length) := List.take_left' (TlvMessages.pu32_length _)
  have hrest : (FrameTransport.framed resp).drop 4 = resp :=
    List.drop_left' (TlvMessages.pu32_length _)
  rw [SasLink.recvMsg]
  dsimp only
  rw [if_neg (by omega), hheader, TlvMessages.gu32_pu32, hrest]
  rw [if_neg, FrameTransport.toNat_length hle, if_neg (Nat.lt_irrefl _), List.drop_length,
    List.take_length]
  rw [UInt32.lt_iff_toNat_lt, ← UInt32.toNat_inj, FrameTransport.toNat_length hle]
  show ¬(resp.length = 0 ∨ 65536 < resp.length)
  omega

theorem response_ne_nil {s s' : Counters} (h : handleRequest s req = some (s', resp)) :
    1 ≤ resp.length := by
  apply List.length_pos_of_ne_nil
  rintro rfl
  have htype := SasStub.handleRequest_answers h
  rw [SasStub.answerType] at htype
  split at htype
  · rename_i kind hkind
    cases kind <;> exact absurd htype (by decide)
  · exact absurd htype (by decide)

theorem handle_cases (l : SasLink) (req : Str) :
    (∃ counters resp, handleRequest l.counters req = some (counters, resp) ∧
      l.handle req = ({ l with counters := counters, taken := l.taken + takes req },
        SasStream.sendMsg resp)) ∨
      l.handle req = ({ l with up := false }, []) := by
  rw [SasLink.handle]
  split
  · split
    · rename_i counters resp hresp
      exact Or.inl ⟨counters, resp, hresp, rfl⟩
    · exact Or.inr rfl
  · rename_i hdown
    rw [Bool.not_eq_true] at hdown
    obtain ⟨counters, up, toDp, taken⟩ := l
    subst hdown
    exact Or.inr rfl

theorem forwardToSas_eq_some (hdrained : l.toDp = []) (hframed : Framed l req)
    (h : l.forwardToSas req = some (l', resp)) :
    l'.toDp = [] ∧ ((resp = [] ∧ l'.counters = l.counters ∧ l'.taken = l.taken) ∨
      (handleRequest l.counters req = some (l'.counters, resp) ∧
        l'.taken = l.taken + takes req)) := by
  rw [SasLink.forwardToSas] at h
  rcases handle_cases l req with ⟨counters, answer, hanswer, hhandle⟩ | hhandle
  · rw [hhandle] at h
    dsimp only at h
    rw [hdrained, List.nil_append, SasStream.sendMsg_eq_framed (hframed _ hanswer)] at h
    have hread := recvMsg_framed
      (l := { l with counters := counters, taken := l.taken + takes req })
      (response_ne_nil hanswer) (hframed _ hanswer)
    obtain ⟨rfl, rfl⟩ := Prod.mk.inj (Option.some.inj (hread.symm.trans h))
    exact ⟨rfl, Or.inr ⟨hanswer, rfl⟩⟩
  · rw [hhandle] at h
    dsimp only at h
    rw [hdrained] at h
    obtain ⟨rfl, rfl⟩ := Prod.mk.inj (Option.some.inj h)
    exact ⟨rfl, Or.inl ⟨rfl, rfl, rfl⟩⟩

theorem counted_handleRequest {s s' : Counters} {n : Nat}
    (hcounted : s.cbsd = (1 + n : Int).bmod (2 ^ 32)) (h : handleRequest s req = some (s', resp)) :
    s'.cbsd = (1 + (n + takes req : Nat) : Int).bmod (2 ^ 32) := by
  rw [takes]
  split
  · rename_i hreq
    rw [SasStub.handleRequest_registration hreq] at h
    obtain ⟨rfl, -⟩ := Prod.mk.inj (Option.some.inj h)
    rw [SasStub.makeCbsdId, hcounted, increment_bmod]
  · rename_i hreq
    rw [SasStub.handleRequest_cbsd hreq h, hcounted, Nat.add_zero]

end Exchanges

section Steps

variable {l l' : SasLink} {s s' : State} {c : Nat} {old conn : Conn} {registry : CbsdRegistry}

theorem Linked.set (h : Linked l s) (hold : s.conns[c]? = some old) (hdrained : l'.toDp = [])
    (hcounted : l'.counters.cbsd = (1 + l'.taken : Int).bmod (2 ^ 32)) (htaken : l.taken ≤ l'.taken)
    (hregistering : Registering conn)
    (hclaim : claim conn = claim old ∨ claim conn = [] ∨
      (claim conn = idAt l.taken ∧ l.taken < l'.taken ∧ l.taken < 2 ^ 32))
    (hrecords : ∀ k, (registry.lookup k).isSome = true ↔
      (k ≠ [] ∧ k = heldBy conn) ∨ (k ≠ heldBy old ∧ (s.registry.lookup k).isSome = true))
    (hkeyed : ∀ k r, registry.lookup k = some r → r.cbsdId = k) :
    Linked l' ({ s with registry := registry }.setConn c conn) := by
  have hother {d : Nat} {other : Conn} (hd : d ≠ c) (hpresent : s.conns[d]? = some other)
      (hsome : claim conn ≠ []) : claim conn ≠ claim other := by
    intro heq
    rcases hclaim with hkept | hgone | ⟨hnew, -, hsmall⟩
    · exact hd (h.distinct c d old other hold hpresent (hkept ▸ hsome) (hkept ▸ heq)).symm
    · exact hsome hgone
    · obtain ⟨n, hn, hissued⟩ := h.issued d other hpresent (heq ▸ hsome)
      have hid : idAt l.taken = idAt n := hnew.symm.trans (heq.trans hissued)
      have hsame := idAt_injective hsmall (Nat.lt_trans hn hsmall) hid
      exact absurd hsame (Nat.ne_of_gt hn)
  constructor
  · exact hdrained
  · exact hcounted
  · intro d other hpresent
    rcases conns_setConn_cases hold hpresent with ⟨rfl, rfl⟩ | ⟨-, hbefore⟩
    · exact hregistering
    · exact h.registering d other hbefore
  · intro d other hpresent hsome
    rcases conns_setConn_cases hold hpresent with ⟨rfl, rfl⟩ | ⟨-, hbefore⟩
    · rcases hclaim with hkept | hgone | ⟨hnew, hlt, -⟩
      · obtain ⟨n, hn, hissued⟩ := h.issued d old hold (hkept ▸ hsome)
        exact ⟨n, Nat.lt_of_lt_of_le hn htaken, hkept.trans hissued⟩
      · exact absurd hgone hsome
      · exact ⟨l.taken, hlt, hnew⟩
    · obtain ⟨n, hn, hissued⟩ := h.issued d other hbefore hsome
      exact ⟨n, Nat.lt_of_lt_of_le hn htaken, hissued⟩
  · intro d e first second hfirst hsecond hsome heq
    rcases conns_setConn_cases hold hfirst with ⟨rfl, rfl⟩ | ⟨hd, hbefore⟩
    · rcases conns_setConn_cases hold hsecond with ⟨rfl, -⟩ | ⟨he, hbefore⟩
      · rfl
      · exact absurd heq (hother he hbefore hsome)
    · rcases conns_setConn_cases hold hsecond with ⟨rfl, rfl⟩ | ⟨-, hbefore'⟩
      · exact absurd heq.symm (hother hd hbefore (heq ▸ hsome))
      · exact h.distinct d e first second hbefore hbefore' hsome heq
  · intro k
    rw [registry_setConn, hrecords]
    constructor
    · rintro (⟨hsome, hself⟩ | ⟨hne, hsome⟩)
      · exact ⟨hsome, c, conn, conns_setConn_self hold, hself.symm⟩
      · obtain ⟨hk, d, other, hpresent, hheld⟩ := (h.records k).mp hsome
        refine ⟨hk, d, other, ?_, hheld⟩
        rw [conns_setConn hold, if_neg, hpresent]
        rintro rfl
        cases hold.symm.trans hpresent
        exact hne hheld.symm
    · rintro ⟨hk, d, other, hpresent, hheld⟩
      rcases conns_setConn_cases hold hpresent with ⟨rfl, rfl⟩ | ⟨hd, hbefore⟩
      · exact Or.inl ⟨hk, hheld.symm⟩
      · refine Or.inr ⟨?_, (h.records k).mpr ⟨hk, d, other, hbefore, hheld⟩⟩
        intro hself
        have hmine := claim_of_held (h.registering c old hold) (hself ▸ hk)
        have htheirs := claim_of_held (h.registering d other hbefore) (hheld ▸ hk)
        apply hd
        apply h.distinct d c other old hbefore hold
        · rw [htheirs, hheld]
          exact hk
        · rw [htheirs, hheld, hmine, hself]
  · exact hkeyed

theorem Linked.same (h : Linked l s) (hold : s.conns[c]? = some old)
    (hheld : heldBy conn = heldBy old)
    (hsame : ∀ k, (registry.lookup k).isSome = (s.registry.lookup k).isSome) (k : Str) :
    (registry.lookup k).isSome = true ↔
      (k ≠ [] ∧ k = heldBy conn) ∨ (k ≠ heldBy old ∧ (s.registry.lookup k).isSome = true) := by
  rw [hsame, hheld]
  constructor
  · intro hsome
    by_cases hk : k = heldBy old
    · exact Or.inl ⟨((h.records k).mp hsome).1, hk⟩
    · exact Or.inr ⟨hk, hsome⟩
  · rintro (⟨hk, hself⟩ | ⟨-, hsome⟩)
    · exact (h.records k).mpr ⟨hk, c, old, hold, hself.symm⟩
    · exact hsome

end Steps

theorem claim_updating (id req resp : Str) : claim ⟨id, .updating req resp⟩ =
    if get resp (lit "type") = lit "RegistrationResponse" then get resp (lit "cbsdId") else id :=
  rfl

section ProxySteps

variable {l l' : SasLink} {s s' : State} {c : Nat} {id req resp : Str} {i : DomainProxy.Input}
  {es : List Event}

theorem Linked.accept (h : Linked l s) : Linked l { s with conns := s.conns ++ [{}] } := by
  have hcases {d : Nat} {other : Conn} (hother : (s.conns ++ [({} : Conn)])[d]? = some other) :
      s.conns[d]? = some other ∨ other = {} := by
    rw [List.getElem?_append] at hother
    split at hother
    · exact Or.inl hother
    · exact Or.inr (List.mem_singleton.mp (List.mem_of_getElem? hother))
  have hkept {d : Nat} {other : Conn} (hother : s.conns[d]? = some other) :
      (s.conns ++ [({} : Conn)])[d]? = some other := by
    obtain ⟨hlt, -⟩ := List.getElem?_eq_some_iff.mp hother
    exact (List.getElem?_append_left hlt).trans hother
  constructor
  · exact h.drained
  · exact h.counted
  · intro d other hother
    rcases hcases hother with hold | rfl
    · exact h.registering d other hold
    · trivial
  · intro d other hother hsome
    rcases hcases hother with hold | rfl
    · exact h.issued d other hold hsome
    · exact absurd rfl hsome
  · intro d e first second hfirst hsecond hsome heq
    rcases hcases hfirst with hold | rfl
    · rcases hcases hsecond with hold' | rfl
      · exact h.distinct d e first second hold hold' hsome heq
      · exact absurd heq hsome
    · exact absurd rfl hsome
  · intro k
    rw [h.records]
    constructor
    · rintro ⟨hk, d, other, hother, hheld⟩
      exact ⟨hk, d, other, hkept hother, hheld⟩
    · rintro ⟨hk, d, other, hother, hheld⟩
      rcases hcases hother with hold | rfl
      · exact ⟨hk, d, other, hold, hheld⟩
      · exact absurd hheld.symm hk
  · exact h.keyed

theorem Linked.proceeds (h : Linked l s) {old conn : Conn} {registry : CbsdRegistry}
    (hold : s.conns[c]? = some old) (hregistering : Registering conn)
    (hclaim : claim conn = claim old ∨ claim conn = [])
    (hrecords : ∀ k, (registry.lookup k).isSome = true ↔
      (k ≠ [] ∧ k = heldBy conn) ∨ (k ≠ heldBy old ∧ (s.registry.lookup k).isSome = true))
    (hkeyed : ∀ k r, registry.lookup k = some r → r.cbsdId = k) :
    Linked l ({ s with registry := registry }.setConn c conn) := by
  refine h.set hold h.drained h.counted (Nat.le_refl _) hregistering ?_ hrecords hkeyed
  rcases hclaim with hkept | hgone
  · exact Or.inl hkept
  · exact Or.inr (Or.inl hgone)

theorem Linked.updated (h : Linked l s) (f : CbsdInfo → CbsdInfo)
    (hf : ∀ r, (f r).cbsdId = r.cbsdId) (hold : s.conns[c]? = some ⟨id, .updating req resp⟩)
    (htype : get resp (lit "type") ≠ lit "RegistrationResponse") :
    Linked l ({ s with registry := s.registry.update id f }.setConn c ⟨id, .receiving⟩) := by
  apply h.proceeds hold
  · trivial
  · left
    rw [claim_updating]
    exact (if_neg htype).symm
  · apply h.same hold rfl
    intro k
    rw [lookup_update]
    split
    · rename_i hk
      rw [hk, Option.isSome_map]
    · rfl
  · intro k r hlookup
    rw [lookup_update] at hlookup
    split at hlookup
    · rename_i hk
      obtain ⟨r₀, hbefore, rfl⟩ := Option.map_eq_some_iff.mp hlookup
      rw [hf, h.keyed id r₀ hbefore, hk]
    · exact h.keyed k r hlookup

theorem Linked.removed (h : Linked l s) {thread : Thread} (hthread : thread ≠ .exited)
    (hold : s.conns[c]? = some ⟨id, thread⟩) :
    Linked l ({ s with registry := s.registry.remove id }.setConn c ⟨id, .exited⟩) := by
  apply h.proceeds hold
  · trivial
  · exact Or.inr rfl
  · intro k
    have hheld : heldBy ⟨id, thread⟩ = id := if_neg hthread
    rw [lookup_remove, hheld]
    constructor
    · intro hsome
      split at hsome
      · cases hsome
      · rename_i hk
        exact Or.inr ⟨hk, hsome⟩
    · rintro (⟨hk, hself⟩ | ⟨hk, hsome⟩)
      · exact absurd hself hk
      · rw [if_neg hk]
        exact hsome
  · intro k r hlookup
    rw [lookup_remove] at hlookup
    split at hlookup
    · cases hlookup
    · exact h.keyed k r hlookup

theorem linked_proxy (h : Linked l s) (hreceivable : Receivable i = true)
    (hguard : Once ⟨l, s⟩ (.proxy i)) (hstep : step s i = some (s', es)) : Linked l s' := by
  cases step_steps hstep with
  | accept => exact h.accept
  | reject => exact h
  | @forward c conn req hold hthread =>
      obtain ⟨id, thread⟩ := conn
      cases hthread
      exact h.proceeds hold (fun htype => hguard htype ⟨id, .receiving⟩ hold) (Or.inl rfl)
        (h.same hold rfl fun _ => rfl) h.keyed
  | @disconnect c conn hold hthread =>
      obtain ⟨id, thread⟩ := conn
      cases hthread
      rw [handleDisconnect]
      dsimp only
      split
      · rename_i hempty
        obtain rfl := List.isEmpty_iff.mp hempty
        exact h.proceeds hold trivial (Or.inr rfl) (h.same hold rfl fun _ => rfl) h.keyed
      · exact h.removed (fun hexited => by cases hexited) hold
  | exchange => cases hreceivable
  | @update c id id' req resp registry ended hold hupdates =>
      have hpending := h.registering c _ hold
      cases hupdates with
      | registered htype hok =>
          obtain ⟨hnone, hsome⟩ := hpending htype
          subst hnone
          apply h.proceeds hold
          · trivial
          · left
            rw [claim_updating]
            exact (if_pos htype).symm
          · intro k
            rw [lookup_upsert]
            constructor
            · intro hafter
              split at hafter
              · rename_i hk
                subst hk
                exact Or.inl ⟨hsome, rfl⟩
              · exact Or.inr ⟨((h.records k).mp hafter).1, hafter⟩
            · rintro (⟨-, hk⟩ | ⟨-, hbefore⟩)
              · exact congrArg Option.isSome (if_pos hk)
              · split
                · rfl
                · exact hbefore
          · intro k r hlookup
            rw [lookup_upsert] at hlookup
            split at hlookup
            · rename_i hk
              cases hlookup
              exact hk.symm
            · exact h.keyed k r hlookup
      | granted htype => exact h.updated _ (fun _ => rfl) hold (by rw [htype]; decide)
      | authorized htype => exact h.updated _ (fun _ => rfl) hold (by rw [htype]; decide)
      | relinquished htype => exact h.updated _ (fun _ => rfl) hold (by rw [htype]; decide)
      | deregistered htype => exact h.removed (fun hexited => by cases hexited) hold
      | unchanged =>
          apply h.proceeds hold
          · trivial
          · by_cases htype : get resp (lit "type") = lit "RegistrationResponse"
            · exact Or.inr (hpending htype).1
            · left
              rw [claim_updating]
              exact (if_neg htype).symm
          · exact h.same hold rfl fun _ => rfl
          · exact h.keyed

theorem answer_registering (h : Linked l s) {counters : Counters}
    (hresp : handleRequest l.counters req = some (counters, resp)) :
    (get req (lit "type") = lit "RegistrationRequest" ∧ get resp (lit "cbsdId") = idAt l.taken) ∨
      (get req (lit "type") ≠ lit "RegistrationRequest" ∧
        get resp (lit "type") ≠ lit "RegistrationResponse") := by
  by_cases hreq : get req (lit "type") = lit "RegistrationRequest"
  · left
    rw [SasStub.handleRequest_registration hreq] at hresp
    obtain ⟨-, rfl⟩ := Prod.mk.inj (Option.some.inj hresp)
    have hid : (SasStub.makeCbsdId l.counters).1 = idAt l.taken := by
      rw [SasStub.makeCbsdId, h.counted, idAt]
    rw [hid]
    exact ⟨hreq, SasStub.get_registrationResponse (quoteless_idAt _)⟩
  · refine Or.inr ⟨hreq, fun htype => hreq ?_⟩
    rw [SasStub.handleRequest_answers hresp] at htype
    exact SasStub.answerType_registration htype

theorem linked_exchange (h : Linked l s) (hold : s.conns[c]? = some ⟨id, .forwarding req⟩)
    (hcounts : Counts l req) (hframed : Framed l req)
    (hforward : l.forwardToSas req = some (l', resp)) :
    Linked l' (s.setConn c ⟨id, .updating req resp⟩) := by
  obtain ⟨hdrained, ⟨rfl, hcounters, htaken⟩ | ⟨hresp, htaken⟩⟩ :=
    forwardToSas_eq_some h.drained hframed hforward
  · apply h.set hold hdrained
    · rw [hcounters, htaken]
      exact h.counted
    · exact Nat.le_of_eq htaken.symm
    · intro htype
      exact absurd htype (by decide)
    · left
      rw [claim_updating]
      exact if_neg (by decide)
    · exact h.same hold rfl fun _ => rfl
    · exact h.keyed
  · apply h.set hold hdrained
    · rw [htaken]
      exact counted_handleRequest h.counted hresp
    · rw [htaken]
      exact Nat.le_add_right _ _
    · intro htype
      rcases answer_registering h hresp with ⟨hreq, hid⟩ | ⟨-, hnot⟩
      · refine ⟨h.registering c _ hold hreq, ?_⟩
        rw [hid]
        exact idAt_ne_nil _
      · exact absurd htype hnot
    · rw [claim_updating]
      rcases answer_registering h hresp with ⟨hreq, hid⟩ | ⟨-, hnot⟩
      · have htakes : takes req = 1 := if_pos hreq
        rw [Counts, htakes] at hcounts
        rw [htakes] at htaken
        split
        · exact Or.inr (Or.inr ⟨hid, by omega, by omega⟩)
        · exact Or.inl rfl
      · exact Or.inl (if_neg hnot)
    · exact h.same hold rfl fun _ => rfl
    · exact h.keyed

theorem linked_otherProxy (h : Linked l s) (req : Str) : Linked (l.handle req).1 s := by
  rcases handle_cases l req with ⟨counters, resp, hresp, hhandle⟩ | hhandle
  · rw [hhandle]
    refine ⟨h.drained, counted_handleRequest h.counted hresp, h.registering, ?_, h.distinct,
      h.records, h.keyed⟩
    intro d other hother hsome
    obtain ⟨n, hn, hissued⟩ := h.issued d other hother hsome
    exact ⟨n, Nat.lt_of_lt_of_le hn (Nat.le_add_right _ _), hissued⟩
  · rw [hhandle]
    exact ⟨h.drained, h.counted, h.registering, h.issued, h.distinct, h.records, h.keyed⟩

theorem linked_run {tr : List Event} {s : Layered SasLink State}
    (hrun : Run system (fun _ => Once) ⟨{}, init⟩ tr s) : Linked s.upper s.lower := by
  refine Run.invariant (I := fun _ s => Linked s.upper s.lower) ?_ ?_ hrun
  · constructor
    · rfl
    · rfl
    · intro c conn hconn
      cases hconn
    · intro c conn hconn
      cases hconn
    · intro c d conn other hconn
      cases hconn
    · intro k
      constructor
      · intro hsome
        cases hsome
      · rintro ⟨-, c, conn, hconn, -⟩
        cases hconn
    · intro k r hlookup
      cases hlookup
  · intro tr s k s' es h hguard hstep
    obtain ⟨j, hmove, hlower⟩ := layer_eq_some hstep
    cases k with
    | proxy i =>
        rw [move] at hmove
        split at hmove
        · rename_i hreceivable
          obtain ⟨hupper, rfl⟩ := Prod.mk.inj (Option.some.inj hmove)
          obtain ⟨hnone, -⟩ | ⟨i', hi, hlower⟩ := hlower
          · cases hnone
          · cases hi
            rw [← hupper]
            exact linked_proxy h hreceivable hguard hlower
        · cases hmove
    | exchange c =>
        rw [move] at hmove
        split at hmove
        · rename_i id req hold
          split at hmove
          · rename_i l' resp hforward
            obtain ⟨hupper, rfl⟩ := Prod.mk.inj (Option.some.inj hmove)
            obtain ⟨hnone, -⟩ | ⟨i', hi, hlower⟩ := hlower
            · cases hnone
            · cases hi
              obtain ⟨hcounts, hframed⟩ := hguard _ hold req rfl
              rw [step, hold] at hlower
              obtain ⟨hstate, -⟩ := Prod.mk.inj (Option.some.inj hlower)
              rw [← hupper, ← hstate]
              exact linked_exchange h hold hcounts hframed hforward
          · cases hmove
        · cases hmove
    | otherProxy req =>
        obtain ⟨hupper, rfl⟩ := Prod.mk.inj (Option.some.inj hmove)
        obtain ⟨-, hsame, -⟩ | ⟨i', hi, -⟩ := hlower
        · rw [← hupper, hsame]
          exact linked_otherProxy h req
        · cases hi

theorem Linked.registered {tr : List Event} (h : Linked l s) (htraced : Traced tr s) :
    Registered tr s := by
  have hcurrent {c : Nat} {k : Str} : Current tr s c k ↔
      k ≠ [] ∧ ∃ conn, s.conns[c]? = some conn ∧ heldBy conn = k := by
    constructor
    · rintro ⟨⟨conn, hconn, hlive⟩, hid, hk⟩
      refine ⟨hk, conn, hconn, ?_⟩
      rw [heldBy, if_neg hlive, htraced.ids c conn hconn, hid]
    · rintro ⟨hk, conn, hconn, hheld⟩
      rw [heldBy] at hheld
      split at hheld
      · exact absurd hheld.symm hk
      · rename_i hlive
        exact ⟨⟨conn, hconn, hlive⟩, (htraced.ids c conn hconn).symm.trans hheld, hk⟩
  constructor
  · intro k
    rw [h.records]
    constructor
    · rintro ⟨hk, c, hheld⟩
      exact ⟨c, hcurrent.mpr ⟨hk, hheld⟩⟩
    · rintro ⟨c, hc⟩
      obtain ⟨hk, hheld⟩ := hcurrent.mp hc
      exact ⟨hk, c, hheld⟩
  · exact h.keyed
  · intro c d k hc hd
    obtain ⟨hk, conn, hconn, hheld⟩ := hcurrent.mp hc
    obtain ⟨-, other, hother, hheld'⟩ := hcurrent.mp hd
    have hmine := claim_of_held (h.registering c conn hconn) (hheld ▸ hk)
    have htheirs := claim_of_held (h.registering d other hother) (hheld' ▸ hk)
    apply h.distinct c d conn other hconn hother
    · rw [hmine, hheld]
      exact hk
    · rw [hmine, hheld, htheirs, hheld']

end ProxySteps

/-- The registry has exactly the records of the connections that are registered, in every run in
which each of them registers once. -/
theorem registered_of_once (tr : List Event) (s : Layered SasLink State)
    (hrun : Run system (fun _ => Once) ⟨{}, init⟩ tr s) : Registered tr s.lower :=
  (linked_run hrun).registered (confirmed_run (run_refines hrun)).2

def exchangedWithSas (c : Nat) (req : Str) : List Input :=
  [.proxy (.message c req), .exchange c, .proxy (.update c)]

def deregistrationRequest (cbsdId : Str) : Str :=
  obj [(lit "type", str (lit "DeregistrationRequest")), (lit "cbsdId", str cbsdId)]

/-- The first of two registered connections deregisters. -/
theorem registered_two : ∃ tr s, Registered tr s ∧
    (recordedState s (lit "CBSD-SAS-1"), recordedState s (lit "CBSD-SAS-2")) =
      (none, some .registered) := by
  have hexec : (exec system ⟨{}, init⟩ ([.proxy .accept, .proxy .accept] ++
      exchangedWithSas 0 registrationRequest ++ exchangedWithSas 1 registrationRequest ++
      exchangedWithSas 0 (deregistrationRequest (lit "CBSD-SAS-1")))).map
      (fun x => (recordedState x.1.lower (lit "CBSD-SAS-1"),
        recordedState x.1.lower (lit "CBSD-SAS-2"))) = some (none, some .registered) := by
    decide +kernel
  obtain ⟨tr, s, hrun, hstates⟩ :=
    exists_run_of_exec (P := fun _ => Once) _ (by decide +kernel) hexec
  exact ⟨tr, s.lower, registered_of_once tr s hrun, hstates⟩

/-- A connection registers twice and leaves its first record behind. -/
theorem not_registered_twice :
    ¬∀ tr (s : Layered SasLink State), Reach system ⟨{}, init⟩ tr s → Registered tr s.lower := by
  intro h
  have hexec : (exec system ⟨{}, init⟩ ([.proxy .accept] ++
      exchangedWithSas 0 registrationRequest ++ exchangedWithSas 0 registrationRequest)).map
      (fun x => (recordedState x.1.lower (lit "CBSD-SAS-1"),
        x.1.lower.conns.map Conn.myCbsdId, assigned 0 x.2)) =
      some (some .registered, [lit "CBSD-SAS-2"], lit "CBSD-SAS-2") := by
    decide +kernel
  obtain ⟨tr, s, hrun, hseen⟩ := exists_reach_of_exec hexec
  obtain ⟨hstate, hseen⟩ := Prod.mk.inj hseen
  obtain ⟨hconns, hassigned⟩ := Prod.mk.inj hseen
  have hrecorded : (s.lower.registry.lookup (lit "CBSD-SAS-1")).isSome = true := by
    obtain ⟨r, hlookup, -⟩ := Option.map_eq_some_iff.mp hstate
    rw [hlookup]
    rfl
  obtain ⟨c, ⟨conn, hconn, -⟩, hid, -⟩ := ((h tr s hrun).records _).mp hrecorded
  have honly : c = 0 := by
    obtain ⟨hlt, -⟩ := List.getElem?_eq_some_iff.mp hconn
    have hlength : s.lower.conns.length = 1 := by
      simpa using congrArg List.length hconns
    exact Nat.lt_one_iff.mp (Nat.lt_of_lt_of_eq hlt hlength)
  subst honly
  exact absurd (hid.symm.trans hassigned) (by decide)

end MobileCore.LiveRegistrations
