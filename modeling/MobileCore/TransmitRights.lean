import MobileCore.CbsdAgent

/-!
# The right to transmit

The agent and the proxy judge a response by different tests. Where the tests come to the same
result the state of an agent is the one that the proxy records for it.
-/

namespace MobileCore.TransmitRights

open CppText LabelledRuns
open NestedObjects (get)
open SasStub (Kind responseKind? mem_responseKind?)
open DomainProxy RecordOwnership
open CbsdAgent (Agent Command Phase accepts)

def recorded (s : DomainProxy.State) (c : Nat) : SpectrumState :=
  match s.conns[c]? with
  | some conn => if conn.thread = .exited then .unregistered else (info s conn).state
  | none => .unregistered

/-- The code of the last response to a heartbeat, as long as no other exchange has followed. -/
def heartbeatCode (c : Nat) (code : Option Str) : CbsdAgent.Event → Option Str
  | .completed d cmd resp =>
    if d = c then if cmd = .heartbeat then some (get resp (lit "responseCode")) else none
    else code

def lastHeartbeat (c : Nat) (tr : List CbsdAgent.Event) : Option Str :=
  tr.foldl (heartbeatCode c) none

/-- Between two commands the agent is in the state that is recorded for it, and it transmits only
after a heartbeat for its grant that had the code zero. -/
structure Agrees (tr : List CbsdAgent.Event) (s : CbsdAgent.State) : Prop where
  states : ∀ c a, s.agents c = some a → a.phase = .idle → a.state = recorded s.proxy c
  authorized : ∀ c a, s.agents c = some a → a.state = .authorized →
    lastHeartbeat c tr = some (lit "0")

/-- The exchange that the proxy takes a response to close. -/
def effect? (resp : Str) : Option Kind :=
  (responseKind? (get resp (lit "type"))).filter fun kind =>
    kind = .deregistration ∨ success (get resp (lit "responseCode"))

/-- The proxy acts on the response just when the agent does, and as on one to the command; a
heartbeat is answered with the code zero. -/
def Agreed (cmd : Command) (resp : Str) : Prop :=
  (∀ kind ∈ effect? resp, kind = cmd.kind) ∧
    (accepts cmd resp = true ↔ effect? resp = some cmd.kind ∧
      (cmd = .register → get resp (lit "cbsdId") ≠ [])) ∧
    (cmd = .heartbeat → get resp (lit "responseCode") = lit "0")

instance (cmd : Command) (resp : Str) : Decidable (Agreed cmd resp) :=
  inferInstanceAs (Decidable ((∀ kind ∈ effect? resp, _) ∧ _ ∧ _))

def awaiting? : Phase → Option Command
  | .awaiting cmd => some cmd
  | _ => none

/-- The SAS answers so that both agree, and registrations with identifiers not in use. -/
def Answers (s : CbsdAgent.State) : CbsdAgent.Input → Prop
  | .exchange c resp =>
    ∀ a ∈ s.agents c, ∀ cmd ∈ awaiting? a.phase, resp ≠ [] → Agreed cmd resp
  | .update c => FreshIds s.proxy (.update c)
  | _ => True

instance Answers.decidable (s : CbsdAgent.State) : (i : CbsdAgent.Input) → Decidable (Answers s i)
  | .exchange c _ => inferInstanceAs (Decidable (∀ a ∈ s.agents c, _))
  | .update c => inferInstanceAs (Decidable (FreshIds s.proxy (.update c)))
  | .start _ => .isTrue trivial
  | .line _ _ => .isTrue trivial
  | .deliver _ => .isTrue trivial
  | .receive _ => .isTrue trivial
  | .hangup _ => .isTrue trivial

/-- The agent is in the state of its record, or without a connection and unregistered. -/
def Rests (r : SpectrumState) (a : Agent) (thread : Thread) : Prop :=
  (thread = .receiving ∧ a.state = r) ∨ (thread = .exited ∧ a.state = .unregistered)

/-- Where the thread of an agent is, and what it has of the agent. -/
def Follows (r : SpectrumState) (a : Agent) (thread : Thread) : Prop :=
  match a.phase with
  | .idle => Rests r a thread
  | .sent cmd req => Rests r a thread ∧ a.request? cmd = some req
  | .awaiting cmd =>
    a.state = r ∧ ∃ req, a.request? cmd = some req ∧
      (thread = .forwarding req ∨
        ∃ resp, thread = .updating req resp ∧ (resp ≠ [] → Agreed cmd resp))
  | .answered cmd resp =>
    resp ≠ [] → Agreed cmd resp ∧ Rests r (a.handle cmd resp) thread ∧
      (a.request? cmd).isSome = true
  | .ended => True

structure Sound (tr : List CbsdAgent.Event) (c : Nat) (p : DomainProxy.State) (a : Agent) :
    Prop where
  follows : ∃ conn, p.conns[c]? = some conn ∧ Follows (info p conn).state a conn.thread
  granted : a.grantId ≠ [] → a.state ≠ .unregistered
  authorized : a.state = .authorized → lastHeartbeat c tr = some (lit "0")

structure Joint (tr : List CbsdAgent.Event) (s : CbsdAgent.State) : Prop where
  owned : Owned s.proxy
  agents : ∀ c a, s.agents c = some a → Sound tr c s.proxy a

section Requests

variable {a : Agent} {cmd : Command} {req resp : Str}

theorem request?_type (h : a.request? cmd = some req) :
    get req (lit "type") = cmd.kind.request := by
  cases cmd <;>
  · rw [Agent.request?] at h
    split at h
    · cases h
    · cases h
      exact SasStub.get_type (by decide) _

theorem guard_none (h : a.request? cmd = some req) :
    stateMachineGuard a.state (get req (lit "type")) = none := by
  rw [request?_type h, stateMachineGuard, if_neg, if_neg]
  · rintro ⟨htype, hstate⟩
    cases cmd with
    | heartbeat =>
        rw [Agent.request?] at h
        split at h
        · cases h
        · rename_i hactive
          exact hactive hstate
    | _ => exact absurd htype (by decide)
  · rintro ⟨htype, hstate⟩
    cases cmd with
    | grant =>
        rw [Agent.request?] at h
        split at h
        · cases h
        · rename_i hregistered
          exact hregistered hstate
    | _ => exact absurd htype (by decide)

theorem registered_of_request? (h : a.request? cmd = some req)
    (hgranted : a.grantId ≠ [] → a.state ≠ .unregistered) (hreg : cmd ≠ .register)
    (hdereg : cmd ≠ .deregister) : a.state ≠ .unregistered := by
  cases cmd with
  | register => exact absurd rfl hreg
  | deregister => exact absurd rfl hdereg
  | grant | heartbeat =>
      rw [Agent.request?] at h
      split at h
      · cases h
      · rename_i hstate
        intro hnone
        rw [hnone] at hstate
        exact hstate (by decide)
  | relinquish =>
      rw [Agent.request?] at h
      split at h
      · cases h
      · rename_i hgrant
        exact hgranted fun hempty => hgrant (List.isEmpty_iff.mpr hempty)

theorem handle_granted (hgranted : a.grantId ≠ [] → a.state ≠ .unregistered) :
    (a.handle cmd resp).grantId ≠ [] → (a.handle cmd resp).state ≠ .unregistered := by
  intro hgrant
  cases cmd with
  | register =>
      rw [Agent.handle]
      dsimp only
      split
      · decide
      · exact hgranted hgrant
  | grant =>
      rw [Agent.handle]
      dsimp only
      rw [if_pos]
      · decide
      · exact decide_eq_true (Or.inr hgrant)
  | heartbeat => exact fun h => by cases h
  | relinquish => exact absurd rfl hgrant
  | deregister => exact absurd rfl hgrant

end Requests

section Responses

variable {p : DomainProxy.State} {registry : CbsdRegistry} {c : Nat} {id id' req resp : Str}
  {ended : Bool} {a : Agent} {cmd : Command} {thread : Thread}

theorem mem_effect? {kind : Kind} : kind ∈ effect? resp ↔
    get resp (lit "type") = kind.response ∧
      (kind = .deregistration ∨ success (get resp (lit "responseCode")) = true) := by
  rw [effect?, Option.mem_def, Option.filter_eq_some_iff, ← Option.mem_def, mem_responseKind?,
    decide_eq_true_eq]

theorem kind_injective {cmd' : Command} (h : cmd.kind = cmd'.kind) : cmd = cmd' := by
  cases cmd <;> cases cmd' <;> first | rfl | cases h

theorem state_update {conn conn' : Conn} (f : CbsdInfo → CbsdInfo)
    (hregistry : registry = p.registry.update conn.myCbsdId f) (howned : Owned p)
    (hold : Holds p c conn) (hid : conn'.myCbsdId = conn.myCbsdId) {state : SpectrumState}
    (hstate : ∀ r, (f r).state = state) :
    state = (info ({ p with registry := registry }.setConn c conn') conn').state := by
  obtain ⟨r, hr⟩ := Option.isSome_iff_exists.mp (howned.held c conn hold)
  rw [info_of_ne (hid ▸ hold.named), CbsdRegistry.get, registry_setConn, hregistry, lookup_update, if_pos hid, hr]
  exact (hstate r).symm

theorem rests_update (howned : Owned p) (hold : p.conns[c]? = some ⟨id, .updating req resp⟩)
    (hupdates : Updates p.registry id req resp registry id' ended)
    (hstate : a.state = (info p ⟨id, .updating req resp⟩).state) (hreq : a.request? cmd = some req)
    (hgranted : a.grantId ≠ [] → a.state ≠ .unregistered) (hagreed : Agreed cmd resp) :
    Rests (info ({ p with registry := registry }.setConn c
        ⟨id', if ended then .exited else .receiving⟩)
        ⟨id', if ended then .exited else .receiving⟩).state
      (a.handle cmd resp) (if ended then .exited else .receiving) := by
  obtain ⟨hkind, haccepts, -⟩ := hagreed
  have hheld (hreg : cmd ≠ .register) (hdereg : cmd ≠ .deregister) :
      Holds p c ⟨id, .updating req resp⟩ := by
    refine ⟨hold, (fun hexited => by cases hexited), fun hempty => ?_⟩
    apply registered_of_request? hreq hgranted hreg hdereg
    rw [hstate, info_of_empty hempty]
  cases hupdates with
  | registered htype hok =>
      have heffect : Kind.registration ∈ effect? resp := mem_effect?.mpr ⟨htype, Or.inr hok⟩
      obtain rfl : cmd = .register := kind_injective (hkind _ heffect).symm
      refine Or.inl ⟨rfl, ?_⟩
      show (if accepts .register resp = true then SpectrumState.registered else a.state) = _
      by_cases hid : get resp (lit "cbsdId") = []
      · rw [if_neg fun h => (haccepts.mp h).2 rfl hid, info_of_empty hid]
        rw [Agent.request?] at hreq
        split at hreq
        · cases hreq
        · rename_i hnone
          exact not_not.mp hnone
      · rw [if_pos (haccepts.mpr ⟨heffect, fun _ => hid⟩), info_of_ne hid, CbsdRegistry.get,
          registry_setConn, lookup_upsert, if_pos (by rfl)]
        rfl
  | granted htype hok =>
      have heffect : Kind.grant ∈ effect? resp := mem_effect?.mpr ⟨htype, Or.inr hok⟩
      obtain rfl : cmd = .grant := kind_injective (hkind _ heffect).symm
      refine Or.inl ⟨rfl, ?_⟩
      show (if accepts .grant resp = true then SpectrumState.granted else a.state) = _
      rw [if_pos (haccepts.mpr ⟨heffect, fun h => by cases h⟩)]
      exact state_update _ (by rfl) howned (hheld (by decide) (by decide)) (by rfl) (fun _ => by rfl)
  | authorized htype hok =>
      have heffect : Kind.heartbeat ∈ effect? resp := mem_effect?.mpr ⟨htype, Or.inr hok⟩
      obtain rfl : cmd = .heartbeat := kind_injective (hkind _ heffect).symm
      refine Or.inl ⟨rfl, ?_⟩
      exact state_update _ (by rfl) howned (hheld (by decide) (by decide)) (by rfl) (fun _ => by rfl)
  | relinquished htype hok =>
      have heffect : Kind.relinquishment ∈ effect? resp := mem_effect?.mpr ⟨htype, Or.inr hok⟩
      obtain rfl : cmd = .relinquish := kind_injective (hkind _ heffect).symm
      refine Or.inl ⟨rfl, ?_⟩
      exact state_update _ (by rfl) howned (hheld (by decide) (by decide)) (by rfl) (fun _ => by rfl)
  | deregistered htype =>
      have heffect : Kind.deregistration ∈ effect? resp := mem_effect?.mpr ⟨htype, Or.inl rfl⟩
      obtain rfl : cmd = .deregister := kind_injective (hkind _ heffect).symm
      exact Or.inr ⟨rfl, rfl⟩
  | unchanged hnone =>
      refine Or.inl ⟨rfl, ?_⟩
      have hrefused : accepts cmd resp ≠ true := by
        intro h
        obtain ⟨htype, hdereg | hok⟩ := mem_effect?.mp (haccepts.mp h).1
        · exact (hnone _ htype).1 hdereg
        · rw [(hnone _ htype).2] at hok
          cases hok
      have hsame : (a.handle cmd resp).state = a.state := by
        cases cmd with
        | register => exact if_neg hrefused
        | grant => exact if_neg hrefused
        | _ => exact absurd rfl hrefused
      exact hsame.trans hstate

end Responses

section Steps

variable {tr : List CbsdAgent.Event} {s s' : CbsdAgent.State} {es : List CbsdAgent.Event}
  {i : CbsdAgent.Input} {p : DomainProxy.State} {told : List DomainProxy.Event}
  {j : DomainProxy.Input} {c d : Nat} {a : Agent} {conn : Conn}

theorem Follows.congr {r r' : SpectrumState} {thread : Thread} (h : Follows r a thread)
    (hr : thread ≠ .exited → r' = r) : Follows r' a thread := by
  have hrests {b : Agent} (hb : Rests r b thread) : Rests r' b thread := by
    rcases hb with ⟨hthread, hstate⟩ | hexited
    · refine Or.inl ⟨hthread, hstate.trans (hr ?_).symm⟩
      rw [hthread]
      decide
    · exact Or.inr hexited
  rw [Follows] at h ⊢
  split
  · rename_i hphase
    rw [hphase] at h
    exact hrests h
  · rename_i hphase
    rw [hphase] at h
    exact ⟨hrests h.1, h.2⟩
  · rename_i hphase
    rw [hphase] at h
    obtain ⟨hstate, req, hreq, hthread⟩ := h
    refine ⟨hstate.trans (hr ?_).symm, req, hreq, hthread⟩
    rintro rfl
    rcases hthread with hthread | ⟨resp, hthread, -⟩
    · cases hthread
    · cases hthread
  · rename_i hphase
    rw [hphase] at h
    intro hsome
    obtain ⟨hagreed, hbefore, hreq⟩ := h hsome
    exact ⟨hagreed, hrests hbefore, hreq⟩
  · trivial

theorem Joint.moves (h : Joint tr s) (hproxy : DomainProxy.step s.proxy j = some (p, told))
    (hfresh : FreshIds s.proxy j) (hactor : actor j = some c) {agents : Nat → Option Agent}
    (hothers : ∀ d, d ≠ c → agents d = s.agents d)
    (hown : ∀ a, agents c = some a → Sound tr c p a) : Joint tr ⟨agents, p⟩ := by
  refine ⟨owned_step h.owned hfresh hproxy, fun d b hb => ?_⟩
  by_cases hd : d = c
  · subst hd
    exact hown b hb
  · change agents d = some b at hb
    rw [hothers d hd] at hb
    obtain ⟨⟨conn, hconn, hfollows⟩, hgranted, hauthorized⟩ := h.agents d b hb
    rcases step_acts hproxy hfresh with ⟨rfl, -⟩ | ⟨e, old, new, he, hacts⟩
    · cases hactor
    · obtain rfl : c = e := Option.some.inj (hactor.symm.trans he)
      have hkept : p.conns[d]? = some conn := by
        rw [hacts.after, if_neg hd, hconn]
      refine ⟨⟨conn, hkept, hfollows.congr fun hlive => ?_⟩, hgranted, hauthorized⟩
      rw [h.owned.info_kept hacts hd hconn hlive]

theorem Joint.setAgent (h : Joint tr s) (hsilent : ∀ d, d ≠ c → ∀ code,
    es.foldl (heartbeatCode d) code = code) (hown : Sound (tr ++ es) c s.proxy a) :
    Joint (tr ++ es) (s.setAgent c a) := by
  refine ⟨h.owned, fun d b hb => ?_⟩
  rw [CbsdAgent.agents_setAgent] at hb
  split at hb
  · rename_i hd
    cases hb
    subst hd
    exact hown
  · rename_i hd
    obtain ⟨hfollows, hgranted, hauthorized⟩ := h.agents d b hb
    refine ⟨hfollows, hgranted, fun hstate => ?_⟩
    rw [lastHeartbeat, List.foldl_append, hsilent d hd]
    exact hauthorized hstate

theorem Rests.state_eq (hconn : p.conns[c]? = some conn)
    (h : Rests (info p conn).state a conn.thread) : a.state = recorded p c := by
  have hrecorded : recorded p c =
      if conn.thread = .exited then .unregistered else (info p conn).state := by
    rw [recorded, hconn]
  rw [hrecorded]
  rcases h with ⟨hthread, hstate⟩ | ⟨hthread, hstate⟩
  · rw [if_neg, hstate]
    rw [hthread]
    decide
  · rw [if_pos hthread, hstate]

theorem sound_read (h : Sound tr c p a) (hphase : a.phase = .idle) (text : Str) :
    Sound tr c p (a.read text) := by
  obtain ⟨⟨conn, hconn, hfollows⟩, hgranted, hauthorized⟩ := h
  rw [Follows, hphase] at hfollows
  have hkept : Sound tr c p a := by
    refine ⟨⟨conn, hconn, ?_⟩, hgranted, hauthorized⟩
    rw [Follows, hphase]
    exact hfollows
  rw [Agent.read]
  split
  · split
    · rename_i cmd _ req hreq
      exact ⟨⟨conn, hconn, hfollows, hreq⟩, hgranted, hauthorized⟩
    · exact hkept
  · split
    · exact ⟨⟨conn, hconn, trivial⟩, hgranted, hauthorized⟩
    · exact hkept

theorem joint_deliver (h : Joint tr s) (ha : s.agents c = some a) {cmd : Command} {req : Str}
    (hphase : a.phase = .sent cmd req) : Joint tr (CbsdAgent.deliver s c a cmd req) := by
  obtain ⟨⟨conn, hconn, hfollows⟩, hgranted, hauthorized⟩ := h.agents c a ha
  rw [Follows, hphase] at hfollows
  obtain ⟨hrests, hreq⟩ := hfollows
  rw [CbsdAgent.deliver]
  split
  · rename_i p told hproxy
    have hothers (b : Agent) : ∀ d, d ≠ c →
        Function.update s.agents c (some b) d = s.agents d :=
      fun d hd => Function.update_of_ne hd _ _
    have hown {b : Agent} {agent : Agent}
        (hagent : Function.update s.agents c (some b) c = some agent) : agent = b := by
      rw [Function.update_self] at hagent
      exact (Option.some.inj hagent).symm
    split at hproxy
    · refine h.moves hproxy trivial rfl (hothers _) fun agent hagent => ?_
      rw [hown hagent]
      rcases hrests with ⟨hthread, hstate⟩ | ⟨hthread, -⟩
      · rw [DomainProxy.step, hconn] at hproxy
        dsimp only at hproxy
        rw [if_pos hthread, handleMessage, ← hstate, guard_none hreq] at hproxy
        cases hproxy
        refine ⟨⟨{ conn with thread := .forwarding req }, ?_, ?_⟩, hgranted, hauthorized⟩
        · exact conns_setConn_self hconn
        · exact ⟨hstate, req, hreq, Or.inl rfl⟩
      · rw [DomainProxy.step, hconn] at hproxy
        dsimp only at hproxy
        rw [if_neg (by rw [hthread]; decide)] at hproxy
        cases hproxy
    · refine h.moves hproxy trivial rfl (hothers _) fun agent hagent => ?_
      rw [hown hagent]
      rw [DomainProxy.step, hconn] at hproxy
      dsimp only at hproxy
      split at hproxy
      · cases hproxy
        refine ⟨⟨{ conn with thread := .exited }, ?_, trivial⟩, hgranted, hauthorized⟩
        exact conns_setConn_self hconn
      · cases hproxy
  · rw [← List.append_nil tr]
    apply h.setAgent (fun _ _ _ => rfl)
    rw [List.append_nil]
    exact ⟨⟨conn, hconn, trivial⟩, hgranted, hauthorized⟩

theorem Follows.busy {r : SpectrumState} {thread : Thread} (h : Follows r a thread)
    (hreceiving : thread ≠ .receiving) (hexited : thread ≠ .exited) :
    (∃ cmd req, a.phase = .awaiting cmd ∧ a.state = r ∧ a.request? cmd = some req ∧
      (thread = .forwarding req ∨
        ∃ resp, thread = .updating req resp ∧ (resp ≠ [] → Agreed cmd resp))) ∨
      (∃ cmd, a.phase = .answered cmd []) ∨ a.phase = .ended := by
  have hnever {b : Agent} (hrests : Rests r b thread) : False := by
    rcases hrests with ⟨hthread, -⟩ | ⟨hthread, -⟩
    · exact hreceiving hthread
    · exact hexited hthread
  rw [Follows] at h
  split at h
  · exact (hnever h).elim
  · exact (hnever h.1).elim
  · rename_i cmd hphase
    obtain ⟨hstate, req, hreq, hthread⟩ := h
    exact Or.inl ⟨cmd, req, hphase, hstate, hreq, hthread⟩
  · rename_i cmd resp hphase
    refine Or.inr (Or.inl ⟨cmd, ?_⟩)
    by_cases hempty : resp = []
    · rw [hphase, hempty]
    · exact (hnever (h hempty).2.1).elim
  · rename_i hphase
    exact Or.inr (Or.inr hphase)

theorem follows_of_lost {r : SpectrumState} {thread : Thread}
    (h : (∃ cmd, a.phase = .answered cmd []) ∨ a.phase = .ended) : Follows r a thread := by
  rw [Follows]
  rcases h with ⟨cmd, hphase⟩ | hphase
  · rw [hphase]
    exact fun hsome => absurd rfl hsome
  · rw [hphase]
    trivial

theorem answer_awaiting {cmd : Command} {resp : Str} {rest : List DomainProxy.Event}
    (hphase : a.phase = .awaiting cmd) :
    a.answer (.answered c resp :: rest) = { a with phase := .answered cmd resp } := by
  obtain ⟨cfg, state, cbsdId, grantId, phase⟩ := a
  cases hphase
  rfl

theorem answer_lost (h : (∃ cmd, a.phase = .answered cmd []) ∨ a.phase = .ended) :
    a.answer told = a := by
  obtain ⟨cfg, state, cbsdId, grantId, phase⟩ := a
  rcases h with ⟨cmd, hphase⟩ | hphase
  · cases hphase
    rfl
  · cases hphase
    rfl

theorem joint_update (h : Joint tr s) (hguard : FreshIds s.proxy (.update c))
    (ha : s.agents c = some a)
    (hproxy : DomainProxy.step s.proxy (.update c) = some (p, told)) :
    Joint tr ({ s with proxy := p }.setAgent c (a.answer told)) := by
  obtain ⟨⟨conn, hconn, hfollows⟩, hgranted, hauthorized⟩ := h.agents c a ha
  refine h.moves hproxy hguard rfl (fun d hd => Function.update_of_ne hd _ _) fun b hb => ?_
  rw [Function.update_self] at hb
  cases hb
  cases step_steps hproxy with
  | @update _ id id' req resp registry ended hold hupdates =>
      cases hold.symm.trans hconn
      have hafter : ({ s.proxy with registry := registry }.setConn c
          ⟨id', if ended then .exited else .receiving⟩).conns[c]? =
          some ⟨id', if ended then .exited else .receiving⟩ :=
        conns_setConn_self hold
      rcases hfollows.busy (fun h => by cases h) (fun h => by cases h) with
        ⟨cmd, req', hphase, hstate, hreq, hthread | ⟨resp', hthread, hagreed⟩⟩ | hlost
      · cases hthread
      · cases hthread
        rw [answer_awaiting hphase]
        refine ⟨⟨⟨id', if ended then .exited else .receiving⟩, hafter, fun hsome => ?_⟩, hgranted,
          hauthorized⟩
        refine ⟨hagreed hsome, ?_⟩
        have hrests := rests_update h.owned hold hupdates hstate hreq hgranted (hagreed hsome)
        have hsent : (a.request? cmd).isSome = true := by
          rw [hreq]
          rfl
        cases cmd <;> exact ⟨hrests, hsent⟩
      · rw [answer_lost hlost]
        exact ⟨⟨_, hafter, follows_of_lost hlost⟩, hgranted, hauthorized⟩

theorem joint_exchange (h : Joint tr s) {resp : Str} (hguard : Answers s (.exchange c resp))
    (hproxy : DomainProxy.step s.proxy (.exchange c resp) = some (p, told)) :
    Joint tr { s with proxy := p } := by
  refine h.moves hproxy trivial rfl (fun _ _ => rfl) fun a ha => ?_
  obtain ⟨⟨conn, hconn, hfollows⟩, hgranted, hauthorized⟩ := h.agents c a ha
  cases step_steps hproxy with
  | @exchange _ id req _ hold =>
      cases hold.symm.trans hconn
      have hafter : (s.proxy.setConn c ⟨id, .updating req resp⟩).conns[c]? =
          some ⟨id, .updating req resp⟩ := conns_setConn_self hold
      rcases hfollows.busy (fun h => by cases h) (fun h => by cases h) with
        ⟨cmd, req', hphase, hstate, hreq, hthread | ⟨resp', hthread, -⟩⟩ | hlost
      · cases hthread
        refine ⟨⟨⟨id, .updating req resp⟩, hafter, ?_⟩, hgranted, hauthorized⟩
        rw [Follows, hphase]
        refine ⟨hstate, req, hreq, Or.inr ⟨resp, rfl, fun hsome => ?_⟩⟩
        exact hguard a ha cmd (by rw [hphase]; rfl) hsome
      · cases hthread
      · exact ⟨⟨_, hafter, follows_of_lost hlost⟩, hgranted, hauthorized⟩

theorem joint_hangup (h : Joint tr s) (ha : s.agents c = some a) (hphase : a.phase = .ended)
    (hproxy : DomainProxy.step s.proxy (.disconnect c) = some (p, told)) :
    Joint tr { s with proxy := p } := by
  refine h.moves hproxy trivial rfl (fun _ _ => rfl) fun b hb => ?_
  cases ha.symm.trans hb
  obtain ⟨-, hgranted, hauthorized⟩ := h.agents c a ha
  cases step_steps hproxy with
  | disconnect hold =>
      refine ⟨⟨_, conns_setConn_self hold, ?_⟩, hgranted, hauthorized⟩
      rw [Follows, hphase]
      trivial

theorem joint_start (h : Joint tr s)
    (hproxy : DomainProxy.step s.proxy .accept = some (p, told)) (cfg : CbsdAgent.CbsdConfig) :
    Joint tr ({ s with proxy := p }.setAgent s.proxy.conns.length { cfg := cfg }) := by
  have howned := owned_step (i := .accept) h.owned trivial hproxy
  cases hproxy
  refine ⟨howned, fun d b hb => ?_⟩
  rw [CbsdAgent.agents_setAgent] at hb
  split at hb
  · rename_i hd
    cases hb
    subst hd
    refine ⟨⟨{}, ?_, Or.inl ⟨rfl, rfl⟩⟩, fun hgrant => absurd rfl hgrant, fun hstate => by cases hstate⟩
    exact List.getElem?_concat_length
  · obtain ⟨⟨conn, hconn, hfollows⟩, hgranted, hauthorized⟩ := h.agents d b hb
    obtain ⟨hlt, -⟩ := List.getElem?_eq_some_iff.mp hconn
    exact ⟨⟨conn, (List.getElem?_append_left hlt).trans hconn, hfollows⟩, hgranted, hauthorized⟩

theorem joint_receive (h : Joint tr s) (ha : s.agents c = some a) {cmd : Command} {resp : Str}
    (hphase : a.phase = .answered cmd resp) (hresp : CbsdAgent.Receivable resp) :
    Joint (tr ++ [.completed c cmd resp])
      (s.setAgent c { a.handle cmd resp with phase := .idle }) := by
  obtain ⟨⟨conn, hconn, hfollows⟩, hgranted, -⟩ := h.agents c a ha
  rw [Follows, hphase] at hfollows
  have hsome : resp ≠ [] := by
    rintro rfl
    exact absurd hresp.1 (by decide)
  obtain ⟨⟨-, -, hcode⟩, hrests, hreq⟩ := hfollows hsome
  apply h.setAgent
  · intro d hd code
    exact if_neg (Ne.symm hd)
  · refine ⟨⟨conn, hconn, hrests⟩, handle_granted hgranted, fun hstate => ?_⟩
    rw [lastHeartbeat, List.foldl_append]
    show (if c = c then _ else _) = some (lit "0")
    rw [if_pos rfl]
    by_cases hcmd : cmd = .heartbeat
    · rw [if_pos hcmd, hcode hcmd]
    · cases cmd with
      | heartbeat => exact absurd rfl hcmd
      | register =>
          have hnone : a.state = .unregistered := by
            rw [Agent.request?] at hreq
            split at hreq
            · cases hreq
            · rename_i hnone
              exact not_not.mp hnone
          change (if _ then _ else a.state) = _ at hstate
          rw [hnone] at hstate
          split at hstate <;> cases hstate
      | grant =>
          have hregistered : a.state = .registered := by
            rw [Agent.request?] at hreq
            split at hreq
            · cases hreq
            · rename_i hregistered
              exact not_not.mp hregistered
          change (if _ then _ else a.state) = _ at hstate
          rw [hregistered] at hstate
          split at hstate <;> cases hstate
      | relinquish => cases hstate
      | deregister => cases hstate

theorem joint_step (h : Joint tr s) (hguard : Answers s i)
    (hstep : CbsdAgent.step s i = some (s', es)) : Joint (tr ++ es) s' := by
  cases CbsdAgent.step_steps hstep with
  | start hproxy =>
      rw [List.append_nil]
      exact joint_start h hproxy _
  | @line c text a ha hphase =>
      apply h.setAgent (fun _ _ _ => rfl)
      rw [List.append_nil]
      exact sound_read (h.agents c a ha) hphase text
  | deliver ha hphase =>
      rw [List.append_nil]
      exact joint_deliver h ha hphase
  | exchange hproxy =>
      rw [List.append_nil]
      exact joint_exchange h hguard hproxy
  | update ha hproxy =>
      rw [List.append_nil]
      exact joint_update h hguard ha hproxy
  | receive ha hphase hresp => exact joint_receive h ha hphase hresp
  | @lost c a cmd resp ha hphase =>
      obtain ⟨⟨conn, hconn, -⟩, hgranted, hauthorized⟩ := h.agents c a ha
      apply h.setAgent (fun _ _ _ => rfl)
      rw [List.append_nil]
      exact ⟨⟨conn, hconn, trivial⟩, hgranted, hauthorized⟩
  | hangup ha hphase hproxy =>
      rw [List.append_nil]
      exact joint_hangup h ha hphase hproxy

end Steps

theorem joint_run {tr : List CbsdAgent.Event} {s : CbsdAgent.State}
    (hrun : Run CbsdAgent.step (fun _ => Answers) CbsdAgent.init tr s) : Joint tr s := by
  refine Run.invariant (I := Joint) ?_ ?_ hrun
  · exact ⟨owned_init, fun c a ha => by cases ha⟩
  · intro tr s i s' es h hguard hstep
    exact joint_step h hguard hstep

/-- In every run in which both agree on the responses, each agent is in the recorded state and
transmits only after a heartbeat that succeeded. -/
theorem agrees_of_answers (tr : List CbsdAgent.Event) (s : CbsdAgent.State)
    (hrun : Run CbsdAgent.step (fun _ => Answers) CbsdAgent.init tr s) : Agrees tr s := by
  have hjoint := joint_run hrun
  constructor
  · intro c a ha hphase
    obtain ⟨conn, hconn, hfollows⟩ := (hjoint.agents c a ha).follows
    rw [Follows, hphase] at hfollows
    exact hfollows.state_eq hconn
  · intro c a ha
    exact (hjoint.agents c a ha).authorized

def commanded (c : Nat) (line resp : Str) : List CbsdAgent.Input :=
  [.line c line, .deliver c, .exchange c resp, .update c, .receive c]

def heartbeats (c : Nat) (resp : Str) : List CbsdAgent.Input :=
  commanded c (lit "REGISTER") (SasStub.registrationResponse (lit "CBSD-SAS-1")) ++
    commanded c (lit "GRANT") (SasStub.grantResponse (lit "CBSD-SAS-1") (lit "GRANT-1")
      (BinaryFloats.ofNat 3555) (BinaryFloats.ofNat 10) (BinaryFloats.ofNat 30)) ++
    commanded c (lit "HEARTBEAT") resp

def seen (s : CbsdAgent.State) (c : Nat) : Option (SpectrumState × Phase) :=
  (s.agents c).map fun a => (a.state, a.phase)

/-- Both agents have a command under way at once, and the second one's ends first. -/
def overlapping (line resp₀ resp₁ : Str) : List CbsdAgent.Input :=
  [.line 0 line, .line 1 line, .deliver 1, .deliver 0, .exchange 1 resp₁, .exchange 0 resp₀,
    .update 1, .receive 1, .update 0, .receive 0]

/-- Two agents that register, obtain a grant and send a heartbeat. -/
def twoAgents : List CbsdAgent.Input :=
  let id₀ := lit "CBSD-SAS-2"
  let id₁ := lit "CBSD-SAS-1"
  let granted (cbsdId grantId : Str) := SasStub.grantResponse cbsdId grantId
    (BinaryFloats.ofNat 3555) (BinaryFloats.ofNat 10) (BinaryFloats.ofNat 30)
  [.start (lit "1"), .start (lit "2")] ++
    overlapping (lit "REGISTER") (SasStub.registrationResponse id₀)
      (SasStub.registrationResponse id₁) ++
    overlapping (lit "GRANT") (granted id₀ (lit "GRANT-2")) (granted id₁ (lit "GRANT-1")) ++
    overlapping (lit "HEARTBEAT") (SasStub.heartbeatResponse id₀ (lit "GRANT-2"))
      (SasStub.heartbeatResponse id₁ (lit "GRANT-1"))

theorem agrees_two_agents : ∃ tr s, Agrees tr s ∧ seen s 0 = some (.authorized, .idle) ∧
    seen s 1 = some (.authorized, .idle) := by
  have hexec : (exec CbsdAgent.step CbsdAgent.init twoAgents).map
      (fun x => (seen x.1 0, seen x.1 1)) =
      some (some (.authorized, .idle), some (.authorized, .idle)) := by
    decide +kernel
  obtain ⟨tr, s, hrun, hseen⟩ :=
    exists_run_of_exec (P := fun _ => Answers) _ (by decide +kernel) hexec
  obtain ⟨hfirst, hsecond⟩ := Prod.mk.inj hseen
  exact ⟨tr, s, agrees_of_answers tr s hrun, hfirst, hsecond⟩

/-- The heartbeat is answered with a terminated grant, and the agent transmits. -/
theorem not_agrees_terminated :
    ¬∀ tr s, Reach CbsdAgent.step CbsdAgent.init tr s → Agrees tr s := by
  intro h
  have hexec : (exec CbsdAgent.step CbsdAgent.init ([.start (lit "1")] ++ heartbeats 0
      (error (lit "HeartbeatResponse") 500 (lit "TERMINATED_GRANT")))).map
      (fun x => (seen x.1 0, recorded x.1.proxy 0)) =
      some (some (.authorized, .idle), .granted) := by
    decide +kernel
  obtain ⟨tr, s, hrun, hend⟩ := exists_reach_of_exec hexec
  obtain ⟨hseen, hrecorded⟩ := Prod.mk.inj hend
  obtain ⟨a, ha, hstate⟩ := Option.map_eq_some_iff.mp hseen
  obtain ⟨hstate, hphase⟩ := Prod.mk.inj hstate
  have hsame := (h tr s hrun).states 0 a ha hphase
  rw [hstate, hrecorded] at hsame
  cases hsame

end MobileCore.TransmitRights
