import MobileCore.CallBarring
import MobileCore.SipUplink

/-!
# Who an INVITE comes from

Peers that write any frames to the P-CSCF in which no field stands twice. It knows the identity that
a connection registered, but neither it nor the S-CSCF compares the From of an INVITE to that or
looks either party up. Nor does a lock keep the frames of two connections apart on their way to the
S-CSCF, which may make an INVITE of their parts.
-/

namespace MobileCore.OriginatorIdentity

open MobileCore.CallSessionControl
open MobileCore.CppText
open MobileCore.LabelledRuns
open MobileCore.LastWrite
open MobileCore.LayeredMachines (Layered)
open MobileCore.SipPhones
open CallBarring (admits asksConference reInviter scscfHandle_invite_cases)

/-- A frame that a peer writes, or a step of the phones and the nodes. -/
inductive Input where
  | write (n : Nat) (msg : SipMessage)
  | ims (i : CallSessionControl.Input)

/-- `read` is a message that the P-CSCF takes off a phone's connection. -/
inductive Event where
  | read (msg : SipMessage)
  | shown (e : CallSessionControl.Event)
deriving DecidableEq

def readBy (s : State) : CallSessionControl.Input → List SipMessage
  | .pcscfRead n => (s.conns n).uplink.take 1
  | _ => []

def step (label : Nat → UeLabel) : Machine State Input Event
  | s, .write n msg =>
    some (s.modify n fun c => { c with uplink := c.uplink ++ [{ msg with origin := n }] }, [])
  | s, .ims i =>
    (CallSessionControl.step label s i).map fun r =>
      (r.1, (readBy s i).map .read ++ r.2.map .shown)

def registersOn (n : Nat) : Event → Bool
  | .read msg => msg.type = .register ∧ msg.origin = n
  | .shown _ => false

def impuRead : Event → Option Str
  | .read msg => some msg.impu
  | .shown _ => none

/-- The identity that the session of a connection last registered. -/
def sessionImpu (tr : List Event) (n : Nat) : Option Str :=
  (lastWhere (registersOn n) tr).bind impuRead

def InRegistry (node : ScscfNode) (impu : Str) : Prop := (node.registry.lookup impu).isSome = true

instance (node : ScscfNode) (impu : Str) : Decidable (InRegistry node impu) :=
  inferInstanceAs (Decidable (_ = _))

/-- The INVITE arrived on a session that had registered its From. -/
def Entered (tr : List Event) (inv : SipMessage) : Prop :=
  inv.type = .invite ∧ ∃ before after, tr = before ++ .read inv :: after ∧
    sessionImpu before inv.origin = some inv.sipFrom

/-- The second INVITE is the first one forwarded, or the conference INVITE that it asks for. -/
def SetsOff (inv out : SipMessage) : Prop := out = inv ∨ ∃ cs, out = conferenceInvite cs inv

/-- The From is the identity of the session that the INVITE came from, and both parties are
registered. -/
structure Authentic (tr : List Event) (node : ScscfNode) (msg : SipMessage) : Prop where
  originator : ∃ inv, Entered tr inv ∧ SetsOff inv msg ∧ inv.sipFrom = msg.sipFrom
  caller : InRegistry node msg.sipFrom
  callee : InRegistry node msg.sipTo

/-- An INVITE that the S-CSCF will forward is for a registered identity, and a conference is asked
for by the caller of its call. -/
def Vetted (node : ScscfNode) (msg : SipMessage) : Prop :=
  (node.calls.lookup msg.callId = none → invokeMtas node msg.sipTo = true →
    InRegistry node msg.sipTo) ∧
  ∀ cs ∈ node.calls.lookup msg.callId, (asksConference msg → msg.sipTo ≠ []) →
    reInviter cs msg = msg.sipFrom ∧ InRegistry node msg.sipTo

/-- What neither node checks: an INVITE names the identity that its session registered, and the
S-CSCF finds its parties as they should be. -/
def Honest (tr : List Event) (s : State) : Input → Prop
  | .ims (.pcscfRead n) =>
    ∀ msg ∈ (s.conns n).uplink.head?, msg.type = .invite → sessionImpu tr n = some msg.sipFrom
  | .ims .scscfReceive => ∀ msg ∈ s.toScscf.head?, msg.type = .invite → Vetted s.scscf msg
  | _ => True

section History

theorem sessionImpu_append_of_forall {tr es : List Event} {n : Nat}
    (h : ∀ e ∈ es, registersOn n e = false) : sessionImpu (tr ++ es) n = sessionImpu tr n := by
  rw [sessionImpu, lastWhere_append_of_forall tr h, sessionImpu]

theorem sessionImpu_shown (tr : List Event) (es : List CallSessionControl.Event) (n : Nat) :
    sessionImpu (tr ++ es.map .shown) n = sessionImpu tr n := by
  apply sessionImpu_append_of_forall
  intro e he
  obtain ⟨e, -, rfl⟩ := List.mem_map.mp he
  rfl

theorem sessionImpu_read (tr : List Event) (msg : SipMessage) (n : Nat) :
    sessionImpu (tr ++ [.read msg]) n =
      if msg.type = .register ∧ msg.origin = n then some msg.impu else sessionImpu tr n := by
  rw [sessionImpu, lastWhere_snoc, sessionImpu, registersOn]
  by_cases h : msg.type = .register ∧ msg.origin = n
  · simp [h, impuRead]
  · simp [h]

theorem Entered.append {tr : List Event} {inv : SipMessage} (h : Entered tr inv)
    (es : List Event) : Entered (tr ++ es) inv := by
  obtain ⟨htype, before, after, rfl, hsession⟩ := h
  exact ⟨htype, before, after ++ es, by rw [List.append_assoc, List.cons_append], hsession⟩

end History

section Scscf

variable {node : ScscfNode} {msg out : SipMessage}

theorem InRegistry.handle {impu : Str} (h : InRegistry node impu) (msg : SipMessage) :
    InRegistry (scscfHandle node msg).1 impu := by
  rw [InRegistry, scscfHandle_registry]
  split
  · by_cases hkey : impu = msg.impu
    · rw [hkey, AList.lookup_insert]
      rfl
    · rw [AList.lookup_insert_ne hkey]
      exact h
  · exact h

theorem inRegistry_register (node : ScscfNode) (h : msg.type = .register) :
    InRegistry (scscfHandle node msg).1 msg.impu := by
  rw [InRegistry, scscfHandle_registry, if_pos h, AList.lookup_insert]
  rfl

theorem scscfHandle_vetted (hvetted : msg.type = .invite → Vetted node msg)
    (hout : out ∈ (scscfHandle node msg).2) (htype : out.type = .invite) :
    msg.type = .invite ∧ SetsOff msg out ∧ out.sipFrom = msg.sipFrom ∧
      InRegistry node out.sipTo := by
  obtain ⟨hinvite, hcases⟩ := scscfHandle_invite_cases hout htype
  obtain ⟨hnewCall, hstored⟩ := hvetted hinvite
  refine ⟨hinvite, ?_⟩
  rcases hcases with ⟨hadmits, rfl⟩ | ⟨cs, hcs, ⟨hconf, rfl⟩ | ⟨hconf, hto, rfl⟩⟩
  · simp only [admits, Bool.and_eq_true, decide_eq_true_eq, Option.isNone_iff_eq_none] at hadmits
    exact ⟨Or.inl rfl, rfl, hnewCall hadmits.1.2 hadmits.2⟩
  · exact ⟨Or.inl rfl, rfl, (hstored cs hcs (by simp [hconf])).2⟩
  · obtain ⟨hcaller, hcallee⟩ := hstored cs hcs fun _ => hto
    rw [reInviter, if_pos hconf] at hcaller
    exact ⟨Or.inr ⟨cs, rfl⟩, hcaller, hcallee⟩

end Scscf

section Links

/-- A registration of the identity is on its way. -/
def Coming (L : List SipMessage) (impu : Str) : Prop :=
  ∃ msg ∈ L, msg.type = .register ∧ msg.impu = impu

/-- The messages ahead of an INVITE register its From, if the registry does not have it. -/
def Arrives (tr : List Event) (node : ScscfNode) (ahead : List SipMessage) (msg : SipMessage) :
    Prop :=
  msg.type = .invite →
    Entered tr msg ∧ (InRegistry node msg.sipFrom ∨ Coming ahead msg.sipFrom)

/-- A session's last registration has reached the registry, or it is ahead of every later message
of the session. -/
structure Inv (tr : List Event) (s : State) : Prop where
  origin : ∀ n, ∀ msg ∈ (s.conns n).uplink, msg.origin = n
  registers : ∀ n impu, sessionImpu tr n = some impu →
    (InRegistry s.scscf impu ∨ Coming s.toScscf impu) ∨
      ∃ msg, (s.conns n).session.thread = .forwarding msg ∧ msg.type = .register ∧ msg.impu = impu
  forwarding : ∀ n msg, (s.conns n).session.thread = .forwarding msg →
    Arrives tr s.scscf s.toScscf msg
  forwarded : Backed (Arrives tr s.scscf) s.toScscf
  answered : ∀ msg ∈ s.toPcscf, msg.type = .invite → Authentic tr s.scscf msg
  notifying : ∀ target msg, s.pcscf.scscfThread = .notifying target msg → msg.type ≠ .invite

theorem init_inv : Inv [] init where
  origin := by
    intro n msg hmsg
    cases hmsg
  registers := by
    intro n impu h
    cases h
  forwarding := by
    intro n msg h
    cases h
  forwarded := Backed.nil _
  answered := by
    intro msg hmsg
    cases hmsg
  notifying := by
    intro target msg h
    cases h

theorem Authentic.append {tr : List Event} {node : ScscfNode} {msg : SipMessage}
    (h : Authentic tr node msg) (es : List Event) : Authentic (tr ++ es) node msg := by
  obtain ⟨⟨inv, hentered, hsetsOff, hfrom⟩, hcaller, hcallee⟩ := h
  exact ⟨⟨inv, hentered.append es, hsetsOff, hfrom⟩, hcaller, hcallee⟩

theorem Arrives.append {tr : List Event} {node : ScscfNode} {ahead : List SipMessage}
    {msg : SipMessage} (h : Arrives tr node ahead msg) (es : List Event) :
    Arrives (tr ++ es) node ahead msg := by
  intro htype
  exact ⟨(h htype).1.append es, (h htype).2⟩

theorem Inv.shown {tr : List Event} {s : State} (h : Inv tr s)
    (es : List CallSessionControl.Event) : Inv (tr ++ es.map .shown) s where
  origin := h.origin
  registers n impu hsession := h.registers n impu (by rwa [sessionImpu_shown] at hsession)
  forwarding n msg hthread := (h.forwarding n msg hthread).append _
  forwarded front msg back hsplit := (h.forwarded front msg back hsplit).append _
  answered msg hmsg htype := (h.answered msg hmsg htype).append _
  notifying := h.notifying

/-- A step that the threads of the connections and the S-CSCF take no part in. -/
structure Quiet (s s' : State) : Prop where
  toScscf : s'.toScscf = s.toScscf
  registry : s'.scscf.registry = s.scscf.registry
  toPcscf : ∀ msg ∈ s'.toPcscf, msg ∈ s.toPcscf
  uplink : ∀ n, ∀ msg ∈ (s'.conns n).uplink, msg ∈ (s.conns n).uplink ∨ msg.origin = n
  thread : ∀ n msg, (s'.conns n).session.thread = .forwarding msg ↔
    (s.conns n).session.thread = .forwarding msg
  notifying : ∀ target msg, s'.pcscf.scscfThread = .notifying target msg →
    s.pcscf.scscfThread = .notifying target msg ∨ msg.type ≠ .invite

theorem Authentic.mono {tr : List Event} {node node' : ScscfNode} {msg : SipMessage}
    (h : Authentic tr node msg)
    (hregistry : ∀ impu, InRegistry node impu → InRegistry node' impu) : Authentic tr node' msg :=
  ⟨h.originator, hregistry _ h.caller, hregistry _ h.callee⟩

theorem Quiet.inRegistry {s s' : State} (h : Quiet s s') (impu : Str) :
    InRegistry s'.scscf impu ↔ InRegistry s.scscf impu := by
  rw [InRegistry, h.registry, InRegistry]

theorem Quiet.arrives {tr : List Event} {s s' : State} (h : Quiet s s') {ahead : List SipMessage}
    {msg : SipMessage} (harrives : Arrives tr s.scscf ahead msg) :
    Arrives tr s'.scscf ahead msg := by
  intro htype
  rw [h.inRegistry]
  exact harrives htype

theorem Inv.quiet {tr : List Event} {s s' : State} (h : Inv tr s) (hquiet : Quiet s s') :
    Inv tr s' where
  origin n msg hmsg := (hquiet.uplink n msg hmsg).elim (h.origin n msg) id
  registers n impu hsession := by
    rw [hquiet.inRegistry, hquiet.toScscf]
    simp only [hquiet.thread]
    exact h.registers n impu hsession
  forwarding n msg hthread := by
    rw [hquiet.toScscf]
    exact hquiet.arrives (h.forwarding n msg ((hquiet.thread n msg).mp hthread))
  forwarded front msg back hsplit := by
    rw [hquiet.toScscf] at hsplit
    exact hquiet.arrives (h.forwarded front msg back hsplit)
  answered msg hmsg htype :=
    (h.answered msg (hquiet.toPcscf msg hmsg) htype).mono fun impu => (hquiet.inRegistry impu).mpr
  notifying target msg hthread :=
    (hquiet.notifying target msg hthread).elim (h.notifying target msg) id

theorem quiet_modify (s : State) (n : Nat) (f : Conn → Conn)
    (huplink : ∀ msg ∈ (f (s.conns n)).uplink, msg ∈ (s.conns n).uplink ∨ msg.origin = n)
    (hthread : ∀ msg, (f (s.conns n)).session.thread = .forwarding msg ↔
      (s.conns n).session.thread = .forwarding msg) : Quiet s (s.modify n f) where
  toScscf := rfl
  registry := rfl
  toPcscf _ hmsg := hmsg
  uplink m msg hmsg := by
    rw [State.modify_conns] at hmsg
    split at hmsg
    · rename_i hm
      rw [hm]
      exact huplink msg hmsg
    · exact Or.inl hmsg
  thread m msg := by
    rw [State.modify_conns]
    split
    · rename_i hm
      rw [hm]
      exact hthread msg
    · exact Iff.rfl
  notifying _ _ h := Or.inl h

theorem quiet_of_kept {s s' : State} (htoScscf : s'.toScscf = s.toScscf) (hscscf : s'.scscf = s.scscf)
    (htoPcscf : s'.toPcscf = s.toPcscf) (huplink : ∀ n, (s'.conns n).uplink = (s.conns n).uplink)
    (hthread : ∀ n, (s'.conns n).session.thread = (s.conns n).session.thread)
    (hscscfThread : s'.pcscf.scscfThread = s.pcscf.scscfThread) : Quiet s s' where
  toScscf := htoScscf
  registry := by rw [hscscf]
  toPcscf msg hmsg := by rwa [htoPcscf] at hmsg
  uplink n msg hmsg := by
    rw [huplink n] at hmsg
    exact Or.inl hmsg
  thread n msg := by rw [hthread n]
  notifying target msg hnotifying := by
    rw [hscscfThread] at hnotifying
    exact Or.inl hnotifying

theorem quiet_of_delivers {s s' : State} (h : Delivers s s') : Quiet s s' :=
  quiet_of_kept h.toScscf h.scscf h.toPcscf h.uplink h.thread (by rw [h.pcscf])

theorem phoneStep_quiet (s : State) (n : Nat) (out : Outcome) : Quiet s (phoneStep s n out) := by
  refine quiet_modify s n _ ?_ fun _ => Iff.rfl
  intro msg hmsg
  rcases List.mem_append.mp hmsg with hold | hnew
  · exact Or.inl hold
  · obtain ⟨sent, -, rfl⟩ := List.mem_map.mp hnew
    exact Or.inr rfl

theorem quiet_of_enters {s s' : State} (h : Enters s s') : Quiet s s' :=
  quiet_of_kept h.toScscf h.scscf h.toPcscf h.uplink h.thread h.scscfThread

theorem handleFromScscf_quiet {s : State} {msg : SipMessage} {rest : List SipMessage}
    (hpcscf : s.toPcscf = msg :: rest) :
    Quiet s (handleFromScscf { s with toPcscf := rest } msg).1 := by
  obtain ⟨p, hsection, hdelivers⟩ := handleFromScscf_delivers { s with toPcscf := rest } msg
  have hquiet := quiet_of_delivers hdelivers
  constructor
  · exact hquiet.toScscf
  · exact hquiet.registry
  · intro out hout
    rw [hpcscf]
    exact List.mem_cons_of_mem msg (hquiet.toPcscf out hout)
  · exact hquiet.uplink
  · exact hquiet.thread
  · intro target out hthread
    rcases hquiet.notifying target out hthread with hthread | hother
    · cases hsection with
      | unchanged => exact Or.inl hthread
      | entered _ _ =>
          rw [enterInvite_scscfThread] at hthread
          exact Or.inl hthread
      | answered other htype _ =>
          obtain ⟨-, rfl⟩ := ScscfThread.notifying.inj hthread
          exact Or.inr (by rw [htype]; simp)
    · exact Or.inr hother

theorem notify_quiet {s : State} {target : Str} {msg : SipMessage} :
    Quiet s (notify s target msg).1 := by
  have hquiet := quiet_of_delivers (notify_delivers s target msg)
  refine ⟨hquiet.toScscf, hquiet.registry, hquiet.toPcscf, hquiet.uplink, hquiet.thread, ?_⟩
  intro other out hthread
  rcases hquiet.notifying other out hthread with hthread | hother
  · cases hthread
  · exact Or.inr hother

end Links

section Steps

variable {label : Nat → UeLabel} {tr : List Event} {s : State} {n : Nat} {msg : SipMessage}

theorem read_inv (h : Inv tr s) (hthread : (s.conns n).session.thread = .receiving)
    (horigin : msg.origin = n)
    (hhonest : msg.type = .invite → sessionImpu tr n = some msg.sipFrom) :
    Inv (tr ++ [.read msg]) (setThread s n (.forwarding msg)) where
  origin m old hold := by
    rw [(setThread_conns _ n _ m).2.1] at hold
    exact h.origin m old hold
  registers m impu hsession := by
    rw [setThread_thread]
    rw [sessionImpu_read] at hsession
    split at hsession
    · rename_i hregister
      rw [if_pos (hregister.2.symm.trans horigin)]
      exact Or.inr ⟨msg, rfl, hregister.1, Option.some.inj hsession⟩
    · rcases h.registers m impu hsession with hplaced | ⟨old, hold, hregister⟩
      · exact Or.inl hplaced
      · have hother : m ≠ n := by
          rintro rfl
          rw [hthread] at hold
          cases hold
        rw [if_neg hother]
        exact Or.inr ⟨old, hold, hregister⟩
  forwarding m inv hforwarding := by
    rw [setThread_thread] at hforwarding
    split at hforwarding
    · obtain rfl := UeThread.forwarding.inj hforwarding
      intro htype
      have hsession := hhonest htype
      have hentered : Entered (tr ++ [.read msg]) msg :=
        ⟨htype, tr, [], rfl, by rw [horigin, hsession]⟩
      rcases h.registers n msg.sipFrom hsession with hplaced | ⟨old, hold, -⟩
      · exact ⟨hentered, hplaced⟩
      · rw [hthread] at hold
        cases hold
    · exact (h.forwarding m inv hforwarding).append _
  forwarded front inv back hsplit := (h.forwarded front inv back hsplit).append _
  answered out hout htype := (h.answered out hout htype).append _
  notifying := h.notifying

theorem Coming.append {L : List SipMessage} {impu : Str} (h : Coming L impu)
    (more : List SipMessage) : Coming (L ++ more) impu := by
  obtain ⟨msg, hmsg, hregister⟩ := h
  exact ⟨msg, List.mem_append_left more hmsg, hregister⟩

theorem forward_inv (h : Inv tr s) (hthread : (s.conns n).session.thread = .forwarding msg)
    {thread : UeThread} (hdone : ∀ later, thread ≠ .forwarding later) :
    Inv tr (setThread { s with toScscf := s.toScscf ++ [msg] } n thread) where
  origin m old hold := by
    rw [(setThread_conns _ n _ m).2.1] at hold
    exact h.origin m old hold
  registers m impu hsession := by
    rw [setThread_thread]
    rcases h.registers m impu hsession with (hplaced | hcoming) | ⟨old, hold, hregister⟩
    · exact Or.inl (Or.inl hplaced)
    · exact Or.inl (Or.inr (hcoming.append [msg]))
    · by_cases hm : m = n
      · rw [hm, hthread] at hold
        obtain rfl := UeThread.forwarding.inj hold
        exact Or.inl (Or.inr ⟨msg, List.mem_append_right _ (List.mem_singleton_self msg), hregister⟩)
      · rw [if_neg hm]
        exact Or.inr ⟨old, hold, hregister⟩
  forwarding m inv hforwarding := by
    rw [setThread_thread] at hforwarding
    split at hforwarding
    · exact absurd hforwarding (hdone inv)
    · intro htype
      obtain ⟨hentered, hplaced⟩ := h.forwarding m inv hforwarding htype
      exact ⟨hentered, hplaced.imp_right fun hcoming => hcoming.append [msg]⟩
  forwarded := Backed.snoc h.forwarded (h.forwarding n msg hthread)
  answered := h.answered
  notifying := h.notifying

theorem arrives_handle {rest : List SipMessage} {impu : Str}
    (h : InRegistry s.scscf impu ∨ Coming (msg :: rest) impu) :
    InRegistry (scscfHandle s.scscf msg).1 impu ∨ Coming rest impu := by
  rcases h with hplaced | ⟨first, hfirst, hregister, himpu⟩
  · exact Or.inl (hplaced.handle msg)
  · rcases List.mem_cons.mp hfirst with rfl | hlater
    · rw [← himpu]
      exact Or.inl (inRegistry_register s.scscf hregister)
    · exact Or.inr ⟨first, hlater, hregister, himpu⟩

theorem handle_inv (h : Inv tr s) {rest : List SipMessage} (hscscf : s.toScscf = msg :: rest)
    (hvetted : msg.type = .invite → Vetted s.scscf msg) :
    Inv tr { s with
      toScscf := rest
      scscf := (scscfHandle s.scscf msg).1
      toPcscf := s.toPcscf ++ (scscfHandle s.scscf msg).2 } where
  origin := h.origin
  registers m impu hsession := by
    have hplaces := h.registers m impu hsession
    rw [hscscf] at hplaces
    exact hplaces.imp_left arrives_handle
  forwarding m inv hforwarding htype := by
    obtain ⟨hentered, hplaced⟩ := h.forwarding m inv hforwarding htype
    rw [hscscf] at hplaced
    exact ⟨hentered, arrives_handle hplaced⟩
  forwarded front inv back hsplit htype := by
    have hlonger : s.toScscf = (msg :: front) ++ inv :: back := by
      rw [hscscf, show rest = _ from hsplit, List.cons_append]
    obtain ⟨hentered, hplaced⟩ := h.forwarded _ inv back hlonger htype
    exact ⟨hentered, arrives_handle hplaced⟩
  answered out hout htype := by
    rcases List.mem_append.mp hout with hold | hnew
    · exact (h.answered out hold htype).mono fun impu himpu => himpu.handle msg
    · obtain ⟨hinvite, hsetsOff, hfrom, hto⟩ := scscfHandle_vetted hvetted hnew htype
      obtain ⟨hentered, hplaced⟩ := h.forwarded [] msg rest hscscf hinvite
      have hcaller : InRegistry s.scscf msg.sipFrom := by
        rcases hplaced with hplaced | ⟨first, hfirst, -⟩
        · exact hplaced
        · cases hfirst
      refine ⟨⟨msg, hentered, hsetsOff, hfrom.symm⟩, ?_, hto.handle msg⟩
      rw [hfrom]
      exact hcaller.handle msg
  notifying := h.notifying

theorem ims_inv {i : CallSessionControl.Input} {s' : State} {es : List CallSessionControl.Event}
    (h : Inv tr s) (hguard : Honest tr s (.ims i))
    (hstep : CallSessionControl.step label s i = some (s', es)) :
    Inv (tr ++ (readBy s i).map .read) s' := by
  have hnothing (h : Inv tr s') : Inv (tr ++ []) s' := by rwa [List.append_nil]
  cases step_cases hstep with
  | command n cmd =>
      apply hnothing
      exact h.quiet (phoneStep_quiet s n _)
  | @ueReceive n msg rest _ =>
      apply hnothing
      refine (h.quiet (quiet_modify s n _ ?_ fun _ => Iff.rfl)).quiet (phoneStep_quiet _ n _)
      intro msg hmsg
      exact Or.inl hmsg
  | @pcscfRead n msg rest hthread huplink =>
      rw [readBy, huplink]
      refine Inv.quiet ?_ (quiet_of_enters (handleFromUe_enters _ n msg))
      refine read_inv (h.quiet (quiet_modify s n _ ?_ fun _ => Iff.rfl)) ?_ ?_ ?_
      · intro later hlater
        rw [huplink]
        exact Or.inl (List.mem_cons_of_mem msg hlater)
      · rw [State.modify_conns, if_pos rfl]
        exact hthread
      · apply h.origin n
        rw [huplink]
        exact List.mem_cons_self
      · exact hguard msg (by rw [huplink]; rfl)
  | @pcscfForward n msg hthread =>
      apply hnothing
      apply forward_inv h hthread
      intro later
      split <;> simp
  | @pcscfCleanUp n callId hthread =>
      apply hnothing
      have hquiet := quiet_modify s n
        (fun c => { c with session := { c.session with thread := .receiving } })
        (fun _ hmsg => Or.inl hmsg) (fun msg => by simp [hthread])
      exact h.quiet
        ⟨rfl, rfl, fun _ hmsg => hmsg, hquiet.uplink, hquiet.thread, fun _ _ => Or.inl⟩
  | pcscfReceive _ htoPcscf =>
      apply hnothing
      exact h.quiet (handleFromScscf_quiet htoPcscf)
  | pcscfNotify _ =>
      apply hnothing
      exact h.quiet notify_quiet
  | @scscfReceive msg rest htoScscf =>
      apply hnothing
      exact handle_inv h htoScscf (hguard msg (by rw [htoScscf]; rfl))
  | setBarred _ _ =>
      apply hnothing
      exact h.quiet ⟨rfl, rfl, fun _ hmsg => hmsg, fun _ _ => Or.inl, fun _ _ => Iff.rfl,
        fun _ _ => Or.inl⟩

theorem step_inv {i : Input} {s' : State} {es : List Event} (h : Inv tr s)
    (hguard : Honest tr s i) (hstep : step label s i = some (s', es)) : Inv (tr ++ es) s' := by
  cases i with
  | write n msg =>
      obtain ⟨rfl, rfl⟩ : _ = s' ∧ [] = es := by simpa [step] using hstep
      rw [List.append_nil]
      refine h.quiet (quiet_modify s n _ ?_ fun _ => Iff.rfl)
      intro written hwritten
      rcases List.mem_append.mp hwritten with hold | hnew
      · exact Or.inl hold
      · rw [List.mem_singleton.mp hnew]
        exact Or.inr rfl
  | ims i =>
      obtain ⟨⟨next, shown⟩, hims, hresult⟩ := Option.map_eq_some_iff.mp hstep
      obtain ⟨rfl, rfl⟩ := Prod.ext_iff.mp hresult
      rw [← List.append_assoc]
      exact (ims_inv h hguard hims).shown shown

theorem run_inv (hrun : Run (step label) Honest init tr s) : Inv tr s := by
  refine hrun.invariant init_inv ?_
  intro tr s i s' es h hguard hstep
  exact step_inv h hguard hstep

end Steps

section Delivery

variable {s : State} {n : Nat} {msg out : SipMessage}

theorem handleFromScscf_delivered (h : .delivered n out ∈ (handleFromScscf s msg).2)
    (htype : out.type = .invite) : out = msg := by
  rcases List.mem_cons.mp ((handleFromScscf_handsOn s msg).events n out h) with hsame | hring
  · exact hsame
  · rw [List.mem_singleton.mp hring] at htype
    cases htype

theorem delivered_cases {label : Nat → UeLabel} {tr : List Event} {s' : State} {i : Input}
    {es : List Event} (hinv : Inv tr s) (hstep : step label s i = some (s', es))
    (hmem : .shown (.delivered n out) ∈ es) (htype : out.type = .invite) :
    out ∈ s.toPcscf ∧ s'.scscf = s.scscf := by
  cases i with
  | write m msg =>
      obtain ⟨-, rfl⟩ := Prod.ext_iff.mp (Option.some.inj hstep)
      cases hmem
  | ims i =>
      obtain ⟨⟨next, shown⟩, hims, hresult⟩ := Option.map_eq_some_iff.mp hstep
      obtain ⟨rfl, rfl⟩ := Prod.ext_iff.mp hresult
      have hshown : .delivered n out ∈ shown := by simpa using hmem
      cases step_cases hims with
      | command _ _ | ueReceive _ | pcscfForward _ | scscfReceive _ | setBarred _ _ => cases hshown
      | pcscfCleanUp _ => cases List.mem_singleton.mp hshown
      | pcscfRead _ _ =>
          unfold handleFromUe at hshown
          split at hshown
          · cases List.mem_singleton.mp hshown
          · cases List.mem_singleton.mp hshown
          · cases hshown
      | @pcscfReceive msg rest _ htoPcscf =>
          obtain rfl := handleFromScscf_delivered hshown htype
          obtain ⟨p, -, hdelivers⟩ := handleFromScscf_delivers { s with toPcscf := rest } out
          refine ⟨?_, hdelivers.scscf⟩
          rw [htoPcscf]
          exact List.mem_cons_self
      | @pcscfNotify target msg hthread =>
          have hsame : out = msg :=
            List.mem_singleton.mp ((notify_handsOn s target msg).events n out hshown)
          exact absurd (hsame ▸ htype) (hinv.notifying target msg hthread)

/-- While the nodes pass whole messages on. -/
theorem delivered_authentic {label : Nat → UeLabel} {tr : List Event} {s' : State} {i : Input}
    {es : List Event} (hrun : Run (step label) Honest init tr s)
    (hstep : step label s i = some (s', es)) (hmem : .shown (.delivered n msg) ∈ es)
    (htype : msg.type = .invite) : Authentic tr s'.scscf msg := by
  have hinv := run_inv hrun
  obtain ⟨hmsg, hscscf⟩ := delivered_cases hinv hstep hmem htype
  rw [hscscf]
  exact hinv.answered msg hmsg htype

end Delivery

section Uplink

def ims? : Input → Option CallSessionControl.Input
  | .ims i => some i
  | .write _ _ => none

theorem ims?_eq_some {j : Input} {i : CallSessionControl.Input} : ims? j = some i ↔ j = .ims i := by
  cases j <;> simp [ims?]

theorem step_ims {label : Nat → UeLabel} {s s' : State} {j : Input} {es : List Event}
    (hstep : step label s j = some (s', es)) :
    (∃ i es', ims? j = some i ∧ CallSessionControl.step label s i = some (s', es')) ∨
      ims? j = none ∧ SipUplink.Quiet s s' := by
  cases j with
  | ims i =>
      obtain ⟨⟨next, shown⟩, hims, hresult⟩ := Option.map_eq_some_iff.mp hstep
      obtain ⟨rfl, -⟩ := Prod.mk.inj hresult
      exact Or.inl ⟨i, shown, rfl, hims⟩
  | write n msg =>
      obtain ⟨rfl, -⟩ := Prod.mk.inj (Option.some.inj hstep)
      exact Or.inr ⟨rfl, rfl, modify_thread s n _ rfl⟩

def uplink (label : Nat → UeLabel) : SharedUplink.Link State Input Event SipMessage :=
  SipUplink.link label (step label) .ims ims? ims?_eq_some step_ims

theorem uplink_shows {label : Nat → UeLabel} {s s' : State} {j : Input} {es : List Event}
    (hj : j = (uplink label).take ∨ ∃ n, j = (uplink label).put n)
    (hstep : step label s j = some (s', es)) : es = [] := by
  rcases hj with rfl | ⟨n, rfl⟩
  all_goals
    obtain ⟨⟨next, shown⟩, hims, hresult⟩ := Option.map_eq_some_iff.mp hstep
    obtain ⟨-, rfl⟩ := Prod.mk.inj hresult
    cases step_cases hims
    rfl

/-- In every run whose INVITEs are honest and vetted and whose threads write to the S-CSCF one
after another, whatever peers write, an INVITE that is delivered comes from the session that
registered its From, and both parties are registered. -/
theorem invite_authentic {label : Nat → UeLabel} {tr : List Event}
    {s s' : Layered SharedUplink.Wire State} {i : SharedUplink.Input Input SipMessage}
    {es : List Event} {n : Nat} {msg : SipMessage}
    (hrun : Run (SharedUplink.step (uplink label)) (SharedUplink.Guarded (uplink label) Honest)
      (SharedUplink.init init) tr s)
    (hstep : SharedUplink.step (uplink label) s i = some (s', es))
    (hmem : .shown (.delivered n msg) ∈ es) (htype : msg.type = .invite) :
    Authentic tr s'.lower.scscf msg := by
  obtain ⟨hwhole, -⟩ := SharedUplink.run_whole (SharedUplink.sound_init rfl) hrun
  rcases SharedUplink.step_events hstep with ⟨-, rfl⟩ | ⟨j, hmachine⟩ | ⟨s₁, s₂, j, hj, hmachine⟩
  · cases hmem
  · exact delivered_authentic hwhole hmachine hmem htype
  · rw [uplink_shows hj hmachine] at hmem
    cases hmem

end Uplink

section Schedules

instance (node : ScscfNode) (msg : SipMessage) : Decidable (Vetted node msg) :=
  inferInstanceAs (Decidable ((_ → _ → _) ∧ ∀ cs ∈ _, (_ → _) → _ ∧ _))

instance Honest.decidable (tr : List Event) (s : State) : (i : Input) → Decidable (Honest tr s i)
  | .ims (.pcscfRead n) =>
    inferInstanceAs (Decidable (∀ msg ∈ (s.conns n).uplink.head?, _ → _ = _))
  | .ims .scscfReceive => inferInstanceAs (Decidable (∀ msg ∈ s.toScscf.head?, _ → _))
  | .write _ _ | .ims (.command _ _) | .ims (.ueReceive _) | .ims (.pcscfForward _)
  | .ims (.pcscfCleanUp _) | .ims .pcscfReceive | .ims .pcscfNotify | .ims (.setBarred _ _) =>
    .isTrue trivial

def inviteAB : SipMessage :=
  { type := .invite, sipFrom := impuA, sipTo := impuB, callId := callAB,
    sdp := lit "audio:50000/AMR-WB,video:50002/H264" }

def nextShown (p : State × List Event) : Option (List Event × Bool) :=
  (step threePhones p.1 (.ims .pcscfReceive)).map fun r => (r.2, decide (InRegistry r.1.scscf impuA))

def registeredCall : List Input :=
  (registration 0 ++ registration 1 ++ signalled 0 (.call (lit "B") (behind .a)) ++
    [CallSessionControl.Input.pcscfReceive]).map .ims

/-- Phones A and B register, and A calls B. -/
theorem registered_call_authentic :
    ∃ tr s s' i es, Run (SharedUplink.step (uplink threePhones))
      (SharedUplink.Guarded (uplink threePhones) Honest) (SharedUplink.init init) tr s ∧
      SharedUplink.step (uplink threePhones) s i = some (s', es) ∧
      .shown (.delivered 1 inviteAB) ∈ es ∧ Authentic tr s'.lower.scscf inviteAB := by
  have hadmits : Admits (step threePhones)
      (fun tr s j => Honest tr s j ∧ SipUplink.PutsShort s (ims? j)) [] init registeredCall := by
    decide +kernel
  have hexec : (exec (step threePhones) init registeredCall).map nextShown =
      some (some ([.shown (.delivered 1 inviteAB), .shown (.delivered 0 (ring inviteAB))], true)) := by
    decide +kernel
  obtain ⟨tr, u, s, hrun, hnext⟩ := SharedUplink.exists_written_of_exec (uplink threePhones)
    _ (SipUplink.link_fits ims?_eq_some step_ims) rfl hadmits hexec
  obtain ⟨⟨s', es⟩, hstep, hes⟩ := Option.map_eq_some_iff.mp hnext
  have hmem : .shown (.delivered 1 inviteAB) ∈ es := by
    rw [show es = _ from congrArg Prod.fst hes]
    exact List.mem_cons_self
  have hshared : SharedUplink.step (uplink threePhones) ⟨u, s⟩ (.aside (.ims .pcscfReceive)) =
      some (⟨u, s'⟩, es) := SharedUplink.step_aside rfl hstep
  exact ⟨tr, _, _, _, es, hrun, hshared, hmem, invite_authentic hrun hshared hmem rfl⟩

def unregisteredCall : List Input :=
  (registration 1).map .ims ++ [.write 0 inviteAB, .ims (.pcscfRead 0), .ims (.pcscfForward 0),
    .ims .scscfReceive, .ims .pcscfReceive]

/-- A connection that registered nothing calls phone B in the name of phone A, and B rings. -/
theorem not_authentic_unregistered :
    ¬ ∀ tr s s' i es n msg,
      Reach (SharedUplink.step (uplink threePhones)) (SharedUplink.init init) tr s →
      SharedUplink.step (uplink threePhones) s i = some (s', es) →
      .shown (.delivered n msg) ∈ es → msg.type = .invite → Authentic tr s'.lower.scscf msg := by
  intro h
  have hadmits : Admits (step threePhones)
      (fun _ s j => True ∧ SipUplink.PutsShort s (ims? j)) [] init unregisteredCall := by
    decide +kernel
  have hexec : (exec (step threePhones) init unregisteredCall).map nextShown =
      some (some ([.shown (.delivered 1 inviteAB), .shown (.undelivered impuA (ring inviteAB))],
        false)) := by
    decide +kernel
  obtain ⟨tr, u, s, hrun, hnext⟩ := SharedUplink.exists_written_of_exec (uplink threePhones)
    _ (SipUplink.link_fits ims?_eq_some step_ims) rfl hadmits hexec
  obtain ⟨⟨s', es⟩, hstep, hes⟩ := Option.map_eq_some_iff.mp hnext
  have hmem : .shown (.delivered 1 inviteAB) ∈ es := by
    rw [show es = _ from congrArg Prod.fst hes]
    exact List.mem_cons_self
  have hshared : SharedUplink.step (uplink threePhones) ⟨u, s⟩ (.aside (.ims .pcscfReceive)) =
      some (⟨u, s'⟩, es) := SharedUplink.step_aside rfl hstep
  have hcaller : InRegistry s'.scscf impuA :=
    (h tr _ _ _ es 1 inviteAB hrun.reach hshared hmem rfl).caller
  exact absurd hcaller (of_decide_eq_false (congrArg Prod.snd hes))

end Schedules

end MobileCore.OriginatorIdentity
