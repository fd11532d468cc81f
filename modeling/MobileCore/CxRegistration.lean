import MobileCore.CallSessionControl

/-!
# Registrations at the S-CSCF and the Cx link

For a REGISTER the S-CSCF sends a Server-Assignment-Request to the HSS and waits three seconds for
an answer. Nothing in an answer tells which request it is for.
-/

namespace MobileCore.CxRegistration

open MobileCore.CallSessionControl (ScscfNode handleRegister scscfHandle)
open MobileCore.CppText
open MobileCore.LabelledRuns
open MobileCore.LastWrite
open MobileCore.SipPhones

/-- `number` is not on the wire: it counts the requests. -/
structure Sar where
  number : Nat
  impu : Str
  impi : Str

/-- `number` is not on the wire: it is the number of the request that this answers. -/
structure Saa where
  number : Nat
  profile : Str

/-- Where the S-CSCF is: in its loop, or in `waitCxSAA` for a REGISTER. -/
inductive Thread where
  | receiving
  | waiting (number : Nat) (msg : SipMessage)

structure State where
  scscf : ScscfNode := {}
  thread : Thread := .receiving
  sars : Nat := 0
  toHss : List Sar := []
  toScscf : List Saa := []

inductive Input where
  | receive (msg : SipMessage)
  | hssReceive
  | saaArrives
  | timeout

/-- `counted` is an answer that a REGISTER's wait took; `registered` is the registry entry, with
the 200 OK. -/
inductive Event where
  | sarSent (number : Nat) (impu : Str)
  | counted (number saa : Nat)
  | timedOut (number : Nat)
  | registered (number : Nat) (impu : Str)
  | sent (msg : SipMessage)
deriving DecidableEq

def sendCxSar (s : State) (msg : SipMessage) : State × List Event :=
  ({ s with
      thread := .waiting s.sars msg
      sars := s.sars + 1
      toHss := s.toHss ++ [⟨s.sars, msg.impu, msg.impi⟩] },
    [.sarSent s.sars msg.impu])

def handleSar (sar : Sar) : Saa :=
  ⟨sar.number, lit "MMTEL-VoLTE; iFC=[REGISTER->MTAS,INVITE->MTAS]; MSISDN=+919000000001"⟩

/-- What follows the wait, whichever way it ended: the profile is only logged. -/
def finishRegister (s : State) (number : Nat) (msg : SipMessage) : State × List Event :=
  let (node, out) := handleRegister s.scscf msg
  ({ s with scscf := node, thread := .receiving },
    .registered number msg.impu :: out.map .sent)

def step : Machine State Input Event
  | s, .receive msg =>
    match s.thread with
    | .waiting _ _ => none
    | .receiving =>
      if msg.type = .register then some (sendCxSar s msg)
      else
        let (node, out) := scscfHandle s.scscf msg
        some ({ s with scscf := node }, out.map .sent)
  | s, .hssReceive =>
    match s.toHss with
    | sar :: rest => some ({ s with toHss := rest, toScscf := s.toScscf ++ [handleSar sar] }, [])
    | [] => none
  | s, .saaArrives =>
    match s.thread, s.toScscf with
    | .waiting number msg, saa :: rest =>
      let (s, es) := finishRegister { s with toScscf := rest } number msg
      some (s, .counted number saa.number :: es)
    | _, _ => none
  | s, .timeout =>
    match s.thread with
    | .waiting number msg =>
      let (s, es) := finishRegister s number msg
      some (s, .timedOut number :: es)
    | .receiving => none

def init : State := {}

/-- A REGISTER counts no answer but its own, and is complete only with it. -/
def OwnAnswer (before : List Event) : Event → Prop
  | .registered number _ => .counted number number ∈ before
  | .counted number saa => saa = number
  | _ => True

/-- Every registration has had the answer to its own request, and the registry holds no other. -/
structure OwnAnswers (tr : List Event) (s : State) : Prop where
  backed : Backed OwnAnswer tr
  registry : ∀ impu, (s.scscf.registry.lookup impu).isSome = true →
    ∃ number, .sarSent number impu ∈ tr ∧ .counted number number ∈ tr

section Inversion

variable {s s' : State} {i : Input} {es : List Event}

inductive StepCases (s : State) : Input → State → List Event → Prop
  | register {msg : SipMessage} (hthread : s.thread = .receiving) (htype : msg.type = .register) :
      StepCases s (.receive msg) (sendCxSar s msg).1 (sendCxSar s msg).2
  | other {msg : SipMessage} (hthread : s.thread = .receiving) (htype : msg.type ≠ .register) :
      StepCases s (.receive msg) { s with scscf := (scscfHandle s.scscf msg).1 }
        ((scscfHandle s.scscf msg).2.map .sent)
  | hssReceive {sar : Sar} {rest : List Sar} (hlink : s.toHss = sar :: rest) :
      StepCases s .hssReceive { s with toHss := rest, toScscf := s.toScscf ++ [handleSar sar] } []
  | saaArrives {number : Nat} {msg : SipMessage} {saa : Saa} {rest : List Saa}
      (hthread : s.thread = .waiting number msg) (hlink : s.toScscf = saa :: rest) :
      StepCases s .saaArrives (finishRegister { s with toScscf := rest } number msg).1
        (.counted number saa.number :: (finishRegister { s with toScscf := rest } number msg).2)
  | timeout {number : Nat} {msg : SipMessage} (hthread : s.thread = .waiting number msg) :
      StepCases s .timeout (finishRegister s number msg).1
        (.timedOut number :: (finishRegister s number msg).2)

theorem step_cases (h : step s i = some (s', es)) : StepCases s i s' es := by
  cases i with
  | receive msg =>
      simp only [step] at h
      split at h
      · cases h
      · rename_i hthread
        split at h
        · rename_i htype
          obtain ⟨rfl, rfl⟩ := Prod.ext_iff.mp (Option.some.inj h)
          exact .register hthread htype
        · rename_i htype
          obtain ⟨rfl, rfl⟩ := Prod.ext_iff.mp (Option.some.inj h)
          exact .other hthread htype
  | hssReceive =>
      simp only [step] at h
      split at h
      · rename_i sar rest hlink
        obtain ⟨rfl, rfl⟩ := Prod.ext_iff.mp (Option.some.inj h)
        exact .hssReceive hlink
      · cases h
  | saaArrives =>
      simp only [step] at h
      split at h
      · rename_i number msg saa rest hthread hlink
        obtain ⟨rfl, rfl⟩ := Prod.ext_iff.mp (Option.some.inj h)
        exact .saaArrives hthread hlink
      · cases h
  | timeout =>
      simp only [step] at h
      split at h
      · rename_i number msg hthread
        obtain ⟨rfl, rfl⟩ := Prod.ext_iff.mp (Option.some.inj h)
        exact .timeout hthread
      · cases h

theorem finishRegister_registry (s : State) (number : Nat) (msg : SipMessage) (impu : Str) :
    ((finishRegister s number msg).1.scscf.registry.lookup impu).isSome = true ↔
      impu = msg.impu ∨ (s.scscf.registry.lookup impu).isSome = true := by
  rw [finishRegister, handleRegister]
  by_cases hkey : impu = msg.impu
  · subst hkey
    simp
  · simp [hkey, AList.lookup_insert_ne hkey]

end Inversion

section Numbers

def ends (number : Nat) : Event → Bool
  | .counted k _ => k = number
  | .timedOut k => k = number
  | _ => false

/-- What holds in every run: a wait ends once, and the registry holds what was registered. -/
structure Inv (tr : List Event) (s : State) : Prop where
  ended : ∀ number, ∀ e ∈ tr, ends number e = true → number < s.sars
  waiting : ∀ number msg, s.thread = .waiting number msg →
    s.sars = number + 1 ∧ .sarSent number msg.impu ∈ tr ∧ ∀ e ∈ tr, ends number e = false
  timedOut : ∀ number, .timedOut number ∈ tr →
    (∃ impu, .registered number impu ∈ tr) ∧ .counted number number ∉ tr
  requested : ∀ number impu, .registered number impu ∈ tr → .sarSent number impu ∈ tr
  registry : ∀ impu, (s.scscf.registry.lookup impu).isSome = true →
    ∃ number, .registered number impu ∈ tr

theorem init_inv : Inv [] init := by
  constructor
  · intro number e he
    cases he
  · intro number msg hthread
    cases hthread
  · intro number htimedOut
    cases htimedOut
  · intro number impu hregistered
    cases hregistered
  · intro impu hsome
    cases hsome

variable {tr : List Event} {s s' : State} {i : Input} {es : List Event}

theorem Inv.append (h : Inv tr s) (hes : ∀ e ∈ es, ∃ msg, e = .sent msg)
    (hthread : s'.thread = s.thread) (hsars : s'.sars = s.sars)
    (hregistry : s'.scscf.registry = s.scscf.registry) : Inv (tr ++ es) s' := by
  have hold {e : Event} (he : e ∈ tr ++ es) (hsent : ∀ msg, e ≠ .sent msg) : e ∈ tr := by
    rcases List.mem_append.mp he with hold | hnew
    · exact hold
    · obtain ⟨msg, rfl⟩ := hes e hnew
      exact absurd rfl (hsent msg)
  have hends {number : Nat} {e : Event} (he : e ∈ tr ++ es) (hend : ends number e = true) :
      e ∈ tr := hold he fun msg hsent => by
    rw [hsent] at hend
    cases hend
  constructor
  · intro number e he hend
    rw [hsars]
    exact h.ended number e (hends he hend) hend
  · intro number msg hwaiting
    rw [hthread] at hwaiting
    obtain ⟨hnumber, hsent, hopen⟩ := h.waiting number msg hwaiting
    refine ⟨hsars.trans hnumber, List.mem_append_left es hsent, fun e he => ?_⟩
    by_contra hend
    have hend : ends number e = true := Bool.not_eq_false _ ▸ hend
    exact absurd (hopen e (hends he hend)) (by simp [hend])
  · intro number htimedOut
    obtain ⟨⟨impu, hregistered⟩, hcounted⟩ := h.timedOut number (hold htimedOut (by simp))
    exact ⟨⟨impu, List.mem_append_left es hregistered⟩,
      fun hnew => hcounted (hold hnew (by simp))⟩
  · intro number impu hregistered
    exact List.mem_append_left es (h.requested number impu (hold hregistered (by simp)))
  · intro impu hsome
    rw [hregistry] at hsome
    obtain ⟨number, hregistered⟩ := h.registry impu hsome
    exact ⟨number, List.mem_append_left es hregistered⟩

theorem sendCxSar_inv (h : Inv tr s) (msg : SipMessage) :
    Inv (tr ++ (sendCxSar s msg).2) (sendCxSar s msg).1 := by
  have hold {e : Event} (he : e ∈ tr ++ [.sarSent s.sars msg.impu])
      (hother : e ≠ .sarSent s.sars msg.impu) : e ∈ tr := by
    rcases List.mem_append.mp he with hold | hnew
    · exact hold
    · exact absurd (List.mem_singleton.mp hnew) hother
  have hends {number : Nat} {e : Event} (he : e ∈ tr ++ [.sarSent s.sars msg.impu])
      (hend : ends number e = true) : e ∈ tr := hold he fun hnew => by
    rw [hnew] at hend
    cases hend
  constructor
  · intro number e he hend
    exact Nat.lt_succ_of_lt (h.ended number e (hends he hend) hend)
  · rintro _ _ ⟨⟩
    refine ⟨rfl, List.mem_append_right tr (List.mem_singleton.mpr rfl), fun e he => ?_⟩
    by_contra hend
    have hend : ends s.sars e = true := Bool.not_eq_false _ ▸ hend
    exact absurd (h.ended s.sars e (hends he hend) hend) (Nat.lt_irrefl _)
  · intro number htimedOut
    obtain ⟨⟨impu, hregistered⟩, hcounted⟩ := h.timedOut number (hold htimedOut (by simp))
    exact ⟨⟨impu, List.mem_append_left _ hregistered⟩, fun hnew => hcounted (hold hnew (by simp))⟩
  · intro number impu hregistered
    exact List.mem_append_left _ (h.requested number impu (hold hregistered (by simp)))
  · intro impu hsome
    obtain ⟨number, hregistered⟩ := h.registry impu hsome
    exact ⟨number, List.mem_append_left _ hregistered⟩

theorem finishRegister_inv (h : Inv tr s) {number : Nat} {msg : SipMessage} {last : Event}
    (hthread : s.thread = .waiting number msg) (toScscf : List Saa)
    (hlast : last = .timedOut number ∨ ∃ saa, last = .counted number saa) :
    Inv (tr ++ last :: (finishRegister { s with toScscf := toScscf } number msg).2)
      (finishRegister { s with toScscf := toScscf } number msg).1 := by
  obtain ⟨hnumber, hsent, hopen⟩ := h.waiting number msg hthread
  have hlastEnds (k : Nat) : ends k last = true ↔ number = k := by
    rcases hlast with rfl | ⟨saa, rfl⟩
    · exact decide_eq_true_iff
    · exact decide_eq_true_iff
  let impuEvents : List Event := [last, .registered number msg.impu]
  have hcases {e : Event} (he : e ∈ tr ++ impuEvents) :
      e ∈ tr ∨ e = last ∨ e = .registered number msg.impu := by
    simpa [impuEvents] using he
  have hmiddle : Inv (tr ++ impuEvents)
      (finishRegister { s with toScscf := toScscf } number msg).1 := by
    constructor
    · intro k e he hend
      show k < s.sars
      rcases hcases he with hold | rfl | rfl
      · exact h.ended k e hold hend
      · rw [hnumber, ← (hlastEnds k).mp hend]
        exact Nat.lt_succ_self number
      · cases hend
    · rintro _ _ ⟨⟩
    · intro k htimedOut
      rcases hcases htimedOut with hold | hnew | hnew
      · obtain ⟨⟨impu, hregistered⟩, hcounted⟩ := h.timedOut k hold
        refine ⟨⟨impu, List.mem_append_left _ hregistered⟩, fun hcount => ?_⟩
        rcases hcases hcount with hbefore | hafter | hafter
        · exact hcounted hbefore
        · have hsame : number = k := (hlastEnds k).mp (by simp [← hafter, ends])
          have hmiss := hopen _ hold
          simp [ends, hsame] at hmiss
        · cases hafter
      · have hsame : number = k := (hlastEnds k).mp (by simp [← hnew, ends])
        subst hsame
        refine ⟨⟨msg.impu, List.mem_append_right tr (by simp [impuEvents])⟩, fun hcount => ?_⟩
        rcases hcases hcount with hbefore | hafter | hafter
        · have hmiss := hopen _ hbefore
          simp [ends] at hmiss
        · rw [← hnew] at hafter
          cases hafter
        · cases hafter
      · cases hnew
    · intro k impu hregistered
      rcases hcases hregistered with hold | hnew | hnew
      · exact List.mem_append_left _ (h.requested k impu hold)
      · rcases hlast with rfl | ⟨saa, rfl⟩
        · cases hnew
        · cases hnew
      · cases hnew
        exact List.mem_append_left _ hsent
    · intro impu hsome
      rcases (finishRegister_registry _ number msg impu).mp hsome with rfl | hold
      · exact ⟨number, List.mem_append_right tr (by simp [impuEvents])⟩
      · obtain ⟨k, hregistered⟩ := h.registry impu hold
        exact ⟨k, List.mem_append_left _ hregistered⟩
  have hwhole : Inv ((tr ++ impuEvents) ++ (handleRegister s.scscf msg).2.map .sent)
      (finishRegister { s with toScscf := toScscf } number msg).1 := by
    apply hmiddle.append
    · intro e he
      obtain ⟨out, -, rfl⟩ := List.mem_map.mp he
      exact ⟨out, rfl⟩
    · rfl
    · rfl
    · rfl
  rw [List.append_assoc] at hwhole
  exact hwhole

theorem step_inv (h : Inv tr s) (hstep : step s i = some (s', es)) : Inv (tr ++ es) s' := by
  cases step_cases hstep with
  | register hthread htype => exact sendCxSar_inv h _
  | @other msg hthread htype =>
      apply h.append
      · intro e he
        obtain ⟨out, -, rfl⟩ := List.mem_map.mp he
        exact ⟨out, rfl⟩
      · rfl
      · rfl
      · rw [CallSessionControl.scscfHandle_registry, if_neg htype]
  | hssReceive hlink => exact h.append (by simp) rfl rfl rfl
  | @saaArrives number msg saa rest hthread hlink =>
      exact finishRegister_inv h hthread rest (Or.inr ⟨saa.number, rfl⟩)
  | @timeout number msg hthread => exact finishRegister_inv h hthread s.toScscf (Or.inl rfl)

theorem run_inv (hrun : Reach step init tr s) : Inv tr s :=
  hrun.invariant init_inv fun _ _ _ _ _ h _ hstep => step_inv h hstep

end Numbers

section Answers

/-- The requests on their way and the answers on their way back, the oldest first. -/
def underWay (s : State) : List Nat := s.toScscf.map Saa.number ++ s.toHss.map Sar.number

/-- The only request under way is the one that is waited for. -/
structure Matched (tr : List Event) (s : State) : Prop where
  backed : Backed OwnAnswer tr
  underWay : underWay s =
    match s.thread with
    | .receiving => []
    | .waiting number _ => [number]

variable {tr : List Event} {s s' : State} {i : Input} {es : List Event}

theorem backed_sent (h : Backed OwnAnswer tr) (out : List SipMessage) :
    Backed OwnAnswer (tr ++ out.map .sent) := by
  apply h.append_of_forall
  intro e he before
  obtain ⟨msg, -, rfl⟩ := List.mem_map.mp he
  trivial

theorem saaArrives_matched (h : Matched tr s) {number : Nat} {msg : SipMessage} {saa : Saa}
    {rest : List Saa} (hthread : s.thread = .waiting number msg) (hlink : s.toScscf = saa :: rest) :
    Matched
      (tr ++ .counted number saa.number ::
        (finishRegister { s with toScscf := rest } number msg).2)
      (finishRegister { s with toScscf := rest } number msg).1 := by
  have hunder := h.underWay
  rw [hthread, underWay, hlink, List.map_cons, List.cons_append] at hunder
  obtain ⟨hown, hempty⟩ := List.cons.inj hunder
  constructor
  · have hcounted : Backed OwnAnswer (tr ++ [.counted number saa.number]) := h.backed.snoc hown
    have hregistered :
        Backed OwnAnswer (tr ++ [.counted number saa.number] ++ [.registered number msg.impu]) := by
      apply hcounted.snoc
      rw [hown]
      exact List.mem_append_right tr (List.mem_singleton.mpr rfl)
    have hsent := backed_sent hregistered (handleRegister s.scscf msg).2
    rw [List.append_assoc, List.append_assoc] at hsent
    exact hsent
  · exact hempty

theorem step_matched (h : Matched tr s) (hstep : step s i = some (s', es))
    (htimedOut : ∀ number, .timedOut number ∉ es) : Matched (tr ++ es) s' := by
  cases step_cases hstep with
  | @register msg hthread htype =>
      constructor
      · exact h.backed.snoc trivial
      · have hunder := h.underWay
        rw [hthread] at hunder
        show s.toScscf.map Saa.number ++ (s.toHss ++ [_]).map Sar.number = [s.sars]
        rw [List.map_append, ← List.append_assoc]
        exact congrArg (· ++ [s.sars]) hunder
  | @other msg hthread htype => exact ⟨backed_sent h.backed _, h.underWay⟩
  | @hssReceive sar rest hlink =>
      constructor
      · rw [List.append_nil]
        exact h.backed
      · rw [← h.underWay, underWay, underWay, hlink]
        simp [handleSar]
  | @saaArrives number msg saa rest hthread hlink => exact saaArrives_matched h hthread hlink
  | @timeout number msg hthread => exact absurd List.mem_cons_self (htimedOut number)

theorem init_matched : Matched [] init := ⟨Backed.nil _, rfl⟩

theorem run_matched (hrun : Reach step init tr s) (htimedOut : ∀ number, .timedOut number ∉ tr) :
    Matched tr s := by
  induction hrun with
  | nil => exact init_matched
  | snoc _ _ hstep ih =>
      apply step_matched _ hstep
      · exact fun number hmem => htimedOut number (List.mem_append_right _ hmem)
      · exact ih fun number hmem => htimedOut number (List.mem_append_left _ hmem)

/-- Every registration has the answer to its own request exactly when no wait runs out. -/
theorem ownAnswers_iff (hrun : Reach step init tr s) :
    OwnAnswers tr s ↔ ∀ number, .timedOut number ∉ tr := by
  have hinv := run_inv hrun
  have hregistered {number : Nat} {impu : Str} (hbacked : Backed OwnAnswer tr)
      (hmem : .registered number impu ∈ tr) : .counted number number ∈ tr := by
    obtain ⟨before, after, rfl⟩ := List.append_of_mem hmem
    exact List.mem_append_left _ (hbacked before _ after rfl)
  constructor
  · intro hown number htimedOut
    obtain ⟨⟨impu, hmem⟩, hnot⟩ := hinv.timedOut number htimedOut
    exact hnot (hregistered hown.backed hmem)
  · intro htimedOut
    have hbacked := (run_matched hrun htimedOut).backed
    refine ⟨hbacked, fun impu hsome => ?_⟩
    obtain ⟨number, hmem⟩ := hinv.registry impu hsome
    exact ⟨number, hinv.requested number impu hmem, hregistered hbacked hmem⟩

end Answers

section Schedules

def registerOf (impu : String) : SipMessage := { type := .register, impu := lit impu }

/-- The phones A and B register, and each answer comes in time. -/
theorem answered_registers_own :
    ∃ tr s, Reach step init tr s ∧ (s.scscf.registry.lookup (lit "B")).isSome = true ∧
      OwnAnswers tr s := by
  have hexec : (exec step init
      [.receive (registerOf "A"), .hssReceive, .saaArrives, .receive (registerOf "B"), .hssReceive,
        .saaArrives]).map (fun p =>
          ((p.1.scscf.registry.lookup (lit "B")).isSome, p.2.all fun e =>
            match e with
            | .timedOut _ => false
            | _ => true)) = some (true, true) := by
    decide +kernel
  obtain ⟨tr, s, hrun, hseen⟩ := exists_reach_of_exec hexec
  obtain ⟨hregistered, hall⟩ := Prod.ext_iff.mp hseen
  refine ⟨tr, s, hrun, hregistered, (ownAnswers_iff hrun).mpr fun number hmem => ?_⟩
  cases List.all_eq_true.mp hall _ hmem

/-- The answer for A comes after A's wait, and B's wait counts it. -/
theorem late_answer_counted : ¬∀ tr s, Reach step init tr s → OwnAnswers tr s := by
  intro h
  have hexec : (exec step init
      [.receive (registerOf "A"), .timeout, .hssReceive, .receive (registerOf "B"),
        .saaArrives]).map (fun p => decide (Event.counted 1 0 ∈ p.2)) = some true := by
    decide +kernel
  obtain ⟨tr, s, hrun, hseen⟩ := exists_reach_of_exec hexec
  have hmem : Event.counted 1 0 ∈ tr := of_decide_eq_true hseen
  obtain ⟨before, after, rfl⟩ := List.append_of_mem hmem
  have hown : 0 = 1 := (h _ s hrun).backed before _ after rfl
  cases hown

end Schedules

end MobileCore.CxRegistration
