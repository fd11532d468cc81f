import MobileCore.AccessManagement

/-!
# Who gets a Registration Accept

The messages to one UE that matter are its authentication requests and its accepts; the last of
them before an accept has to be the challenge that the accepted response answers.
-/

namespace MobileCore.RegistrationAuthentication

open MobileCore.AccessManagement
open MobileCore.CppText
open MobileCore.LabelledRuns
open MobileCore.LastWrite
open MobileCore.WireJson

def challenges (ueId : Int) : Event → Bool
  | .authenticationRequest u _ _ _ => u == ueId
  | _ => false

def concerns (ueId : Int) : Event → Bool
  | .authenticationRequest u _ _ _ => u == ueId
  | .registrationAccept u _ _ => u == ueId
  | _ => false

theorem concerns_of_challenges (ueId : Int) (e : Event) (h : challenges ueId e = true) :
    concerns ueId e = true := by
  cases e with
  | authenticationRequest => exact h
  | _ => cases h

/-- The UE's current challenge came with the non-empty XRES* `resStar` in a complete answer of the
UDM, and was not accepted yet. -/
def Justified (tr : List Event) (ueId : Int) (resStar : Str) : Prop :=
  ∃ body text, lastWhere (concerns ueId) tr = some (.authenticationRequest ueId true body text) ∧
    get body (lit "xresStar") = resStar ∧ resStar ≠ []

def AcceptsJustified (tr : List Event) : Prop :=
  ∀ before after ueId resStar text, tr = before ++ .registrationAccept ueId resStar text :: after →
    Justified before ueId resStar

/-- The UE and context whose stored XRES* an Authentication Response carries, when nothing stops
the AMF from sending the accept. -/
def matching (s : State) (i : Input) : Option (Int × UeContext) :=
  if get i.text (lit "msgType") = lit "AuthenticationResponse" then
    match stoi (get i.text (lit "ranUeNgapId")) with
    | none => none
    | some ueId =>
      match s.ctx.lookup ueId with
      | none => none
      | some c =>
        if get i.text (lit "resStar") = c.xresStar ∧ (callUdm [] i.udm).2 ≠ none then some (ueId, c)
        else none
  else none

def accepted : Event → Bool
  | .registrationAccept _ _ _ => true
  | _ => false

def incomplete : Event → Bool
  | .authenticationRequest _ complete _ _ => !complete
  | _ => false

/-- A matching response carries a non-empty value, does not repeat an accepted one, and the UDM's
answer to the UE's last challenge had arrived completely. -/
def FreshResponse (tr : List Event) (s : State) (i : Input) : Prop :=
  ∀ m ∈ matching s i, m.2.xresStar ≠ [] ∧
    (∀ e ∈ lastWhere (concerns m.1) tr, accepted e = false) ∧
    ∀ e ∈ lastWhere (challenges m.1) tr, incomplete e = false

instance (tr : List Event) (s : State) (i : Input) : Decidable (FreshResponse tr s i) :=
  inferInstanceAs (Decidable (∀ m ∈ matching s i, _))

/-- What the handling of a frame can do to the contexts and to the UEs. -/
inductive Effect (s : State) (i : Input) : State → List Event → Prop
  | quiet (alive : Bool) (es : List Event) (hes : ∀ ueId, ∀ e ∈ es, concerns ueId e = false) :
      Effect s i { s with alive := alive } es
  | challenge (sent : List Event) (ueId : Int) (complete : Bool) (body text suci supi nssai : Str)
      (hsent : ∀ u, ∀ e ∈ sent, concerns u e = false) :
      Effect s i
        { s with ctx := s.ctx.insert ueId ⟨suci, supi, get body (lit "xresStar"), nssai⟩ }
        (sent ++ [.authenticationRequest ueId complete body text])
  | accept (sent : List Event) (ueId : Int) (c : UeContext) (text : Str)
      (hsent : ∀ u, ∀ e ∈ sent, concerns u e = false)
      (hctx : s.ctx.lookup ueId = some c) (hmatch : matching s i = some (ueId, c)) :
      Effect s i s (sent ++ [.registrationAccept ueId c.xresStar text])

theorem callUdm_quiet {req : Str} {answer : UdmAnswer} {sent : List Event}
    {result : Option (Bool × Str)} (hcall : callUdm req answer = (sent, result)) (ueId : Int) :
    ∀ e ∈ sent, concerns ueId e = false := by
  obtain rfl : (callUdm req answer).1 = sent := congrArg Prod.fst hcall
  cases answer <;> simp [callUdm, concerns]

theorem callUdm_isSome (req req' : Str) (answer : UdmAnswer) {sent : List Event}
    {result : Bool × Str} (hcall : callUdm req answer = (sent, some result)) :
    (callUdm req' answer).2 ≠ none := by
  cases answer <;> simp_all [callUdm]

theorem callSmf_quiet (supi : Str) (pduSessId : Int) (dnn : Str) (answer : SmfAnswer)
    (ueId : Int) : ∀ e ∈ (callSmf supi pduSessId dnn answer).1, concerns ueId e = false := by
  cases answer <;> simp [callSmf, concerns]

theorem crash_effect (s : State) (i : Input) (sent : List Event)
    (hsent : ∀ ueId, ∀ e ∈ sent, concerns ueId e = false) :
    Effect s i (crash s sent).1 (crash s sent).2 := by
  refine Effect.quiet false _ fun ueId e he => ?_
  rcases List.mem_append.mp he with he | he
  · exact hsent ueId e he
  · rw [List.mem_singleton.mp he]
    rfl

theorem handleRegistrationRequest_effect (plmn : SimplifiedAka.Plmn) (s : State) (i : Input) :
    Effect s i (handleRegistrationRequest plmn s i).1 (handleRegistrationRequest plmn s i).2 := by
  unfold handleRegistrationRequest
  split
  · exact crash_effect s i [] (by simp)
  · split
    · exact Effect.quiet s.alive _ (by simp [concerns])
    · dsimp only
      split
      · rename_i sent hcall
        exact crash_effect s i sent (callUdm_quiet hcall)
      · rename_i sent complete resp hcall
        exact Effect.challenge sent _ complete resp _ _ _ _ (callUdm_quiet hcall)

theorem handleAuthResponse_effect (plmn : SimplifiedAka.Plmn) (s : State) (i : Input)
    (hmsg : get i.text (lit "msgType") = lit "AuthenticationResponse") :
    Effect s i (handleAuthResponse plmn s i).1 (handleAuthResponse plmn s i).2 := by
  unfold handleAuthResponse
  split
  · exact crash_effect s i [] (by simp)
  · rename_i ueId hue
    split
    · exact Effect.quiet s.alive _ (by simp)
    · rename_i c hctx
      dsimp only
      split
      · exact Effect.quiet s.alive _ (by simp [concerns])
      · rename_i hres
        have hres : get i.text (lit "resStar") = c.xresStar := by simpa using hres
        split
        · rename_i sent hcall
          exact crash_effect s i sent (callUdm_quiet hcall)
        · rename_i sent answer hcall
          rw [hres]
          refine Effect.accept sent ueId c _ (callUdm_quiet hcall) hctx ?_
          simp [matching, hmsg, hue, hctx, hres, callUdm_isSome _ [] i.udm hcall]

theorem handlePduSessionRequest_effect (s : State) (i : Input) :
    Effect s i (handlePduSessionRequest s i).1 (handlePduSessionRequest s i).2 := by
  unfold handlePduSessionRequest
  split
  · exact crash_effect s i [] (by simp)
  · dsimp only
    split
    · exact crash_effect s i [] (by simp)
    · refine Effect.quiet s.alive _ fun ueId e he => ?_
      rcases List.mem_append.mp he with he | he
      · exact callSmf_quiet _ _ _ _ ueId e he
      · rw [List.mem_singleton.mp he]
        rfl

theorem handleFrame_effect (plmn : SimplifiedAka.Plmn) (s : State) (i : Input) :
    Effect s i (handleFrame plmn s i).1 (handleFrame plmn s i).2 := by
  unfold handleFrame
  dsimp only
  split
  · exact handleRegistrationRequest_effect plmn s i
  · split
    · exact handleAuthResponse_effect plmn s i (by assumption)
    · split
      · unfold handleRegistrationComplete
        split
        · exact crash_effect s i [] (by simp)
        · exact Effect.quiet s.alive _ (by simp)
      · split
        · exact handlePduSessionRequest_effect s i
        · exact Effect.quiet s.alive _ (by simp)

/-- What backs an event: an accept needs the challenge it answers, the others nothing. -/
def JustifiedAccept (before : List Event) (e : Event) : Prop :=
  ∀ ueId resStar text, e = .registrationAccept ueId resStar text → Justified before ueId resStar

theorem acceptsJustified_iff_backed (tr : List Event) :
    AcceptsJustified tr ↔ Backed JustifiedAccept tr := by
  constructor
  · rintro h before _ after hsplit ueId resStar text rfl
    exact h before after ueId resStar text hsplit
  · intro h before after ueId resStar text hsplit
    exact h before _ after hsplit ueId resStar text rfl

theorem acceptsJustified_snoc {tr : List Event} (h : AcceptsJustified tr) (e : Event)
    (he : JustifiedAccept tr e) : AcceptsJustified (tr ++ [e]) := by
  rw [acceptsJustified_iff_backed] at h ⊢
  exact h.snoc he

theorem acceptsJustified_append_quiet {tr : List Event} (h : AcceptsJustified tr)
    (es : List Event) (hes : ∀ ueId, ∀ e ∈ es, concerns ueId e = false) :
    AcceptsJustified (tr ++ es) := by
  rw [acceptsJustified_iff_backed] at h ⊢
  apply h.append_of_forall
  rintro e he before ueId resStar text rfl
  have hquiet := hes ueId _ he
  simp [concerns] at hquiet

/-- The stored XRES* of a UE is the one of its last challenge. -/
structure Inv (tr : List Event) (s : State) : Prop where
  current : ∀ ueId c, s.ctx.lookup ueId = some c →
    ∃ complete body text, lastWhere (challenges ueId) tr =
      some (.authenticationRequest ueId complete body text) ∧
        get body (lit "xresStar") = c.xresStar
  justified : AcceptsJustified tr

theorem quiet_of_concerns {es : List Event} {ueId : Int}
    (hes : ∀ e ∈ es, concerns ueId e = false) : ∀ e ∈ es, challenges ueId e = false := by
  intro e he
  by_contra hchallenge
  have hconcerns := concerns_of_challenges ueId e (by simpa using hchallenge)
  rw [hes e he] at hconcerns
  cases hconcerns

theorem lastWhere_concerns_of_challenges {tr : List Event} {ueId : Int} {e : Event}
    (hchallenge : lastWhere (challenges ueId) tr = some e)
    (hunused : ∀ e ∈ lastWhere (concerns ueId) tr, accepted e = false) :
    lastWhere (concerns ueId) tr = some e := by
  have hmatch := (lastWhere_eq_some _ _ _).mp hchallenge
  have hmem : e ∈ tr := by
    obtain ⟨_, before, after, rfl, _⟩ := hmatch
    simp
  obtain ⟨e', he'⟩ := lastWhere_isSome_of_mem hmem (concerns_of_challenges ueId e hmatch.1)
  have hconcerns := ((lastWhere_eq_some _ _ _).mp he').1
  have hnot := hunused e' he'
  have hchallenges : challenges ueId e' = true := by
    cases e' with
    | authenticationRequest => exact hconcerns
    | registrationAccept => cases hnot
    | _ => cases hconcerns
  have hsame := lastWhere_of_imp (concerns_of_challenges ueId) he' hchallenges
  rw [he', ← hsame, hchallenge]

theorem effect_inv {tr es : List Event} {s s' : State} {i : Input} (hinv : Inv tr s)
    (hfresh : FreshResponse tr s i) (heffect : Effect s i s' es) : Inv (tr ++ es) s' := by
  cases heffect with
  | quiet alive es hes =>
      refine ⟨fun ueId c hc => ?_, acceptsJustified_append_quiet hinv.justified es hes⟩
      rw [lastWhere_append_of_forall tr (quiet_of_concerns (hes ueId))]
      exact hinv.current ueId c hc
  | challenge sent ueId complete body text suci supi nssai hsent =>
      rw [← List.append_assoc]
      constructor
      · intro u c hc
        rw [lastWhere_snoc]
        by_cases hu : u = ueId
        · subst hu
          rw [AList.lookup_insert] at hc
          obtain rfl := Option.some.inj hc
          exact ⟨complete, body, text, by simp [challenges], rfl⟩
        · rw [AList.lookup_insert_ne hu] at hc
          have hmiss : challenges u (.authenticationRequest ueId complete body text) = false := by
            simpa [challenges] using Ne.symm hu
          rw [hmiss, lastWhere_append_of_forall tr (quiet_of_concerns (hsent u))]
          exact hinv.current u c hc
      · refine acceptsJustified_snoc (acceptsJustified_append_quiet hinv.justified sent hsent) _ ?_
        rintro u r t hkind
        cases hkind
  | accept sent ueId c text hsent hctx hmatch =>
      rw [← List.append_assoc]
      constructor
      · intro u c' hc'
        rw [lastWhere_snoc, if_neg (by simp [challenges]),
          lastWhere_append_of_forall tr (quiet_of_concerns (hsent u))]
        exact hinv.current u c' hc'
      · refine acceptsJustified_snoc (acceptsJustified_append_quiet hinv.justified sent hsent) _ ?_
        rintro u r t hkind
        cases hkind
        obtain ⟨hne, hunused, hcomplete⟩ := hfresh (ueId, c) hmatch
        obtain ⟨complete, body, t, hchallenge, hxres⟩ := hinv.current ueId c hctx
        have hcompl : complete = true := by
          simpa [incomplete] using hcomplete _ hchallenge
        subst hcompl
        refine ⟨body, t, ?_, hxres, hne⟩
        rw [lastWhere_append_of_forall tr (hsent ueId)]
        exact lastWhere_concerns_of_challenges hchallenge hunused

/-- In every run whose matching responses are fresh, each accept answers the UE's current
challenge with the non-empty XRES* that the UDM returned, and no challenge is accepted twice. -/
theorem accepts_justified (plmn : SimplifiedAka.Plmn) {tr : List Event} {s : State}
    (hrun : Run (step plmn) FreshResponse init tr s) : AcceptsJustified tr := by
  have hinit : Inv [] init := by
    constructor
    · intro ueId c hc
      cases hc
    · intro before after ueId resStar text hnil
      simp at hnil
  have hinv : Inv tr s := by
    refine hrun.invariant hinit ?_
    intro tr s i s' es hinv hfresh hstep
    simp only [step] at hstep
    split at hstep
    · obtain ⟨rfl, rfl⟩ : (handleFrame plmn s i).1 = s' ∧ (handleFrame plmn s i).2 = es := by
        simpa [Prod.ext_iff] using hstep
      exact effect_inv hinv hfresh (handleFrame_effect plmn s i)
    · cases hstep
  exact hinv.justified

/-- One UE and the UDM's answers `udm`: its Registration Request, then an Authentication Response
with the RES* `resStar`. -/
def registration (udm : UdmAnswer) (resStar : Str) : List Input :=
  [{ text := obj [(lit "msgType", str (lit "RegistrationRequest")),
      (lit "ranUeNgapId", num 7), (lit "suci", str (SimplifiedAka.suci {} 1))], udm := udm },
    { text := obj [(lit "msgType", str (lit "AuthenticationResponse")),
      (lit "ranUeNgapId", num 7), (lit "resStar", str resStar)], udm := udm }]

def acceptText : Str :=
  obj [(lit "msgType", str (lit "RegistrationAccept")), (lit "ranUeNgapId", num 7),
    (lit "5gGuti", str (guti {} 7)), (lit "allowedNssai", allowedNssai [])]

/-- The UDM takes both connections and closes them without an answer; the empty XRES* that the AMF
is left with matches an empty RES*. -/
theorem empty_response_accepted :
    ∃ tr s, Reach (step {}) init tr s ∧ ¬ AcceptsJustified tr := by
  have hexec : (exec (step {}) init (registration (.received false []) [])).map
      (fun p => p.2.drop 3) = some [.registrationAccept 7 [] acceptText] := by decide +kernel
  obtain ⟨tr, s, hrun, hlast⟩ := exists_reach_of_exec hexec
  refine ⟨tr, s, hrun, fun hall => ?_⟩
  have hsplit : tr = tr.take 3 ++ .registrationAccept 7 [] acceptText :: [] := by
    rw [← hlast, List.take_append_drop]
  obtain ⟨_, _, _, _, hne⟩ := hall _ _ _ _ _ hsplit
  exact hne rfl

/-- A complete answer with a XRES*, and the response that carries it. -/
theorem matching_response_justified :
    ∃ tr s, Run (step {}) FreshResponse init tr s ∧ .registrationAccept 7 (lit "ab") acceptText ∈ tr ∧
      AcceptsJustified tr := by
  have hexec : (exec (step {}) init (registration (.received true
      (obj [(lit "xresStar", str (lit "ab"))])) (lit "ab"))).map
      (fun p => p.2.drop 3) = some [.registrationAccept 7 (lit "ab") acceptText] := by
    decide +kernel
  obtain ⟨tr, s, hrun, hlast⟩ := exists_run_of_exec (P := FreshResponse) _ (by decide +kernel) hexec
  refine ⟨tr, s, hrun, List.mem_of_mem_drop (i := 3) ?_, accepts_justified {} hrun⟩
  rw [hlast]
  exact List.mem_singleton_self _

end MobileCore.RegistrationAuthentication
