import MobileCore.MobilityManagement

namespace MobileCore.BearerLists

open MobileCore.LabelledRuns
open MobileCore.MobilityManagement
open MobileCore.ShardedStore

/-- An answer that ends the wait of a session creation with success. -/
structure Answer where
  place : Nat
  resp : S11Response
  ueIp : Ipv4

/-- The place of the context that an input's bearer goes to, with the datagram it comes from. -/
def acceptedAnswer (s : State) : Input → Option Answer
  | .s11 resp =>
    match s.thread, resp.cause, resp.ueIp with
    | .awaitCreateSession mmeId _, 16, a :: b :: c :: d :: _ =>
      (s.store.find mmeId).map fun q => ⟨q, resp, ⟨a, b, c, d⟩⟩
    | _, _, _ => none
  | _ => none

theorem acceptedAnswer_eq_some {s : State} {i : Input} {a : Answer}
    (h : acceptedAnswer s i = some a) :
    ∃ mmeId q rest, s.thread = .awaitCreateSession mmeId q ∧ s.store.find mmeId = some a.place ∧
      i = .s11 a.resp ∧ a.resp.cause = 16 ∧
      a.resp.ueIp = a.ueIp.a :: a.ueIp.b :: a.ueIp.c :: a.ueIp.d :: rest := by
  unfold acceptedAnswer at h
  split at h
  · split at h
    · rename_i mmeId q _ _ _ _ rest hthread hcause hip
      obtain ⟨p, hfind, rfl⟩ := Option.map_eq_some_iff.mp h
      exact ⟨mmeId, q, rest, hthread, hfind, rfl, hcause, hip⟩
    · cases h
  · cases h

def Answer.bearer (a : Answer) : Bearer := sessionBearer a.resp a.ueIp

/-- How a step can leave the context at `p`. -/
inductive ContextStep (s : State) (i : Input) (p : Nat) (ctx' : UeContext) : Prop
  | created (hnone : ctx'.bearers = [])
  | kept (ctx : UeContext) (hctx : s.heap[p]? = some ctx) (himsi : ctx'.imsi = ctx.imsi)
      (hsame : ctx'.bearers = ctx.bearers)
  | tunnelled (ctx : UeContext) (teid : UInt32) (hctx : s.heap[p]? = some ctx)
      (himsi : ctx'.imsi = ctx.imsi) (hteid : ctx'.bearers = setEnbTeid teid ctx.bearers)
  | stored (ctx : UeContext) (a : Answer) (hctx : s.heap[p]? = some ctx)
      (himsi : ctx'.imsi = ctx.imsi) (haccepted : acceptedAnswer s i = some a) (hplace : a.place = p)
      (hnew : ctx'.bearers = ctx.bearers ++ [a.bearer])

theorem mem_setEnbTeid {teid : UInt32} {bearers : List Bearer} {b : Bearer}
    (hb : b ∈ setEnbTeid teid bearers) :
    b ∈ bearers ∨ ∃ b₀ ∈ bearers, b = { b₀ with enbS1uTeid := teid } := by
  induction bearers with
  | nil => cases hb
  | cons b₁ rest ih =>
      unfold setEnbTeid at hb
      split at hb
      · rcases List.mem_cons.mp hb with rfl | hb
        · exact Or.inr ⟨b₁, List.mem_cons_self, rfl⟩
        · exact Or.inl (List.mem_cons_of_mem b₁ hb)
      · rcases List.mem_cons.mp hb with rfl | hb
        · exact Or.inl List.mem_cons_self
        · rcases ih hb with hold | ⟨b₀, hb₀, rfl⟩
          · exact Or.inl (List.mem_cons_of_mem b₁ hold)
          · exact Or.inr ⟨b₀, List.mem_cons_of_mem b₁ hb₀, rfl⟩

theorem length_setEnbTeid (teid : UInt32) (bearers : List Bearer) :
    (setEnbTeid teid bearers).length = bearers.length := by
  induction bearers with
  | nil => rfl
  | cons b rest ih =>
      unfold setEnbTeid
      split
      · rfl
      · exact congrArg (· + 1) ih

section Contexts

variable {s s' : State} {i : Input} {p : Nat} {ctx' : UeContext}

theorem contextStep_of_heap (hheap : s'.heap = s.heap) (hctx : s'.heap[p]? = some ctx') :
    ContextStep s i p ctx' :=
  .kept ctx' (hheap ▸ hctx) rfl rfl

theorem contextStep_update {q : Nat} {f : UeContext → UeContext}
    (hctx : (update s q f).heap[p]? = some ctx')
    (hf : ∀ ctx, s.heap[q]? = some ctx → q = p → ContextStep s i p (f ctx)) :
    ContextStep s i p ctx' := by
  simp only [update, List.getElem?_modify] at hctx
  obtain ⟨ctx, hold, rfl⟩ := Option.map_eq_some_iff.mp hctx
  split
  · rename_i hqp
    exact hf ctx (hqp ▸ hold) hqp
  · exact .kept ctx hold rfl rfl

theorem contextStep_fields {q : Nat} {f : UeContext → UeContext}
    (hctx : (update s q f).heap[p]? = some ctx')
    (hf : ∀ ctx, (f ctx).imsi = ctx.imsi ∧ (f ctx).bearers = ctx.bearers) :
    ContextStep s i p ctx' := by
  apply contextStep_update hctx
  rintro ctx hold rfl
  exact .kept ctx hold (hf ctx).1 (hf ctx).2

theorem contextStep_storeEnbTeid (mmeId enbTeid : UInt32)
    (hctx : (storeEnbTeid s mmeId enbTeid).heap[p]? = some ctx') : ContextStep s i p ctx' := by
  unfold storeEnbTeid at hctx
  split at hctx
  · exact contextStep_of_heap rfl hctx
  · apply contextStep_update hctx
    rintro ctx hold rfl
    exact .tunnelled ctx enbTeid hold rfl rfl

theorem contextStep_initialUeMsg (enbId : UInt32) (imsi : UInt64) (mcc mnc tac : UInt16)
    (hctx : (handleInitialUeMsg s enbId imsi mcc mnc tac).1.heap[p]? = some ctx') :
    ContextStep s i p ctx' := by
  simp only [handleInitialUeMsg] at hctx
  rcases lt_trichotomy p s.heap.length with hp | rfl | hp
  · rw [List.getElem?_append_left hp] at hctx
    exact .kept ctx' hctx rfl rfl
  · obtain rfl : _ = ctx' := by simpa using hctx
    exact .created rfl
  · rw [List.getElem?_eq_none (by simp; omega)] at hctx
    cases hctx

theorem contextStep_authVectorsReady (mmeId enbId : UInt32) (imsi : UInt64) (av : AuthVectors)
    (chaosDrop : Bool)
    (hctx : (authVectorsReady s mmeId enbId imsi av chaosDrop).1.heap[p]? = some ctx') :
    ContextStep s i p ctx' := by
  have hstored (q : Nat)
      (h : (update s q fun ctx => { ctx with auth := av, emmState := .authPending }).heap[p]? =
        some ctx') : ContextStep s i p ctx' := contextStep_fields h fun _ => ⟨rfl, rfl⟩
  unfold authVectorsReady at hctx
  rcases hfind : s.store.find mmeId with _ | q <;> cases chaosDrop <;> simp only [hfind] at hctx
  · exact contextStep_of_heap rfl hctx
  · exact contextStep_of_heap rfl hctx
  · exact hstored q hctx
  · exact hstored q hctx

theorem contextStep_ulNasTransport (mmeId : UInt32) (nasType : UInt8) (res : List UInt8)
    (hctx : (handleUlNasTransport s mmeId nasType res).1.heap[p]? = some ctx') :
    ContextStep s i p ctx' := by
  unfold handleUlNasTransport at hctx
  split at hctx
  · split at hctx
    · exact contextStep_of_heap rfl hctx
    · split at hctx
      · exact contextStep_fields hctx fun _ => ⟨rfl, rfl⟩
      · exact contextStep_of_heap rfl hctx
  · split at hctx
    · exact contextStep_of_heap rfl hctx
    · exact contextStep_fields hctx fun _ => ⟨rfl, rfl⟩
  · exact contextStep_of_heap rfl hctx

theorem contextStep_createSessionAnswered {mmeId : UInt32} {q : Nat} {resp : S11Response}
    (hthread : s.thread = .awaitCreateSession mmeId q)
    (hctx : (createSessionAnswered s mmeId q resp).1.heap[p]? = some ctx') :
    ContextStep s (.s11 resp) p ctx' := by
  unfold createSessionAnswered at hctx
  dsimp only at hctx
  split at hctx
  · rename_i a b c d rest hcause hip
    split at hctx
    · exact contextStep_of_heap rfl hctx
    · rename_i q hfind
      apply contextStep_update (s := s) hctx
      rintro ctx hold rfl
      refine .stored ctx ⟨q, resp, ⟨a, b, c, d⟩⟩ hold rfl ?_ rfl rfl
      have hfind : s.store.find mmeId = some q := hfind
      simp only [acceptedAnswer, hthread, hcause, hip, hfind]
      rfl
  · exact contextStep_of_heap rfl hctx

theorem contextStep_s11Wakeup {resp : Option S11Response} {es : List Event}
    (hi : ∀ r, resp = some r → i = .s11 r) (hstep : s11Wakeup s resp = some (s', es))
    (hctx : s'.heap[p]? = some ctx') : ContextStep s i p ctx' := by
  unfold s11Wakeup at hstep
  split at hstep
  · rename_i mmeId q r hthread
    obtain ⟨rfl, -⟩ := Prod.ext_iff.mp (Option.some.inj hstep)
    obtain rfl := hi r rfl
    exact contextStep_createSessionAnswered hthread hctx
  all_goals cases hstep
  all_goals exact contextStep_of_heap rfl hctx

/-- What a step does to a context: one case for each kind of handler. -/
theorem step_contexts {es : List Event} (hstep : step s i = some (s', es))
    (hctx : s'.heap[p]? = some ctx') : ContextStep s i p ctx' := by
  cases i with
  | s1ap msg =>
      simp only [step] at hstep
      split at hstep
      · obtain ⟨rfl, -⟩ := Prod.ext_iff.mp (Option.some.inj hstep)
        cases msg with
        | initialUeMsg enbId imsi mcc mnc tac =>
            exact contextStep_initialUeMsg enbId imsi mcc mnc tac hctx
        | ulNasTransport mmeId enbId nasType res =>
            exact contextStep_ulNasTransport mmeId nasType res hctx
        | icSetupResponse mmeId enbTeid => exact contextStep_storeEnbTeid mmeId enbTeid hctx
        | handoverRequestAck mmeId enbId newTeid =>
            exact contextStep_storeEnbTeid mmeId newTeid hctx
        | _ => exact contextStep_of_heap rfl hctx
      · cases hstep
  | aia imsi av =>
      obtain ⟨rfl, -⟩ := Prod.ext_iff.mp (Option.some.inj hstep)
      exact contextStep_of_heap rfl hctx
  | aiaWakeup chaosDrop =>
      simp only [step] at hstep
      split at hstep
      · obtain ⟨av, -, hready⟩ := Option.map_eq_some_iff.mp hstep
        obtain ⟨rfl, -⟩ := Prod.ext_iff.mp hready
        exact contextStep_authVectorsReady _ _ _ av chaosDrop hctx
      · cases hstep
  | s11 resp =>
      refine contextStep_s11Wakeup ?_ hstep hctx
      rintro r hr
      rw [Option.some.inj hr]
  | s11Timeout =>
      refine contextStep_s11Wakeup ?_ hstep hctx
      rintro r hr
      cases hr

end Contexts

section Events

variable {s s' : State} {i : Input} {es : List Event}

def isStored : Event → Bool
  | .bearerStored _ _ _ => true
  | _ => false

theorem sendIcSetupRequest_stored (s : State) (mmeId : UInt32) (p : Nat) :
    (sendIcSetupRequest s mmeId p).filter isStored = [] := by
  unfold sendIcSetupRequest
  split
  · rfl
  split <;> rfl

theorem createSessionAnswered_stored {mmeId : UInt32} {q : Nat} {resp : S11Response}
    (hthread : s.thread = .awaitCreateSession mmeId q) :
    (createSessionAnswered s mmeId q resp).2.filter isStored =
      (acceptedAnswer s (.s11 resp)).toList.map fun a => .bearerStored a.place a.bearer a.resp := by
  unfold createSessionAnswered acceptedAnswer
  simp only [hthread]
  split
  · rename_i a b c d rest hcause hip
    simp only [hcause, hip]
    rw [List.filter_append, sendIcSetupRequest_stored, List.append_nil]
    cases hfind : s.store.find mmeId <;> rfl
  · rename_i hrefused
    show [] = _
    symm
    rw [List.map_eq_nil_iff, Option.toList_eq_nil_iff]
    split
    · rename_i id q' a b c d rest hwait hcause hip
      exact (hrefused a b c d rest hcause hip).elim
    · rfl

theorem s11Wakeup_stored {resp : Option S11Response}
    (hi : ∀ r, resp = some r → i = .s11 r) (hnone : resp = none → i = .s11Timeout)
    (hstep : s11Wakeup s resp = some (s', es)) :
    es.filter isStored =
      (acceptedAnswer s i).toList.map fun a => .bearerStored a.place a.bearer a.resp := by
  have hother (h : ∀ mmeId q, s.thread ≠ .awaitCreateSession mmeId q) : acceptedAnswer s i = none := by
    unfold acceptedAnswer
    split
    · split
      · rename_i mmeId q _ _ _ _ _ hthread _ _
        exact (h mmeId q hthread).elim
      · rfl
    · rfl
  unfold s11Wakeup at hstep
  split at hstep
  · rename_i mmeId q r hthread
    obtain ⟨rfl, rfl⟩ := Prod.ext_iff.mp (Option.some.inj hstep)
    obtain rfl := hi r rfl
    exact createSessionAnswered_stored hthread
  · obtain ⟨rfl, rfl⟩ := Prod.ext_iff.mp (Option.some.inj hstep)
    obtain rfl := hnone rfl
    rfl
  · rename_i hthread
    obtain ⟨rfl, rfl⟩ := Prod.ext_iff.mp (Option.some.inj hstep)
    rw [hother (by rw [hthread]; rintro _ _ h; cases h)]
    rfl
  · rename_i hthread
    obtain ⟨rfl, rfl⟩ := Prod.ext_iff.mp (Option.some.inj hstep)
    rw [hother (by rw [hthread]; rintro _ _ h; cases h)]
    rfl
  · cases hstep

theorem handleS1ap_stored (s : State) (msg : S1apUplink) :
    (handleS1ap s msg).2.filter isStored = [] := by
  cases msg with
  | ulNasTransport mmeId enbId nasType res =>
      show (handleUlNasTransport s mmeId nasType res).2.filter isStored = []
      unfold handleUlNasTransport
      split
      · split
        · rfl
        split <;> rfl
      · split <;> rfl
      · rfl
  | _ => rfl

/-- A step tells of a bearer exactly when it takes an answer for a success. -/
theorem step_stored (hstep : step s i = some (s', es)) :
    es.filter isStored =
      (acceptedAnswer s i).toList.map fun a => .bearerStored a.place a.bearer a.resp := by
  cases i with
  | s1ap msg =>
      simp only [step] at hstep
      split at hstep
      · obtain ⟨rfl, rfl⟩ := Prod.ext_iff.mp (Option.some.inj hstep)
        exact handleS1ap_stored s msg
      · cases hstep
  | aia imsi av =>
      obtain ⟨rfl, rfl⟩ := Prod.ext_iff.mp (Option.some.inj hstep)
      rfl
  | aiaWakeup chaosDrop =>
      simp only [step] at hstep
      split at hstep
      · rename_i mmeId enbId imsi _
        obtain ⟨av, -, hready⟩ := Option.map_eq_some_iff.mp hstep
        obtain ⟨rfl, rfl⟩ := Prod.ext_iff.mp hready
        unfold authVectorsReady
        rcases hfind : s.store.find mmeId with _ | q <;> cases chaosDrop <;> simp only [hfind] <;> rfl
      · cases hstep
  | s11 resp =>
      refine s11Wakeup_stored ?_ ?_ hstep
      · rintro r hr
        rw [Option.some.inj hr]
      · rintro hr
        cases hr
  | s11Timeout =>
      refine s11Wakeup_stored ?_ ?_ hstep
      · rintro r hr
        cases hr
      · rintro _
        rfl

end Events

end MobileCore.BearerLists
