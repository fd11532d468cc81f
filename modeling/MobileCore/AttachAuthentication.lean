import MobileCore.MobilityManagement

namespace MobileCore.AttachAuthentication

open MobileCore.LabelledRuns
open MobileCore.LastWrite
open MobileCore.MobilityManagement
open MobileCore.ShardedStore

def Challenged (tr : List Event) (p : Nat) (imsi : UInt64) (av : AuthVectors) : Prop :=
  [.aiaReceived imsi av, .vectorsStored p av].Sublist tr

def Authenticated (tr : List Event) (p : Nat) (imsi : UInt64) : Prop :=
  ∃ av res, [.aiaReceived imsi av, .vectorsStored p av, .authAccepted p res].Sublist tr ∧
    8 ≤ res.length ∧ res.take 8 = av.xres.toList

def completes (s : State) : Input → Option UeContext
  | .s1ap (.ulNasTransport mmeId _ 0x46 _) => (findCtx s mmeId).map Prod.snd
  | _ => none

/-- An Attach Complete finds its context in the state that the log of its handler names. -/
def CompletesSession (_ : List Event) (s : State) (i : Input) : Prop :=
  ∀ ctx ∈ completes s i, ctx.emmState = .sessionPending ∨ ctx.emmState = .registered

instance (tr : List Event) (s : State) (i : Input) : Decidable (CompletesSession tr s i) :=
  inferInstanceAs (Decidable (∀ ctx ∈ completes s i, _))

/-- The receive thread waits for the HSS on behalf of the context at `p`. -/
def AwaitsVectors (s : State) (p : Nat) : Prop :=
  ∃ mmeId enbId imsi, s.thread = .awaitAia mmeId enbId imsi ∧ s.store.find mmeId = some p

/-- How far a context has come, by its state. -/
inductive Progress (tr : List Event) (s : State) (p : Nat) (ctx : UeContext) : Prop
  | created (hstate : ctx.emmState = .registeredInitiated) (hwait : AwaitsVectors s p)
  | challenged (hstate : ctx.emmState = .authPending)
      (hchallenged : Challenged tr p ctx.imsi ctx.auth)
  | authenticated (hstate : ctx.emmState = .sessionPending ∨ ctx.emmState = .registered)
      (hchallenged : Challenged tr p ctx.imsi ctx.auth)
      (hauth : Authenticated tr p ctx.imsi)

structure Inv (tr : List Event) (s : State) : Prop where
  pending : ∀ imsi av, s.pendingAuth.lookup imsi = some av → .aiaReceived imsi av ∈ tr
  awaiting : ∀ mmeId enbId imsi p ctx, s.thread = .awaitAia mmeId enbId imsi →
    s.store.find mmeId = some p → s.heap[p]? = some ctx → ctx.imsi = imsi
  contexts : ∀ p ctx, s.heap[p]? = some ctx → Progress tr s p ctx

def Blocked (thread : Thread) : Prop := ∃ mmeId enbId imsi, thread = .awaitAia mmeId enbId imsi

/-- A step that leaves the part of the state alone that authentication is about. -/
structure Frame (s s' : State) : Prop where
  before : ¬ Blocked s.thread
  after : ¬ Blocked s'.thread
  pendingAuth : s'.pendingAuth = s.pendingAuth
  contexts : ∀ (p : Nat) (ctx' : UeContext), s'.heap[p]? = some ctx' →
    ∃ ctx : UeContext, s.heap[p]? = some ctx ∧
      ctx'.imsi = ctx.imsi ∧ ctx'.emmState = ctx.emmState ∧ ctx'.auth = ctx.auth

theorem Challenged.append {tr : List Event} {p : Nat} {imsi : UInt64} {av : AuthVectors}
    (h : Challenged tr p imsi av) (es : List Event) : Challenged (tr ++ es) p imsi av :=
  h.trans (List.sublist_append_left tr es)

theorem Authenticated.append {tr : List Event} {p : Nat} {imsi : UInt64}
    (h : Authenticated tr p imsi) (es : List Event) : Authenticated (tr ++ es) p imsi := by
  obtain ⟨av, res, hsub, hres⟩ := h
  exact ⟨av, res, hsub.trans (List.sublist_append_left tr es), hres⟩

theorem not_awaits_of_not_blocked {s : State} (hthread : ¬ Blocked s.thread) (p : Nat) :
    ¬ AwaitsVectors s p := by
  rintro ⟨mmeId, enbId, imsi, hwait, _⟩
  exact hthread ⟨mmeId, enbId, imsi, hwait⟩

theorem Progress.has_vectors {tr : List Event} {s : State} {p : Nat} {ctx : UeContext}
    (h : Progress tr s p ctx) (hwait : ¬ AwaitsVectors s p) :
    Challenged tr p ctx.imsi ctx.auth := by
  cases h with
  | created _ hawaits => exact (hwait hawaits).elim
  | challenged _ hchallenged => exact hchallenged
  | authenticated _ hchallenged _ => exact hchallenged

theorem Progress.later {tr : List Event} {s : State} {p : Nat} {ctx ctx' : UeContext}
    (h : Progress tr s p ctx) (hwait : ¬ AwaitsVectors s p) (himsi : ctx'.imsi = ctx.imsi)
    (hstate : ctx'.emmState = ctx.emmState) (hauth : ctx'.auth = ctx.auth) (s' : State)
    (es : List Event) : Progress (tr ++ es) s' p ctx' := by
  cases h with
  | created _ hawaits => exact (hwait hawaits).elim
  | challenged hpending hchallenged =>
      refine Progress.challenged (hstate.trans hpending) ?_
      rw [himsi, hauth]
      exact hchallenged.append es
  | authenticated hdone hchallenged hauthenticated =>
      refine Progress.authenticated (by rw [hstate]; exact hdone) ?_ ?_
      · rw [himsi, hauth]
        exact hchallenged.append es
      · rw [himsi]
        exact hauthenticated.append es

theorem frame_inv {tr : List Event} {s s' : State} (hinv : Inv tr s) (hframe : Frame s s')
    (es : List Event) : Inv (tr ++ es) s' where
  pending imsi av hlookup := by
    rw [hframe.pendingAuth] at hlookup
    exact List.mem_append_left es (hinv.pending imsi av hlookup)
  awaiting mmeId enbId imsi _ _ hwait _ _ := (hframe.after ⟨mmeId, enbId, imsi, hwait⟩).elim
  contexts p ctx' hctx' := by
    obtain ⟨ctx, hctx, himsi, hstate, hauth⟩ := hframe.contexts p ctx' hctx'
    exact (hinv.contexts p ctx hctx).later (not_awaits_of_not_blocked hframe.before p) himsi hstate
      hauth s' es

theorem frame_thread {s : State} (hbefore : ¬ Blocked s.thread) (thread : Thread)
    (hafter : ¬ Blocked thread) : Frame s { s with thread := thread } :=
  ⟨hbefore, hafter, rfl, fun _ ctx hctx => ⟨ctx, hctx, rfl, rfl, rfl⟩⟩

theorem frame_refl {s : State} (hbefore : ¬ Blocked s.thread) : Frame s s :=
  frame_thread hbefore s.thread hbefore

theorem frame_bearers {s : State} (hbefore : ¬ Blocked s.thread) (p : Nat)
    (f : List Bearer → List Bearer) (thread : Thread) (hafter : ¬ Blocked thread) :
    Frame s { update s p (fun ctx => { ctx with bearers := f ctx.bearers }) with
      thread := thread } := by
  refine ⟨hbefore, hafter, rfl, fun q ctx' hctx' => ?_⟩
  simp only [update, List.getElem?_modify] at hctx'
  obtain ⟨ctx, hctx, rfl⟩ := Option.map_eq_some_iff.mp hctx'
  refine ⟨ctx, hctx, ?_⟩
  split <;> exact ⟨rfl, rfl, rfl⟩

theorem not_blocked_receiving : ¬ Blocked .receiving := by
  rintro ⟨_, _, _, hwait⟩
  cases hwait

theorem findCtx_eq_some {s : State} {mmeId : UInt32} {p : Nat} {ctx : UeContext}
    (h : findCtx s mmeId = some (p, ctx)) :
    s.store.find mmeId = some p ∧ s.heap[p]? = some ctx := by
  unfold findCtx at h
  split at h
  · cases h
  · rename_i q hfind
    obtain ⟨c, hc, hpair⟩ := Option.map_eq_some_iff.mp h
    obtain ⟨rfl, rfl⟩ := Prod.mk.inj hpair
    exact ⟨hfind, hc⟩

theorem handleInitialUeMsg_inv {tr : List Event} {s : State} (hinv : Inv tr s)
    (hthread : ¬ Blocked s.thread) (enbId : UInt32) (imsi : UInt64) (mcc mnc tac : UInt16) :
    Inv (tr ++ (handleInitialUeMsg s enbId imsi mcc mnc tac).2)
      (handleInitialUeMsg s enbId imsi mcc mnc tac).1 := by
  refine ⟨fun i av hlookup => List.mem_append_left _ (hinv.pending i av hlookup), ?_, ?_⟩
  · intro mmeId enbId' imsi' p ctx hwait hfind hctx
    obtain ⟨rfl, rfl, rfl⟩ : s.store.nextId = mmeId ∧ enbId = enbId' ∧ imsi = imsi' := by
      simpa [handleInitialUeMsg] using hwait
    obtain rfl : s.heap.length = p := by simpa [handleInitialUeMsg] using hfind
    obtain rfl : _ = ctx := by simpa [handleInitialUeMsg] using hctx
    rfl
  · intro p ctx hctx
    simp only [handleInitialUeMsg, insert_snd] at hctx
    rcases lt_trichotomy p s.heap.length with hp | rfl | hp
    · rw [List.getElem?_append_left hp] at hctx
      exact (hinv.contexts p ctx hctx).later (not_awaits_of_not_blocked hthread p) rfl rfl rfl _ _
    · obtain rfl : _ = ctx := by simpa using hctx
      exact Progress.created rfl ⟨s.store.nextId, enbId, imsi, rfl, find_insert_same _ _⟩
    · rw [List.getElem?_eq_none (by simp; omega)] at hctx
      cases hctx

theorem challenged_snoc {tr : List Event} {imsi : UInt64} {av : AuthVectors}
    (h : .aiaReceived imsi av ∈ tr) (p : Nat) (es : List Event) :
    Challenged (tr ++ .vectorsStored p av :: es) p imsi av := by
  have hfirst : [Event.aiaReceived imsi av].Sublist tr := List.singleton_sublist.mpr h
  exact hfirst.append ((List.Sublist.refl [Event.vectorsStored p av]).trans
    (List.sublist_append_left [Event.vectorsStored p av] es))

theorem authenticated_snoc {tr : List Event} {p : Nat} {imsi : UInt64} {av : AuthVectors}
    (h : Challenged tr p imsi av) (res : List UInt8) (es : List Event) (hlen : 8 ≤ res.length)
    (hres : res.take 8 = av.xres.toList) :
    Authenticated (tr ++ .authAccepted p res :: es) p imsi := by
  refine ⟨av, res, ?_, hlen, hres⟩
  exact List.Sublist.append h ((List.Sublist.refl [Event.authAccepted p res]).trans
    (List.sublist_append_left [Event.authAccepted p res] es))

theorem vectorsStored_inv {tr : List Event} {s s' : State} (hinv : Inv tr s)
    {mmeId enbId : UInt32} {imsi : UInt64} {av : AuthVectors}
    (hthread : s.thread = .awaitAia mmeId enbId imsi)
    (hav : s.pendingAuth.lookup imsi = some av)
    (hpending : s'.pendingAuth = s.pendingAuth.erase imsi) (hthread' : s'.thread = .receiving)
    {es : List Event}
    (hother : ∀ q, s.store.find mmeId ≠ some q → s'.heap[q]? = s.heap[q]?)
    (htarget : ∀ p, s.store.find mmeId = some p →
      s'.heap[p]? = (s.heap[p]?).map (fun ctx => { ctx with auth := av, emmState := .authPending }) ∧
        ∃ rest, es = .vectorsStored p av :: rest) : Inv (tr ++ es) s' where
  pending i av' hlookup := by
    rw [hpending] at hlookup
    rcases eq_or_ne i imsi with rfl | hne
    · simp at hlookup
    · rw [AList.lookup_erase_ne hne] at hlookup
      exact List.mem_append_left es (hinv.pending i av' hlookup)
  awaiting i j k p ctx hwait _ _ := by
    rw [hthread'] at hwait
    cases hwait
  contexts p ctx' hctx' := by
    rcases eq_or_ne (s.store.find mmeId) (some p) with hfind | hfind
    · obtain ⟨hheap, rest, rfl⟩ := htarget p hfind
      rw [hheap] at hctx'
      obtain ⟨ctx, hctx, rfl⟩ := Option.map_eq_some_iff.mp hctx'
      obtain rfl := hinv.awaiting mmeId enbId imsi p ctx hthread hfind hctx
      exact Progress.challenged rfl (challenged_snoc (hinv.pending _ av hav) p rest)
    · rw [hother p hfind] at hctx'
      refine (hinv.contexts p ctx' hctx').later ?_ rfl rfl rfl s' es
      rintro ⟨i, j, k, hwait, hfind'⟩
      obtain ⟨rfl, _, _⟩ : mmeId = i ∧ enbId = j ∧ imsi = k := by
        simpa [hthread] using hwait
      exact hfind hfind'

theorem authVectorsReady_inv {tr : List Event} {s : State} (hinv : Inv tr s)
    {mmeId enbId : UInt32} {imsi : UInt64} {av : AuthVectors}
    (hthread : s.thread = .awaitAia mmeId enbId imsi)
    (hav : s.pendingAuth.lookup imsi = some av) (chaosDrop : Bool) :
    Inv (tr ++ (authVectorsReady s mmeId enbId imsi av chaosDrop).2)
      (authVectorsReady s mmeId enbId imsi av chaosDrop).1 := by
  apply vectorsStored_inv hinv hthread hav
  · cases hfind : s.store.find mmeId <;> cases chaosDrop <;>
      simp [authVectorsReady, update, hfind]
  · cases hfind : s.store.find mmeId <;> cases chaosDrop <;>
      simp [authVectorsReady, update, hfind]
  · intro q hq
    cases hfind : s.store.find mmeId with
    | none => cases chaosDrop <;> simp [authVectorsReady, hfind]
    | some p =>
        have hne : p ≠ q := fun h => hq (by rw [hfind, h])
        cases chaosDrop <;> simp [authVectorsReady, update, hfind, hne]
  · intro p hfind
    cases chaosDrop <;> simp [authVectorsReady, update, hfind]

theorem setState_inv {tr : List Event} {s : State} (hinv : Inv tr s)
    (hthread : ¬ Blocked s.thread) (p : Nat) (state : EmmState) (thread : Thread)
    (hafter : ¬ Blocked thread) (es : List Event)
    (hstate : state = .sessionPending ∨ state = .registered)
    (hauth : ∀ ctx, s.heap[p]? = some ctx → Authenticated (tr ++ es) p ctx.imsi) :
    Inv (tr ++ es)
      { update s p (fun ctx => { ctx with emmState := state }) with thread := thread } where
  pending i av hlookup := List.mem_append_left es (hinv.pending i av hlookup)
  awaiting i j k q ctx hwait _ _ := (hafter ⟨i, j, k, hwait⟩).elim
  contexts q ctx' hctx' := by
    have hq := not_awaits_of_not_blocked hthread q
    simp only [update, List.getElem?_modify] at hctx'
    obtain ⟨ctx, hctx, rfl⟩ := Option.map_eq_some_iff.mp hctx'
    rcases eq_or_ne p q with rfl | hne
    · rw [if_pos rfl]
      exact Progress.authenticated hstate (((hinv.contexts p ctx hctx).has_vectors hq).append es)
        (hauth ctx hctx)
    · rw [if_neg hne]
      exact (hinv.contexts q ctx hctx).later hq rfl rfl rfl _ es

theorem handleUlNasTransport_inv {tr : List Event} {s : State} (hinv : Inv tr s)
    (hthread : s.thread = .receiving) (mmeId enbId : UInt32) (nasType : UInt8) (res : List UInt8)
    (hguard : CompletesSession tr s (.s1ap (.ulNasTransport mmeId enbId nasType res))) :
    Inv (tr ++ (handleUlNasTransport s mmeId nasType res).2)
      (handleUlNasTransport s mmeId nasType res).1 := by
  have hfree : ¬ Blocked s.thread := hthread ▸ not_blocked_receiving
  unfold handleUlNasTransport
  split
  · split
    · exact frame_inv hinv (frame_refl hfree) []
    · rename_i p ctx hfind
      split
      · rename_i hres
        obtain ⟨_, hctx⟩ := findCtx_eq_some hfind
        refine setState_inv hinv hfree p _ _ (by rintro ⟨_, _, _, h⟩; cases h) _ (Or.inl rfl) ?_
        intro ctx' hctx'
        obtain rfl : ctx = ctx' := Option.some.inj (hctx.symm.trans hctx')
        exact authenticated_snoc ((hinv.contexts p ctx hctx).has_vectors
          (not_awaits_of_not_blocked hfree p)) res _ hres.1 hres.2
      · exact frame_inv hinv (frame_refl hfree) []
  · split
    · exact frame_inv hinv (frame_refl hfree) []
    · rename_i p ctx hfind
      obtain ⟨_, hctx⟩ := findCtx_eq_some hfind
      refine setState_inv hinv hfree p _ s.thread hfree _ (Or.inr rfl) ?_
      intro ctx' hctx'
      obtain rfl : ctx = ctx' := Option.some.inj (hctx.symm.trans hctx')
      have hstate := hguard ctx (by simp [completes, hfind])
      rcases hinv.contexts p ctx hctx with ⟨hcreated, _⟩ | ⟨hpending, _⟩ | ⟨_, _, hauth⟩
      · rw [hcreated] at hstate
        simp at hstate
      · rw [hpending] at hstate
        simp at hstate
      · exact hauth.append _
  · exact frame_inv hinv (frame_refl hfree) []

theorem storeEnbTeid_frame {s : State} (hfree : ¬ Blocked s.thread) (mmeId enbTeid : UInt32)
    (thread : Thread) (hafter : ¬ Blocked thread) :
    Frame s { storeEnbTeid s mmeId enbTeid with thread := thread } := by
  unfold storeEnbTeid
  split
  · exact frame_thread hfree thread hafter
  · exact frame_bearers hfree _ (setEnbTeid enbTeid) thread hafter

theorem handleS1ap_inv {tr : List Event} {s : State} (hinv : Inv tr s)
    (hthread : s.thread = .receiving) (msg : S1apUplink)
    (hguard : CompletesSession tr s (.s1ap msg)) :
    Inv (tr ++ (handleS1ap s msg).2) (handleS1ap s msg).1 := by
  have hfree : ¬ Blocked s.thread := hthread ▸ not_blocked_receiving
  cases msg with
  | initialUeMsg enbId imsi mcc mnc tac => exact handleInitialUeMsg_inv hinv hfree enbId imsi mcc mnc tac
  | ulNasTransport mmeId enbId nasType res =>
      exact handleUlNasTransport_inv hinv hthread mmeId enbId nasType res hguard
  | icSetupResponse mmeId enbTeid =>
      exact frame_inv hinv (storeEnbTeid_frame hfree mmeId enbTeid _ (by rintro ⟨_, _, _, h⟩; cases h)) _
  | handoverRequestAck mmeId enbId newTeid =>
      have hsame : (storeEnbTeid s mmeId newTeid).thread = s.thread := by
        unfold storeEnbTeid
        split <;> rfl
      have hframe := storeEnbTeid_frame hfree mmeId newTeid _ (hsame ▸ hfree)
      exact frame_inv hinv hframe _
  | handoverNotify mmeId enbId newTeid =>
      exact frame_inv hinv (frame_thread hfree _ (by rintro ⟨_, _, _, h⟩; cases h)) _
  | _ => exact frame_inv hinv (frame_refl hfree) _

theorem createSessionAnswered_inv {tr : List Event} {s : State} (hinv : Inv tr s)
    (hfree : ¬ Blocked s.thread) (mmeId : UInt32) (p : Nat) (resp : S11Response) :
    Inv (tr ++ (createSessionAnswered s mmeId p resp).2) (createSessionAnswered s mmeId p resp).1 := by
  refine frame_inv hinv ?_ _
  unfold createSessionAnswered
  dsimp only
  split
  · split
    · exact frame_thread hfree _ not_blocked_receiving
    · rename_i q _
      exact frame_bearers hfree q (fun bearers => bearers ++ [_]) _ not_blocked_receiving
  · exact frame_thread hfree _ not_blocked_receiving

theorem s11Wakeup_inv {tr : List Event} {s s' : State} {resp : Option S11Response}
    {es : List Event} (hinv : Inv tr s) (hstep : s11Wakeup s resp = some (s', es)) :
    Inv (tr ++ es) s' := by
  have hfrees : ∀ thread, s.thread = thread → ¬ Blocked thread → ¬ Blocked s.thread := by
    rintro thread rfl hfree
    exact hfree
  unfold s11Wakeup at hstep
  split at hstep
  · rename_i mmeId p resp hthread
    obtain ⟨rfl, rfl⟩ := Prod.ext_iff.mp (Option.some.inj hstep)
    exact createSessionAnswered_inv hinv (hfrees _ hthread (by rintro ⟨_, _, _, h⟩; cases h)) mmeId p _
  all_goals cases hstep
  all_goals
    refine frame_inv hinv (frame_thread (hfrees _ (by assumption) ?_) _ not_blocked_receiving) _
    rintro ⟨_, _, _, h⟩
    cases h

theorem aia_inv {tr : List Event} {s : State} (hinv : Inv tr s) (imsi : UInt64)
    (av : AuthVectors) : Inv (tr ++ [.aiaReceived imsi av])
      { s with pendingAuth := s.pendingAuth.insert imsi av } where
  pending i av' hlookup := by
    rcases eq_or_ne i imsi with rfl | hne
    · rw [AList.lookup_insert] at hlookup
      obtain rfl := Option.some.inj hlookup
      simp
    · rw [AList.lookup_insert_ne hne] at hlookup
      exact List.mem_append_left _ (hinv.pending i av' hlookup)
  awaiting i j k p ctx hwait hfind hctx := hinv.awaiting i j k p ctx hwait hfind hctx
  contexts p ctx hctx := by
    cases hinv.contexts p ctx hctx with
    | created hstate hwait => exact Progress.created hstate hwait
    | challenged hstate hchallenged => exact Progress.challenged hstate (hchallenged.append _)
    | authenticated hstate hchallenged hauth =>
        exact Progress.authenticated hstate (hchallenged.append _) (hauth.append _)

theorem step_inv {tr : List Event} {s s' : State} {i : Input} {es : List Event} (hinv : Inv tr s)
    (hguard : CompletesSession tr s i) (hstep : step s i = some (s', es)) : Inv (tr ++ es) s' := by
  cases i with
  | s1ap msg =>
      simp only [step] at hstep
      split at hstep
      · rename_i hthread
        obtain ⟨rfl, rfl⟩ : (handleS1ap s msg).1 = s' ∧ (handleS1ap s msg).2 = es := by
          simpa [Prod.ext_iff] using hstep
        exact handleS1ap_inv hinv hthread msg hguard
      · cases hstep
  | aia imsi av =>
      obtain ⟨rfl, rfl⟩ : { s with pendingAuth := s.pendingAuth.insert imsi av } = s' ∧
          [.aiaReceived imsi av] = es := by simpa [step] using hstep
      exact aia_inv hinv imsi av
  | aiaWakeup chaosDrop =>
      simp only [step] at hstep
      split at hstep
      · rename_i mmeId enbId imsi hthread
        obtain ⟨av, hav, hready⟩ := Option.map_eq_some_iff.mp hstep
        obtain ⟨rfl, rfl⟩ := Prod.ext_iff.mp hready
        exact authVectorsReady_inv hinv hthread hav chaosDrop
      · cases hstep
  | s11 resp => exact s11Wakeup_inv hinv hstep
  | s11Timeout => exact s11Wakeup_inv hinv hstep

theorem init_inv : Inv [] init := by
  constructor <;> intros <;> simp_all [init]

/-- In every run whose Attach Completes end a session set-up, a registered context authenticated. -/
theorem registered_authenticated {tr : List Event} {s : State}
    (hrun : Run step CompletesSession init tr s) (p : Nat) (ctx : UeContext)
    (hctx : s.heap[p]? = some ctx) (hstate : ctx.emmState = .registered) :
    Authenticated tr p ctx.imsi := by
  have hinv : Inv tr s := by
    refine hrun.invariant init_inv ?_
    intro tr s i s' es hinv hguard hstep
    exact step_inv hinv hguard hstep
  rcases hinv.contexts p ctx hctx with ⟨hcreated, _⟩ | ⟨hpending, _⟩ | ⟨_, _, hauth⟩
  · rw [hstate] at hcreated
    cases hcreated
  · rw [hstate] at hpending
    cases hpending
  · exact hauth

def challengedUe : List Input :=
  [.s1ap (.initialUeMsg 1 404100000000001 404 10 1), .aia 404100000000001 {}, .aiaWakeup false]

def attachComplete : Input := .s1ap (.ulNasTransport 1 1 0x46 [])

/-- The challenged UE answers nothing and reports that its attach is complete. -/
theorem attach_complete_registers :
    ∃ tr s, ∃ ctx : UeContext, Reach step init tr s ∧ s.heap[0]? = some ctx ∧
      ctx.emmState = .registered ∧ ¬ Authenticated tr 0 ctx.imsi := by
  have hexec : (exec step init (challengedUe ++ [attachComplete])).map
      (fun r => ((r.1.heap[0]?).map UeContext.emmState, r.2)) = some (some .registered,
        [.airSent 404100000000001 404 10, .aiaReceived 404100000000001 {}, .vectorsStored 0 {},
          .toEnb (.dlNasTransport 1 1 0x52 (List.replicate 16 0) (List.replicate 16 0))]) := by
    decide +kernel
  obtain ⟨tr, s, hrun, hpair⟩ := exists_reach_of_exec hexec
  obtain ⟨hheap, rfl⟩ := Prod.mk.inj hpair
  obtain ⟨ctx, hctx, hstate⟩ := Option.map_eq_some_iff.mp hheap
  refine ⟨_, s, ctx, hrun, hctx, hstate, ?_⟩
  rintro ⟨av, res, hsub, _⟩
  have haccepted : Event.authAccepted 0 res ∈ _ := hsub.subset (by simp)
  simp at haccepted

def attach : List Input :=
  challengedUe ++
    [.s1ap (.ulNasTransport 1 1 0x53 (List.replicate 8 0)),
      .s11 { cause := 16, senderTeid := 1000, bearerTeid := 1001, ueIp := [10, 0, 0, 1] },
      attachComplete]

/-- A UE that answers its challenge and then completes its attach. -/
theorem attached_ue_authenticated :
    ∃ tr s, ∃ ctx : UeContext, Run step CompletesSession init tr s ∧ s.heap[0]? = some ctx ∧
      ctx.emmState = .registered ∧ Authenticated tr 0 ctx.imsi := by
  have hexec : (exec step init attach).map (fun r => (r.1.heap[0]?).map UeContext.emmState) =
      some (some .registered) := by decide +kernel
  obtain ⟨tr, s, hrun, hheap⟩ :=
    exists_run_of_exec (P := CompletesSession) attach (by decide +kernel) hexec
  obtain ⟨ctx, hctx, hstate⟩ := Option.map_eq_some_iff.mp hheap
  exact ⟨tr, s, ctx, hrun, hctx, hstate, registered_authenticated hrun 0 ctx hctx hstate⟩

end MobileCore.AttachAuthentication
