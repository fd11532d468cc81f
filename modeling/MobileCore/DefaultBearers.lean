import MobileCore.BearerLists

namespace MobileCore.DefaultBearers

open MobileCore.BearerLists
open MobileCore.LabelledRuns
open MobileCore.LastWrite
open MobileCore.MobilityManagement

def createdFor (imsi : UInt64) : Event → Bool
  | .bearerStored _ _ resp => resp.imsi == imsi
  | _ => false

/-- The bearer has the TEIDs and the address of the subscriber's last session. -/
def Live (tr : List Event) (imsi : UInt64) (b : Bearer) : Prop :=
  ∃ p stored resp, lastWhere (createdFor imsi) tr = some (.bearerStored p stored resp) ∧
    b.sgwS11Teid = resp.senderTeid ∧ b.sgwS1uTeid = resp.bearerTeid ∧
    resp.ueIp.take 4 = [b.ueIp.a, b.ueIp.b, b.ueIp.c, b.ueIp.d]

def defaultBearers (ctx : UeContext) : List Bearer := ctx.bearers.filter fun b => b.ebi == 5

/-- Every context has at most one default bearer, and it is the one of its UE's last session. -/
def OneLiveBearer (tr : List Event) (s : State) : Prop :=
  ∀ ctx ∈ s.heap, (defaultBearers ctx).length ≤ 1 ∧ ∀ b ∈ defaultBearers ctx, Live tr ctx.imsi b

/-- An answer that the MME takes for a success is about the UE that waits for it, and no context of
that UE has a bearer yet. -/
def FirstSession (_ : List Event) (s : State) (i : Input) : Prop :=
  ∀ a ∈ acceptedAnswer s i, (∀ ctx ∈ s.heap[a.place]?, ctx.imsi = a.resp.imsi) ∧
    ∀ ctx ∈ s.heap, ctx.imsi = a.resp.imsi → ctx.bearers = []

instance (tr : List Event) (s : State) (i : Input) : Decidable (FirstSession tr s i) :=
  inferInstanceAs (Decidable (∀ a ∈ acceptedAnswer s i, _ ∧ ∀ ctx ∈ s.heap, _))

def Inv (tr : List Event) (s : State) : Prop :=
  ∀ ctx ∈ s.heap, ctx.bearers.length ≤ 1 ∧ ∀ b ∈ ctx.bearers, Live tr ctx.imsi b

theorem isStored_of_createdFor (imsi : UInt64) (e : Event) (h : createdFor imsi e = true) :
    isStored e = true := by
  cases e with
  | bearerStored p b resp => rfl
  | _ => cases h

theorem lastSession_step {tr : List Event} {s s' : State} {i : Input} {es : List Event}
    (hstep : step s i = some (s', es)) (imsi : UInt64) :
    lastWhere (createdFor imsi) (tr ++ es) =
      match acceptedAnswer s i with
      | none => lastWhere (createdFor imsi) tr
      | some a =>
        if a.resp.imsi == imsi then some (.bearerStored a.place a.bearer a.resp)
        else lastWhere (createdFor imsi) tr := by
  rw [← lastWhere_filter (isStored_of_createdFor imsi), List.filter_append, step_stored hstep]
  cases acceptedAnswer s i with
  | none =>
      show lastWhere (createdFor imsi) (tr.filter isStored ++ []) = _
      rw [List.append_nil, lastWhere_filter (isStored_of_createdFor imsi)]
  | some a =>
      show lastWhere (createdFor imsi) (tr.filter isStored ++ [_]) = _
      rw [lastWhere_snoc, lastWhere_filter (isStored_of_createdFor imsi)]
      rfl

theorem live_kept {tr : List Event} {s s' : State} {i : Input} {es : List Event}
    (hguard : FirstSession tr s i) (hstep : step s i = some (s', es)) {ctx : UeContext}
    (hctx : ctx ∈ s.heap) {b₀ b : Bearer} (hb : b₀ ∈ ctx.bearers) (hlive : Live tr ctx.imsi b) :
    Live (tr ++ es) ctx.imsi b := by
  obtain ⟨p, stored, resp, hlast, hsame⟩ := hlive
  refine ⟨p, stored, resp, ?_, hsame⟩
  rw [lastSession_step hstep]
  cases haccepted : acceptedAnswer s i with
  | none => exact hlast
  | some a =>
      have hother : ¬ctx.imsi = a.resp.imsi := by
        intro himsi
        rw [(hguard a haccepted).2 ctx hctx himsi] at hb
        cases hb
      have hdiffers : (a.resp.imsi == ctx.imsi) = false := by
        rw [beq_eq_false_iff_ne]
        exact fun h => hother h.symm
      simp only [hdiffers]
      exact hlast

theorem live_stored {tr : List Event} {s s' : State} {i : Input} {es : List Event}
    (hstep : step s i = some (s', es)) {a : Answer} (haccepted : acceptedAnswer s i = some a) :
    Live (tr ++ es) a.resp.imsi a.bearer := by
  obtain ⟨_, _, rest, _, _, _, _, hip⟩ := acceptedAnswer_eq_some haccepted
  refine ⟨a.place, a.bearer, a.resp, ?_, rfl, rfl, ?_⟩
  · rw [lastSession_step hstep, haccepted]
    simp only [beq_self_eq_true, if_true]
  · rw [hip]
    rfl

theorem step_inv {tr : List Event} {s s' : State} {i : Input} {es : List Event} (hinv : Inv tr s)
    (hguard : FirstSession tr s i) (hstep : step s i = some (s', es)) : Inv (tr ++ es) s' := by
  intro ctx' hmem
  obtain ⟨p, hp⟩ := List.mem_iff_getElem?.mp hmem
  cases step_contexts hstep hp with
  | created hnone =>
      rw [hnone]
      exact ⟨Nat.zero_le 1, by simp⟩
  | kept ctx hctx himsi hsame =>
      have hold := List.mem_of_getElem? hctx
      rw [hsame, himsi]
      exact ⟨(hinv ctx hold).1, fun b hb => live_kept hguard hstep hold hb ((hinv ctx hold).2 b hb)⟩
  | tunnelled ctx teid hctx himsi hteid =>
      have hold := List.mem_of_getElem? hctx
      rw [hteid, himsi, length_setEnbTeid]
      refine ⟨(hinv ctx hold).1, ?_⟩
      intro b hb
      rcases mem_setEnbTeid hb with hb | ⟨b₀, hb₀, rfl⟩
      · exact live_kept hguard hstep hold hb ((hinv ctx hold).2 b hb)
      · exact live_kept hguard hstep hold hb₀ ((hinv ctx hold).2 b₀ hb₀)
  | stored ctx a hctx himsi haccepted hplace hnew =>
      have hold := List.mem_of_getElem? hctx
      obtain ⟨hown, hfirst⟩ := hguard a haccepted
      have hsub : ctx.imsi = a.resp.imsi := hown ctx (hplace ▸ hctx)
      rw [hnew, himsi, hfirst ctx hold hsub, hsub]
      refine ⟨Nat.le_refl 1, ?_⟩
      intro b hb
      rw [List.mem_singleton.mp hb]
      exact live_stored hstep haccepted

/-- In every run in which each session is the first of the UE that waits for it, every context has
at most one default bearer, that of its UE's last session. -/
theorem one_live_bearer {tr : List Event} {s : State} (hrun : Run step FirstSession init tr s) :
    OneLiveBearer tr s := by
  have hinv : Inv tr s := by
    refine hrun.invariant (I := Inv) ?_ ?_
    · intro ctx hctx
      cases hctx
    · intro tr s i s' es hinv hguard hstep
      exact step_inv hinv hguard hstep
  intro ctx hctx
  obtain ⟨hone, hlive⟩ := hinv ctx hctx
  constructor
  · exact Nat.le_trans (List.length_filter_le _ ctx.bearers) hone
  · intro b hb
    exact hlive b (List.mem_of_mem_filter hb)

def challenged (enbId : UInt32) (imsi : UInt64) : List Input :=
  [.s1ap (.initialUeMsg enbId imsi 404 10 1), .aia imsi {}, .aiaWakeup false]

def sessionCreated (mmeId enbId : UInt32) (imsi : UInt64) (teid : UInt32) (host : UInt8) :
    List Input :=
  [.s1ap (.ulNasTransport mmeId enbId 0x53 (List.replicate 8 0)),
    .s11
      { cause := 16, senderTeid := teid, bearerTeid := teid + 1, imsi := imsi,
        ueIp := [10, 0, 0, host] }]

theorem attached_ues_live :
    ∃ tr s, Run step FirstSession init tr s ∧
      s.heap.map (fun ctx => ctx.bearers.map Bearer.sgwS11Teid) = [[1000], [1002]] ∧
      OneLiveBearer tr s := by
  have hexec : (exec step init (challenged 1 404100000000001 ++
      sessionCreated 1 1 404100000000001 1000 1 ++ [.s1ap (.icSetupResponse 1 200), .s11Timeout] ++
      challenged 2 404100000000002 ++ sessionCreated 2 2 404100000000002 1002 2)).map
      (fun r => r.1.heap.map fun ctx => ctx.bearers.map Bearer.sgwS11Teid) =
        some [[1000], [1002]] := by decide +kernel
  obtain ⟨tr, s, hrun, hheap⟩ := exists_run_of_exec (P := FirstSession) _ (by decide +kernel) hexec
  exact ⟨tr, s, hrun, hheap, one_live_bearer hrun⟩

/-- The UE's Authentication Response comes twice and the S-GW answers both requests: the context
has two default bearers, and the first is chosen. -/
theorem repeated_response_doubles_bearer :
    ¬∀ tr s, Reach step init tr s → OneLiveBearer tr s := by
  intro h
  have hexec : (exec step init (challenged 1 404100000000001 ++
      sessionCreated 1 1 404100000000001 1000 1 ++ sessionCreated 1 1 404100000000001 1002 2)).map
      (fun r => r.1.heap.map fun ctx => ((defaultBearers ctx).length,
        ctx.defaultBearer.map Bearer.sgwS11Teid)) = some [(2, some 1000)] := by decide +kernel
  obtain ⟨tr, s, hrun, hheap⟩ := exists_reach_of_exec hexec
  obtain ⟨ctx, _, hctx, hpair, _⟩ := List.map_eq_cons_iff.mp hheap
  have hone := (h tr s hrun ctx
    (by rw [show s.heap = _ from hctx]; exact List.mem_cons_self)).1
  rw [(Prod.mk.inj hpair).1] at hone
  exact absurd hone (by decide)

end MobileCore.DefaultBearers
