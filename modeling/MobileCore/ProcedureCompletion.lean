import MobileCore.CoreProcedures

namespace MobileCore.ProcedureCompletion

open AddressAllocation (acceptText addresses reserved)
open AccessManagement (guti)
open CoreProcedures CppText FlatObjects LabelledRuns LastWrite SimplifiedAka
open SessionManagement (octet_eq ueIpText ueIpText_injective ueIpText_quoteless)
open SubscriptionIdentifiers UnifiedDataManagement WireJson

section Trace

def started (tr : List Event) : List Procedure :=
  tr.filterMap fun e =>
    match e with
    | .started p => some p
    | _ => none

def finished (tr : List Event) : List Procedure :=
  tr.filterMap fun e =>
    match e with
    | .finished p _ => some p
    | _ => none

/-- The addresses of the sessions that the gNB reports. -/
def given (tr : List Event) : List Str :=
  tr.filterMap fun e =>
    match e with
    | .finished (.session _ _) ueIp => some ueIp
    | _ => none

def coreTrace (tr : List Event) : List AddressAllocation.Event :=
  tr.filterMap fun e =>
    match e with
    | .core e => some e
    | _ => none

def pending : Waiting → List Procedure
  | .command => []
  | .challenge ueId => [.registration ueId]
  | .outcome ueId => [.registration ueId]
  | .session ueId pduSessId => [.session ueId pduSessId]

def inSession : Waiting → Bool
  | .session _ _ => true
  | _ => false

variable (tr es : List Event) (cs : List AddressAllocation.Event)

theorem started_append : started (tr ++ es) = started tr ++ started es := List.filterMap_append

theorem finished_append : finished (tr ++ es) = finished tr ++ finished es := List.filterMap_append

theorem given_append : given (tr ++ es) = given tr ++ given es := List.filterMap_append

theorem coreTrace_append : coreTrace (tr ++ es) = coreTrace tr ++ coreTrace es :=
  List.filterMap_append

theorem started_core : started (cs.map .core) = [] := by simp [started, List.filterMap_map]

theorem finished_core : finished (cs.map .core) = [] := by simp [finished, List.filterMap_map]

theorem given_core : given (cs.map .core) = [] := by simp [given, List.filterMap_map]

theorem coreTrace_core : coreTrace (cs.map .core) = cs := by
  simp [coreTrace, List.filterMap_map]

end Trace

/-- While the gNB waits for a session, the SMF has an address left. -/
def Supplied (s : State) : Prop :=
  inSession s.gnb = true → s.core.smf.ueIpCounter < 65535

/-- No faults are injected, the numbers of the commands are those of an `int`, the DNN fits into a
frame, and the addresses of the SMF suffice. -/
def Undisturbed (_ : List Event) (s : State) : Input → Prop
  | .reg ueId _ => InRange ueId
  | .pdu ueId pduSessId dnn => InRange ueId ∧ InRange pduSessId ∧ dnn.length ≤ 60000
  | .amf chaosDrop _ => chaosDrop = false ∧ Supplied s
  | .gnb => True

def rank : Waiting → Nat
  | .command => 0
  | .challenge _ => 8
  | .outcome _ => 4
  | .session _ _ => 1

/-- It shrinks with every frame that is handled. -/
def work (s : State) : Nat := rank s.gnb + 2 * s.toAmf.length + s.toGnb.length

/-- The frames under way while the gNB waits, and the address in them. -/
inductive Exchange (net : Network) (amf : AccessManagement.State) :
    Waiting → List Str → List Str → List Str → Prop where
  | idle : Exchange net amf .command [] [] []
  | registering (ueId : Int) (slice : Slice) (hrange : InRange ueId) :
      Exchange net amf (.challenge ueId) [registrationRequest net.toPlmn ueId slice] [] []
  | challenged (ueId : Int) (draws : Draws) (hrange : InRange ueId)
      (hlookup : amf.ctx.lookup ueId = some (context net.toPlmn ueId draws)) :
      Exchange net amf (.challenge ueId) [] [authenticationRequest ueId draws] []
  | answered (ueId : Int) (draws : Draws) (hrange : InRange ueId)
      (hlookup : amf.ctx.lookup ueId = some (context net.toPlmn ueId draws)) :
      Exchange net amf (.outcome ueId) [authenticationResponse ueId (response draws)] [] []
  | accepted (ueId : Int) (draws : Draws) (hrange : InRange ueId)
      (hlookup : amf.ctx.lookup ueId = some (context net.toPlmn ueId draws)) :
      Exchange net amf (.outcome ueId) []
        [registrationAccept net.toPlmn ueId (lit "\x7b")] []
  | requesting (ueId pduSessId : Int) (dnn : Str) (hrange : InRange ueId) (hpsi : InRange pduSessId)
      (hdnn : dnn.length ≤ 60000) :
      Exchange net amf (.session ueId pduSessId) [pduSessionRequest ueId pduSessId dnn] [] []
  | connected (ueId pduSessId : Int) (n : UInt32) (dnn : Str) (hrange : InRange ueId)
      (hpsi : InRange pduSessId) (hdnn : dnn.length ≤ 60000) :
      Exchange net amf (.session ueId pduSessId) []
        [acceptText ueId pduSessId (ueIpText n) dnn] [ueIpText n]

section Lengths

variable (net : Network) {ueId : Int}

theorem length_complete (hrange : InRange ueId) :
    (registrationComplete ueId).length ≤ maxFrame := by
  have hnum := length_intText_le hrange.1 hrange.2
  refine (length_obj_le _).trans ?_
  simp [length_str, lit, num, maxFrame]
  omega

theorem length_guti_le (hrange : InRange ueId) : (guti net.toPlmn ueId).length ≤ 1100 := by
  have hshort := net.short
  have hnum := length_intText_le hrange.1 hrange.2
  simp [guti, padLeft, lit]
  omega

theorem length_ueIpText_le (n : UInt32) : (ueIpText n).length ≤ 13 := by
  have hhigh : (natText ((n >>> 8) &&& 0xFF).toNat).length ≤ 3 := by
    rw [(octet_eq n).1]
    exact length_natText_le (by decide) (by omega)
  have hlow : (natText (n &&& 0xFF).toNat).length ≤ 3 := by
    rw [(octet_eq n).2]
    exact length_natText_le (by decide) (by omega)
  have hnet : (lit "10.45.").length = 6 ∧ (lit ".").length = 1 := by decide
  simp only [ueIpText, List.length_append, hnet.1, hnet.2]
  omega

theorem Exchange.fits {amf : AccessManagement.State} {w : Waiting} {toAmf toGnb held : List Str}
    (h : Exchange net amf w toAmf toGnb held) :
    ∀ text ∈ toAmf ++ toGnb, text.length ≤ maxFrame := by
  intro text htext
  cases h with
  | idle => cases htext
  | registering ueId slice hrange =>
      have hnum := length_intText_le hrange.1 hrange.2
      have hsuci := net.length_suci_le hrange.1 hrange.2
      have hnssai : (nssai slice).length = 23 := by cases slice <;> rfl
      rw [List.mem_singleton.mp htext]
      refine (length_obj_le _).trans ?_
      simp [length_str, lit, num, maxFrame, hnssai]
      omega
  | challenged ueId draws hrange hlookup =>
      have hnum := length_intText_le hrange.1 hrange.2
      rw [List.mem_singleton.mp htext]
      refine (length_obj_le _).trans ?_
      simp [length_str, lit, num, maxFrame, length_toHex]
      omega
  | answered ueId draws hrange hlookup =>
      have hnum := length_intText_le hrange.1 hrange.2
      have hresponse : (response draws).length = 32 := by
        rw [response, length_toHex, xorBytes, List.length_mapIdx, Vector.length_toList]
      rw [List.mem_singleton.mp htext]
      refine (length_obj_le _).trans ?_
      simp [length_str, lit, num, maxFrame, hresponse]
      omega
  | accepted ueId draws hrange hlookup =>
      have hnum := length_intText_le hrange.1 hrange.2
      have hguti := length_guti_le net hrange
      rw [List.mem_singleton.mp htext]
      refine (length_obj_le _).trans ?_
      simp [length_str, lit, num, maxFrame, AccessManagement.allowedNssai]
      omega
  | requesting ueId pduSessId dnn hrange hpsi hdnn =>
      have hnum := length_intText_le hrange.1 hrange.2
      have hpsi := length_intText_le hpsi.1 hpsi.2
      rw [List.mem_singleton.mp htext]
      refine (length_obj_le _).trans ?_
      simp [length_str, lit, num, maxFrame]
      omega
  | connected ueId pduSessId n dnn hrange hpsi hdnn =>
      have hnum := length_intText_le hrange.1 hrange.2
      have hpsi := length_intText_le hpsi.1 hpsi.2
      have hip := length_ueIpText_le n
      have hname : (if dnn.isEmpty then lit "internet" else dnn).length ≤ 60008 := by
        split
        · decide
        · omega
      rw [List.mem_singleton.mp htext]
      refine (length_obj_le _).trans ?_
      simp [length_str, lit, num, maxFrame] at hname ⊢
      omega

end Lengths

/-- What holds in every undisturbed run. Reports of finished registrations come first. -/
structure Inv (net : Network) (tr : List Event) (s : State) : Prop where
  up : s.up = true
  amf : s.core.amf.alive = true
  smf : s.core.smf.alive = true
  exchange : ∃ (done : List Int) (toAmf held : List Str), (∀ n ∈ done, InRange n) ∧
    s.toAmf = done.map registrationComplete ++ toAmf ∧
    Exchange net s.core.amf s.gnb toAmf s.toGnb held ∧
    given tr ++ held = addresses (coreTrace tr)
  contexts : ∀ ueId c, s.core.amf.ctx.lookup ueId = some c → ∃ draws, c = context net.toPlmn ueId draws
  order : finished tr ++ pending s.gnb = started tr
  clean : ∀ p, .failed p ∉ tr ∧ .disconnected ∉ tr
  registered : ∀ ueId result, .finished (.registration ueId) result ∈ tr →
    result = guti net.toPlmn ueId ∧
      ∃ draws, s.core.amf.ctx.lookup ueId = some (context net.toPlmn ueId draws)
  allocated : AddressAllocation.Inv (coreTrace tr) s.core

section Steps

variable {net : Network} {tr : List Event} {s : State}

theorem init_inv : Inv net [] init where
  up := rfl
  amf := rfl
  smf := rfl
  exchange := ⟨[], [], [], by simp, rfl, .idle, rfl⟩
  contexts := by
    intro ueId c hc
    cases hc
  order := rfl
  clean := by simp
  registered := by simp
  allocated := AddressAllocation.init_inv

theorem Exchange.of_command {amf : AccessManagement.State} {toAmf toGnb held : List Str}
    (h : Exchange net amf .command toAmf toGnb held) : toAmf = [] ∧ toGnb = [] ∧ held = [] := by
  cases h
  exact ⟨rfl, rfl, rfl⟩

theorem command_inv (hinv : Inv net tr s) (hidle : s.gnb = .command) {w : Waiting} {text : Str}
    {p : Procedure} (hp : pending w = [p])
    (hexchange : Exchange net s.core.amf w [text] [] []) :
    Inv net (tr ++ [.started p]) { s with gnb := w, toAmf := s.toAmf ++ [text] } := by
  obtain ⟨done, toAmf, held, hdone, htext, hold, hheld⟩ := hinv.exchange
  rw [hidle] at hold
  obtain ⟨rfl, hgnb, rfl⟩ := hold.of_command
  have hfinished := hinv.order
  rw [hidle] at hfinished
  constructor
  · exact hinv.up
  · exact hinv.amf
  · exact hinv.smf
  · refine ⟨done, [text], [], hdone, ?_, ?_, ?_⟩
    · show s.toAmf ++ [text] = _
      rw [htext, List.append_nil]
    · dsimp only
      rw [hgnb]
      exact hexchange
    · rw [given_append, coreTrace_append]
      exact (congrArg (fun l => l ++ []) (List.append_nil _)).trans
        (hheld.trans (congrArg addresses (List.append_nil _).symm))
  · exact hinv.contexts
  · rw [started_append, finished_append, ← hfinished]
    dsimp only
    rw [hp]
    simp [finished, started, pending]
  · intro q
    simpa using hinv.clean q
  · intro ueId result hmem
    exact hinv.registered ueId result (by simpa using hmem)
  · rw [coreTrace_append]
    exact (List.append_nil (coreTrace tr)).symm ▸ hinv.allocated

section Amf

variable {draws : Draws} {text : Str} {rest : List Str} {core : AddressAllocation.State}
  {cs : List AddressAllocation.Event}

theorem step_amf (hinv : Inv net tr s) (htoAmf : s.toAmf = text :: rest)
    (hfits : text.length ≤ maxFrame)
    (hcore : AddressAllocation.step net.toPlmn s.core
      (.n2 (frame net.toPlmn s.core.amf text false draws) .answered) = some (core, cs)) :
    step net.toPlmn s (.amf false draws) =
      some ({ s with
        core
        up := core.amf.alive
        toAmf := rest
        toGnb := s.toGnb ++ cs.filterMap reply }, cs.map .core) := by
  rw [step, htoAmf]
  dsimp only
  rw [if_neg (not_not_intro hinv.up), if_neg (Nat.not_lt.mpr hfits), if_pos hinv.smf, hcore]

theorem core_inv (hinv : Inv net tr s) (done : List Int) (toAmf held : List Str)
    {toGnb : List Str} (hallocated : AddressAllocation.Inv (coreTrace tr ++ cs) core)
    (hamf : core.amf.alive = true) (hsmf : core.smf.alive = true)
    (hcontexts : ∀ ueId c, core.amf.ctx.lookup ueId = some c →
      ∃ draws, c = context net.toPlmn ueId draws)
    (hkept : ∀ ueId draws, s.core.amf.ctx.lookup ueId = some (context net.toPlmn ueId draws) →
      ∃ draws, core.amf.ctx.lookup ueId = some (context net.toPlmn ueId draws))
    (hdone : ∀ n ∈ done, InRange n)
    (hrest : rest = done.map registrationComplete ++ toAmf)
    (hexchange : Exchange net core.amf s.gnb toAmf toGnb held)
    (hheld : given tr ++ held = addresses (coreTrace tr ++ cs)) :
    Inv net (tr ++ cs.map .core)
      { s with core, up := core.amf.alive, toAmf := rest, toGnb } where
  up := hamf
  amf := hamf
  smf := hsmf
  exchange := by
    refine ⟨done, toAmf, held, hdone, hrest, hexchange, ?_⟩
    rw [given_append, given_core, List.append_nil, coreTrace_append, coreTrace_core, hheld]
  contexts := hcontexts
  order := by
    rw [finished_append, finished_core, started_append, started_core, List.append_nil,
      List.append_nil]
    exact hinv.order
  clean := by
    intro p
    simpa using hinv.clean p
  registered := by
    intro ueId result hmem
    obtain ⟨hresult, draws, hlookup⟩ := hinv.registered ueId result (by simpa using hmem)
    exact ⟨hresult, hkept ueId draws hlookup⟩
  allocated := by
    rw [coreTrace_append, coreTrace_core]
    exact hallocated

theorem contexts_insert (hinv : Inv net tr s) (ueId : Int) (draws : Draws) :
    ∀ n c, (s.core.amf.ctx.insert ueId (context net.toPlmn ueId draws)).lookup n = some c →
      ∃ draws, c = context net.toPlmn n draws := by
  intro n c hc
  by_cases hn : n = ueId
  · rw [hn, AList.lookup_insert] at hc
    rw [hn, ← Option.some.inj hc]
    exact ⟨draws, rfl⟩
  · rw [AList.lookup_insert_ne hn] at hc
    exact hinv.contexts n c hc

theorem kept_insert (ctx : Table Int AccessManagement.UeContext) (ueId : Int) (draws : Draws) :
    ∀ n draws', ctx.lookup n = some (context net.toPlmn n draws') →
      ∃ draws', (ctx.insert ueId (context net.toPlmn ueId draws)).lookup n =
        some (context net.toPlmn n draws') := by
  intro n draws' hn
  by_cases hne : n = ueId
  · rw [hne, AList.lookup_insert]
    exact ⟨draws, rfl⟩
  · rw [AList.lookup_insert_ne hne]
    exact ⟨draws', hn⟩

theorem subscriber_quoteless (hinv : Inv net tr s) (ueId : Int) :
    Quoteless (subscriber s.core.amf ueId) := by
  rw [subscriber]
  split
  · rename_i c hc
    obtain ⟨draws, rfl⟩ := hinv.contexts ueId c hc
    exact (supiFromSuci_segment net (net.suci_segment ueId)).quoteless
  · exact (segment_append.mpr ⟨by decide, segment_intText ueId⟩).quoteless

theorem allocated_quiet (hinv : Inv net tr s) (hsmf : core.smf = s.core.smf)
    (hcs : addresses cs = []) : AddressAllocation.Inv (coreTrace tr ++ cs) core where
  low := hsmf ▸ hinv.allocated.low
  high := hsmf ▸ hinv.allocated.high
  given := by
    rw [AddressAllocation.addresses_append, hcs, List.append_nil, hsmf]
    exact hinv.allocated.given
  nodup := by
    rw [AddressAllocation.addresses_append, hcs, List.append_nil]
    exact hinv.allocated.nodup

theorem amf_inv (draws : Draws) (hinv : Inv net tr s) (hsupplied : Supplied s) (hsome : s.toAmf ≠ []) :
    ∃ s' es, step net.toPlmn s (.amf false draws) = some (s', es) ∧ Inv net (tr ++ es) s' ∧
      work s' < work s ∧ started es = [] ∧ (s'.toGnb ≠ [] ∨ Supplied s') := by
  obtain ⟨done, toAmf, held, hdone, htext, hold, hheld⟩ := hinv.exchange
  have hfits := hold.fits
  cases done with
  | cons n done =>
      have hrange := hdone n List.mem_cons_self
      have hcore := @core_complete net s.core n .answered draws hinv.amf hrange
      have htoAmf : s.toAmf = registrationComplete n ::
          (done.map registrationComplete ++ toAmf) := htext
      refine ⟨_, _, step_amf hinv htoAmf (length_complete hrange) hcore, ?_, ?_, rfl, .inr hsupplied⟩
      · refine core_inv hinv done toAmf held (allocated_quiet hinv rfl rfl) hinv.amf hinv.smf
          hinv.contexts (fun ueId draws h => ⟨draws, h⟩) (fun m hm => hdone m (by simp [hm])) rfl ?_ ?_
        · rw [List.filterMap_nil, List.append_nil]
          exact hold
        · rw [List.append_nil]
          exact hheld
      · rw [work, work, htoAmf]
        simp
  | nil =>
      rw [List.map_nil, List.nil_append] at htext
      generalize hw : s.gnb = w at hold
      generalize hg : s.toGnb = toGnb at hold hfits
      cases hold with
      | registering ueId slice hrange =>
          have hcore := @core_registration net s.core ueId .answered draws slice hinv.amf hrange
          refine ⟨_, _, step_amf hinv htext (hfits _ (by simp)) hcore, ?_, ?_, started_core _, .inl ?_⟩
          · refine core_inv hinv [] [] [] (allocated_quiet hinv rfl rfl) hinv.amf hinv.smf
              (contexts_insert hinv ueId draws) (kept_insert _ ueId draws) hdone rfl ?_ ?_
            · rw [hg, hw]
              exact .challenged ueId draws hrange (AList.lookup_insert _)
            · rw [hheld, AddressAllocation.addresses_append]
              exact (List.append_nil _).symm
          · simp only [work, htext, hg, List.nil_append]
            exact Nat.lt_succ_self _
          · exact List.append_ne_nil_of_right_ne_nil _ (List.cons_ne_nil _ _)
      | answered ueId draws' hrange hlookup =>
          have hcore := @core_response net s.core ueId .answered draws' draws hinv.amf hrange hlookup
          refine ⟨_, _, step_amf hinv htext (hfits _ (by simp)) hcore, ?_, ?_, started_core _, .inl ?_⟩
          · refine core_inv hinv [] [] [] (allocated_quiet hinv rfl rfl) hinv.amf hinv.smf
              hinv.contexts (fun n draws h => ⟨draws, h⟩) hdone rfl ?_ ?_
            · rw [hg, hw]
              exact .accepted ueId draws' hrange hlookup
            · rw [hheld, AddressAllocation.addresses_append]
              exact (List.append_nil _).symm
          · simp only [work, htext, hg, List.nil_append]
            exact Nat.lt_succ_self _
          · exact List.append_ne_nil_of_right_ne_nil _ (List.cons_ne_nil _ _)
      | requesting ueId pduSessId dnn hrange hpsi hdnn =>
          obtain ⟨smf, cs, hcore, hsmf, hcounter, hreply, haddress⟩ := @core_session net s.core
            (frame net.toPlmn s.core.amf (pduSessionRequest ueId pduSessId dnn) false draws) ueId
            pduSessId dnn hinv.amf hinv.smf (subscriber_quoteless hinv ueId) hrange hpsi rfl
          have hserved : AddressAllocation.Served net.toPlmn (coreTrace tr) s.core (.n2
              (frame net.toPlmn s.core.amf (pduSessionRequest ueId pduSessId dnn) false draws)
              .answered) :=
            fun _ => ⟨rfl, hsupplied (hw ▸ rfl)⟩
          refine ⟨_, _, step_amf hinv htext (hfits _ (by simp)) hcore, ?_, ?_, started_core _, .inl ?_⟩
          · refine core_inv hinv [] [] [ueIpText s.core.smf.ueIpCounter]
              (AddressAllocation.step_inv hinv.allocated hserved hcore) hinv.amf hsmf
              hinv.contexts (fun n draws h => ⟨draws, h⟩) hdone rfl ?_ ?_
            · rw [hg, hw, hreply]
              refine .connected ueId pduSessId _ _ hrange hpsi ?_
              exact (List.takeWhile_sublist _).length_le.trans hdnn
            · rw [AddressAllocation.addresses_append, haddress, ← hheld, List.append_nil]
          · simp [work, htext, hg, hreply]
          · simp [hreply]
      | _ => exact absurd htext hsome

end Amf

section Gnb

theorem guti_quoteless (net : Network) (ueId : Int) : Quoteless (guti net.toPlmn ueId) := by
  have hpad : Segment (padLeft 5 48 (intText ueId)) := by
    rw [padLeft, segment_append]
    refine ⟨?_, segment_intText ueId⟩
    intro c hc
    rw [List.eq_of_mem_replicate hc]
    decide
  have hsegment : Segment (guti net.toPlmn ueId) := by
    rw [guti, segment_append, segment_append, segment_append, segment_append, segment_append]
    exact ⟨⟨⟨⟨⟨by decide, net.mcc_segment⟩, by decide⟩, net.mnc_segment⟩, by decide⟩, hpad⟩
  exact hsegment.quoteless

theorem finish_inv (hinv : Inv net tr s) {p : Procedure} {result : Str}
    (hp : pending s.gnb = [p]) {done : List Int} {toAmf : List Str} (hdone : ∀ n ∈ done, InRange n)
    (htoAmf : toAmf = done.map registrationComplete)
    (hgiven : given (tr ++ [.finished p result]) = addresses (coreTrace tr))
    (hregistered : ∀ ueId, p = .registration ueId → result = guti net.toPlmn ueId ∧
      ∃ draws, s.core.amf.ctx.lookup ueId = some (context net.toPlmn ueId draws)) :
    Inv net (tr ++ [.finished p result]) { s with gnb := .command, toAmf, toGnb := [] } where
  up := hinv.up
  amf := hinv.amf
  smf := hinv.smf
  exchange := by
    refine ⟨done, [], [], hdone, htoAmf.trans (List.append_nil _).symm, .idle, ?_⟩
    rw [List.append_nil, hgiven, coreTrace_append]
    exact congrArg addresses (List.append_nil _).symm
  contexts := hinv.contexts
  order := by
    have horder := hinv.order
    rw [hp] at horder
    rw [finished_append, started_append, ← horder]
    simp [finished, started, pending]
  clean := by
    intro q
    simpa using hinv.clean q
  registered := by
    intro ueId r hmem
    rcases List.mem_append.mp hmem with hmem | hmem
    · exact hinv.registered ueId r hmem
    · obtain ⟨rfl, rfl⟩ : Procedure.registration ueId = p ∧ r = result := by
        simpa using hmem
      exact hregistered ueId rfl
  allocated := by
    rw [coreTrace_append]
    exact (List.append_nil (coreTrace tr)).symm ▸ hinv.allocated

theorem gnb_inv (hinv : Inv net tr s) (hsome : s.toGnb ≠ []) :
    ∃ s' es, step net.toPlmn s .gnb = some (s', es) ∧ Inv net (tr ++ es) s' ∧
      work s' < work s ∧ started es = [] ∧ Supplied s' := by
  obtain ⟨done, toAmf, held, hdone, htext, hold, hheld⟩ := hinv.exchange
  have hfits := hold.fits
  have horder := hinv.order
  generalize hw : s.gnb = w at hold horder
  generalize hg : s.toGnb = toGnb at hold hfits
  cases hold with
  | challenged ueId draws hrange hlookup =>
      have htype : get (authenticationRequest ueId draws) (lit "msgType") =
          lit "AuthenticationRequest" := get_msgType (by decide) _
      have hrand : get (authenticationRequest ueId draws) (lit "rand") = toHex draws.rnd.toList := by
        rw [authenticationRequest, get_behind (by decide) _ _ (by decide) (by decide) (by decide),
          look_found _ (by decide) (segment_toHex _).quoteless]
      have hres : resStar (msin ueId) (toHex draws.rnd.toList) = some (response draws) :=
        byteXor_kFor _ _
      have hstep : step net.toPlmn s .gnb = some ({ s with
          gnb := .outcome ueId
          toAmf := s.toAmf ++ [authenticationResponse ueId (response draws)]
          toGnb := [] }, []) := by
        rw [step, hg]
        dsimp only
        rw [if_neg (Nat.not_lt.mpr (hfits _ (by simp))), received]
        dsimp only
        rw [hw]
        dsimp only
        rw [htype, hrand, hres, if_neg (not_not_intro rfl)]
      refine ⟨_, _, hstep, ?_, ?_, rfl, fun h => absurd h Bool.false_ne_true⟩
      · rw [List.append_nil]
        refine { hinv with exchange := ?_, order := horder }
        refine ⟨done, _, [], hdone, ?_, .answered ueId draws hrange hlookup, hheld⟩
        rw [htext, List.append_nil]
      · simp [work, htext, hg, hw, rank]
        omega
  | accepted ueId draws hrange hlookup =>
      have htype : get (registrationAccept net.toPlmn ueId (lit "\x7b")) (lit "msgType") =
          lit "RegistrationAccept" := get_msgType (by decide) _
      have hguti : get (registrationAccept net.toPlmn ueId (lit "\x7b")) (lit "5gGuti") =
          guti net.toPlmn ueId := by
        rw [registrationAccept, get_behind (by decide) _ _ (by decide) (by decide) (by decide),
          look_found _ (by decide) (guti_quoteless net ueId)]
      have hstep : step net.toPlmn s .gnb = some ({ s with
          gnb := .command
          toAmf := s.toAmf ++ [registrationComplete ueId]
          toGnb := [] }, [.finished (.registration ueId) (guti net.toPlmn ueId)]) := by
        rw [step, hg]
        dsimp only
        rw [if_neg (Nat.not_lt.mpr (hfits _ (by simp))), received]
        dsimp only
        rw [hw]
        dsimp only
        rw [htype, hguti, if_neg (not_not_intro rfl)]
      have hdone' : ∀ n ∈ done ++ [ueId], InRange n := by
        intro n hn
        rcases List.mem_append.mp hn with hn | hn
        · exact hdone n hn
        · rw [List.mem_singleton.mp hn]
          exact hrange
      have hreported : given [.finished (.registration ueId) (guti net.toPlmn ueId)] = [] := rfl
      refine ⟨_, _, hstep, finish_inv hinv ?_ hdone' ?_ ?_ ?_, ?_, rfl,
        fun h => absurd h Bool.false_ne_true⟩
      · rw [hw]
        rfl
      · rw [List.map_append, htext, List.append_nil]
        rfl
      · rw [given_append, hreported]
        exact hheld
      · rintro n hn
        cases hn
        exact ⟨rfl, draws, hlookup⟩
      · simp [work, htext, hg, hw, rank]
        omega
  | connected ueId pduSessId n dnn hrange hpsi hdnn =>
      have htype : get (acceptText ueId pduSessId (ueIpText n) dnn) (lit "msgType") =
          lit "PduSessionAccept" := get_msgType (by decide) _
      have haddress := AddressAllocation.get_acceptText ueId pduSessId (ueIpText n) dnn
        (ueIpText_quoteless n)
      have hstep : step net.toPlmn s .gnb = some ({ s with
          gnb := .command
          toGnb := [] }, [.finished (.session ueId pduSessId) (ueIpText n)]) := by
        rw [step, hg]
        dsimp only
        rw [if_neg (Nat.not_lt.mpr (hfits _ (by simp))), received]
        dsimp only
        rw [hw]
        dsimp only
        rw [htype, haddress, if_neg (not_not_intro rfl)]
      refine ⟨_, _, hstep, finish_inv hinv ?_ hdone (htext.trans (List.append_nil _)) ?_ ?_,
        ?_, rfl, fun h => absurd h Bool.false_ne_true⟩
      · rw [hw]
        rfl
      · rw [given_append]
        exact hheld
      · intro n hn
        cases hn
      · simp only [work, htext, hg, hw, rank, List.length_append, List.length_cons, List.length_nil]
        omega
  | _ => exact absurd hg hsome

end Gnb

theorem step_inv {s' : State} {i : Input} {es : List Event} (hinv : Inv net tr s)
    (hguard : Undisturbed tr s i) (hstep : step net.toPlmn s i = some (s', es)) :
    Inv net (tr ++ es) s' := by
  cases i with
  | reg ueId slice =>
      simp only [step] at hstep
      split at hstep
      · rename_i hidle
        obtain ⟨rfl, rfl⟩ := Prod.ext_iff.mp (Option.some.inj hstep)
        exact command_inv hinv hidle.2 rfl (.registering ueId slice hguard)
      · cases hstep
  | pdu ueId pduSessId dnn =>
      simp only [step] at hstep
      split at hstep
      · rename_i hidle
        obtain ⟨rfl, rfl⟩ := Prod.ext_iff.mp (Option.some.inj hstep)
        exact command_inv hinv hidle.2 rfl
          (.requesting ueId pduSessId dnn hguard.1 hguard.2.1 hguard.2.2)
      · cases hstep
  | amf chaosDrop draws =>
      obtain ⟨rfl, hsupplied⟩ := hguard
      have hsome : s.toAmf ≠ [] := by
        intro hnone
        rw [step, hnone] at hstep
        cases hstep
      obtain ⟨s₁, es₁, hstep₁, hinv₁, -⟩ := amf_inv draws hinv hsupplied hsome
      cases hstep.symm.trans hstep₁
      exact hinv₁
  | gnb =>
      have hsome : s.toGnb ≠ [] := by
        intro hnone
        rw [step, hnone] at hstep
        cases hstep
      obtain ⟨s₁, es₁, hstep₁, hinv₁, -⟩ := gnb_inv hinv hsome
      cases hstep.symm.trans hstep₁
      exact hinv₁

theorem run_inv (hrun : Run (step net.toPlmn) Undisturbed init tr s) : Inv net tr s := by
  refine Run.invariant (M := step net.toPlmn) (P := Undisturbed) init_inv ?_ hrun
  intro tr s i s' es hinv hguard hstep
  exact step_inv hinv hguard hstep

end Steps

section Runs

variable {net : Network} {tr : List Event} {s : State}

theorem not_reserved {cs : List AddressAllocation.Event} {core : AddressAllocation.State}
    (h : AddressAllocation.Inv cs core) {a : Str} (ha : a ∈ addresses cs) : a ∉ reserved := by
  obtain ⟨n, hlow, hn, rfl⟩ := h.given a ha
  have hhigh : n < 65535 := UInt32.lt_of_lt_of_le hn h.high
  have hsmall : n < 65536 := UInt32.lt_trans hhigh (by decide)
  rw [AddressAllocation.reserved_eq]
  intro hreserved
  have hends : n = 0 ∨ n = 1 ∨ n = 65535 := by
    simp only [List.mem_cons, List.not_mem_nil, or_false] at hreserved
    exact hreserved.imp (ueIpText_injective hsmall (by decide))
      (Or.imp (ueIpText_injective hsmall (by decide)) (ueIpText_injective hsmall (by decide)))
  rcases hends with rfl | rfl | rfl
  · exact absurd hlow (by decide)
  · exact absurd hlow (by decide)
  · exact absurd hhigh (by decide)

/-- In every undisturbed run each procedure that was started is finished, in order, except the one
under way; a registration ends with the UE's GUTI and leaves the subscriber of its SUCI with the
AMF, and no two sessions have one address. -/
theorem procedures_in_order (net : Network) {tr : List Event} {s : State}
    (hrun : Run (step net.toPlmn) Undisturbed init tr s) :
    finished tr ++ pending s.gnb = started tr ∧
      (∀ p, .failed p ∉ tr) ∧ .disconnected ∉ tr ∧
      (∀ ueId result, .finished (.registration ueId) result ∈ tr → result = guti net.toPlmn ueId ∧
        ∃ c, s.core.amf.ctx.lookup ueId = some c ∧ c.suci = suci net.toPlmn ueId ∧
          c.supi = supiFromSuci net.toPlmn (suci net.toPlmn ueId)) ∧
      (given tr).Nodup ∧ ∀ a ∈ given tr, a ∉ reserved := by
  have hinv := run_inv hrun
  obtain ⟨done, toAmf, held, -, -, -, hheld⟩ := hinv.exchange
  have hsublist : (given tr).Sublist (addresses (coreTrace tr)) :=
    hheld ▸ List.sublist_append_left (given tr) held
  refine ⟨hinv.order, fun p => (hinv.clean p).1, (hinv.clean (.registration 0)).2, ?_, ?_, ?_⟩
  · intro ueId result hmem
    obtain ⟨hresult, draws, hlookup⟩ := hinv.registered ueId result hmem
    exact ⟨hresult, context net.toPlmn ueId draws, hlookup, rfl, rfl⟩
  · exact hsublist.nodup hinv.allocated.nodup
  · intro a ha
    exact not_reserved hinv.allocated (hsublist.subset ha)

theorem handle_next (hinv : Inv net tr s) (hready : s.toGnb ≠ [] ∨ Supplied s) (draws : Draws)
    (hsome : s.toGnb ≠ [] ∨ s.toAmf ≠ []) :
    ∃ i s' es, (i = .gnb ∨ i = .amf false draws) ∧ step net.toPlmn s i = some (s', es) ∧
      Inv net (tr ++ es) s' ∧ work s' < work s ∧ started es = [] ∧
      (s'.toGnb ≠ [] ∨ Supplied s') := by
  by_cases hgnb : s.toGnb = []
  · have hsupplied := hready.resolve_left (not_not_intro hgnb)
    have htoAmf := hsome.resolve_left (not_not_intro hgnb)
    obtain ⟨s', es, hstep, hinv', hwork, hstarted, hready'⟩ := amf_inv draws hinv hsupplied htoAmf
    exact ⟨_, s', es, .inr rfl, hstep, hinv', hwork, hstarted, hready'⟩
  · obtain ⟨s', es, hstep, hinv', hwork, hstarted, hsupplied⟩ := gnb_inv hinv hgnb
    exact ⟨_, s', es, .inl rfl, hstep, hinv', hwork, hstarted, .inr hsupplied⟩

theorem handled_out (hinv : Inv net tr s) (hready : s.toGnb ≠ [] ∨ Supplied s) (draws : Draws) :
    ∃ is s' tr', (∀ i ∈ is, i = .gnb ∨ i = .amf false draws) ∧
      exec (step net.toPlmn) s is = some (s', tr') ∧ Inv net (tr ++ tr') s' ∧
      started tr' = [] ∧ s'.toGnb = [] ∧ s'.toAmf = [] := by
  induction hn : work s using Nat.strongRecOn generalizing s tr with
  | ind n ih =>
      subst hn
      by_cases hsome : s.toGnb ≠ [] ∨ s.toAmf ≠ []
      · obtain ⟨i, s₁, es, hi, hstep, hinv₁, hwork, hstarted, hready₁⟩ :=
          handle_next hinv hready draws hsome
        obtain ⟨is, s', tr', his, hexec, hinv', hstarted', hempty⟩ :=
          ih (work s₁) hwork hinv₁ hready₁ rfl
        refine ⟨i :: is, s', es ++ tr', ?_, ?_, ?_, ?_, hempty⟩
        · intro j hj
          rcases List.mem_cons.mp hj with rfl | hj
          · exact hi
          · exact his j hj
        · simp only [exec, hstep, hexec]
        · rw [← List.append_assoc]
          exact hinv'
        · rw [started_append, hstarted, hstarted', List.append_nil]
      · rw [not_or, not_not, not_not] at hsome
        exact ⟨[], s, [], by simp, rfl, (List.append_nil tr).symm ▸ hinv, rfl, hsome⟩

/-- No procedure gets stuck: wherever an undisturbed run stands, the frames under way can be handled
until none is left, whatever bytes the UDM draws, and then the procedure under way is finished. -/
theorem procedures_finish (net : Network) {tr : List Event} {s : State}
    (hrun : Run (step net.toPlmn) Undisturbed init tr s) (hsupplied : Supplied s) (draws : Draws) :
    ∃ is s' tr', (∀ i ∈ is, i = .gnb ∨ i = .amf false draws) ∧
      exec (step net.toPlmn) s is = some (s', tr') ∧ finished tr' = pending s.gnb ∧
      s'.gnb = .command ∧ s'.toAmf = [] ∧ s'.toGnb = [] := by
  have hinv := run_inv hrun
  obtain ⟨is, s', tr', his, hexec, hinv', hstarted, hgnb, hamf⟩ :=
    handled_out hinv (.inr hsupplied) draws
  obtain ⟨done, toAmf, held, -, htext, hold, -⟩ := hinv'.exchange
  rw [hamf] at htext
  obtain ⟨-, rfl⟩ := List.append_eq_nil_iff.mp htext.symm
  have hidle : s'.gnb = .command := by
    rw [hgnb] at hold
    generalize s'.gnb = w at hold
    cases hold
    rfl
  have horder := hinv'.order
  rw [hidle, finished_append, started_append, hstarted, ← hinv.order] at horder
  refine ⟨is, s', tr', his, hexec, ?_, hidle, hamf, hgnb⟩
  simp only [pending, List.append_nil] at horder
  exact List.append_cancel_left horder

end Runs

section Witnesses

def testNetwork : Network where
  mcc_segment := by decide
  mnc_segment := by decide
  short := by decide

def zeros : Draws := ⟨Vector.replicate 16 0, Vector.replicate 16 0, Vector.replicate 32 0⟩

def schedule : List Input :=
  [.reg (-7) .urllc, .amf false zeros, .gnb, .amf false zeros, .gnb]

instance (s : State) : Decidable (Supplied s) :=
  inferInstanceAs (Decidable (inSession s.gnb = true → s.core.smf.ueIpCounter < 65535))

instance Undisturbed.decidable (tr : List Event) (s : State) :
    (i : Input) → Decidable (Undisturbed tr s i)
  | .reg ueId _ => inferInstanceAs (Decidable (InRange ueId))
  | .pdu ueId pduSessId dnn =>
    inferInstanceAs (Decidable (InRange ueId ∧ InRange pduSessId ∧ dnn.length ≤ 60000))
  | .amf chaosDrop _ => inferInstanceAs (Decidable (chaosDrop = false ∧ Supplied s))
  | .gnb => inferInstanceAs (Decidable True)

theorem schedule_in_order :
    ∃ tr s, Run (step testNetwork.toPlmn) Undisturbed init tr s ∧
      finished tr = [.registration (-7)] ∧ finished tr ++ pending s.gnb = started tr := by
  have hexec : (exec (step testNetwork.toPlmn) init schedule).map
      (fun p => finished p.2) = some [.registration (-7)] := by
    decide +kernel
  obtain ⟨tr, s, hrun, hfinished⟩ :=
    exists_run_of_exec (P := Undisturbed) _ (by decide +kernel) hexec
  exact ⟨tr, s, hrun, hfinished, (procedures_in_order testNetwork hrun).1⟩

theorem registration_finishes :
    ∃ is s' tr', (∀ i ∈ is, i = .gnb ∨ i = .amf false zeros) ∧
      exec (step testNetwork.toPlmn)
        { gnb := .challenge 1, toAmf := [registrationRequest testNetwork.toPlmn 1 .embb] } is =
          some (s', tr') ∧
      finished tr' = [.registration 1] ∧ s'.gnb = .command ∧ s'.toAmf = [] ∧ s'.toGnb = [] := by
  have hstep : step testNetwork.toPlmn init (.reg 1 .embb) = some
      ({ gnb := .challenge 1, toAmf := [registrationRequest testNetwork.toPlmn 1 .embb] },
        [.started (.registration 1)]) := rfl
  have hguard : Undisturbed [] init (.reg 1 .embb) := by decide
  exact procedures_finish testNetwork (Run.single hguard hstep) (by decide) zeros

end Witnesses

end MobileCore.ProcedureCompletion
