import MobileCore.ReInviteDelivery
import MobileCore.SipUplink

/-!
# Where re-INVITEs and their answers go

Each request and each answer arrives where it should as long as the requests name the other party,
the record of the P-CSCF names both parties whenever it looks them up for an answer, and no thread
of the P-CSCF writes to the S-CSCF inside the frame of another.
-/

namespace MobileCore.ReInviteRouting

open MobileCore.CallSessionControl hiding Event step
open MobileCore.CppText
open MobileCore.LabelledRuns
open MobileCore.LastWrite
open MobileCore.LayeredMachines (Layered)
open MobileCore.ReInviteDelivery
open MobileCore.SessionChanges
open MobileCore.SipPhones
open DialogAgreement (Recorded Keeps keeps_refl cleanUp_keeps rxSection_keeps handleFromUe_records
  handleFromUe_keeps)
open OutstandingInvites (Acked forwardedBy upstream)
open ReleaseDelivery (Established registered_of_inCall)

section Settling

variable {label : Nat → UeLabel} {p : Parties} {callId : Str} {s s' : State} {n : Nat}
  {msg out : SipMessage} {rest : List SipMessage}

theorem read_settled (h : Settled label p callId s)
    (horderly : msg.callId = callId → Orderly label p callId msg) : Settled label p callId
      (handleFromUe (setThread (s.modify n fun c => { c with uplink := rest }) n (.forwarding msg))
        n msg).1 := by
  have henters := handleFromUe_enters
    (setThread (s.modify n fun c => { c with uplink := rest }) n (.forwarding msg)) n msg
  have hthread (m : Nat) : (((handleFromUe (setThread (s.modify n fun c => { c with uplink := rest })
      n (.forwarding msg)) n msg).1.conns m).session.thread) =
      if m = n then .forwarding msg else (s.conns m).session.thread := by
    rw [henters.thread, setThread_thread, modify_thread s n (fun c => { c with uplink := rest }) rfl]
  constructor
  · intro out hout hid
    cases hout with
    | forwarding m hout =>
        rw [hthread m] at hout
        split at hout
        · obtain rfl := UeThread.forwarding.inj hout
          exact horderly hid
        · exact h.passing out (.forwarding m hout) hid
    | toScscf hout => exact h.passing out (.toScscf (henters.toScscf ▸ hout)) hid
    | toPcscf hout => exact h.passing out (.toPcscf (henters.toPcscf ▸ hout)) hid
  · intro m hm
    rw [hthread m] at hm
    split at hm
    · cases hm
    · exact h.cleaning m hm
  · intro target out hout
    rw [henters.scscfThread] at hout
    exact h.notifying target out hout

theorem forward_settled (h : Settled label p callId s)
    (hthread : (s.conns n).session.thread = .forwarding msg) : Settled label p callId
      (setThread { s with toScscf := s.toScscf ++ [msg] } n
        (if msg.type = .bye then .cleaningUp msg.callId else .receiving)) := by
  constructor
  · intro out hout
    cases hout with
    | forwarding m hout =>
        rw [setThread_thread] at hout
        split at hout
        · split at hout <;> cases hout
        · exact h.passing out (.forwarding m hout)
    | toScscf hout =>
        rcases List.mem_append.mp hout with hold | hnew
        · exact h.passing out (.toScscf hold)
        · rw [List.mem_singleton.mp hnew]
          exact h.passing msg (.forwarding n hthread)
    | toPcscf hout => exact h.passing out (.toPcscf hout)
  · intro m hm
    rw [setThread_thread] at hm
    split at hm
    · split at hm
      · rename_i hbye
        exact (h.passing msg (.forwarding n hthread) (UeThread.cleaningUp.inj hm)).1 hbye
      · cases hm
    · exact h.cleaning m hm
  · exact h.notifying

theorem cleanUp_settled (h : Settled label p callId s) (n : Nat) (id : Str) : Settled label p callId
    (setThread { s with pcscf := cleanUp s.pcscf id } n .receiving) := by
  have hthread (m : Nat) {thread : UeThread} (hthread : thread ≠ .receiving)
      (hm : ((setThread { s with pcscf := cleanUp s.pcscf id } n .receiving).conns m).session.thread =
        thread) : (s.conns m).session.thread = thread := by
    rw [setThread_thread] at hm
    split at hm
    · exact absurd hm.symm hthread
    · exact hm
  refine h.of_passing (fun out hout => ?_) (fun m => hthread m (by simp)) fun _ _ hout => hout
  cases hout with
  | forwarding m hout => exact .forwarding m (hthread m (by simp) hout)
  | toScscf hout => exact .toScscf hout
  | toPcscf hout => exact .toPcscf hout

theorem receive_settled (h : Settled label p callId s)
    (hthread : s.pcscf.scscfThread = .receiving) (htoPcscf : s.toPcscf = msg :: rest)
    (hcaller : Grants callId msg → p.Has (label msg.origin) →
      s.pcscf.callToCaller.lookup callId = some (impuOf p.first) ∨
        s.pcscf.callToCaller.lookup callId = some (impuOf p.second)) :
    Settled label p callId (handleFromScscf { s with toPcscf := rest } msg).1 := by
  obtain ⟨node, -, hdelivers⟩ := handleFromScscf_delivers { s with toPcscf := rest } msg
  have hpassing (out : SipMessage)
      (hout : Passing (handleFromScscf { s with toPcscf := rest } msg).1 out) : Passing s out := by
    refine passing_of_frame hdelivers.thread hdelivers.toScscf (fun later hlater => ?_) hout
    rw [hdelivers.toPcscf] at hlater
    rw [htoPcscf]
    exact List.mem_cons_of_mem msg hlater
  refine ⟨fun out hout => h.passing out (hpassing out hout), fun m hm => ?_, ?_⟩
  · rw [hdelivers.thread m] at hm
    exact h.cleaning m hm
  · intro target out hout hgrants hparty
    by_cases hanswers : Answers msg
    · rw [handleFromScscf_answers hanswers] at hout
      obtain ⟨rfl, rfl⟩ := ScscfThread.notifying.inj hout
      have hrecord {l : UeLabel} (hl : s.pcscf.callToCaller.lookup callId = some (impuOf l)) :
          nonEmptyOr (callerOf s.pcscf msg.callId) msg.sipFrom = impuOf l := by
        rw [callerOf, hgrants.2.1, hl]
        exact if_neg (impuOf_ne_nil l)
      rcases hcaller hgrants hparty with hl | hl
      · exact ⟨p.first, Or.inl rfl, hrecord hl⟩
      · exact ⟨p.second, Or.inr rfl, hrecord hl⟩
    · rw [handleFromScscf_thread hanswers] at hout
      rw [show s.pcscf.scscfThread = _ from hout] at hthread
      cases hthread

theorem scscf_settled (h : Settled label p callId s) (hsources : Sources s)
    (hstored : callId ∈ s.scscf.calls) (htoScscf : s.toScscf = msg :: rest) :
    Settled label p callId
      { s with
        toScscf := rest
        scscf := (scscfHandle s.scscf msg).1
        toPcscf := s.toPcscf ++ (scscfHandle s.scscf msg).2 } := by
  have hmsg : Passing s msg := .toScscf (htoScscf ▸ List.mem_cons_self)
  refine ⟨fun out hout hid => ?_, h.cleaning, h.notifying⟩
  cases hout with
  | forwarding m hout => exact h.passing out (.forwarding m hout) hid
  | toScscf hout =>
      refine h.passing out (.toScscf ?_) hid
      rw [htoScscf]
      exact List.mem_cons_of_mem msg hout
  | toPcscf hout =>
      rcases List.mem_append.mp hout with hold | hnew
      · exact h.passing out (.toPcscf hold) hid
      · rcases scscfHandle_own hstored (hsources.toScscf msg (htoScscf ▸ List.mem_cons_self)) hnew with
          rfl | ⟨hbye, hacked, hmodifies⟩
        · exact h.passing out hmsg hid
        · exact ⟨hbye, hacked, fun hasks => absurd hasks hmodifies⟩

end Settling

section Runs

variable {label : Nat → UeLabel} {p : Parties} {callId : Str} {s s' : State} {tr : List Event}

theorem grounded_of_reach {tr : List CallSessionControl.Event}
    (hreach : Reach (CallSessionControl.step label) init tr s)
    (hregistered : ∀ l, p.Has l → .registered (impuOf l) ∈ tr) : Grounded label p s where
  known := (ReleaseDelivery.reach_inv hreach).known
  registered l hl := ((ReleaseDelivery.reach_inv hreach).registered _).mp (hregistered l hl)
  notifies := reach_notifiesOk hreach
  sources := reach_sources hreach

theorem step_served {i : Input} {es : List Event} (h : Grounded label p s)
    (hsettled : Settled label p callId s) (hstored : callId ∈ s.scscf.calls)
    (hguard : Kept label p callId tr s i) (hstep : step label s i = some (s', es)) :
    Settled label p callId s' ∧ callId ∈ s'.scscf.calls ∧
      ∀ n, p.Has (label n) → Served label p callId n s es s' := by
  obtain ⟨⟨s₁, shown⟩, hims, hresult⟩ := Option.map_eq_some_iff.mp hstep
  obtain ⟨rfl, rfl⟩ := Prod.ext_iff.mp hresult
  cases step_cases hims with
  | command m cmd =>
      refine ⟨?_, hstored, fun n _ => command_served cmd⟩
      exact hsettled.of_frame (phoneStep_thread s m _) rfl (fun _ hout => hout) fun _ _ hout => hout
  | @ueReceive m msg rest _ =>
      refine ⟨?_, hstored, fun n _ => ueReceive_served⟩
      refine hsettled.of_frame (fun k => ?_) rfl (fun _ hout => hout) fun _ _ hout => hout
      exact (phoneStep_thread _ m _ k).trans
        (modify_thread s m (fun c => { c with downlink := rest }) rfl k)
  | @pcscfRead m msg rest hthread huplink =>
      refine ⟨?_, ?_, fun n _ => read_served hthread huplink⟩
      · exact read_settled hsettled (hguard msg (by rw [huplink]; rfl))
      · rw [(handleFromUe_enters _ m msg).scscf]
        exact hstored
  | @pcscfForward m msg hthread =>
      refine ⟨forward_settled hsettled hthread, hstored, fun n _ => ?_⟩
      refine forward_served h.sources hthread ?_
      split <;> rfl
  | pcscfCleanUp hthread =>
      exact ⟨cleanUp_settled hsettled _ _, hstored, fun n _ => cleanUp_served hthread⟩
  | @pcscfReceive msg rest hthread htoPcscf =>
      refine ⟨?_, ?_, fun n hn => receive_served h hsettled hn hthread htoPcscf⟩
      · exact receive_settled hsettled hthread htoPcscf (hguard msg (by rw [htoPcscf]; rfl))
      · obtain ⟨node, -, hdelivers⟩ := handleFromScscf_delivers { s with toPcscf := rest } msg
        rw [hdelivers.scscf]
        exact hstored
  | @pcscfNotify target msg hthread =>
      have hdelivers := notify_delivers s target msg
      refine ⟨?_, ?_, fun n hn => notify_served h hsettled hn hthread (hguard target msg hthread)⟩
      · refine hsettled.of_frame hdelivers.thread hdelivers.toScscf
          (fun _ hout => hdelivers.toPcscf ▸ hout) fun other out hout => ?_
        rw [hdelivers.pcscf] at hout
        cases hout
      · rw [hdelivers.scscf]
        exact hstored
  | @scscfReceive msg rest htoScscf =>
      refine ⟨scscf_settled hsettled h.sources hstored htoScscf, ?_, fun n _ =>
        scscf_served h.sources hstored htoScscf⟩
      refine scscfHandle_stored hstored fun hid => ?_
      exact (hsettled.passing msg (.toScscf (htoScscf ▸ List.mem_cons_self)) hid).1
  | setBarred impu barred =>
      refine ⟨?_, hstored, fun n _ => served_in_place rfl rfl rfl rfl fun _ _ hout => by cases hout⟩
      exact hsettled.of_frame (fun _ => rfl) rfl (fun _ hout => hout) fun _ _ hout => hout

theorem run_served {tr₀ : List CallSessionControl.Event} {s₀ : State}
    (hreach : Reach (CallSessionControl.step label) init tr₀ s₀)
    (hregistered : ∀ l, p.Has l → .registered (impuOf l) ∈ tr₀)
    (hsettled : Settled label p callId s₀) (hstored : callId ∈ s₀.scscf.calls)
    (hrun : Run (step label) (Kept label p callId) s₀ tr s) :
    (∃ es, Reach (CallSessionControl.step label) init (tr₀ ++ es) s) ∧ Settled label p callId s ∧
      callId ∈ s.scscf.calls ∧ ∀ n, p.Has (label n) → Served label p callId n s₀ tr s := by
  refine hrun.invariant (I := fun tr s =>
    (∃ es, Reach (CallSessionControl.step label) init (tr₀ ++ es) s) ∧ Settled label p callId s ∧
      callId ∈ s.scscf.calls ∧ ∀ n, p.Has (label n) → Served label p callId n s₀ tr s)
    ⟨⟨[], by rwa [List.append_nil]⟩, hsettled, hstored, fun n _ => .refl s₀⟩ ?_
  rintro tr s i s' es ⟨⟨shown, hbefore⟩, hsettled, hstored, hserved⟩ hguard hstep
  have hgrounded := grounded_of_reach hbefore fun l hl =>
    List.mem_append_left shown (hregistered l hl)
  obtain ⟨hsettled', hstored', hnext⟩ := step_served hgrounded hsettled hstored hguard hstep
  refine ⟨?_, hsettled', hstored', fun n hn => (hserved n hn).trans (hnext n hn)⟩
  obtain ⟨⟨s₁, more⟩, hims, hresult⟩ := Option.map_eq_some_iff.mp hstep
  obtain ⟨rfl, -⟩ := Prod.ext_iff.mp hresult
  refine ⟨shown ++ more, ?_⟩
  rw [← List.append_assoc]
  exact Run.snoc hbefore trivial hims

theorem whole_served {tr₀ : List CallSessionControl.Event} {s₀ : State} {x y : Nat}
    (hreach : Reach (CallSessionControl.step label) init tr₀ s₀)
    (hcall : Established label s₀ x y callId) (hne : label x ≠ label y)
    (hsettled : Settled label ⟨label x, label y, hne⟩ callId s₀)
    (hrun : Run (step label) (Kept label ⟨label x, label y, hne⟩ callId) s₀ tr s) :
    ∀ n, label n = label x ∨ label n = label y →
      Served label ⟨label x, label y, hne⟩ callId n s₀ tr s := by
  have hinv := ReleaseDelivery.reach_inv hreach
  have hstored : callId ∈ s₀.scscf.calls := by
    rw [← AList.lookup_isSome]
    rcases hcall.parties with hparties | hparties
    · obtain ⟨cs, hcs, -⟩ := Option.map_eq_some_iff.mp hparties
      exact Option.isSome_iff_exists.mpr ⟨cs, hcs⟩
    · obtain ⟨cs, hcs, -⟩ := Option.map_eq_some_iff.mp hparties
      exact Option.isSome_iff_exists.mpr ⟨cs, hcs⟩
  refine (run_served hreach ?_ hsettled hstored hrun).2.2.2
  rintro l (rfl | rfl)
  · exact registered_of_inCall hinv hcall.first
  · exact registered_of_inCall hinv hcall.second

theorem underWay_moves {n : Nat} (h : underWay callId n s ≠ [] ∨ due callId n s ≠ []) :
    ∃ i ∈ [.pcscfRead n, .pcscfForward n, .pcscfCleanUp n, .scscfReceive, .pcscfReceive,
      .pcscfNotify], (step label s i).isSome := by
  cases hnotify : s.pcscf.scscfThread with
  | notifying target msg =>
      exact ⟨.pcscfNotify, by simp, by simp [step, CallSessionControl.step, hnotify]⟩
  | receiving =>
      cases htoPcscf : s.toPcscf with
      | cons msg rest =>
          exact ⟨.pcscfReceive, by simp, by simp [step, CallSessionControl.step, hnotify, htoPcscf]⟩
      | nil =>
          cases htoScscf : s.toScscf with
          | cons msg rest =>
              exact ⟨.scscfReceive, by simp, by simp [step, CallSessionControl.step, htoScscf]⟩
          | nil =>
              cases hthread : (s.conns n).session.thread with
              | forwarding msg =>
                  exact ⟨.pcscfForward n, by simp, by simp [step, CallSessionControl.step, hthread]⟩
              | cleaningUp id =>
                  exact ⟨.pcscfCleanUp n, by simp, by simp [step, CallSessionControl.step, hthread]⟩
              | receiving =>
                  cases huplink : (s.conns n).uplink with
                  | cons msg rest =>
                      exact ⟨.pcscfRead n, by simp,
                        by simp [step, CallSessionControl.step, hthread, huplink]⟩
                  | nil =>
                      simp [underWay, upstream, due, ahead, notifiedBy, forwardedBy, hnotify,
                        htoPcscf, htoScscf, hthread, huplink] at h

end Runs

section Records

variable (label : Nat → UeLabel) (p : Parties) (callId : Str)

/-- Every INVITE of the call that the P-CSCF reads comes from a party and names the other, and none
turns the record round between the two looks for an answer. -/
def Named (_ : List Event) (s : State) : Input → Prop
  | .pcscfRead n => ∀ msg ∈ (s.conns n).uplink.head?, msg.callId = callId →
      Orderly label p callId msg ∧ (msg.type = .invite →
        p.Has (label n) ∧ msg.sipTo = impuOf (p.peer (label n)) ∧
          ∀ target out, s.pcscf.scscfThread = .notifying target out → out.callId = callId →
            target = impuOf (label n))
  | _ => True

/-- Both parties are on record, and an answer that is being handed out goes to the caller. -/
def OnRecord (s : State) : Prop :=
  ∃ l, p.Has l ∧ Recorded s.pcscf callId (impuOf l) (impuOf (p.peer l)) ∧
    ∀ target out, s.pcscf.scscfThread = .notifying target out → out.callId = callId →
      target = impuOf l

variable {label : Nat → UeLabel} {p : Parties} {callId : Str} {s s' : State} {tr : List Event}

theorem OnRecord.of_keeps (h : OnRecord p callId s) (hkeeps : Keeps callId s.pcscf s'.pcscf)
    (hthread : ∀ target out, s'.pcscf.scscfThread = .notifying target out →
      s.pcscf.scscfThread = .notifying target out) : OnRecord p callId s' := by
  obtain ⟨l, hl, hrecord, htarget⟩ := h
  exact ⟨l, hl, hkeeps _ _ hrecord, fun target out hout => htarget target out (hthread target out hout)⟩

theorem OnRecord.kept (h : OnRecord p callId s) {i : Input} (hnamed : Named label p callId tr s i) :
    Kept label p callId tr s i := by
  obtain ⟨l, hl, ⟨hcaller, hcallee⟩, htarget⟩ := h
  cases i with
  | pcscfRead n => exact fun msg hmsg hid => (hnamed msg hmsg hid).1
  | pcscfReceive =>
      intro msg _ _ _
      rcases hl with rfl | rfl
      · exact Or.inl hcaller
      · exact Or.inr hcaller
  | pcscfNotify =>
      intro target msg hthread hgrants _
      rw [htarget target msg hthread hgrants.2.1]
      constructor
      · intro hfirst
        rw [impuOf_injective hfirst, Parties.peer, if_pos rfl] at hcallee
        exact hcallee
      · intro hsecond
        rw [impuOf_injective hsecond, Parties.peer, if_neg p.distinct.symm] at hcallee
        exact hcallee
  | _ => trivial

/-- An INVITE of a party records its two parties anew, whatever else is read leaves them there. -/
theorem OnRecord.read (h : OnRecord p callId s) (hlinks : PhoneLinks label s) {n : Nat}
    {msg : SipMessage} {rest : List SipMessage} (huplink : (s.conns n).uplink = msg :: rest)
    (hnamed : Named label p callId tr s (.pcscfRead n)) : OnRecord p callId
      (handleFromUe (setThread (s.modify n fun c => { c with uplink := rest }) n (.forwarding msg))
        n msg).1 := by
  have henters := handleFromUe_enters
    (setThread (s.modify n fun c => { c with uplink := rest }) n (.forwarding msg)) n msg
  by_cases hinvite : msg.callId = callId ∧ msg.type = .invite
  · obtain ⟨hid, htype⟩ := hinvite
    obtain ⟨hparty, hto, htarget⟩ := (hnamed msg (by rw [huplink]; rfl) hid).2 htype
    have hfrom : msg.sipFrom = impuOf (label n) :=
      (hlinks n msg (huplink ▸ List.mem_cons_self)).invite htype
    refine ⟨label n, hparty, ?_, ?_⟩
    · rw [← hto, ← hfrom, ← hid]
      apply handleFromUe_records _ n msg htype
      rw [hfrom]
      exact impuOf_ne_nil _
    · intro target out hout
      rw [henters.scscfThread] at hout
      exact htarget target out hout
  · have hkeeps := handleFromUe_keeps
      (setThread (s.modify n fun c => { c with uplink := rest }) n (.forwarding msg)) n msg
      fun htype hid => hinvite ⟨hid.symm, htype⟩
    refine h.of_keeps hkeeps fun target out hout => ?_
    rw [henters.scscfThread] at hout
    exact hout

theorem OnRecord.received (h : OnRecord p callId s) (msg : SipMessage) :
    OnRecord p callId (handleFromScscf s msg).1 := by
  obtain ⟨node, hsection, hdelivers⟩ := handleFromScscf_delivers s msg
  obtain ⟨l, hl, hrecord, htarget⟩ := h
  refine ⟨l, hl, ?_, fun target out hout hid => ?_⟩
  · rw [hdelivers.pcscf]
    exact rxSection_keeps hsection _ _ hrecord
  · by_cases hanswers : Answers msg
    · rw [handleFromScscf_answers hanswers] at hout
      obtain ⟨rfl, rfl⟩ := ScscfThread.notifying.inj hout
      rw [callerOf, hid, hrecord.1]
      exact if_neg (impuOf_ne_nil l)
    · rw [handleFromScscf_thread hanswers] at hout
      exact htarget target out hout hid

theorem step_onRecord {i : Input} {es : List CallSessionControl.Event} (h : OnRecord p callId s)
    (hlinks : PhoneLinks label s) (hsettled : Settled label p callId s)
    (hnamed : Named label p callId tr s i)
    (hstep : CallSessionControl.step label s i = some (s', es)) : OnRecord p callId s' := by
  cases step_cases hstep with
  | command _ _ => exact h
  | ueReceive _ => exact h
  | pcscfRead _ huplink => exact h.read hlinks huplink hnamed
  | pcscfForward _ => exact h
  | @pcscfCleanUp n id hthread =>
      refine h.of_keeps (cleanUp_keeps ?_) fun _ _ hout => hout
      rintro rfl
      exact hsettled.cleaning n hthread
  | @pcscfReceive msg rest _ _ =>
      have hrest : OnRecord p callId { s with toPcscf := rest } := h
      exact hrest.received msg
  | @pcscfNotify target msg _ =>
      have hdelivers := notify_delivers s target msg
      refine h.of_keeps ?_ fun other out hout => ?_
      · rw [hdelivers.pcscf]
        exact keeps_refl
      · rw [hdelivers.pcscf] at hout
        cases hout
  | scscfReceive _ => exact h
  | setBarred _ _ => exact h

/-- Requests that name the right parties keep them on record. -/
theorem run_kept {tr₀ : List CallSessionControl.Event} {s₀ : State}
    (hreach : Reach (CallSessionControl.step label) init tr₀ s₀)
    (hregistered : ∀ l, p.Has l → .registered (impuOf l) ∈ tr₀)
    (hsettled : Settled label p callId s₀) (hstored : callId ∈ s₀.scscf.calls)
    (hrecord : OnRecord p callId s₀) (hrun : Run (step label) (Named label p callId) s₀ tr s) :
    Run (step label) (Kept label p callId) s₀ tr s ∧ OnRecord p callId s := by
  induction hrun with
  | nil => exact ⟨Run.nil, hrecord⟩
  | snoc _ hnamed hstep ih =>
      obtain ⟨hkept, hrecord'⟩ := ih
      obtain ⟨⟨es, hbefore⟩, hsettled', -, -⟩ := run_served hreach hregistered hsettled hstored hkept
      obtain ⟨⟨s₁, shown⟩, hims, hresult⟩ := Option.map_eq_some_iff.mp hstep
      obtain ⟨rfl, -⟩ := Prod.ext_iff.mp hresult
      exact ⟨hkept.snoc (hrecord'.kept hnamed) hstep,
        step_onRecord hrecord' (reach_links hbefore) hsettled' hnamed hims⟩

end Records

section Uplink

variable {label : Nat → UeLabel} {callId : Str}

theorem step_ims {s s' : State} {i : Input} {es : List Event}
    (hstep : step label s i = some (s', es)) :
    ∃ shown, CallSessionControl.step label s i = some (s', shown) := by
  obtain ⟨⟨next, shown⟩, hims, hresult⟩ := Option.map_eq_some_iff.mp hstep
  obtain ⟨rfl, -⟩ := Prod.mk.inj hresult
  exact ⟨shown, hims⟩

theorem reach_ims {s₀ s : State} {tr : List Event} (hrun : Reach (step label) s₀ tr s) :
    ∃ shown, Reach (CallSessionControl.step label) s₀ shown s := by
  induction hrun with
  | nil => exact ⟨[], Run.nil⟩
  | snoc _ _ hstep ih =>
      obtain ⟨before, hbefore⟩ := ih
      obtain ⟨shown, hims⟩ := step_ims hstep
      exact ⟨before ++ shown, Run.snoc hbefore trivial hims⟩

def uplink (label : Nat → UeLabel) : SharedUplink.Link State Input Event SipMessage :=
  SipUplink.linkOf label (step label) step_ims

/-- From its establishment on, in every run that keeps the record of the call, as long as the
threads write to the S-CSCF one after another. -/
theorem reinvites_served {tr₀ tr : List Event} {s₀ s : Layered SharedUplink.Wire State} {x y : Nat}
    (hreach : Run (SharedUplink.step (uplink label))
      (SharedUplink.Guarded (uplink label) fun _ _ _ => True) (SharedUplink.init init) tr₀ s₀)
    (hcall : Established label s₀.lower x y callId) (hne : label x ≠ label y)
    (hsettled : Settled label ⟨label x, label y, hne⟩ callId s₀.lower)
    (hrun : Run (SharedUplink.step (uplink label))
      (SharedUplink.Guarded (uplink label) (Kept label ⟨label x, label y, hne⟩ callId)) s₀ tr s) :
    ∀ n, label n = label x ∨ label n = label y →
      Served label ⟨label x, label y, hne⟩ callId n s₀.lower tr s.lower := by
  obtain ⟨hbefore, hsound⟩ := SharedUplink.run_whole (SharedUplink.sound_init rfl) hreach
  obtain ⟨hwhole, -⟩ := SharedUplink.run_whole hsound hrun
  obtain ⟨shown, hbefore⟩ := reach_ims hbefore
  exact whole_served hbefore hcall hne hsettled hwhole

end Uplink

section Schedules

variable {label : Nat → UeLabel} {p : Parties} {callId : Str}

instance (node : PcscfNode) (target : Str) : Decidable (Paired p callId node target) :=
  inferInstanceAs (Decidable ((_ → _) ∧ (_ → _)))

instance (msg : SipMessage) : Decidable (Orderly label p callId msg) :=
  inferInstanceAs (Decidable (_ ∧ _ ∧ (_ → _ → _)))

instance Kept.decidable (tr : List Event) (s : State) :
    (i : Input) → Decidable (Kept label p callId tr s i)
  | .pcscfRead n =>
    inferInstanceAs (Decidable (∀ msg ∈ (s.conns n).uplink.head?, _ → Orderly label p callId msg))
  | .pcscfReceive =>
    inferInstanceAs (Decidable (∀ msg ∈ s.toPcscf.head?, Grants callId msg →
      p.Has (label msg.origin) → _ ∨ _))
  | .pcscfNotify =>
    match h : s.pcscf.scscfThread with
    | .receiving => .isTrue fun _ _ hthread => by rw [h] at hthread; cases hthread
    | .notifying target msg =>
      decidable_of_iff (Grants callId msg → p.Has (label msg.origin) →
        Paired p callId s.pcscf target) (by simp [Kept, h])
  | .command _ _ | .ueReceive _ | .pcscfForward _ | .pcscfCleanUp _ | .scscfReceive
  | .setBarred _ _ => .isTrue trivial

theorem step_receiving {i : Input} {s s' : State} {es : List CallSessionControl.Event} {n : Nat}
    (hstep : CallSessionControl.step label s i = some (s', es)) (hread : i ≠ .pcscfRead n)
    (h : (s.conns n).session.thread = .receiving) : (s'.conns n).session.thread = .receiving := by
  cases step_cases hstep with
  | command m cmd => exact (phoneStep_thread s m _ n).trans h
  | @ueReceive m msg rest _ =>
      exact (phoneStep_thread _ m _ n).trans
        ((modify_thread s m (fun c => { c with downlink := rest }) rfl n).trans h)
  | @pcscfRead m msg rest _ _ =>
      have hne : n ≠ m := by
        rintro rfl
        exact hread rfl
      rw [(handleFromUe_enters _ m msg).thread, setThread_thread, if_neg hne]
      exact (modify_thread s m (fun c => { c with uplink := rest }) rfl n).trans h
  | @pcscfForward m msg hthread =>
      have hne : n ≠ m := by
        rintro rfl
        rw [h] at hthread
        cases hthread
      rw [setThread_thread, if_neg hne]
      exact h
  | @pcscfCleanUp m id _ =>
      rw [setThread_thread]
      split
      · rfl
      · exact h
  | @pcscfReceive msg rest _ _ =>
      obtain ⟨node, -, hdelivers⟩ := handleFromScscf_delivers { s with toPcscf := rest } msg
      exact (hdelivers.thread n).trans h
  | @pcscfNotify target msg _ => exact ((notify_delivers s target msg).thread n).trans h
  | scscfReceive _ => exact h
  | setBarred _ _ => exact h

theorem exec_receiving {is : List Input} {s s' : State} {tr : List Event} {n : Nat}
    (hexec : exec (step label) s is = some (s', tr))
    (hread : .pcscfRead n ∉ is) (h : (s.conns n).session.thread = .receiving) :
    (s'.conns n).session.thread = .receiving := by
  induction is generalizing s tr with
  | nil =>
      obtain ⟨rfl, -⟩ : s = s' ∧ [] = tr := by simpa [exec] using hexec
      exact h
  | cons i rest ih =>
      simp only [exec] at hexec
      split at hexec
      · cases hexec
      · rename_i s₁ es hstep
        split at hexec
        · cases hexec
        · rename_i s₂ es' hrest
          obtain ⟨rfl, -⟩ : s₂ = s' ∧ es ++ es' = tr := by simpa using hexec
          obtain ⟨shown, hims⟩ := step_ims hstep
          refine ih hrest (List.not_mem_of_not_mem_cons hread) (step_receiving hims ?_ h)
          rintro rfl
          exact hread List.mem_cons_self

def partiesAB : Parties := ⟨.a, .b, by decide⟩

def holdAndResume : List Input :=
  signalled 0 .hold ++ [.pcscfReceive, .pcscfReceive, .pcscfNotify] ++
    (signalled 0 .resume ++ [.pcscfReceive, .pcscfReceive, .pcscfNotify])

theorem settled_established {s : State} {tr : List Event}
    (hexec : exec (step threePhones) init establishedCall = some (s, tr)) :
    Settled threePhones partiesAB callAB s := by
  have hidle : (exec (step threePhones) init establishedCall).map (fun r =>
      decide ((r.1.conns 0).session.thread = .receiving ∧ (r.1.conns 1).session.thread = .receiving ∧
        r.1.toScscf = [] ∧ r.1.toPcscf = [] ∧ r.1.pcscf.scscfThread = .receiving)) = some true := by
    decide +kernel
  rw [hexec] at hidle
  obtain ⟨hfirst, hsecond, htoScscf, htoPcscf, hthread⟩ :=
    of_decide_eq_true (Option.some.inj hidle)
  have hreceiving (n : Nat) : (s.conns n).session.thread = .receiving := by
    rcases n with _ | _ | n
    · exact hfirst
    · exact hsecond
    · refine exec_receiving hexec ?_ rfl
      simp [establishedCall, registration, callSetup, signalled]
  constructor
  · intro msg hmsg
    cases hmsg with
    | forwarding n hmsg =>
        rw [hreceiving n] at hmsg
        cases hmsg
    | toScscf hmsg =>
        rw [htoScscf] at hmsg
        cases hmsg
    | toPcscf hmsg =>
        rw [htoPcscf] at hmsg
        cases hmsg
  · intro n hn
    rw [hreceiving n] at hn
    cases hn
  · intro target msg hmsg
    rw [hthread] at hmsg
    cases hmsg

def calleeHold : List Input :=
  signalled 1 .hold ++ [.pcscfReceive, .pcscfReceive, .pcscfNotify]

def thenAsk (is : List Input) : Option ((State × List Event) × (State × List Event)) :=
  (exec (step threePhones) init establishedCall).bind fun r =>
    (exec (step threePhones) r.1 is).map fun r₁ => (r, r₁)

theorem exists_written {is : List Input} {P : List Event → State → Input → Prop}
    {r r₁ : State × List Event} (hasks : thenAsk is = some (r, r₁))
    (hadmits : Admits (step threePhones)
      (fun tr s i => P tr s i ∧ SipUplink.PutsShort s (some i)) [] r.1 is) :
    exec (step threePhones) init establishedCall = some r ∧
      ∃ u u₁, Run (SharedUplink.step (uplink threePhones))
          (SharedUplink.Guarded (uplink threePhones) fun _ _ _ => True) (SharedUplink.init init) r.2
          ⟨u, r.1⟩ ∧
        Run (SharedUplink.step (uplink threePhones)) (SharedUplink.Guarded (uplink threePhones) P)
          ⟨u, r.1⟩ r₁.2 ⟨u₁, r₁.1⟩ := by
  have hset : Admits (step threePhones) (fun _ s i => True ∧ SipUplink.PutsShort s (some i)) [] init
      establishedCall := by
    decide +kernel
  obtain ⟨⟨s₀, tr₀⟩, hexec₀, hrest⟩ := Option.bind_eq_some_iff.mp hasks
  obtain ⟨⟨s, tr⟩, hexec, hresult⟩ := Option.map_eq_some_iff.mp hrest
  obtain ⟨rfl, rfl⟩ := Prod.mk.inj hresult
  have hfits (s : State) (i : Input) (hshort : SipUplink.PutsShort s (some i)) :
      SharedUplink.Fits (uplink threePhones) SipUplink.payloadOf s i :=
    SipUplink.linkOf_fits step_ims s i hshort
  have hsound := SharedUplink.sound_init (L := uplink threePhones) (s := init) rfl
  obtain ⟨u, hbefore, hidle⟩ := SharedUplink.run_written hfits hsound (fun _ => rfl)
    (run_of_exec _ tr₀ Run.nil hset hexec₀)
  obtain ⟨-, hsound⟩ := SharedUplink.run_whole hsound hbefore
  obtain ⟨u₁, hafter, -⟩ := SharedUplink.run_written hfits hsound hidle
    (run_of_exec _ tr Run.nil hadmits hexec)
  exact ⟨hexec₀, u, u₁, hbefore, hafter⟩

/-- The callee hears of both requests and the caller gets both answers. -/
theorem hold_and_resume_served :
    ∃ tr₀ s₀ tr s,
      Run (SharedUplink.step (uplink threePhones))
        (SharedUplink.Guarded (uplink threePhones) fun _ _ _ => True) (SharedUplink.init init) tr₀
        s₀ ∧
      Run (SharedUplink.step (uplink threePhones))
        (SharedUplink.Guarded (uplink threePhones) (Kept threePhones partiesAB callAB)) s₀ tr s ∧
      Served threePhones partiesAB callAB 0 s₀.lower tr s.lower ∧
      (tr.filterMap (heard (requestOf callAB 0))).map Prod.fst = [1, 1] ∧
      (tr.filterMap (heard (grantOf callAB 0))).map Prod.fst = [1, 0, 1, 0] := by
  have hchanges : (thenAsk holdAndResume).map (fun r =>
      (decide (ReleaseDelivery.InCall (r.1.1.conns 0).ue callAB ∧
          ReleaseDelivery.InCall (r.1.1.conns 1).ue callAB ∧
          storedParties r.1.1.scscf callAB = some (impuA, impuB)),
        decide (Admits (step threePhones) (fun tr s i =>
          Kept threePhones partiesAB callAB tr s i ∧ SipUplink.PutsShort s (some i)) [] r.1.1
          holdAndResume),
        (r.2.2.filterMap (heard (requestOf callAB 0))).map Prod.fst,
        (r.2.2.filterMap (heard (grantOf callAB 0))).map Prod.fst)) =
      some (true, true, [1, 1], [1, 0, 1, 0]) := by
    decide +kernel
  obtain ⟨⟨⟨s₀, tr₀⟩, s, tr⟩, hasks, hseen⟩ := Option.map_eq_some_iff.mp hchanges
  obtain ⟨⟨hfirst, hsecond, hparties⟩, hadmits, hrequests, hanswers⟩ : _ ∧ _ ∧ _ ∧ _ := by
    simpa only [Prod.mk.injEq, decide_eq_true_eq] using hseen
  obtain ⟨hexec₀, u, u₁, hreach, hrun⟩ := exists_written hasks hadmits
  have hserved := reinvites_served hreach ⟨hfirst, hsecond, Or.inl hparties⟩ (by decide)
    (settled_established hexec₀) hrun 0 (Or.inl rfl)
  exact ⟨tr₀, _, tr, _, hreach, hrun, hserved, hrequests, hanswers⟩

/-- A hold by the callee, whose To is empty. -/
theorem callee_hold_not_served :
    ∃ tr₀ s₀ tr s,
      Run (SharedUplink.step (uplink threePhones))
        (SharedUplink.Guarded (uplink threePhones) fun _ _ _ => True) (SharedUplink.init init) tr₀
        s₀ ∧
      Established threePhones s₀.lower 1 0 callAB ∧
      Run (SharedUplink.step (uplink threePhones))
        (SharedUplink.Guarded (uplink threePhones) fun _ _ _ => True) s₀ tr s ∧
      ¬Served threePhones partiesAB callAB 1 s₀.lower tr s.lower := by
  have hhold : (thenAsk calleeHold).map (fun r =>
      (decide (ReleaseDelivery.InCall (r.1.1.conns 1).ue callAB ∧
          ReleaseDelivery.InCall (r.1.1.conns 0).ue callAB ∧
          storedParties r.1.1.scscf callAB = some (impuA, impuB)),
        decide (Admits (step threePhones)
          (fun _ s i => True ∧ SipUplink.PutsShort s (some i)) [] r.1.1 calleeHold),
        (r.2.2.filterMap (requested callAB 1)).length,
        (r.2.2.filterMap (heard (requestOf callAB 1))).length,
        (underWay callAB 1 r.1.1).length, (underWay callAB 1 r.2.1).length)) =
      some (true, true, 1, 0, 0, 0) := by
    decide +kernel
  obtain ⟨⟨⟨s₀, tr₀⟩, s, tr⟩, hasks, hseen⟩ := Option.map_eq_some_iff.mp hhold
  obtain ⟨⟨hfirst, hsecond, hparties⟩, hadmits, hasked, hheard, hbefore, hafter⟩ :
      _ ∧ _ ∧ _ ∧ _ ∧ _ ∧ _ := by
    simpa only [Prod.mk.injEq, decide_eq_true_eq] using hseen
  obtain ⟨-, u, u₁, hreach, hrun⟩ := exists_written hasks hadmits
  refine ⟨tr₀, _, tr, _, hreach, ⟨hfirst, hsecond, Or.inr hparties⟩, hrun, fun hserved => ?_⟩
  have hlengths := congrArg List.length hserved.requests
  simp only [List.length_append, List.length_map, hasked, hheard, hbefore, hafter] at hlengths
  omega

end Schedules

end MobileCore.ReInviteRouting
