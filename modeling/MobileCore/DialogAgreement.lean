import MobileCore.CallSessionControl

namespace MobileCore.DialogAgreement

open MobileCore.LabelledRuns
open MobileCore.LastWrite
open MobileCore.CppText
open MobileCore.SipPhones
open MobileCore.CallSessionControl

/-- The caller and the callee that the P-CSCF records for a Call-ID. -/
def Recorded (p : PcscfNode) (callId caller callee : Str) : Prop :=
  p.callToCaller.lookup callId = some caller ∧ p.callToCallee.lookup callId = some callee

def readFromPhone (s : State) : Input → Option SipMessage
  | .pcscfRead n => (s.conns n).uplink.head?
  | _ => none

/-- No phone's BYE of the call is read. -/
def BeforeBye (callId : Str) (_ : List Event) (s : State) (i : Input) : Prop :=
  ∀ msg ∈ readFromPhone s i, msg.callId = callId → msg.type ≠ .bye

/-- A phone's INVITE of a recorded call names the recorded parties. -/
def SameParties (callId : Str) (_ : List Event) (s : State) (i : Input) : Prop :=
  ∀ msg ∈ readFromPhone s i, msg.callId = callId → msg.type = .invite →
    (∀ caller ∈ s.pcscf.callToCaller.lookup callId, caller = msg.sipFrom) ∧
      ∀ callee ∈ s.pcscf.callToCallee.lookup callId, callee = msg.sipTo

instance (p : PcscfNode) (callId caller callee : Str) : Decidable (Recorded p callId caller callee) :=
  inferInstanceAs (Decidable (_ ∧ _))

instance (callId : Str) (tr : List Event) (s : State) (i : Input) :
    Decidable (BeforeBye callId tr s i) :=
  inferInstanceAs (Decidable (∀ msg ∈ readFromPhone s i, _))

instance (callId : Str) (tr : List Event) (s : State) (i : Input) :
    Decidable (SameParties callId tr s i) :=
  inferInstanceAs (Decidable (∀ msg ∈ readFromPhone s i, _))

def InDialog (callId : Str) (tr : List Event) (s : State) (i : Input) : Prop :=
  BeforeBye callId tr s i ∧ SameParties callId tr s i

instance (callId : Str) (tr : List Event) (s : State) (i : Input) :
    Decidable (InDialog callId tr s i) :=
  inferInstanceAs (Decidable (_ ∧ _))

/-- The Call-ID is new to the S-CSCF and no thread or link to it still has a message of an earlier
call of that name. -/
structure Fresh (callId : Str) (s : State) : Prop where
  forwarding : ∀ n msg, (s.conns n).session.thread = .forwarding msg → msg.callId ≠ callId
  cleaning : ∀ n, (s.conns n).session.thread ≠ .cleaningUp callId
  link : ∀ msg ∈ s.toScscf, msg.callId ≠ callId
  call : s.scscf.calls.lookup callId = none

/-- What is on its way to the S-CSCF, and what it stores, agrees with the record. -/
structure Agreement (callId : Str) (s : State) : Prop where
  forwarding : ∀ n msg, (s.conns n).session.thread = .forwarding msg → msg.callId = callId →
    msg.type ≠ .bye ∧ (msg.type = .invite → Recorded s.pcscf callId msg.sipFrom msg.sipTo)
  cleaning : ∀ n, (s.conns n).session.thread ≠ .cleaningUp callId
  link : ∀ msg ∈ s.toScscf, msg.callId = callId → msg.type = .invite →
    Recorded s.pcscf callId msg.sipFrom msg.sipTo
  calls : ∀ cs, s.scscf.calls.lookup callId = some cs →
    Recorded s.pcscf callId cs.callerImpu cs.calleeImpu

/-- No record of the call changes. -/
def Keeps (callId : Str) (p p' : PcscfNode) : Prop :=
  ∀ caller callee, Recorded p callId caller callee → Recorded p' callId caller callee

section Records

variable {callId : Str} {p : PcscfNode}

theorem keeps_refl : Keeps callId p p := fun _ _ h => h

theorem cleanUp_keeps {other : Str} (hother : callId ≠ other) :
    Keeps callId p (cleanUp p other) := by
  rintro caller callee ⟨hcaller, hcallee⟩
  exact ⟨(AList.lookup_erase_ne hother).trans hcaller, (AList.lookup_erase_ne hother).trans hcallee⟩

theorem enterInvite_keeps (msg : SipMessage) : Keeps callId p (enterInvite p msg).1 := by
  rintro caller callee ⟨hcaller, hcallee⟩
  have hne : ∀ {table : Table Str Str} {key value value' : Str},
      table.lookup callId = some value → table.lookup key = none →
      (table.insert key value').lookup callId = some value := by
    intro table key value value' hsome hnone
    refine (AList.lookup_insert_ne ?_).trans hsome
    rintro rfl
    rw [hnone] at hsome
    cases hsome
  unfold enterInvite
  dsimp only
  split <;> split
  · exact ⟨hne hcaller (by simp_all), hne hcallee (by simp_all)⟩
  · exact ⟨hne hcaller (by simp_all), hcallee⟩
  · exact ⟨hcaller, hne hcallee (by simp_all)⟩
  · exact ⟨hcaller, hcallee⟩

theorem rxSection_keeps {p' : PcscfNode} {msg : SipMessage} (h : RxSection p msg p') :
    Keeps callId p p' := by
  cases h with
  | unchanged => exact keeps_refl
  | entered _ _ => exact enterInvite_keeps msg
  | answered target _ _ => exact keeps_refl

end Records

section Scscf

variable {node : ScscfNode} {msg : SipMessage} {callId : Str} {cs : CallState}

theorem setCall_lookup {stored : CallState}
    (h : (setCall node stored msg.callId).calls.lookup callId = some cs) :
    node.calls.lookup callId = some cs ∨ msg.callId = callId ∧ stored = cs := by
  by_cases hid : callId = msg.callId
  · subst hid
    rw [setCall, AList.lookup_insert] at h
    exact Or.inr ⟨rfl, Option.some.inj h⟩
  · rw [setCall, AList.lookup_insert_ne hid] at h
    exact Or.inl h

theorem handleReInvite_calls {old : CallState} (hold : node.calls.lookup msg.callId = some old)
    (h : (handleReInvite node old msg).1.calls.lookup callId = some cs) :
    ∃ cs', node.calls.lookup callId = some cs' ∧ cs'.callerImpu = cs.callerImpu ∧
      cs'.calleeImpu = cs.calleeImpu := by
  have hset : ∀ stored : CallState, stored.callerImpu = old.callerImpu →
      stored.calleeImpu = old.calleeImpu →
      (setCall node stored msg.callId).calls.lookup callId = some cs →
      ∃ cs', node.calls.lookup callId = some cs' ∧ cs'.callerImpu = cs.callerImpu ∧
        cs'.calleeImpu = cs.calleeImpu := by
    intro stored hcaller hcallee hlookup
    rcases setCall_lookup hlookup with hsame | ⟨hid, rfl⟩
    · exact ⟨cs, hsame, rfl, rfl⟩
    · exact ⟨old, hid ▸ hold, hcaller.symm, hcallee.symm⟩
  unfold handleReInvite at h
  dsimp only at h
  split at h
  · exact hset { old with onHold := true } rfl rfl h
  · split at h
    · exact hset { old with inConference := true } rfl rfl h
    · split at h
      · exact ⟨cs, h, rfl, rfl⟩
      · exact hset { old with onHold := false } rfl rfl h

theorem scscfHandle_calls (h : (scscfHandle node msg).1.calls.lookup callId = some cs) :
    (∃ cs', node.calls.lookup callId = some cs' ∧ cs'.callerImpu = cs.callerImpu ∧
        cs'.calleeImpu = cs.calleeImpu) ∨
      msg.type = .invite ∧ msg.callId = callId ∧ msg.sipFrom = cs.callerImpu ∧
        msg.sipTo = cs.calleeImpu := by
  unfold scscfHandle at h
  split at h
  case h_2 htype =>
    unfold handleInvite at h
    split at h
    · rename_i old hold
      exact Or.inl (handleReInvite_calls hold h)
    · dsimp only at h
      split at h
      · rcases setCall_lookup h with hsame | ⟨hid, rfl⟩
        · exact Or.inl ⟨cs, hsame, rfl, rfl⟩
        · exact Or.inr ⟨htype, hid, rfl, rfl⟩
      · exact Or.inl ⟨cs, h, rfl, rfl⟩
  case h_5 =>
    refine Or.inl ⟨cs, ?_, rfl, rfl⟩
    by_cases hid : callId = msg.callId
    · subst hid
      rw [handleBye, AList.lookup_erase] at h
      cases h
    · rwa [handleBye, AList.lookup_erase_ne hid] at h
  all_goals exact Or.inl ⟨cs, h, rfl, rfl⟩

end Scscf

section Steps

variable {label : Nat → UeLabel} {callId : Str} {s s' : State} {es : List Event}

theorem Fresh.agreement (h : Fresh callId s) : Agreement callId s where
  forwarding n msg hthread hid := absurd hid (h.forwarding n msg hthread)
  cleaning := h.cleaning
  link msg hmsg hid := absurd hid (h.link msg hmsg)
  calls cs hcs := by
    rw [h.call] at hcs
    cases hcs

theorem Agreement.of_keeps (h : Agreement callId s) (hkeeps : Keeps callId s.pcscf s'.pcscf)
    (hthread : ∀ n, (s'.conns n).session.thread = (s.conns n).session.thread ∨
      (s'.conns n).session.thread = .receiving)
    (hlink : s'.toScscf = s.toScscf) (hcalls : s'.scscf.calls = s.scscf.calls) :
    Agreement callId s' where
  forwarding n msg hforwarding hid := by
    rcases hthread n with hsame | hdone
    · obtain ⟨hbye, hrecord⟩ := h.forwarding n msg (hsame ▸ hforwarding) hid
      exact ⟨hbye, fun htype => hkeeps _ _ (hrecord htype)⟩
    · rw [hdone] at hforwarding
      cases hforwarding
  cleaning n hcleaning := by
    rcases hthread n with hsame | hdone
    · exact h.cleaning n (hsame ▸ hcleaning)
    · rw [hdone] at hcleaning
      cases hcleaning
  link msg hmsg hid htype := hkeeps _ _ (h.link msg (hlink ▸ hmsg) hid htype)
  calls cs hcs := hkeeps _ _ (h.calls cs (hcalls ▸ hcs))

theorem handleFromUe_records (s : State) (n : Nat) (msg : SipMessage) (htype : msg.type = .invite)
    (hfrom : msg.sipFrom ≠ []) :
    Recorded (handleFromUe s n msg).1.pcscf msg.callId msg.sipFrom msg.sipTo := by
  simp [handleFromUe, htype, Recorded, nonEmptyOr, hfrom]

theorem handleFromUe_keeps (s : State) (n : Nat) (msg : SipMessage)
    (hother : msg.type = .invite → callId ≠ msg.callId) :
    Keeps callId s.pcscf (handleFromUe s n msg).1.pcscf := by
  rintro caller callee ⟨hcaller, hcallee⟩
  unfold handleFromUe
  split
  · exact ⟨hcaller, hcallee⟩
  · rename_i htype
    exact ⟨(AList.lookup_insert_ne (hother htype)).trans hcaller,
      (AList.lookup_insert_ne (hother htype)).trans hcallee⟩
  · exact ⟨hcaller, hcallee⟩

/-- A phone's INVITE that names other parties replaces the record. -/
theorem other_parties_replace_record {n : Nat} {msg : SipMessage} (htype : msg.type = .invite)
    (hfrom : msg.sipFrom ≠ []) {caller callee : Str}
    (hother : ¬ (caller = msg.sipFrom ∧ callee = msg.sipTo)) :
    ¬ Recorded (handleFromUe s n msg).1.pcscf msg.callId caller callee := by
  rintro ⟨hcaller, hcallee⟩
  obtain ⟨hnewCaller, hnewCallee⟩ := handleFromUe_records s n msg htype hfrom
  rw [hnewCaller] at hcaller
  rw [hnewCallee] at hcallee
  exact hother ⟨(Option.some.inj hcaller).symm, (Option.some.inj hcallee).symm⟩

theorem read_keeps {n : Nat} {msg : SipMessage} (hfrom : msg.type = .invite → msg.sipFrom ≠ [])
    (hsame : msg.callId = callId → msg.type = .invite →
      (∀ caller ∈ s.pcscf.callToCaller.lookup callId, caller = msg.sipFrom) ∧
        ∀ callee ∈ s.pcscf.callToCallee.lookup callId, callee = msg.sipTo) :
    Keeps callId s.pcscf (handleFromUe s n msg).1.pcscf := by
  by_cases hid : msg.callId = callId
  · by_cases htype : msg.type = .invite
    · rintro caller callee ⟨hcaller, hcallee⟩
      obtain ⟨hsameCaller, hsameCallee⟩ := hsame hid htype
      obtain rfl := hsameCaller caller hcaller
      obtain rfl := hsameCallee callee hcallee
      subst hid
      exact handleFromUe_records s n msg htype (hfrom htype)
    · exact handleFromUe_keeps s n msg fun hinvite => absurd hinvite htype
  · exact handleFromUe_keeps s n msg fun _ => Ne.symm hid

theorem read_agreement (h : Agreement callId s) {n : Nat} {msg : SipMessage}
    (hfrom : msg.type = .invite → msg.sipFrom ≠ []) {s₁ : State}
    (hthread : ∀ m, (s₁.conns m).session.thread =
      if m = n then .forwarding msg else (s.conns m).session.thread)
    (hlink : s₁.toScscf = s.toScscf) (hscscf : s₁.scscf = s.scscf)
    (hbye : msg.callId = callId → msg.type ≠ .bye)
    (hkeeps : Keeps callId s.pcscf (handleFromUe s₁ n msg).1.pcscf) :
    Agreement callId (handleFromUe s₁ n msg).1 := by
  have henters := handleFromUe_enters s₁ n msg
  refine ⟨fun m msg' hforwarding hid => ?_, fun m hcleaning => ?_, fun msg' hmsg' hid htype => ?_,
    fun cs hcs => ?_⟩
  · rw [henters.thread, hthread] at hforwarding
    split at hforwarding
    · obtain rfl := UeThread.forwarding.inj hforwarding
      refine ⟨hbye hid, fun htype => ?_⟩
      rw [← hid]
      exact handleFromUe_records s₁ n msg htype (hfrom htype)
    · obtain ⟨hnotBye, hrecord⟩ := h.forwarding m msg' hforwarding hid
      exact ⟨hnotBye, fun htype => hkeeps _ _ (hrecord htype)⟩
  · rw [henters.thread, hthread] at hcleaning
    split at hcleaning
    · cases hcleaning
    · exact h.cleaning m hcleaning
  · rw [henters.toScscf, hlink] at hmsg'
    exact hkeeps _ _ (h.link msg' hmsg' hid htype)
  · rw [henters.scscf, hscscf] at hcs
    exact hkeeps _ _ (h.calls cs hcs)

theorem forward_agreement (h : Agreement callId s) {n : Nat} {msg : SipMessage}
    (hforwarding : (s.conns n).session.thread = .forwarding msg) (thread : UeThread)
    (hthread : thread = if msg.type = .bye then .cleaningUp msg.callId else .receiving) :
    Agreement callId (setThread { s with toScscf := s.toScscf ++ [msg] } n thread) := by
  refine ⟨fun m msg' hmsg' hid => ?_, fun m hcleaning => ?_, fun msg' hmsg' hid htype => ?_,
    h.calls⟩
  · rw [setThread_thread] at hmsg'
    split at hmsg'
    · rw [hthread] at hmsg'
      split at hmsg' <;> cases hmsg'
    · exact h.forwarding m msg' hmsg' hid
  · rw [setThread_thread] at hcleaning
    split at hcleaning
    · rw [hthread] at hcleaning
      split at hcleaning
      · rename_i hbye
        exact (h.forwarding n msg hforwarding (UeThread.cleaningUp.inj hcleaning)).1 hbye
      · cases hcleaning
    · exact h.cleaning m hcleaning
  · rcases List.mem_append.mp hmsg' with hold | hnew
    · exact h.link msg' hold hid htype
    · obtain rfl := List.mem_singleton.mp hnew
      exact (h.forwarding n msg' hforwarding hid).2 htype

theorem scscf_agreement (h : Agreement callId s) {msg : SipMessage} {rest : List SipMessage}
    (hlink : s.toScscf = msg :: rest) (toPcscf : List SipMessage) :
    Agreement callId
      { s with toScscf := rest, scscf := (scscfHandle s.scscf msg).1, toPcscf := toPcscf } := by
  refine ⟨h.forwarding, h.cleaning, fun msg' hmsg' => ?_, fun cs hcs => ?_⟩
  · exact h.link msg' (hlink ▸ List.mem_cons_of_mem msg hmsg')
  · rcases scscfHandle_calls hcs with ⟨cs', hcs', hcaller, hcallee⟩ | ⟨htype, hid, hfrom, hto⟩
    · rw [← hcaller, ← hcallee]
      exact h.calls cs' hcs'
    · rw [← hfrom, ← hto]
      exact h.link msg (hlink ▸ List.mem_cons_self) hid htype

/-- One step of the dialog keeps the record, and everything agrees with it. -/
theorem step_agreement {tr : List Event} {i : Input} (hlinks : PhoneLinks label s)
    (h : Agreement callId s)
    (hguard : InDialog callId tr s i)
    (hstep : step label s i = some (s', es)) :
    Agreement callId s' ∧ Keeps callId s.pcscf s'.pcscf := by
  have hquiet : Keeps callId s.pcscf s'.pcscf →
      (∀ n, (s'.conns n).session.thread = (s.conns n).session.thread ∨
        (s'.conns n).session.thread = .receiving) →
      s'.toScscf = s.toScscf → s'.scscf.calls = s.scscf.calls →
      Agreement callId s' ∧ Keeps callId s.pcscf s'.pcscf :=
    fun hkeeps hthread hlink hcalls => ⟨h.of_keeps hkeeps hthread hlink hcalls, hkeeps⟩
  cases step_cases hstep with
  | command n cmd => exact hquiet keeps_refl (fun m => Or.inl (phoneStep_thread s n _ m)) rfl rfl
  | @ueReceive n msg rest _ =>
      refine hquiet keeps_refl (fun m => Or.inl ?_) rfl rfl
      exact (phoneStep_thread _ n _ m).trans
        (modify_thread s n (fun c => { c with downlink := rest }) rfl m)
  | @pcscfRead n msg rest _ huplink =>
      have hread : msg ∈ readFromPhone s (.pcscfRead n) := by simp [readFromPhone, huplink]
      have hfrom : msg.type = .invite → msg.sipFrom ≠ [] := by
        intro htype
        rw [(hlinks n msg (huplink ▸ List.mem_cons_self)).invite htype]
        exact ueConfigs_impu_ne_nil (label n)
      have hkeeps : ∀ s₁ : State, s₁.pcscf = s.pcscf →
          Keeps callId s.pcscf (handleFromUe s₁ n msg).1.pcscf := by
        intro s₁ hs₁
        rw [← hs₁]
        exact read_keeps hfrom (hs₁ ▸ hguard.2 msg hread)
      refine ⟨read_agreement h hfrom (fun m => ?_) rfl rfl (hguard.1 msg hread) (hkeeps _ rfl),
        hkeeps _ rfl⟩
      rw [setThread_thread]
      split
      · rfl
      · exact modify_thread s n (fun c => { c with uplink := rest }) rfl m
  | pcscfForward hforwarding => exact ⟨forward_agreement h hforwarding _ rfl, keeps_refl⟩
  | @pcscfCleanUp n other hcleaning =>
      have hother : callId ≠ other := by
        rintro rfl
        exact h.cleaning n hcleaning
      refine hquiet (cleanUp_keeps hother) (fun m => ?_) rfl rfl
      rw [setThread_thread]
      split
      · exact Or.inr rfl
      · exact Or.inl rfl
  | @pcscfReceive msg rest _ _ =>
      obtain ⟨p, hsection, hdelivers⟩ := handleFromScscf_delivers { s with toPcscf := rest } msg
      refine hquiet ?_ (fun n => Or.inl (hdelivers.thread n)) hdelivers.toScscf ?_
      · rw [hdelivers.pcscf]
        exact rxSection_keeps hsection
      · rw [hdelivers.scscf]
  | @pcscfNotify target msg _ =>
      have hdelivers := notify_delivers s target msg
      refine hquiet ?_ (fun n => Or.inl (hdelivers.thread n)) hdelivers.toScscf ?_
      · rw [hdelivers.pcscf]
        exact keeps_refl
      · rw [hdelivers.scscf]
  | scscfReceive hlink => exact ⟨scscf_agreement h hlink _, keeps_refl⟩
  | setBarred _ _ => exact hquiet keeps_refl (fun _ => Or.inl rfl) rfl rfl

end Steps

section Runs

variable {label : Nat → UeLabel} {callId : Str} {tr : List Event} {s s' : State}

theorem run_agreement (hlinks : PhoneLinks label s) (h : Agreement callId s)
    (hrun : Run (step label) (InDialog callId) s tr s') :
    PhoneLinks label s' ∧ Agreement callId s' ∧ Keeps callId s.pcscf s'.pcscf := by
  refine hrun.invariant
    (I := fun _ s' => PhoneLinks label s' ∧ Agreement callId s' ∧ Keeps callId s.pcscf s'.pcscf)
    ⟨hlinks, h, keeps_refl⟩ ?_
  rintro _ s₁ i s₂ es ⟨hlinks₁, h₁, hkeeps₁⟩ hguard hstep
  obtain ⟨h₂, hkeeps₂⟩ := step_agreement hlinks₁ h₁ hguard hstep
  exact ⟨step_links hlinks₁ hstep, h₂, fun a b hab => hkeeps₂ a b (hkeeps₁ a b hab)⟩

/-- From the first INVITE of a call up to its BYE. -/
theorem dialog_agreement {tr₀ tr₁ tr₂ : List Event} {s₀ s₁ s₂ : State}
    (hreach : Reach (step label) init tr₀ s₀) (hfresh : Fresh callId s₀)
    (hset : Run (step label) (InDialog callId) s₀ tr₁ s₁)
    (hrun : Run (step label) (InDialog callId) s₁ tr₂ s₂) :
    (∀ caller callee, Recorded s₁.pcscf callId caller callee →
        Recorded s₂.pcscf callId caller callee) ∧
      ∀ cs, s₂.scscf.calls.lookup callId = some cs →
        Recorded s₂.pcscf callId cs.callerImpu cs.calleeImpu := by
  obtain ⟨hlinks₁, h₁, -⟩ := run_agreement (reach_links hreach) hfresh.agreement hset
  obtain ⟨-, h₂, hkeeps⟩ := run_agreement hlinks₁ h₁ hrun
  exact ⟨hkeeps, h₂.calls⟩

/-- A caller who holds and resumes. -/
theorem held_call_keeps_parties : ∃ tr s, Reach (step threePhones) init tr s ∧
    Recorded s.pcscf callAB impuA impuB ∧ ∀ cs, s.scscf.calls.lookup callAB = some cs →
      Recorded s.pcscf callAB cs.callerImpu cs.calleeImpu := by
  have hset : ((exec (step threePhones) init establishedCall).map fun r =>
      decide (Admits (step threePhones) (InDialog callAB) [] init establishedCall ∧
        Recorded r.1.pcscf callAB impuA impuB)) = some true := by
    decide +kernel
  have hhold : ((exec (step threePhones) init establishedCall).bind fun r =>
      (exec (step threePhones) r.1 (signalled 0 .hold ++ signalled 0 .resume)).map fun _ =>
        decide (Admits (step threePhones) (InDialog callAB) [] r.1
          (signalled 0 .hold ++ signalled 0 .resume))) = some true := by
    decide +kernel
  obtain ⟨⟨s₁, tr₁⟩, hexec₁, hset⟩ := Option.map_eq_some_iff.mp hset
  obtain ⟨hadmits₁, hrecorded⟩ := of_decide_eq_true hset
  rw [hexec₁, Option.bind_some] at hhold
  obtain ⟨⟨s₂, tr₂⟩, hexec₂, hadmits₂⟩ := Option.map_eq_some_iff.mp hhold
  have hrun₁ := run_of_exec _ tr₁ Run.nil hadmits₁ hexec₁
  have hrun₂ := run_of_exec _ tr₂ Run.nil (of_decide_eq_true hadmits₂) hexec₂
  obtain ⟨hkeeps, hcalls⟩ := dialog_agreement Run.nil
    ⟨by simp [init], by simp [init], by simp [init], rfl⟩ hrun₁ hrun₂
  exact ⟨_, s₂, hrun₁.reach.trans hrun₂.reach, hkeeps impuA impuB hrecorded, hcalls⟩

/-- The caller adds a third party, whose INVITE replaces the callee at the P-CSCF only. -/
theorem conference_replaces_callee : ∃ tr s,
    Run (step threePhones) (BeforeBye callAB) init tr s ∧
      Recorded s.pcscf callAB impuA impuC ∧
      storedParties s.scscf callAB = some (impuA, impuB) := by
  have hall : ((exec (step threePhones) init
      (establishedCall ++ signalled 0 (.conference (lit "C")))).map fun r =>
        decide (Admits (step threePhones) (BeforeBye callAB) [] init
            (establishedCall ++ signalled 0 (.conference (lit "C"))) ∧
          Recorded r.1.pcscf callAB impuA impuC ∧
          storedParties r.1.scscf callAB = some (impuA, impuB))) = some true := by
    decide +kernel
  obtain ⟨⟨s, tr⟩, hexec, hall⟩ := Option.map_eq_some_iff.mp hall
  obtain ⟨hadmits, hparties⟩ := of_decide_eq_true hall
  exact ⟨tr, s, run_of_exec _ tr Run.nil hadmits hexec, hparties⟩

end Runs

end MobileCore.DialogAgreement
