import MobileCore.AccessManagement
import MobileCore.SessionManagement

/-!
# The addresses of PDU sessions

The AMF and the SMF together: the AMF forwards a session request to the SMF and accepts it with
the address of the answer, or with a fixed one when there is no answer.
-/

namespace MobileCore.AddressAllocation

open MobileCore.AccessManagement
open MobileCore.CppText
open MobileCore.FlatObjects
open MobileCore.LabelledRuns
open MobileCore.SessionManagement
open MobileCore.SimplifiedAka
open MobileCore.WireJson

structure State where
  amf : AccessManagement.State := {}
  smf : SessionManagement.State := {}

/-- One N2 frame with what the fault injector and the UDM do while it is handled. -/
structure N2Frame where
  text : Str
  chaosDrop : Bool := false
  udm : UdmAnswer := .unreachable

def N2Frame.input (frame : N2Frame) (smf : SmfAnswer) : AccessManagement.Input :=
  { text := frame.text, chaosDrop := frame.chaosDrop, udm := frame.udm, smf }

/-- How the AMF's call of the SMF ends: no connection, a connection the SMF never serves, a
served request whose answer is lost, or a served request whose answer arrives whole. -/
inductive SmfCall where
  | unreachable
  | dropped
  | lost
  | answered
deriving DecidableEq

inductive Input where
  | n2 (frame : N2Frame) (call : SmfCall)
  | sbi (req : HttpMessage)

inductive Event where
  | amf (e : AccessManagement.Event)
  | smf (e : SessionManagement.Event)
deriving DecidableEq

/-- A request of the AMF as the SMF reads it: the first line, and what follows the blank line. -/
def httpRequest (text : Str) : HttpMessage :=
  { startLine := text.takeWhile (· != 13), body := (behind (lit "\r\n\r\n") text).getD [] }

def smfRequestOf (plmn : Plmn) (s : AccessManagement.State) (frame : N2Frame) : Option Str :=
  (handleFrame plmn s (frame.input .closed)).2.findSome? fun e =>
    match e with
    | .smfRequest text => some text
    | _ => none

def answerBody (es : List SessionManagement.Event) : Option Str :=
  es.findSome? fun e =>
    match e with
    | .created _ body _ => some body
    | _ => none

def amfStep (plmn : Plmn) (s : State) (frame : N2Frame) (smf : SmfAnswer) : State × List Event :=
  let r := handleFrame plmn s.amf (frame.input smf)
  ({ s with amf := r.1 }, r.2.map .amf)

def step (plmn : Plmn) : Machine State Input Event
  | s, .n2 frame call =>
    if ¬s.amf.alive then none
    else
      match smfRequestOf plmn s.amf frame with
      | none => some (amfStep plmn s frame .unreachable)
      | some text =>
        let served := handleOne s.smf (httpRequest text)
        match call with
        | .unreachable => some (amfStep plmn s frame .unreachable)
        | .dropped => some (amfStep plmn s frame .closed)
        | .lost =>
          if ¬s.smf.alive then none
          else
            let r := amfStep plmn { s with smf := served.1 } frame .closed
            some (r.1, served.2.map .smf ++ r.2)
        | .answered =>
          if ¬s.smf.alive then none
          else
            match answerBody served.2 with
            | none => none
            | some body =>
              let r := amfStep plmn { s with smf := served.1 } frame (.answered body)
              some (r.1, served.2.map .smf ++ r.2)
  | s, .sbi req =>
    if ¬s.smf.alive then none
    else
      let served := handleOne s.smf req
      some ({ s with smf := served.1 }, served.2.map .smf)

def init : State := {}

def acceptedAddress : Event → Option Str
  | .amf (.pduSessionAccept text) => some (get text (lit "ueIpAddress"))
  | _ => none

def addresses (tr : List Event) : List Str := tr.filterMap acceptedAddress

/-- The first two addresses and the last one of the pool, which no UE may have. -/
def reserved : List Str := [lit "10.45.0.0", lit "10.45.0.1", lit "10.45.255.255"]

/-- A session request reaches an SMF that answers it, and the SMF takes no request after the
address before the broadcast address. -/
def Served (plmn : Plmn) (_ : List Event) (s : State) : Input → Prop
  | .n2 frame call =>
    (smfRequestOf plmn s.amf frame).isSome → call = .answered ∧ s.smf.ueIpCounter < 65535
  | .sbi req => isCreate req = true → s.smf.ueIpCounter < 65535

def acceptText (ueId psi : Int) (ueIp dnn : Str) : Str :=
  obj [(lit "msgType", str (lit "PduSessionAccept")),
    (lit "ranUeNgapId", num ueId),
    (lit "pduSessionId", num psi),
    (lit "ueIpAddress", str ueIp),
    (lit "upfIp", str (lit "10.1.0.4")),
    (lit "upfTeid", str (lit "0x00000101")),
    (lit "dnn", str (if dnn.isEmpty then lit "internet" else dnn))]

theorem get_acceptText (ueId psi : Int) (ueIp dnn : Str) (h : Quoteless ueIp) :
    get (acceptText ueId psi ueIp dnn) (lit "ueIpAddress") = ueIp := by
  have hplain : Plain (lit "ueIpAddress") := by decide
  rw [acceptText, get_obj, look_plain _ hplain (by decide) (.quoted _ (by decide)), if_neg (by decide),
    look_plain _ hplain (by decide) (flat_num ueId), if_neg (by decide),
    look_plain _ hplain (by decide) (flat_num psi), if_neg (by decide),
    look_plain _ hplain (by decide) (.quoted ueIp h), if_pos rfl]

def isSession : AccessManagement.Event → Bool
  | .smfRequest _ => true
  | .pduSessionAccept _ => true
  | _ => false

theorem crash_sessionless (s : AccessManagement.State) (sent : List AccessManagement.Event)
    (h : ∀ e ∈ sent, isSession e = false) : ∀ e ∈ (crash s sent).2, isSession e = false := by
  intro e he
  rcases List.mem_append.mp he with he | he
  · exact h e he
  · rw [List.mem_singleton.mp he]
    rfl

theorem callUdm_sessionless {req : Str} {answer : UdmAnswer} {sent : List AccessManagement.Event}
    {result : Option (Bool × Str)} (hcall : callUdm req answer = (sent, result)) :
    ∀ e ∈ sent, isSession e = false := by
  obtain rfl : (callUdm req answer).1 = sent := congrArg Prod.fst hcall
  cases answer <;> simp [callUdm, isSession]

theorem handleRegistrationRequest_sessionless (plmn : Plmn) (s : AccessManagement.State)
    (i : AccessManagement.Input) :
    ∀ e ∈ (handleRegistrationRequest plmn s i).2, isSession e = false := by
  unfold handleRegistrationRequest
  split
  · exact crash_sessionless s [] (by simp)
  dsimp only
  split
  · simp [isSession]
  split
  · rename_i sent hcall
    exact crash_sessionless s sent (callUdm_sessionless hcall)
  · rename_i sent complete resp hcall
    intro e he
    rcases List.mem_append.mp he with he | he
    · exact callUdm_sessionless hcall e he
    · rw [List.mem_singleton.mp he]
      rfl

theorem handleAuthResponse_sessionless (plmn : Plmn) (s : AccessManagement.State)
    (i : AccessManagement.Input) :
    ∀ e ∈ (handleAuthResponse plmn s i).2, isSession e = false := by
  unfold handleAuthResponse
  split
  · exact crash_sessionless s [] (by simp)
  dsimp only
  split
  · simp
  split
  · simp [isSession]
  split
  · rename_i sent hcall
    exact crash_sessionless s sent (callUdm_sessionless hcall)
  · rename_i sent resp hcall
    intro e he
    rcases List.mem_append.mp he with he | he
    · exact callUdm_sessionless hcall e he
    · rw [List.mem_singleton.mp he]
      rfl

/-- What the AMF sends for a frame, depending on the answer of the SMF: the call of the SMF and
the accept, or messages of no session. -/
theorem handleFrame_session (plmn : Plmn) (s : AccessManagement.State) (frame : N2Frame) :
    (∃ ueId psi supi dnn, ∀ smf,
      handleFrame plmn s (frame.input smf) = (s, (callSmf supi psi dnn smf).1 ++
        [.pduSessionAccept (acceptText ueId psi
          (if (callSmf supi psi dnn smf).2.isEmpty then lit "10.45.0.2"
            else (callSmf supi psi dnn smf).2) dnn)])) ∨
    ∀ smf, ∀ e ∈ (handleFrame plmn s (frame.input smf)).2, isSession e = false := by
  by_cases hpdu : get frame.text (lit "msgType") = lit "PduSessionRequest"
  · have hhandle (smf : SmfAnswer) : handleFrame plmn s (frame.input smf) =
        handlePduSessionRequest s (frame.input smf) := by
      simp only [handleFrame, N2Frame.input, hpdu]
      rfl
    cases hue : stoi (get frame.text (lit "ranUeNgapId")) with
    | none =>
        right
        intro smf
        rw [hhandle, handlePduSessionRequest]
        simp only [N2Frame.input, hue]
        exact crash_sessionless s [] (by simp)
    | some ueId =>
        cases hpsi : (if (get frame.text (lit "pduSessionId")).isEmpty then some 1
            else stoi (get frame.text (lit "pduSessionId"))) with
        | none =>
            right
            intro smf
            rw [hhandle, handlePduSessionRequest]
            simp only [N2Frame.input, hue]
            split
            · exact crash_sessionless s [] (by simp)
            · rename_i hsome
              cases hpsi.symm.trans hsome
        | some psi =>
            left
            refine ⟨ueId, psi, ?supi, get frame.text (lit "dnn"), fun smf => ?accept⟩
            case accept =>
              rw [hhandle, handlePduSessionRequest]
              simp only [N2Frame.input, hue]
              split
              · rename_i hnone
                cases hpsi.symm.trans hnone
              · rename_i hsome
                obtain rfl := Option.some.inj (hpsi.symm.trans hsome)
                rfl
  · right
    intro smf
    unfold handleFrame
    dsimp only
    split
    · exact handleRegistrationRequest_sessionless plmn s _
    split
    · exact handleAuthResponse_sessionless plmn s _
    split
    · unfold handleRegistrationComplete
      split
      · exact crash_sessionless s [] (by simp)
      · simp
    split
    · rename_i hmsg
      exact absurd hmsg hpdu
    · simp

theorem smfRequestOf_session {plmn : Plmn} {s : AccessManagement.State} {frame : N2Frame}
    {ueId psi : Int} {supi dnn : Str}
    (h : ∀ smf, handleFrame plmn s (frame.input smf) = (s, (callSmf supi psi dnn smf).1 ++
      [.pduSessionAccept (acceptText ueId psi
        (if (callSmf supi psi dnn smf).2.isEmpty then lit "10.45.0.2"
          else (callSmf supi psi dnn smf).2) dnn)])) :
    ∃ text, smfRequestOf plmn s frame = some text ∧ isCreate (httpRequest text) = true := by
  refine ⟨_, by rw [smfRequestOf, h .closed]; rfl, ?_⟩
  rfl

theorem smfRequestOf_sessionless {plmn : Plmn} {s : AccessManagement.State} {frame : N2Frame}
    (h : ∀ smf, ∀ e ∈ (handleFrame plmn s (frame.input smf)).2, isSession e = false) :
    smfRequestOf plmn s frame = none := by
  rw [smfRequestOf, List.findSome?_eq_none_iff]
  intro e he
  cases e with
  | smfRequest text => cases h .closed _ he
  | _ => rfl

theorem addresses_smf (es : List SessionManagement.Event) : addresses (es.map .smf) = [] := by
  rw [addresses, List.filterMap_map, List.filterMap_eq_nil_iff]
  intro e _
  rfl

theorem addresses_append (tr es : List Event) :
    addresses (tr ++ es) = addresses tr ++ addresses es := List.filterMap_append

theorem addresses_sessionless (es : List AccessManagement.Event)
    (h : ∀ e ∈ es, isSession e = false) : addresses (es.map .amf) = [] := by
  rw [addresses, List.filterMap_map, List.filterMap_eq_nil_iff]
  intro e he
  cases e with
  | pduSessionAccept text => cases h _ he
  | _ => rfl

/-- What a served step does: it accepts no session and at most takes an address of the pool, or it
accepts a session with the address it takes. -/
theorem step_addresses {plmn : Plmn} {tr : List Event} {s s' : State} {i : Input}
    {es : List Event} (hserved : Served plmn tr s i) (h : step plmn s i = some (s', es)) :
    (addresses es = [] ∧ s'.smf.ueIpCounter = s.smf.ueIpCounter) ∨
    (s.smf.ueIpCounter < 65535 ∧ s'.smf.ueIpCounter = s.smf.ueIpCounter + 1 ∧
      (addresses es = [] ∨ addresses es = [ueIpText s.smf.ueIpCounter])) := by
  cases i with
  | sbi req =>
      simp only [step] at h
      split at h
      · cases h
      obtain ⟨rfl, rfl⟩ := Prod.ext_iff.mp (Option.some.inj h)
      rcases handleOne_allocates s.smf req with ⟨_, _, _, _, _, _, hcreate, hcounter, _⟩ | ⟨hcounter, _⟩
      · exact .inr ⟨hserved hcreate, hcounter, .inl (addresses_smf _)⟩
      · exact .inl ⟨addresses_smf _, hcounter⟩
  | n2 frame call =>
      simp only [step] at h
      split at h
      · cases h
      rcases handleFrame_session plmn s.amf frame with ⟨ueId, psi, supi, dnn, hframe⟩ | hnone
      · obtain ⟨text, htext, _⟩ := smfRequestOf_session hframe
        obtain ⟨rfl, hcounter⟩ := hserved (by rw [htext]; rfl)
        simp only [htext] at h
        split at h
        · cases h
        right
        rcases handleOne_allocates s.smf (httpRequest text) with
          ⟨supi', dnn', psi', location, reply, pkt, _, hnext, hevents⟩ | ⟨_, hnocreate⟩
        · have hbody : answerBody (handleOne s.smf (httpRequest text)).2 =
              some (contextBody supi' dnn' (ueIpText s.smf.ueIpCounter) psi') := by
            rw [hevents]
            rfl
          rw [hbody] at h
          obtain ⟨rfl, rfl⟩ := Prod.ext_iff.mp (Option.some.inj h)
          refine ⟨hcounter, hnext, .inr ?_⟩
          have haddress := get_contextBody supi' dnn' (ueIpText s.smf.ueIpCounter) psi'
            (ueIpText_quoteless _)
          have hnonempty : (ueIpText s.smf.ueIpCounter).isEmpty = false := rfl
          have hsmf : (callSmf supi psi dnn (.answered
              (contextBody supi' dnn' (ueIpText s.smf.ueIpCounter) psi'))).2 =
              ueIpText s.smf.ueIpCounter := haddress
          have hcall : addresses ((callSmf supi psi dnn (.answered
              (contextBody supi' dnn' (ueIpText s.smf.ueIpCounter) psi'))).1.map .amf) = [] := rfl
          rw [addresses_append, addresses_smf, List.nil_append, amfStep, hframe, List.map_append,
            addresses_append, hcall, hsmf, hnonempty]
          exact congrArg (fun a => [a]) (get_acceptText ueId psi _ dnn (ueIpText_quoteless _))
        · exfalso
          have hno : answerBody (handleOne s.smf (httpRequest text)).2 = none := by
            rw [answerBody, List.findSome?_eq_none_iff]
            intro e he
            cases e with
            | created location body reply => cases hnocreate _ _ _ he
            | _ => rfl
          rw [hno] at h
          cases h
      · left
        rw [smfRequestOf_sessionless hnone] at h
        obtain ⟨rfl, rfl⟩ := Prod.ext_iff.mp (Option.some.inj h)
        exact ⟨addresses_sessionless _ (hnone .unreachable), rfl⟩

/-- The addresses given so far are those of the counter's values so far, each at most once. -/
structure Inv (tr : List Event) (s : State) : Prop where
  low : 2 ≤ s.smf.ueIpCounter
  high : s.smf.ueIpCounter ≤ 65535
  given : ∀ a ∈ addresses tr, ∃ n, 2 ≤ n ∧ n < s.smf.ueIpCounter ∧ a = ueIpText n
  nodup : (addresses tr).Nodup

theorem init_inv : Inv [] init where
  low := by decide
  high := by decide
  given := by simp [addresses]
  nodup := List.nodup_nil

theorem step_inv {plmn : Plmn} {tr : List Event} {s s' : State} {i : Input} {es : List Event}
    (hinv : Inv tr s) (hserved : Served plmn tr s i) (h : step plmn s i = some (s', es)) :
    Inv (tr ++ es) s' := by
  rcases step_addresses hserved h with ⟨hnone, hsame⟩ | ⟨hlow, hnext, hsome⟩
  · constructor
    · rw [hsame]
      exact hinv.low
    · rw [hsame]
      exact hinv.high
    · rw [addresses_append, hnone, List.append_nil, hsame]
      exact hinv.given
    · rw [addresses_append, hnone, List.append_nil]
      exact hinv.nodup
  · have hcount : s'.smf.ueIpCounter.toNat = s.smf.ueIpCounter.toNat + 1 := by
      rw [hnext, UInt32.toNat_add]
      have hlow' : s.smf.ueIpCounter.toNat < 65535 := UInt32.lt_iff_toNat_lt.mp hlow
      show (s.smf.ueIpCounter.toNat + 1) % 4294967296 = s.smf.ueIpCounter.toNat + 1
      omega
    have hlow' : s.smf.ueIpCounter.toNat < 65535 := UInt32.lt_iff_toNat_lt.mp hlow
    have hmore : s.smf.ueIpCounter < s'.smf.ueIpCounter := by
      apply UInt32.lt_iff_toNat_lt.mpr
      omega
    constructor
    · exact UInt32.le_trans hinv.low (UInt32.le_of_lt hmore)
    · apply UInt32.le_iff_toNat_le.mpr
      show s'.smf.ueIpCounter.toNat ≤ 65535
      omega
    · intro a ha
      rw [addresses_append] at ha
      rcases List.mem_append.mp ha with ha | ha
      · obtain ⟨n, htwo, hn, rfl⟩ := hinv.given a ha
        exact ⟨n, htwo, UInt32.lt_trans hn hmore, rfl⟩
      · rcases hsome with hsome | hsome
        · rw [hsome] at ha
          cases ha
        · rw [hsome] at ha
          exact ⟨s.smf.ueIpCounter, hinv.low, hmore, List.mem_singleton.mp ha⟩
    · rw [addresses_append]
      rcases hsome with hsome | hsome
      · rw [hsome, List.append_nil]
        exact hinv.nodup
      · rw [hsome]
        apply List.nodup_append.mpr
        refine ⟨hinv.nodup, List.nodup_singleton _, ?_⟩
        rintro a ha b hb rfl
        obtain ⟨n, _, hn, hna⟩ := hinv.given a ha
        have hsmall : s.smf.ueIpCounter < 65536 := UInt32.lt_trans hlow (by decide)
        have hsame := ueIpText_injective (UInt32.lt_trans hn hsmall) hsmall
          (hna.symm.trans (List.mem_singleton.mp hb))
        rw [hsame] at hn
        exact UInt32.lt_irrefl _ hn

theorem reserved_eq : reserved = [ueIpText 0, ueIpText 1, ueIpText 65535] := by
  decide

/-- In every run in which the SMF answers each session request of the AMF and gives out no address
behind the last one before the broadcast address, the accepted addresses are pairwise distinct
and none is reserved. -/
theorem accepted_addresses_distinct (plmn : Plmn) {tr : List Event} {s : State}
    (hrun : Run (step plmn) (Served plmn) init tr s) :
    (addresses tr).Nodup ∧ ∀ a ∈ addresses tr, a ∉ reserved := by
  have hinv : Inv tr s := by
    refine Run.invariant (M := step plmn) (P := Served plmn) init_inv ?_ hrun
    intro tr s i s' es hinv hserved hstep
    exact step_inv hinv hserved hstep
  refine ⟨hinv.nodup, ?_⟩
  intro a ha hreserved
  obtain ⟨n, htwo, hn, rfl⟩ := hinv.given a ha
  have hhigh : n < 65535 := UInt32.lt_of_lt_of_le hn hinv.high
  have hsmall : n < 65536 := UInt32.lt_trans hhigh (by decide)
  rw [reserved_eq] at hreserved
  rcases List.mem_cons.mp hreserved with h | hreserved
  · rw [ueIpText_injective hsmall (by decide) h] at htwo
    exact absurd htwo (by decide)
  rcases List.mem_cons.mp hreserved with h | hreserved
  · rw [ueIpText_injective hsmall (by decide) h] at htwo
    exact absurd htwo (by decide)
  · rw [ueIpText_injective hsmall (by decide) (List.mem_singleton.mp hreserved)] at hhigh
    exact absurd hhigh (by decide)

instance Served.decidable (plmn : Plmn) (tr : List Event) (s : State) :
    (i : Input) → Decidable (Served plmn tr s i)
  | .n2 frame call =>
    inferInstanceAs (Decidable ((smfRequestOf plmn s.amf frame).isSome →
      call = .answered ∧ s.smf.ueIpCounter < 65535))
  | .sbi req => inferInstanceAs (Decidable (isCreate req = true → s.smf.ueIpCounter < 65535))

def sessionRequest (ueId : Int) : N2Frame :=
  { text := obj [(lit "msgType", str (lit "PduSessionRequest")), (lit "ranUeNgapId", num ueId),
      (lit "pduSessionId", num 1), (lit "dnn", str (lit "internet"))] }

/-- Two UEs whose requests the SMF answers. -/
theorem answered_addresses_distinct :
    ∃ tr s, Run (step {}) (Served {}) init tr s ∧
      addresses tr = [lit "10.45.0.2", lit "10.45.0.3"] ∧
      (addresses tr).Nodup ∧ ∀ a ∈ addresses tr, a ∉ reserved := by
  have hexec : (exec (step {}) init
      [.n2 (sessionRequest 1) .answered, .n2 (sessionRequest 2) .answered]).map
      (fun p => addresses p.2) = some [lit "10.45.0.2", lit "10.45.0.3"] := by decide +kernel
  obtain ⟨tr, s, hrun, hgiven⟩ := exists_run_of_exec (P := Served {}) _ (by decide +kernel) hexec
  exact ⟨tr, s, hrun, hgiven, accepted_addresses_distinct {} hrun⟩

/-- Two UEs whose requests find no SMF: the AMF accepts both with the same address. -/
theorem fallback_address_repeated :
    ¬∀ plmn tr s, Reach (step plmn) init tr s →
      (addresses tr).Nodup ∧ ∀ a ∈ addresses tr, a ∉ reserved := by
  intro h
  have hexec : (exec (step {}) init
      [.n2 (sessionRequest 1) .unreachable, .n2 (sessionRequest 2) .unreachable]).map
      (fun p => addresses p.2) = some [lit "10.45.0.2", lit "10.45.0.2"] := by decide +kernel
  obtain ⟨tr, s, hrun, hgiven⟩ := exists_reach_of_exec hexec
  have hnodup := (h {} tr s hrun).1
  rw [show addresses tr = [lit "10.45.0.2", lit "10.45.0.2"] from hgiven] at hnodup
  exact absurd hnodup (by decide)

end MobileCore.AddressAllocation
