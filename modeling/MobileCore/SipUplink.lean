import MobileCore.SharedUplink
import MobileCore.SipFrames

/-!
# The connection from the P-CSCF to the S-CSCF

The machines of whole messages put a message that a phone's thread passes on into the S-CSCF's hands
in one step. Here the thread writes it in calls of `send`, and no lock keeps the threads apart.
-/

namespace MobileCore.SipUplink

open CallSessionControl LabelledRuns LayeredMachines SharedUplink SipPhones
open SipFrames (Handler Represents SipTag Written field readFirst represents_written restrict
  typeOfCode write)
open TlvMessages (MessageReader)

section Payloads

def handlers : List Handler :=
  [.pcscfFromUe, .pcscfFromScscf, .scscfRegister, .scscfInvite, .scscf200Ok, .scscfBye,
    .scscfUpdate, .ueIncoming]

def tags : List SipTag := [.sipFrom, .sipTo, .contact, .callId, .impu, .impi, .sdp, .reason]

theorem mem_handlers (handler : Handler) : handler ∈ handlers := by
  cases handler <;> decide

theorem mem_tags (tag : SipTag) : tag ∈ tags := by
  cases tag <;> decide

instance (payload : List UInt8) (msg : SipMessage) : Decidable (Represents payload msg) :=
  decidable_of_iff
    (typeOfCode (MessageReader.create payload).msgType = some msg.type ∧
      (∀ handler ∈ handlers, handler.read payload = some (restrict handler.tags msg)) ∧
      ∀ tag ∈ tags, readFirst tag (MessageReader.create payload).toCursor = some (field msg tag))
    ⟨fun h => ⟨h.1, fun handler => h.2.1 handler (mem_handlers handler),
        fun tag => h.2.2 tag (mem_tags tag)⟩,
      fun h => ⟨h.type, fun handler _ => h.read handler, fun tag _ => h.first tag⟩⟩

/-- A payload that carries the message. -/
def payloadOf (msg : SipMessage) : List UInt8 := (write msg tags 0).udpPayload

/-- The frame that has every field is short enough to be read. -/
def Short (msg : SipMessage) : Prop :=
  8 + (tags.map fun tag => 4 + (field msg tag).length).sum ≤ 65536

instance (msg : SipMessage) : Decidable (Short msg) := inferInstanceAs (Decidable (_ ≤ _))

theorem represents_payloadOf {msg : SipMessage} (h : Short msg) :
    Represents (payloadOf msg) msg ∧ 1 ≤ (payloadOf msg).length ∧
      (payloadOf msg).length ≤ 65536 := by
  let w : Written :=
    { msg, order := tags, seq := 0, covers := fun tag htag => absurd (mem_tags tag) htag, fits := h }
  have hlength : (payloadOf msg).length = _ := w.length_payload
  refine ⟨represents_written w, ?_, ?_⟩
  · rw [hlength]
    omega
  · rw [hlength]
    exact h

end Payloads

def handing (s : State) (n : Nat) : Option SipMessage :=
  match (s.conns n).session.thread with
  | .forwarding msg => some msg
  | _ => none

def port : CallSessionControl.Input → Port
  | .pcscfForward n => .put n
  | .scscfReceive => .take
  | _ => .aside

/-- The phones may have written, but nothing has changed for the threads and the S-CSCF. -/
structure Quiet (s s' : State) : Prop where
  toScscf : s'.toScscf = s.toScscf
  thread : ∀ n, (s'.conns n).session.thread = (s.conns n).session.thread

section Steps

variable {label : Nat → UeLabel} {s s' : State} {es : List CallSessionControl.Event}

theorem handing_of_thread {n : Nat} (h : (s'.conns n).session.thread = (s.conns n).session.thread) :
    handing s' n = handing s n := by
  rw [handing, handing, h]

theorem Quiet.handing (h : Quiet s s') : SipUplink.handing s' = SipUplink.handing s := by
  funext n
  exact handing_of_thread (h.thread n)

theorem quiet_of_delivers {s₁ : State} (h : Delivers s₁ s') (htoScscf : s₁.toScscf = s.toScscf)
    (hconns : s₁.conns = s.conns) : Quiet s s' where
  toScscf := h.toScscf.trans htoScscf
  thread n := by rw [h.thread n, hconns]

theorem aside_step {i : CallSessionControl.Input} (hport : port i = .aside)
    (hstep : step label s i = some (s', es)) :
    s'.toScscf = s.toScscf ∧ ∀ n msg, handing s n = some msg → handing s' n = some msg := by
  have hquiet (h : Quiet s s') :
      s'.toScscf = s.toScscf ∧ ∀ n msg, handing s n = some msg → handing s' n = some msg :=
    ⟨h.toScscf, fun n msg hmsg => h.handing ▸ hmsg⟩
  cases step_cases hstep with
  | command n cmd => exact hquiet ⟨rfl, phoneStep_thread s n _⟩
  | @ueReceive n msg rest _ =>
      refine hquiet ⟨rfl, fun m => (phoneStep_thread _ n _ m).trans ?_⟩
      exact modify_thread s n (fun c => { c with downlink := rest }) rfl m
  | @pcscfRead n msg rest hthread _ =>
      have henters := handleFromUe_enters
        (setThread (s.modify n fun c => { c with uplink := rest }) n (.forwarding msg)) n msg
      refine ⟨henters.toScscf, fun m out hout => ?_⟩
      have hne : m ≠ n := by
        rintro rfl
        rw [handing, hthread] at hout
        cases hout
      rw [handing_of_thread, hout]
      rw [henters.thread, setThread_thread, if_neg hne]
      exact modify_thread s n (fun c => { c with uplink := rest }) rfl m
  | pcscfForward _ => cases hport
  | @pcscfCleanUp n callId hthread =>
      refine ⟨rfl, fun m out hout => ?_⟩
      have hne : m ≠ n := by
        rintro rfl
        rw [handing, hthread] at hout
        cases hout
      rw [handing_of_thread, hout]
      exact (setThread_thread _ n _ m).trans (if_neg hne)
  | @pcscfReceive msg rest _ _ =>
      obtain ⟨p, -, hdelivers⟩ := handleFromScscf_delivers { s with toPcscf := rest } msg
      exact hquiet (quiet_of_delivers hdelivers rfl rfl)
  | @pcscfNotify target msg _ =>
      exact hquiet (quiet_of_delivers (notify_delivers s target msg) rfl rfl)
  | scscfReceive _ => cases hport
  | setBarred _ _ => exact hquiet ⟨rfl, fun _ => rfl⟩

theorem put_step {n : Nat} (hstep : step label s (.pcscfForward n) = some (s', es)) :
    (∃ msg, handing s n = some msg ∧ s'.toScscf = s.toScscf ++ [msg]) ∧
      ∀ m ≠ n, handing s' m = handing s m := by
  cases step_cases hstep with
  | @pcscfForward n msg hthread =>
      refine ⟨⟨msg, by rw [handing, hthread], rfl⟩, fun m hm => handing_of_thread ?_⟩
      exact (setThread_thread _ n _ m).trans (if_neg hm)

theorem take_step (hstep : step label s .scscfReceive = some (s', es)) :
    (∃ msg, s.toScscf = msg :: s'.toScscf) ∧ handing s' = handing s := by
  cases step_cases hstep with
  | @scscfReceive msg rest htoScscf => exact ⟨⟨msg, htoScscf⟩, rfl⟩

end Steps

/-- The connection of a machine whose inputs are those of the calls' machine, and others with which
only the phones have to do. A thread passes on whatever payload it read its message in, and what
nobody wrote may be read as anything. -/
def link {ι ε : Type} (label : Nat → UeLabel) (machine : Machine State ι ε)
    (ims : CallSessionControl.Input → ι) (ims? : ι → Option CallSessionControl.Input)
    (hims : ∀ {j i}, ims? j = some i ↔ j = ims i)
    (hstep : ∀ {s s' j es}, machine s j = some (s', es) →
      (∃ i es', ims? j = some i ∧ step label s i = some (s', es')) ∨ ims? j = none ∧ Quiet s s') :
    Link State ι ε SipMessage where
  machine := machine
  port j := (ims? j).elim .aside port
  put n := ims (.pcscfForward n)
  take := ims .scscfReceive
  handing := handing
  queue := State.toScscf
  setQueue msgs s := { s with toScscf := msgs }
  carries payload msg := decide (Represents payload msg)
  mayRead _ _ := true
  port_put {j n} hport := by
    cases hj : ims? j with
    | none =>
        rw [hj] at hport
        cases hport
    | some i =>
        rw [hj] at hport
        cases i <;> cases hport
        exact hims.mp hj
  port_take {j} hport := by
    cases hj : ims? j with
    | none =>
        rw [hj] at hport
        cases hport
    | some i =>
        rw [hj] at hport
        cases i <;> cases hport
        exact hims.mp hj
  aside_step {s s' j es} hport hj := by
    rcases hstep hj with ⟨i, es', hi, hlower⟩ | ⟨-, hquiet⟩
    · rw [hi] at hport
      exact aside_step hport hlower
    · exact ⟨hquiet.toScscf, fun n msg hmsg => hquiet.handing ▸ hmsg⟩
  put_step {s s' n es} hj := by
    rcases hstep hj with ⟨i, es', hi, hlower⟩ | ⟨hnone, -⟩
    · obtain rfl := Option.some.inj (hi.symm.trans (hims.mpr rfl))
      exact put_step hlower
    · cases hnone.symm.trans (hims.mpr rfl)
  take_step {s s' es} hj := by
    rcases hstep hj with ⟨i, es', hi, hlower⟩ | ⟨hnone, -⟩
    · obtain rfl := Option.some.inj (hi.symm.trans (hims.mpr rfl))
      exact take_step hlower
    · cases hnone.symm.trans (hims.mpr rfl)

/-- The connection of a machine that takes the steps of the calls' machine and shows something else
of them. -/
def linkOf {ε : Type} (label : Nat → UeLabel) (machine : Machine State CallSessionControl.Input ε)
    (hstep : ∀ {s s' i es}, machine s i = some (s', es) →
      ∃ es', step label s i = some (s', es')) :
    Link State CallSessionControl.Input ε SipMessage :=
  link label machine id some Option.some_inj fun h => Or.inl ⟨_, _, rfl, (hstep h).choose_spec⟩

section Sizes

/-- The message that a step puts on the connection is short enough for a frame. -/
def PutsShort (s : State) : Option CallSessionControl.Input → Prop
  | some (.pcscfForward n) => ∀ msg ∈ handing s n, Short msg
  | _ => True

instance PutsShort.decidable (s : State) :
    (i : Option CallSessionControl.Input) → Decidable (PutsShort s i)
  | some (.pcscfForward n) => inferInstanceAs (Decidable (∀ msg ∈ handing s n, Short msg))
  | none | some (.command _ _) | some (.ueReceive _) | some (.pcscfRead _)
  | some (.pcscfCleanUp _) | some .pcscfReceive | some .pcscfNotify | some .scscfReceive
  | some (.setBarred _ _) => .isTrue trivial

variable {ι ε : Type} {label : Nat → UeLabel}

theorem link_fits {machine : Machine State ι ε} {ims : CallSessionControl.Input → ι}
    {ims? : ι → Option CallSessionControl.Input} (hims : ∀ {j i}, ims? j = some i ↔ j = ims i)
    (hstep : ∀ {s s' j es}, machine s j = some (s', es) →
      (∃ i es', ims? j = some i ∧ step label s i = some (s', es')) ∨ ims? j = none ∧ Quiet s s')
    (s : State) (j : ι) (h : PutsShort s (ims? j)) :
    Fits (link label machine ims ims? hims hstep) payloadOf s j := by
  intro n hport msg hmsg
  obtain rfl : j = ims (.pcscfForward n) := (link label machine ims ims? hims hstep).port_put hport
  rw [hims.mpr rfl] at h
  obtain ⟨hrepresents, hsizes⟩ := represents_payloadOf (h msg hmsg)
  exact ⟨decide_eq_true hrepresents, hsizes⟩

theorem linkOf_fits {machine : Machine State CallSessionControl.Input ε}
    (hstep : ∀ {s s' i es}, machine s i = some (s', es) → ∃ es', step label s i = some (s', es'))
    (s : State) (i : CallSessionControl.Input) (h : PutsShort s (some i)) :
    Fits (linkOf label machine hstep) payloadOf s i :=
  link_fits Option.some_inj (fun h => Or.inl ⟨_, _, rfl, (hstep h).choose_spec⟩) s i h

end Sizes

end MobileCore.SipUplink
