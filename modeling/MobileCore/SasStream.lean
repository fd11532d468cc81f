import MobileCore.FrameTransport
import MobileCore.SasStub

/-!
# The stream to the SAS that all connections share

A thread holds the mutex while it sends its request and reads the response. Requests and responses
are frames that come and go in pieces of any size. What the SAS computes is a parameter.
-/

namespace MobileCore.SasStream

open CppText LabelledRuns FrameTransport TlvMessages
open FlatObjects (Quoteless)
open NestedObjects (get get_obj look_nil look_plain)
open WireJson (members obj str)

/-- What a reader does next that has these bytes of a frame. -/
inductive Wanted where
  | more (n : Nat)
  | refused
  | frame (payload : Str)
deriving DecidableEq

/-- `recvFrame` between two calls of `recv`. -/
def wanted (got : Str) : Wanted :=
  if got.length < 4 then .more (4 - got.length)
  else
    let plen := gu32 (got.take 4)
    if plen = 0 ∨ 65536 < plen then .refused
    else if got.length < 4 + plen.toNat then .more (4 + plen.toNat - got.length)
    else .frame (got.drop 4)

def payload? : Wanted → Option Str
  | .frame payload => some payload
  | _ => none

def sendMsg (text : Str) : Str :=
  (framed text).take (UInt32.ofNat (framed text).length).toNat

/-- A text that a frame can carry, as every text is that `recvMsg` returns. -/
abbrev Message := { text : Str // 1 ≤ text.length ∧ text.length ≤ 65536 }

/-- Where a thread is in `forwardToSas`. -/
inductive Thread where
  | outside
  | waiting (req : Message)
  | sending (req : Message) (rest : Str)
  | reading (req : Message) (got : Str)

structure State (σ : Type) where
  sas : σ
  sasUp : Bool := true
  sasIn : Str := []
  sasOut : Str := []
  toSas : Str := []
  toDp : Str := []
  mutex : Option Nat := none
  threads : Nat → Thread := fun _ => .outside

inductive Input where
  | call (c : Nat) (req : Message)
  | acquire (c : Nat)
  | send (c n : Nat)
  | sasRead (n : Nat)
  | sasSend (n : Nat)
  | read (c n : Nat)
  | eof (c : Nat)

inductive Event where
  | acquired (c : Nat) (req : Message)
  | produced (req resp : Str)
  | returned (c : Nat) (req : Message) (resp : Str)
deriving DecidableEq

section Machine

variable {σ : Type} (respond : σ → Str → Option (σ × Str))

def State.setThread (s : State σ) (c : Nat) (thread : Thread) : State σ :=
  { s with threads := Function.update s.threads c thread }

/-- The SAS with more bytes of a request; a frame that it refuses ends the connection, and a
request that it cannot handle the process. -/
def sasReceive (s : State σ) (got : Str) : State σ × List Event :=
  match wanted got with
  | .more _ => ({ s with sasIn := got }, [])
  | .refused => ({ s with sasUp := false }, [])
  | .frame req =>
    match respond s.sas req with
    | some (sas, resp) =>
      ({ s with sas := sas, sasIn := [], sasOut := sendMsg resp }, [.produced req resp])
    | none => ({ s with sasUp := false }, [])

def finish (s : State σ) (c : Nat) (req : Message) (resp : Str) : State σ × List Event :=
  ({ s with mutex := none }.setThread c .outside, [.returned c req resp])

/-- The thread with more bytes of a response; it takes the empty text for a frame it refuses. -/
def dpReceive (s : State σ) (c : Nat) (req : Message) (got : Str) : State σ × List Event :=
  match wanted got with
  | .more _ => (s.setThread c (.reading req got), [])
  | .refused => finish s c req []
  | .frame resp => finish s c req resp

def step : Machine (State σ) Input Event
  | s, .call c req =>
    match s.threads c with
    | .outside => some (s.setThread c (.waiting req), [])
    | _ => none
  | s, .acquire c =>
    match s.mutex, s.threads c with
    | none, .waiting req =>
      some ({ s with mutex := some c }.setThread c (.sending req (sendMsg req)), [.acquired c req])
    | _, _ => none
  | s, .send c n =>
    match s.threads c with
    | .sending req rest =>
      if 0 < n ∧ n ≤ rest.length then
        let thread := if n = rest.length then .reading req [] else .sending req (rest.drop n)
        some ({ s with toSas := s.toSas ++ rest.take n }.setThread c thread, [])
      else none
    | _ => none
  | s, .sasRead n =>
    match wanted s.sasIn with
    | .more k =>
      if s.sasUp ∧ s.sasOut = [] ∧ 0 < n ∧ n ≤ k ∧ n ≤ s.toSas.length then
        some (sasReceive respond { s with toSas := s.toSas.drop n } (s.sasIn ++ s.toSas.take n))
      else none
    | _ => none
  | s, .sasSend n =>
    if 0 < n ∧ n ≤ s.sasOut.length then
      some ({ s with toDp := s.toDp ++ s.sasOut.take n, sasOut := s.sasOut.drop n }, [])
    else none
  | s, .read c n =>
    match s.threads c with
    | .reading req got =>
      match wanted got with
      | .more k =>
        if 0 < n ∧ n ≤ k ∧ n ≤ s.toDp.length then
          some (dpReceive { s with toDp := s.toDp.drop n } c req (got ++ s.toDp.take n))
        else none
      | _ => none
    | _ => none
  | s, .eof c =>
    match s.threads c with
    | .reading req _ =>
      if s.sasUp = false ∧ s.sasOut = [] ∧ s.toDp = [] then some (finish s c req []) else none
    | _ => none

def init (sas : σ) : State σ := { sas := sas }

end Machine

section Frames

variable {payload got rest : Str}

theorem sendMsg_eq_framed (h : payload.length ≤ 65536) : sendMsg payload = framed payload := by
  have hlength := length_framed payload
  have hsmall : (UInt32.ofNat (framed payload).length).toNat = (framed payload).length := by
    apply UInt32.toNat_ofNat_of_lt'
    rw [hlength]
    exact Nat.lt_of_le_of_lt (Nat.add_le_add_right h 4) (by decide)
  rw [sendMsg, hsmall, List.take_length]

/-- A reader wants exactly the rest of the frame, first of its header and then of its payload. -/
theorem wanted_of_front (hsome : 1 ≤ payload.length) (hle : payload.length ≤ 65536)
    (h : got ++ rest = framed payload) :
    (rest = [] ∧ wanted got = .frame payload) ∨
      (rest ≠ [] ∧ ∃ k, wanted got = .more k ∧ 0 < k ∧ k ≤ rest.length) := by
  have hlength : got.length + rest.length = payload.length + 4 := by
    rw [← List.length_append, h, length_framed]
  rw [wanted]
  split
  · rename_i hshort
    refine Or.inr ⟨List.ne_nil_of_length_pos (by omega), _, rfl, by omega, by omega⟩
  · rename_i hlong
    have hheader : got.take 4 = pu32 (UInt32.ofNat payload.length) := by
      calc got.take 4 = (got ++ rest).take 4 := (List.take_append_of_le_length (by omega)).symm
        _ = (framed payload).take 4 := by rw [h]
        _ = pu32 (UInt32.ofNat payload.length) := List.take_left' (pu32_length _)
    rw [hheader, gu32_pu32]
    dsimp only
    rw [if_neg, toNat_length hle]
    · split
      · rename_i hmore
        refine Or.inr ⟨List.ne_nil_of_length_pos (by omega), _, rfl, by omega, by omega⟩
      · rename_i hall
        obtain rfl : rest = [] := List.eq_nil_of_length_eq_zero (by omega)
        rw [List.append_nil] at h
        refine Or.inl ⟨rfl, ?_⟩
        rw [h, framed, List.drop_left' (pu32_length _)]
    · rw [UInt32.lt_iff_toNat_lt, ← UInt32.toNat_inj, toNat_length hle]
      show ¬(payload.length = 0 ∨ 65536 < payload.length)
      omega

end Frames

def acquired? : Event → Option (Nat × Message)
  | .acquired c req => some (c, req)
  | _ => none

def produced? : Event → Option (Str × Str)
  | .produced req resp => some (req, resp)
  | _ => none

def returned? : Event → Option (Nat × Message × Str)
  | .returned c req resp => some (c, req, resp)
  | _ => none

def returns (tr : List Event) : List (Nat × Message × Str) := tr.filterMap returned?

theorem filterMap_snoc {β : Type} (f : Event → Option β) (tr : List Event) (e : Event) :
    (tr ++ [e]).filterMap f = tr.filterMap f ++ (f e).toList := by
  rw [List.filterMap_append]
  cases h : f e <;> simp [h]

theorem returns_snoc (tr : List Event) (e : Event) :
    returns (tr ++ [e]) = returns tr ++ (returned? e).toList := filterMap_snoc returned? tr e

def caller (x : Nat × Message × Str) : Nat × Message := (x.1, x.2.1)

def answer (x : Nat × Message × Str) : Str × Str := (x.2.1.val, x.2.2)

section Runs

variable {σ : Type} {respond : σ → Str → Option (σ × Str)}

def Aside (thread : Thread) : Prop := thread = .outside ∨ ∃ req, thread = .waiting req

/-- Nothing is under way between the proxy and the SAS. -/
structure Clear (s : State σ) : Prop where
  sasIn : s.sasIn = []
  sasOut : s.sasOut = []
  toSas : s.toSas = []
  toDp : s.toDp = []

/-- The exchange is between two calls, on its way to the SAS, or on its way back. -/
inductive Phase (tr : List Event) (s : State σ) : Prop where
  | free (hmutex : s.mutex = none) (hclear : Clear s)
      (hproduced : tr.filterMap produced? = (returns tr).map answer)
      (hacquired : tr.filterMap acquired? = (returns tr).map caller)
  | asking (c : Nat) (req : Message) (rest : Str) (hmutex : s.mutex = some c)
      (hthread : s.threads c = if rest = [] then .reading req [] else .sending req rest)
      (hframe : s.sasIn ++ (s.toSas ++ rest) = framed req) (hleft : s.toSas ++ rest ≠ [])
      (hout : s.sasOut = []) (hback : s.toDp = [])
      (hproduced : tr.filterMap produced? = (returns tr).map answer)
      (hacquired : tr.filterMap acquired? = (returns tr).map caller ++ [(c, req)])
  | answered (c : Nat) (req : Message) (resp got : Str) (hmutex : s.mutex = some c)
      (hthread : s.threads c = .reading req got)
      (hframe : got ++ (s.toDp ++ s.sasOut) = framed resp) (hleft : s.toDp ++ s.sasOut ≠ [])
      (hsome : 1 ≤ resp.length) (hle : resp.length ≤ 65536) (hin : s.sasIn = [])
      (hto : s.toSas = [])
      (hproduced : tr.filterMap produced? = (returns tr).map answer ++ [(req.val, resp)])
      (hacquired : tr.filterMap acquired? = (returns tr).map caller ++ [(c, req)])

structure Sound (tr : List Event) (s : State σ) : Prop where
  up : s.sasUp = true
  aside : ∀ c, s.mutex ≠ some c → Aside (s.threads c)
  phase : Phase tr s

/-- The SAS answers the request that it has read, in a frame that the proxy accepts. -/
def Fits (respond : σ → Str → Option (σ × Str)) (s : State σ) : Input → Prop
  | .sasRead n =>
    ∀ req ∈ payload? (wanted (s.sasIn ++ s.toSas.take n)),
      ∃ x ∈ respond s.sas req, 1 ≤ x.2.length ∧ x.2.length ≤ 65536
  | _ => True

instance Fits.decidable (respond : σ → Str → Option (σ × Str)) (s : State σ) :
    (i : Input) → Decidable (Fits respond s i)
  | .sasRead _ => inferInstanceAs (Decidable (∀ req ∈ payload? _, _))
  | .call _ _ => .isTrue trivial
  | .acquire _ => .isTrue trivial
  | .send _ _ => .isTrue trivial
  | .sasSend _ => .isTrue trivial
  | .read _ _ => .isTrue trivial
  | .eof _ => .isTrue trivial

variable {tr : List Event} {s : State σ} {c d : Nat}

theorem threads_setThread (s : State σ) (c d : Nat) (thread : Thread) :
    (s.setThread c thread).threads d = if d = c then thread else s.threads d :=
  Function.update_apply s.threads c thread d

theorem not_aside_sending {req : Message} {rest : Str} : ¬Aside (.sending req rest) := by
  rintro (h | ⟨req, h⟩) <;> cases h

theorem not_aside_reading {req : Message} {got : Str} : ¬Aside (.reading req got) := by
  rintro (h | ⟨req, h⟩) <;> cases h

theorem Sound.holder (h : Sound tr s) (hthread : ¬Aside (s.threads c)) : s.mutex = some c := by
  by_contra hmutex
  exact hthread (h.aside c hmutex)

theorem sound_call (h : Sound tr s) {req : Message} (hthread : s.threads c = .outside) :
    Sound tr (s.setThread c (.waiting req)) := by
  have hother {d : Nat} (hd : s.threads d ≠ .outside) :
      (s.setThread c (.waiting req)).threads d = s.threads d := by
    rw [threads_setThread, if_neg]
    rintro rfl
    exact hd hthread
  refine ⟨h.up, ?_, ?_⟩
  · intro d hd
    rw [threads_setThread]
    split
    · exact Or.inr ⟨req, rfl⟩
    · exact h.aside d hd
  · cases h.phase with
    | free hmutex hclear hproduced hacquired =>
        exact .free hmutex ⟨hclear.1, hclear.2, hclear.3, hclear.4⟩ hproduced hacquired
    | asking d req' rest hmutex hthread' hframe hleft hout hback hproduced hacquired =>
        refine .asking d req' rest hmutex ?_ hframe hleft hout hback hproduced hacquired
        rw [hother, hthread']
        rw [hthread']
        split
        · exact fun h => by cases h
        · exact fun h => by cases h
    | answered d req' resp got hmutex hthread' hframe hleft hsome hle hin hto hproduced hacquired =>
        refine .answered d req' resp got hmutex ?_ hframe hleft hsome hle hin hto hproduced hacquired
        rw [hother, hthread']
        rw [hthread']
        exact fun h => by cases h

theorem sound_acquire (h : Sound tr s) {req : Message} (hmutex : s.mutex = none)
    (hthread : s.threads c = .waiting req) :
    Sound (tr ++ [.acquired c req])
      ({ s with mutex := some c }.setThread c (.sending req (sendMsg req))) := by
  refine ⟨h.up, ?_, ?_⟩
  · intro d hd
    rw [threads_setThread, if_neg]
    · apply h.aside
      rw [hmutex]
      exact fun h => by cases h
    · rintro rfl
      exact hd rfl
  · have hframe := sendMsg_eq_framed req.2.2
    have hne : framed req.val ≠ [] := by
      apply List.ne_nil_of_length_pos
      rw [length_framed]
      exact Nat.succ_pos _
    cases h.phase with
    | free _ hclear hproduced hacquired =>
        apply Phase.asking c req (framed req) rfl
        · rw [threads_setThread, if_pos rfl, hframe, if_neg hne]
        · show s.sasIn ++ (s.toSas ++ framed req) = framed req
          rw [hclear.sasIn, hclear.toSas, List.nil_append, List.nil_append]
        · exact List.append_ne_nil_of_right_ne_nil _ hne
        · exact hclear.sasOut
        · exact hclear.toDp
        · rw [filterMap_snoc, returns_snoc, hproduced]
          exact (List.append_nil _).trans (congrArg _ (List.append_nil _)).symm
        · rw [filterMap_snoc, returns_snoc, hacquired]
          exact congrArg (fun L => List.map caller L ++ [(c, req)]) (List.append_nil _).symm
    | asking _ _ _ hheld => cases hmutex.symm.trans hheld
    | answered _ _ _ _ hheld => cases hmutex.symm.trans hheld

theorem Sound.asking_of (h : Sound tr s) (hthread : ¬Aside (s.threads c))
    (hnot : ∀ req got, s.threads c = .reading req got → s.toSas ≠ []) :
    ∃ req rest, s.mutex = some c ∧
      s.threads c = (if rest = [] then .reading req [] else .sending req rest) ∧
      s.sasIn ++ (s.toSas ++ rest) = framed req.val ∧ s.toSas ++ rest ≠ [] ∧ s.sasOut = [] ∧
      s.toDp = [] ∧ tr.filterMap produced? = (returns tr).map answer ∧
      tr.filterMap acquired? = (returns tr).map caller ++ [(c, req)] := by
  have hheld := h.holder hthread
  cases h.phase with
  | free hmutex => cases hmutex.symm.trans hheld
  | asking d req rest hmutex hd hframe hleft hout hback hproduced hacquired =>
      cases hmutex.symm.trans hheld
      exact ⟨req, rest, hmutex, hd, hframe, hleft, hout, hback, hproduced, hacquired⟩
  | answered d req resp got hmutex hd _ _ _ _ _ hto =>
      cases hmutex.symm.trans hheld
      exact absurd hto (hnot req got hd)

theorem Sound.not_eof (h : Sound tr s) (c : Nat) : step respond s (.eof c) = none := by
  rw [step]
  split
  · exact if_neg fun hdown => by cases h.up.symm.trans hdown.1
  · rfl

theorem sending_drop (req : Message) {rest : Str} {n : Nat} (hn : n ≤ rest.length) :
    (if n = rest.length then Thread.reading req [] else .sending req (rest.drop n)) =
      if rest.drop n = [] then .reading req [] else .sending req (rest.drop n) := by
  have hall : n = rest.length ↔ rest.drop n = [] := by
    rw [List.drop_eq_nil_iff]
    omega
  simp only [hall]

theorem sound_send (h : Sound tr s) {req : Message} {rest : Str} {n : Nat}
    (hthread : s.threads c = .sending req rest) (hn : n ≤ rest.length) :
    Sound tr ({ s with toSas := s.toSas ++ rest.take n }.setThread c
      (if n = rest.length then .reading req [] else .sending req (rest.drop n))) := by
  obtain ⟨req', rest', hmutex, hstate, hframe, hleft, hout, hback, hproduced, hacquired⟩ :=
    h.asking_of (c := c) (by rw [hthread]; exact not_aside_sending)
      fun req' got hreading => by cases hthread.symm.trans hreading
  obtain ⟨rfl, rfl⟩ : req = req' ∧ rest = rest' := by
    rw [hthread] at hstate
    split at hstate
    · cases hstate
    · cases hstate
      exact ⟨rfl, rfl⟩
  refine ⟨h.up, ?_, ?_⟩
  · intro d hd
    rw [threads_setThread, if_neg]
    · exact h.aside d hd
    · rintro rfl
      exact hd hmutex
  · have hparts : rest.take n ++ rest.drop n = rest := List.take_append_drop n rest
    refine Phase.asking c req (rest.drop n) hmutex ?_ ?_ ?_ hout hback hproduced hacquired
    · rw [threads_setThread, if_pos rfl, sending_drop req hn]
    · show s.sasIn ++ (s.toSas ++ rest.take n ++ rest.drop n) = framed req.val
      rw [List.append_assoc s.toSas, hparts, hframe]
    · show s.toSas ++ rest.take n ++ rest.drop n ≠ []
      rw [List.append_assoc, hparts]
      exact hleft

theorem Sound.asking_of_toSas (h : Sound tr s) (hto : s.toSas ≠ []) :
    ∃ c req rest, s.mutex = some c ∧
      s.threads c = (if rest = [] then .reading req [] else .sending req rest) ∧
      s.sasIn ++ (s.toSas ++ rest) = framed req.val ∧ s.sasOut = [] ∧ s.toDp = [] ∧
      tr.filterMap produced? = (returns tr).map answer ∧
      tr.filterMap acquired? = (returns tr).map caller ++ [(c, req)] := by
  cases h.phase with
  | free _ hclear => exact absurd hclear.toSas hto
  | asking c req rest hmutex hthread hframe _ hout hback hproduced hacquired =>
      exact ⟨c, req, rest, hmutex, hthread, hframe, hout, hback, hproduced, hacquired⟩
  | answered _ _ _ _ _ _ _ _ _ _ _ hnil => exact absurd hnil hto

theorem sound_sasRead (h : Sound tr s) {n : Nat} (hguard : Fits respond s (.sasRead n))
    (hpos : 0 < n) (hn : n ≤ s.toSas.length) :
    Sound (tr ++ (sasReceive respond { s with toSas := s.toSas.drop n }
        (s.sasIn ++ s.toSas.take n)).2)
      (sasReceive respond { s with toSas := s.toSas.drop n } (s.sasIn ++ s.toSas.take n)).1 := by
  have hto : s.toSas ≠ [] := List.ne_nil_of_length_pos (by omega)
  obtain ⟨c, req, rest, hmutex, hthread, hframe, hout, hback, hproduced, hacquired⟩ :=
    h.asking_of_toSas hto
  have hgot : s.sasIn ++ s.toSas.take n ++ (s.toSas.drop n ++ rest) = framed req.val := by
    rw [← hframe, List.append_assoc, ← List.append_assoc (s.toSas.take n), List.take_append_drop]
  rcases wanted_of_front req.2.1 req.2.2 hgot with ⟨hall, hframe'⟩ | ⟨hmore, m, hframe', -⟩
  · obtain ⟨hdrop, rfl⟩ := List.append_eq_nil_iff.mp hall
    obtain ⟨⟨sas, resp⟩, hresp, hsome, hle⟩ := hguard req.val (by rw [hframe']; rfl)
    have hne : framed resp ≠ [] := by
      apply List.ne_nil_of_length_pos
      rw [length_framed]
      exact Nat.succ_pos _
    rw [sasReceive, hframe']
    dsimp only
    rw [Option.mem_def.mp hresp]
    refine ⟨h.up, h.aside, .answered c req resp [] hmutex ?_ ?_ ?_ hsome hle rfl hdrop ?_ ?_⟩
    · exact hthread
    · show [] ++ (s.toDp ++ sendMsg resp) = framed resp
      rw [hback, sendMsg_eq_framed hle]
      rfl
    · show s.toDp ++ sendMsg resp ≠ []
      rw [sendMsg_eq_framed hle]
      exact List.append_ne_nil_of_right_ne_nil _ hne
    · rw [filterMap_snoc, returns_snoc, hproduced]
      exact congrArg (fun L => List.map answer L ++ [(req.val, resp)]) (List.append_nil _).symm
    · rw [filterMap_snoc, returns_snoc, hacquired]
      exact (List.append_nil _).trans
        (congrArg (fun L => List.map caller L ++ [(c, req)]) (List.append_nil _).symm)
  · rw [sasReceive, hframe']
    dsimp only
    rw [List.append_nil]
    exact ⟨h.up, h.aside,
      .asking c req rest hmutex hthread hgot hmore hout hback hproduced hacquired⟩

theorem sound_sasSend (h : Sound tr s) {n : Nat} (hpos : 0 < n) (hn : n ≤ s.sasOut.length) :
    Sound tr { s with toDp := s.toDp ++ s.sasOut.take n, sasOut := s.sasOut.drop n } := by
  have hout : s.sasOut ≠ [] := List.ne_nil_of_length_pos (by omega)
  refine ⟨h.up, h.aside, ?_⟩
  have hparts : s.toDp ++ s.sasOut.take n ++ s.sasOut.drop n = s.toDp ++ s.sasOut := by
    rw [List.append_assoc, List.take_append_drop]
  cases h.phase with
  | free _ hclear => exact absurd hclear.sasOut hout
  | asking _ _ _ _ _ _ _ hnil => exact absurd hnil hout
  | answered c req resp got hmutex hthread hframe hleft hsome hle hin hto hproduced hacquired =>
      refine .answered c req resp got hmutex hthread ?_ ?_ hsome hle hin hto hproduced hacquired
      · exact (congrArg (got ++ ·) hparts).trans hframe
      · exact fun hnil => hleft (hparts.symm.trans hnil)

theorem sound_read (h : Sound tr s) {req : Message} {got : Str} {n : Nat}
    (hthread : s.threads c = .reading req got) (hpos : 0 < n) (hn : n ≤ s.toDp.length) :
    Sound (tr ++ (dpReceive { s with toDp := s.toDp.drop n } c req (got ++ s.toDp.take n)).2)
      (dpReceive { s with toDp := s.toDp.drop n } c req (got ++ s.toDp.take n)).1 := by
  have hto : s.toDp ≠ [] := List.ne_nil_of_length_pos (by omega)
  have hheld := h.holder (by rw [hthread]; exact not_aside_reading)
  have haside {d : Nat} (hd : d ≠ c) : Aside (s.threads d) := by
    apply h.aside
    rw [hheld]
    exact fun heq => hd (Option.some.inj heq).symm
  cases h.phase with
  | free _ hclear => exact absurd hclear.toDp hto
  | asking _ _ _ _ _ _ _ _ hnil => exact absurd hnil hto
  | answered d req' resp got' hmutex hd hframe hleft hsome hle hin hto hproduced hacquired =>
      cases hmutex.symm.trans hheld
      cases hthread.symm.trans hd
      have hgot : got ++ s.toDp.take n ++ (s.toDp.drop n ++ s.sasOut) = framed resp := by
        rw [← hframe, List.append_assoc, ← List.append_assoc (s.toDp.take n),
          List.take_append_drop]
      rcases wanted_of_front hsome hle hgot with ⟨hall, hframe'⟩ | ⟨hmore, m, hframe', -⟩
      · obtain ⟨hdrop, hout⟩ := List.append_eq_nil_iff.mp hall
        rw [dpReceive, hframe']
        show Sound (tr ++ [Event.returned c req resp]) _
        refine ⟨h.up, ?_, .free rfl ⟨hin, hout, hto, hdrop⟩ ?_ ?_⟩
        · intro d _
          show Aside (Function.update s.threads c .outside d)
          rw [Function.update_apply]
          split
          · exact Or.inl rfl
          · rename_i hd
            exact haside hd
        · rw [filterMap_snoc, returns_snoc, List.map_append, hproduced]
          exact List.append_nil _
        · rw [filterMap_snoc, returns_snoc, List.map_append, hacquired]
          exact List.append_nil _
      · rw [dpReceive, hframe']
        dsimp only
        rw [List.append_nil]
        refine ⟨h.up, ?_, .answered c req resp (got ++ s.toDp.take n) hmutex ?_ hgot hmore hsome hle
          hin hto hproduced hacquired⟩
        · intro d hd
          rw [threads_setThread, if_neg]
          · exact h.aside d hd
          · rintro rfl
            exact hd hmutex
        · rw [threads_setThread, if_pos rfl]

theorem sound_step {s' : State σ} {i : Input} {es : List Event} (h : Sound tr s)
    (hguard : Fits respond s i) (hstep : step respond s i = some (s', es)) :
    Sound (tr ++ es) s' := by
  cases i with
  | call c req =>
      rw [step] at hstep
      split at hstep
      · rename_i hthread
        cases hstep
        rw [List.append_nil]
        exact sound_call h hthread
      · cases hstep
  | acquire c =>
      rw [step] at hstep
      split at hstep
      · rename_i req hmutex hthread
        cases hstep
        exact sound_acquire h hmutex hthread
      · cases hstep
  | send c n =>
      rw [step] at hstep
      split at hstep
      · rename_i req rest hthread
        split at hstep
        · rename_i hn
          cases hstep
          rw [List.append_nil]
          exact sound_send h hthread hn.2
        · cases hstep
      · cases hstep
  | sasRead n =>
      rw [step] at hstep
      split at hstep
      · rename_i k hwanted
        split at hstep
        · rename_i hn
          obtain ⟨-, -, hpos, -, hlen⟩ := hn
          have hsound := sound_sasRead h hguard hpos hlen
          rw [Option.some.inj hstep] at hsound
          exact hsound
        · cases hstep
      · cases hstep
  | sasSend n =>
      rw [step] at hstep
      split at hstep
      · rename_i hn
        cases hstep
        rw [List.append_nil]
        exact sound_sasSend h hn.1 hn.2
      · cases hstep
  | read c n =>
      rw [step] at hstep
      split at hstep
      · rename_i req got hthread
        split at hstep
        · rename_i k hwanted
          split at hstep
          · rename_i hn
            obtain ⟨hpos, -, hlen⟩ := hn
            have hsound := sound_read h hthread hpos hlen
            rw [Option.some.inj hstep] at hsound
            exact hsound
          · cases hstep
        · cases hstep
      · cases hstep
  | eof c =>
      rw [h.not_eof c] at hstep
      cases hstep

/-- A step that is not the beginning of another call. -/
def Own : Input → Prop
  | .call _ _ => False
  | _ => True

/-- What is left to do for the call that holds the mutex. A request that is on its way weighs more
than any response. -/
def work (s : State σ) : Nat :=
  match s.mutex with
  | none => 0
  | some c =>
    match s.threads c with
    | .sending _ rest => 131081 + 2 * rest.length + s.toSas.length
    | _ =>
      (if s.toSas = [] then 0 else 131081 + s.toSas.length) + 2 * s.sasOut.length + s.toDp.length

/-- Calls return in the order in which they took the mutex, each with the response that the SAS
produced for its own request, which is then off the stream; and a call that is inside goes on until
it returns. -/
structure InStep (respond : σ → Str → Option (σ × Str)) (tr : List Event) (s : State σ) : Prop where
  callers : (returns tr).map caller <+: tr.filterMap acquired?
  answers : (returns tr).map answer <+: tr.filterMap produced?
  clear : s.mutex = none → Clear s ∧ tr.filterMap produced? = (returns tr).map answer ∧
    tr.filterMap acquired? = (returns tr).map caller
  goesOn : ∀ c, s.threads c ≠ .outside → ∃ i, Own i ∧ (step respond s i).isSome = true
  ends : ∀ i s' es, s.mutex ≠ none → Own i → Fits respond s i →
    step respond s i = some (s', es) → s'.mutex = none ∨ work s' < work s

theorem Sound.goesOn (h : Sound tr s) (hthread : s.threads c ≠ .outside) :
    ∃ i, Own i ∧ (step respond s i).isSome = true := by
  cases h.phase with
  | free hmutex =>
      have haside := h.aside c (by rw [hmutex]; exact fun h => by cases h)
      obtain ⟨req, hwaiting⟩ := haside.resolve_left hthread
      refine ⟨.acquire c, trivial, ?_⟩
      rw [step, hmutex, hwaiting]
      rfl
  | asking d req rest hmutex hd hframe hleft hout =>
      by_cases hrest : rest = []
      · subst hrest
        rw [List.append_nil] at hleft
        rcases wanted_of_front req.2.1 req.2.2 hframe with ⟨hnil, -⟩ | ⟨-, k, hwanted, hk, -⟩
        · rw [List.append_nil] at hnil
          exact absurd hnil hleft
        · refine ⟨.sasRead 1, trivial, ?_⟩
          have hlength := List.length_pos_of_ne_nil hleft
          rw [step, hwanted]
          dsimp only
          rw [if_pos ⟨h.up, hout, Nat.zero_lt_one, hk, hlength⟩]
          rfl
      · rw [if_neg hrest] at hd
        refine ⟨.send d 1, trivial, ?_⟩
        rw [step, hd]
        dsimp only
        rw [if_pos ⟨Nat.zero_lt_one, List.length_pos_of_ne_nil hrest⟩]
        rfl
  | answered d req resp got hmutex hd hframe hleft hsome hle =>
      by_cases hdp : s.toDp = []
      · rw [hdp, List.nil_append] at hleft
        refine ⟨.sasSend 1, trivial, ?_⟩
        rw [step, if_pos ⟨Nat.zero_lt_one, List.length_pos_of_ne_nil hleft⟩]
        rfl
      · rcases wanted_of_front hsome hle hframe with ⟨hnil, -⟩ | ⟨-, k, hwanted, hk, -⟩
        · exact absurd hnil hleft
        · refine ⟨.read d 1, trivial, ?_⟩
          rw [step, hd]
          dsimp only
          rw [hwanted]
          dsimp only
          rw [if_pos ⟨Nat.zero_lt_one, hk, List.length_pos_of_ne_nil hdp⟩]
          rfl

theorem work_sending {req : Message} {rest : Str} (hmutex : s.mutex = some c)
    (hthread : s.threads c = .sending req rest) :
    work s = 131081 + 2 * rest.length + s.toSas.length := by
  rw [work, hmutex]
  dsimp only
  rw [hthread]

theorem work_reading {req : Message} {got : Str} (hmutex : s.mutex = some c)
    (hthread : s.threads c = .reading req got) :
    work s = (if s.toSas = [] then 0 else 131081 + s.toSas.length) + 2 * s.sasOut.length +
      s.toDp.length := by
  rw [work, hmutex]
  dsimp only
  rw [hthread]

theorem work_asking (req : Message) (rest : Str) (hmutex : s.mutex = some c)
    (hthread : s.threads c = if rest = [] then .reading req [] else .sending req rest)
    (hleft : s.toSas ++ rest ≠ []) (hout : s.sasOut = []) (hback : s.toDp = []) :
    work s = 131081 + 2 * rest.length + s.toSas.length := by
  by_cases hrest : rest = []
  · subst hrest
    rw [List.append_nil] at hleft
    rw [work_reading hmutex (hthread.trans (if_pos rfl)), if_neg hleft, hout, hback]
    simp
  · exact work_sending hmutex (hthread.trans (if_neg hrest))

theorem length_sendMsg_le {resp : Str} (h : resp.length ≤ 65536) :
    (sendMsg resp).length ≤ 65540 := by
  rw [sendMsg_eq_framed h, length_framed]
  omega

theorem work_send (h : Sound tr s) {req : Message} {rest : Str} {n : Nat}
    (hthread : s.threads c = .sending req rest) (hpos : 0 < n) (hn : n ≤ rest.length) :
    work ({ s with toSas := s.toSas ++ rest.take n }.setThread c
      (if n = rest.length then .reading req [] else .sending req (rest.drop n))) < work s := by
  have hmutex := h.holder (c := c) (by rw [hthread]; exact not_aside_sending)
  have htake : (rest.take n).length = n := List.length_take_of_le hn
  obtain ⟨-, -, -, -, -, -, hout, hback, -⟩ :=
    h.asking_of (c := c) (by rw [hthread]; exact not_aside_sending)
      fun req' got hreading => by cases hthread.symm.trans hreading
  rw [work_sending hmutex hthread]
  have hafter := work_asking (s := { s with toSas := s.toSas ++ rest.take n }.setThread c
      (if n = rest.length then .reading req [] else .sending req (rest.drop n)))
    req (rest.drop n) hmutex ?_ ?_ hout hback
  · rw [hafter]
    show 131081 + 2 * (rest.drop n).length + (s.toSas ++ rest.take n).length < _
    rw [List.length_drop, List.length_append, htake]
    omega
  · rw [threads_setThread, if_pos rfl, sending_drop req hn]
  · apply List.append_ne_nil_of_left_ne_nil
    apply List.append_ne_nil_of_right_ne_nil
    exact List.ne_nil_of_length_pos (by omega)

theorem work_sasRead (h : Sound tr s) {n : Nat} (hguard : Fits respond s (.sasRead n))
    (hpos : 0 < n) (hn : n ≤ s.toSas.length) :
    work (sasReceive respond { s with toSas := s.toSas.drop n } (s.sasIn ++ s.toSas.take n)).1 <
      work s := by
  have hto : s.toSas ≠ [] := List.ne_nil_of_length_pos (by omega)
  obtain ⟨c, req, rest, hmutex, hthread, hframe, hout, hback, -⟩ := h.asking_of_toSas hto
  have hgot : s.sasIn ++ s.toSas.take n ++ (s.toSas.drop n ++ rest) = framed req.val := by
    rw [← hframe, List.append_assoc, ← List.append_assoc (s.toSas.take n), List.take_append_drop]
  rw [work_asking req rest hmutex hthread (List.append_ne_nil_of_left_ne_nil hto rest) hout hback]
  rcases wanted_of_front req.2.1 req.2.2 hgot with ⟨hall, hframe'⟩ | ⟨hmore, m, hframe', -⟩
  · obtain ⟨hdrop, rfl⟩ := List.append_eq_nil_iff.mp hall
    obtain ⟨⟨sas, resp⟩, hresp, -, hle⟩ := hguard req.val (by rw [hframe']; rfl)
    have hlength : (sendMsg resp).length ≤ 65540 := length_sendMsg_le hle
    have hafter := work_reading
      (s := { s with sas := sas, sasIn := [], sasOut := sendMsg resp, toSas := s.toSas.drop n })
      (c := c) hmutex (hthread.trans (if_pos rfl))
    rw [sasReceive, hframe']
    dsimp only at hafter ⊢
    rw [Option.mem_def.mp hresp, hafter, hdrop, hback, if_pos rfl, List.length_nil]
    omega
  · rw [sasReceive, hframe']
    have hafter := work_asking
      (s := { s with sasIn := s.sasIn ++ s.toSas.take n, toSas := s.toSas.drop n })
      (c := c) req rest hmutex hthread hmore hout hback
    dsimp only at hafter ⊢
    rw [hafter, List.length_drop]
    omega

theorem work_sasSend (h : Sound tr s) {n : Nat} (hpos : 0 < n) (hn : n ≤ s.sasOut.length) :
    work { s with toDp := s.toDp ++ s.sasOut.take n, sasOut := s.sasOut.drop n } < work s := by
  have hout : s.sasOut ≠ [] := List.ne_nil_of_length_pos (by omega)
  cases h.phase with
  | free _ hclear => exact absurd hclear.sasOut hout
  | asking _ _ _ _ _ _ _ hnil => exact absurd hnil hout
  | answered c req resp got hmutex hthread hframe hleft hsome hle hin hto =>
      have hafter := work_reading
        (s := { s with toDp := s.toDp ++ s.sasOut.take n, sasOut := s.sasOut.drop n })
        (c := c) hmutex hthread
      rw [work_reading hmutex hthread, hafter]
      dsimp only
      rw [List.length_drop, List.length_append, List.length_take_of_le hn]
      omega

theorem work_read (h : Sound tr s) {req : Message} {got : Str} {n : Nat}
    (hthread : s.threads c = .reading req got) (hpos : 0 < n) (hn : n ≤ s.toDp.length) :
    (dpReceive { s with toDp := s.toDp.drop n } c req (got ++ s.toDp.take n)).1.mutex = none ∨
      work (dpReceive { s with toDp := s.toDp.drop n } c req (got ++ s.toDp.take n)).1 < work s := by
  have hmutex := h.holder (by rw [hthread]; exact not_aside_reading)
  rw [dpReceive]
  split
  · right
    have hafter := work_reading
      (s := { s with toDp := s.toDp.drop n }.setThread c (.reading req (got ++ s.toDp.take n)))
      (c := c) hmutex ((threads_setThread _ c c _).trans (if_pos rfl))
    have hdrop : (s.toDp.drop n).length < s.toDp.length := by
      rw [List.length_drop]
      omega
    rw [work_reading hmutex hthread, hafter]
    exact Nat.add_lt_add_left hdrop _
  · exact Or.inl rfl
  · exact Or.inl rfl

theorem Sound.ends (h : Sound tr s) {s' : State σ} {i : Input} {es : List Event}
    (hheld : s.mutex ≠ none) (hown : Own i) (hguard : Fits respond s i)
    (hstep : step respond s i = some (s', es)) : s'.mutex = none ∨ work s' < work s := by
  cases i with
  | call c req => exact absurd hown id
  | acquire c =>
      rw [step] at hstep
      split at hstep
      · rename_i req hmutex hthread
        exact absurd hmutex hheld
      · cases hstep
  | send c n =>
      rw [step] at hstep
      split at hstep
      · rename_i req rest hthread
        split at hstep
        · rename_i hn
          cases hstep
          exact Or.inr (work_send h hthread hn.1 hn.2)
        · cases hstep
      · cases hstep
  | sasRead n =>
      rw [step] at hstep
      split at hstep
      · split at hstep
        · rename_i hn
          obtain ⟨-, -, hpos, -, hlen⟩ := hn
          have hless := work_sasRead h hguard hpos hlen
          rw [Option.some.inj hstep] at hless
          exact Or.inr hless
        · cases hstep
      · cases hstep
  | sasSend n =>
      rw [step] at hstep
      split at hstep
      · rename_i hn
        cases hstep
        exact Or.inr (work_sasSend h hn.1 hn.2)
      · cases hstep
  | read c n =>
      rw [step] at hstep
      split at hstep
      · rename_i req got hthread
        split at hstep
        · split at hstep
          · rename_i hn
            obtain ⟨hpos, -, hlen⟩ := hn
            have hless := work_read h hthread hpos hlen
            rw [Option.some.inj hstep] at hless
            exact hless
          · cases hstep
        · cases hstep
      · cases hstep
  | eof c =>
      rw [h.not_eof c] at hstep
      cases hstep

theorem Sound.inStep (h : Sound tr s) : InStep respond tr s := by
  refine ⟨?_, ?_, ?_, fun c => h.goesOn, fun i s' es => h.ends⟩
  · cases h.phase with
    | free _ _ _ hacquired => exact ⟨[], (List.append_nil _).trans hacquired.symm⟩
    | asking _ _ _ _ _ _ _ _ _ _ hacquired => exact ⟨_, hacquired.symm⟩
    | answered _ _ _ _ _ _ _ _ _ _ _ _ _ hacquired => exact ⟨_, hacquired.symm⟩
  · cases h.phase with
    | free _ _ hproduced => exact ⟨[], (List.append_nil _).trans hproduced.symm⟩
    | asking _ _ _ _ _ _ _ _ _ hproduced => exact ⟨[], (List.append_nil _).trans hproduced.symm⟩
    | answered _ _ _ _ _ _ _ _ _ _ _ _ hproduced => exact ⟨_, hproduced.symm⟩
  · intro hmutex
    cases h.phase with
    | free _ hclear hproduced hacquired => exact ⟨hclear, hproduced, hacquired⟩
    | asking _ _ _ hheld => cases hmutex.symm.trans hheld
    | answered _ _ _ _ hheld => cases hmutex.symm.trans hheld

/-- As long as the SAS answers with frames that the proxy accepts, the stream is in step. -/
theorem inStep_of_fits {sas : σ} (hrun : Run (step respond) (fun _ => Fits respond) (init sas) tr s) :
    InStep respond tr s := by
  refine Sound.inStep ?_
  refine Run.invariant (I := Sound) ?_ ?_ hrun
  · exact ⟨rfl, fun _ _ => Or.inl rfl, .free rfl ⟨rfl, rfl, rfl, rfl⟩ rfl rfl⟩
  · intro tr s i s' es h hguard hstep
    exact sound_step h hguard hstep

end Runs

section Oversized

variable {σ : Type} {respond : σ → Str → Option (σ × Str)}

theorem wanted_header {n : Nat} (hsome : 1 ≤ n) (hle : n ≤ 65536) :
    wanted (pu32 (UInt32.ofNat n)) = .more n := by
  have hnat : (UInt32.ofNat n).toNat = n := by
    apply UInt32.toNat_ofNat_of_lt'
    exact Nat.lt_of_le_of_lt hle (by decide)
  have htake : (pu32 (UInt32.ofNat n)).take 4 = pu32 (UInt32.ofNat n) :=
    List.take_of_length_le (Nat.le_of_eq (pu32_length _))
  have hplen : ¬(UInt32.ofNat n = 0 ∨ 65536 < UInt32.ofNat n) := by
    rw [UInt32.lt_iff_toNat_lt, ← UInt32.toNat_inj, hnat]
    show ¬(n = 0 ∨ 65536 < n)
    omega
  rw [wanted, pu32_length, if_neg (by decide), htake, gu32_pu32]
  dsimp only
  rw [if_neg hplen, hnat, if_pos (by omega), Nat.add_sub_cancel_left]

theorem wanted_oversized {n : Nat} (hlong : 65536 < n) (hlt : n < 2 ^ 32) :
    wanted (pu32 (UInt32.ofNat n)) = .refused := by
  have hnat : (UInt32.ofNat n).toNat = n := UInt32.toNat_ofNat_of_lt' hlt
  have htake : (pu32 (UInt32.ofNat n)).take 4 = pu32 (UInt32.ofNat n) :=
    List.take_of_length_le (Nat.le_of_eq (pu32_length _))
  have hplen : UInt32.ofNat n = 0 ∨ 65536 < UInt32.ofNat n := by
    rw [UInt32.lt_iff_toNat_lt, hnat]
    exact Or.inr hlong
  rw [wanted, pu32_length, if_neg (by decide), htake, gu32_pu32]
  dsimp only
  rw [if_pos hplen]

theorem framed_take (payload : Str) :
    (framed payload).take 4 = pu32 (UInt32.ofNat payload.length) := List.take_left' (pu32_length _)

theorem framed_drop (payload : Str) : (framed payload).drop 4 = payload :=
  List.drop_left' (pu32_length _)

theorem sendMsg_eq_framed_of_lt {payload : Str} (h : payload.length + 4 < 2 ^ 32) :
    sendMsg payload = framed payload := by
  rw [sendMsg, UInt32.toNat_ofNat_of_lt' (by rw [length_framed]; exact h), List.take_length]

/-- The only call, in the middle of its exchange. -/
def midway (sas : σ) (thread : Thread) (toSas toDp sasIn sasOut : Str) : State σ :=
  { sas := sas, mutex := some 0, threads := Function.update (fun _ => .outside) 0 thread,
    toSas := toSas, toDp := toDp, sasIn := sasIn, sasOut := sasOut }

theorem reach_asking (sas : σ) (req : Message) :
    Reach (step respond) (init sas) [.acquired 0 req]
      (midway sas (.reading req []) (framed req.val) [] [] []) := by
  have hframe : sendMsg req.val = framed req.val := sendMsg_eq_framed req.2.2
  have hcall : step respond (init sas) (.call 0 req) =
      some ((init sas).setThread 0 (.waiting req), []) := rfl
  have hacquire : step respond ((init sas).setThread 0 (.waiting req)) (.acquire 0) =
      some (midway sas (.sending req (framed req.val)) [] [] [] [], [.acquired 0 req]) := by
    rw [← hframe]
    simp [step, State.setThread, init, midway]
  have hsend : step respond (midway sas (.sending req (framed req.val)) [] [] [] [])
      (.send 0 (framed req.val).length) =
      some (midway sas (.reading req []) (framed req.val) [] [] [], []) := by
    have hpos : 0 < (framed req.val).length := by
      rw [length_framed]
      exact Nat.succ_pos _
    simp [step, State.setThread, midway, hpos]
  have hwaiting : Reach (step respond) (init sas) [] _ := Run.single trivial hcall
  exact Reach.silent (hwaiting.snoc trivial hacquire) _ _ hsend

theorem reach_answering {sas sas' : σ} {req : Message} {resp : Str}
    (hresp : respond sas req.val = some (sas', resp)) (hlt : resp.length + 4 < 2 ^ 32) :
    Reach (step respond) (init sas) [.acquired 0 req, .produced req.val resp]
      (midway sas' (.reading req []) [] (framed resp) [] []) := by
  obtain ⟨hsome, hle⟩ := req.2
  have hheader : step respond (midway sas (.reading req []) (framed req.val) [] [] []) (.sasRead 4) =
      some (midway sas (.reading req []) req.val [] (pu32 (UInt32.ofNat req.val.length)) [], []) := by
    have hwanted : wanted [] = .more 4 := rfl
    have hfour : 4 ≤ (framed req.val).length := by
      rw [length_framed]
      exact Nat.le_add_left _ _
    simp [step, midway, hwanted, hfour, framed_take, framed_drop, sasReceive,
      wanted_header hsome hle]
  have hpayload : step respond
      (midway sas (.reading req []) req.val [] (pu32 (UInt32.ofNat req.val.length)) [])
      (.sasRead req.val.length) =
      some (midway sas' (.reading req []) [] [] [] (framed resp), [.produced req.val resp]) := by
    have hwhole : wanted (pu32 (UInt32.ofNat req.val.length) ++ req.val) = .frame req.val := by
      have hall : framed req.val ++ [] = framed req.val := List.append_nil _
      rcases wanted_of_front hsome hle hall with ⟨-, hframe⟩ | ⟨hne, -⟩
      · exact hframe
      · exact absurd rfl hne
    have hne : req.val ≠ [] := List.ne_nil_of_length_pos hsome
    simp [step, midway, wanted_header hsome hle, hne, sasReceive, hwhole, hresp,
      sendMsg_eq_framed_of_lt hlt]
  have hanswer : step respond (midway sas' (.reading req []) [] [] [] (framed resp))
      (.sasSend (framed resp).length) =
      some (midway sas' (.reading req []) [] (framed resp) [] [], []) := by
    have hpos : 0 < (framed resp).length := by
      rw [length_framed]
      exact Nat.succ_pos _
    simp [step, midway, hpos]
  have hread := Reach.silent (reach_asking sas req) _ _ hheader
  exact Reach.silent (hread.snoc trivial hpayload) _ _ hanswer

/-- A response that is too long for a frame is taken for the empty text and stays on the stream. -/
theorem oversized_returns_empty {sas sas' : σ} {req : Message} {resp : Str}
    (hresp : respond sas req.val = some (sas', resp)) (hlong : 65536 < resp.length)
    (hlt : resp.length + 4 < 2 ^ 32) :
    ∃ tr s, Reach (step respond) (init sas) tr s ∧ returns tr = [(0, req, [])] ∧
      tr.filterMap produced? = [(req.val, resp)] ∧ s.toDp = resp := by
  have hread : step respond (midway sas' (.reading req []) [] (framed resp) [] []) (.read 0 4) =
      some (finish (midway sas' (.reading req []) [] resp [] []) 0 req []) := by
    have hwanted : wanted [] = .more 4 := rfl
    have hfour : 4 ≤ (framed resp).length := by
      rw [length_framed]
      exact Nat.le_add_left _ _
    simp [step, midway, hwanted, hfour, framed_take, framed_drop, dpReceive,
      wanted_oversized hlong (by omega)]
  exact ⟨_, _, (reach_answering hresp hlt).snoc trivial hread, rfl, rfl, rfl⟩

end Oversized

def deregistrationRequest : Message :=
  ⟨obj [(lit "type", str (lit "DeregistrationRequest")), (lit "cbsdId", str (lit "CBSD-SAS-1"))],
    by decide +kernel⟩

def relinquishmentRequest : Message :=
  ⟨obj [(lit "type", str (lit "RelinquishmentRequest")), (lit "cbsdId", str (lit "CBSD-SAS-2")),
    (lit "grantId", str (lit "GRANT-7"))], by decide +kernel⟩

/-- An identifier that is nearly as long as a message can be. -/
def longId : Str := List.replicate 65490 65

def longHeartbeat : Str :=
  obj [(lit "type", str (lit "HeartbeatRequest")), (lit "cbsdId", str longId)]

theorem length_longId : longId.length = 65490 := List.length_replicate

theorem length_longHeartbeat : longHeartbeat.length = 65529 := by
  simp only [longHeartbeat, obj, members, str, List.length_append, length_longId]
  rfl

theorem length_heartbeatResponse :
    (SasStub.heartbeatResponse longId []).length = 65623 := by
  simp only [SasStub.heartbeatResponse, obj, members, str, List.length_append, length_longId]
  rfl

theorem longId_quoteless : Quoteless longId := by
  intro hmem
  exact absurd (List.eq_of_mem_replicate hmem) (by decide)

theorem get_longHeartbeat :
    get longHeartbeat (lit "type") = lit "HeartbeatRequest" ∧
      get longHeartbeat (lit "cbsdId") = longId ∧ get longHeartbeat (lit "grantId") = [] := by
  refine ⟨SasStub.get_type (by decide) _, ?_, ?_⟩
  · rw [longHeartbeat, get_obj, look_plain _ (by decide) (by decide) (.quoted _ (by decide)),
      if_neg (by decide), look_plain _ (by decide) (by decide) (.quoted _ longId_quoteless),
      if_pos rfl]
  · rw [longHeartbeat, get_obj, look_plain _ (by decide) (by decide) (.quoted _ (by decide)),
      if_neg (by decide), look_plain _ (by decide) (by decide) (.quoted _ longId_quoteless),
      if_neg (by decide), look_nil]

/-- Two threads call at once; the second waits until the first has its response, in pieces. -/
def twoCallers : List Input :=
  [.call 1 relinquishmentRequest, .call 0 deregistrationRequest, .acquire 0, .send 0 30, .sasRead 4,
    .send 0 28, .sasRead 54, .sasSend 2, .read 0 2, .sasSend 87, .read 0 2, .read 0 85,
    .acquire 1, .send 1 78, .sasRead 4, .sasRead 74, .sasSend 109, .read 1 4, .read 1 105]

theorem inStep_two_callers : ∃ tr s,
    Run (step SasStub.handleRequest) (fun _ => Fits SasStub.handleRequest) (init {}) tr s ∧
      InStep SasStub.handleRequest tr s ∧ (returns tr).map Prod.fst = [0, 1] := by
  have hexec : (exec (step SasStub.handleRequest) (init {}) twoCallers).map
      (fun x => (returns x.2).map Prod.fst) = some [0, 1] := by
    decide +kernel
  obtain ⟨tr, s, hrun, hreturned⟩ :=
    exists_run_of_exec (P := fun _ => Fits SasStub.handleRequest) _ (by decide +kernel) hexec
  exact ⟨tr, s, hrun, inStep_of_fits hrun, hreturned⟩

/-- The response to the long heartbeat is not returned, and stays on the stream. -/
theorem not_inStep_longHeartbeat : ¬∀ tr s, Reach (step SasStub.handleRequest) (init {}) tr s →
    InStep SasStub.handleRequest tr s := by
  intro h
  have hsome : 1 ≤ longHeartbeat.length ∧ longHeartbeat.length ≤ 65536 := by
    rw [length_longHeartbeat]
    decide
  have hresp : SasStub.handleRequest {} (⟨longHeartbeat, hsome⟩ : Message).val =
      some ({}, SasStub.heartbeatResponse longId []) := by
    obtain ⟨htype, hcbsdId, hgrantId⟩ := get_longHeartbeat
    rw [SasStub.handleRequest, htype, hcbsdId, hgrantId]
    rfl
  obtain ⟨tr, s, hrun, hreturned, hproduced, -⟩ := oversized_returns_empty hresp
    (by rw [length_heartbeatResponse]; decide) (by rw [length_heartbeatResponse]; decide)
  have hanswers := (h tr s hrun).answers
  rw [hreturned, hproduced] at hanswers
  have hempty := congrArg Prod.snd (List.cons.inj (hanswers.eq_of_length rfl)).1
  have hlength := congrArg List.length hempty
  rw [length_heartbeatResponse] at hlength
  cases hlength

end MobileCore.SasStream
