import Mathlib.Data.Finset.Basic
import MobileCore.FrameTransport
import MobileCore.LabelledRuns

/-!
# The frames that the P-CSCF sends to the S-CSCF

Every phone's thread passes messages on over one connection. A frame goes out in two calls of
`sendAll`, each a loop over `send`, and no lock keeps the threads apart.
-/

namespace MobileCore.UplinkFraming

open MobileCore.ByteStreams
open MobileCore.FrameTransport
open MobileCore.LabelledRuns
open MobileCore.TlvMessages

/-- What each thread has still to write, a buffer for each call of `sendAll`. -/
abbrev State := Nat → List (List UInt8)

inductive Input where
  | handle (n : Nat) (payload : List UInt8)
  | send (n count : Nat)
  | fail (n : Nat)

inductive Event where
  | handled (n : Nat) (payload : List UInt8)
  | wrote (n : Nat) (bytes : List UInt8)
  | completed (n : Nat)
  | failed (n : Nat)
deriving DecidableEq

def buffers (payload : List UInt8) : List (List UInt8) :=
  let len := UInt32.ofNat payload.length
  [pu32 len, payload.take len.toNat]

/-- `recvFrame` gives a thread no empty message and none of more than 65536 bytes. -/
def step : Machine State Input Event
  | s, .handle n payload =>
    if s n = [] ∧ 1 ≤ payload.length ∧ payload.length ≤ 65536 then
      some (Function.update s n (buffers payload), [.handled n payload])
    else none
  | s, .send n count =>
    match s n with
    | [] => none
    | buf :: rest =>
      if 0 < count ∧ count < buf.length then
        some (Function.update s n (buf.drop count :: rest), [.wrote n (buf.take count)])
      else if count = buf.length then
        some (Function.update s n rest,
          .wrote n buf :: if rest = [] then [.completed n] else [])
      else none
  | s, .fail n =>
    if s n = [] then none else some (Function.update s n [], [.failed n])

def init : State := fun _ => []

def Event.bytes : Event → List UInt8
  | .wrote _ bytes => bytes
  | .handled _ _ | .completed _ | .failed _ => []

def stream (tr : List Event) : List UInt8 := tr.flatMap Event.bytes

def handledBy (n : Nat) (tr : List Event) : List (List UInt8) :=
  tr.filterMap fun
    | .handled m payload => if m = n then some payload else none
    | _ => none

def framesOf (n : Nat) (frames : List (Nat × List UInt8)) : List (List UInt8) :=
  (frames.filter (·.1 = n)).map (·.2)

def onWire (frames : List (Nat × List UInt8)) : List UInt8 := frames.flatMap fun f => framed f.2

/-- The stream consists of whole frames, up to the one that is being written. A thread that has
nothing left to write has one frame there for each message that it handled. -/
structure Whole (tr : List Event) (s : State) (frames : List (Nat × List UInt8)) : Prop where
  wire : stream tr <+: onWire frames
  atRest : (∀ n, s n = []) → stream tr = onWire frames
  messages : ∀ n, framesOf n frames <+: handledBy n tr
  once : ∀ n, s n = [] → framesOf n frames = handledBy n tr

/-- The threads that are inside a frame. -/
def inside (tr : List Event) : Finset Nat :=
  tr.foldl (fun threads e => match e with
    | .wrote n _ => insert n threads
    | .completed n => threads.erase n
    | .handled _ _ | .failed _ => threads) ∅

/-- No thread writes while another one is inside a frame, and no write fails. -/
def Exclusive (tr : List Event) (_ : State) : Input → Prop
  | .handle _ _ => True
  | .send n _ => inside tr ⊆ {n}
  | .fail _ => False

instance (tr : List Event) (s : State) : DecidablePred (Exclusive tr s)
  | .handle _ _ => .isTrue trivial
  | .send n _ => inferInstanceAs (Decidable (inside tr ⊆ {n}))
  | .fail _ => .isFalse id

section Buffers

variable {payload : List UInt8}

theorem sendPayload_buffers : sendPayload payload = sendEach sendAll (buffers payload) := by
  funext k
  simp only [sendPayload, buffers, sendEach]
  cases hheader : sendAll (pu32 (UInt32.ofNat payload.length)) k with
  | none => rfl
  | some k' =>
      exact (Option.bind_fun_some (sendAll _ k')).symm

theorem buffers_flatten (hle : payload.length ≤ 65536) :
    (buffers payload).flatten = framed payload := by
  simp only [buffers, toNat_length hle, List.take_length, List.flatten_cons, List.flatten_nil,
    List.append_nil, framed]

end Buffers

section Traces

variable {tr : List Event} {n m : Nat} {payload bytes : List UInt8}
  {frames : List (Nat × List UInt8)}

theorem stream_append (tr es : List Event) : stream (tr ++ es) = stream tr ++ stream es :=
  List.flatMap_append

theorem handledBy_append (n : Nat) (tr es : List Event) :
    handledBy n (tr ++ es) = handledBy n tr ++ handledBy n es := List.filterMap_append

theorem framesOf_snoc : framesOf m (frames ++ [(n, payload)]) =
    framesOf m frames ++ if n = m then [payload] else [] := by
  rw [framesOf, List.filter_append, List.map_append, List.filter_singleton]
  congr 1
  by_cases h : n = m <;> simp [h]

theorem onWire_snoc : onWire (frames ++ [(n, payload)]) = onWire frames ++ framed payload := by
  simp [onWire, List.flatMap_append]

theorem inside_wrote (h : inside tr ⊆ {n}) : inside (tr ++ [.wrote n bytes]) = {n} := by
  rw [inside, List.foldl_append]
  show insert n (inside tr) = {n}
  apply Finset.Subset.antisymm
  · exact Finset.insert_subset (Finset.mem_singleton_self n) h
  · exact Finset.singleton_subset_iff.mpr (Finset.mem_insert_self n _)

theorem inside_completed (h : inside tr ⊆ {n}) :
    inside (tr ++ [.wrote n bytes, .completed n]) = ∅ := by
  have hsplit : tr ++ [.wrote n bytes, .completed n] = tr ++ [.wrote n bytes] ++ [.completed n] :=
    List.append_cons tr _ _
  rw [hsplit, inside, List.foldl_append]
  show (inside (tr ++ [.wrote n bytes])).erase n = ∅
  rw [inside_wrote h]
  exact Finset.erase_singleton n

end Traces

section Runs

variable {tr : List Event} {s s' : State} {frames : List (Nat × List UInt8)}

/-- A thread outside a frame has written the frames of all its messages, but perhaps the last. -/
structure Tracks (tr : List Event) (s : State) (frames : List (Nat × List UInt8)) : Prop where
  within : ∀ n ∈ inside tr, s n ≠ [] ∧ framesOf n frames = handledBy n tr ∧
    stream tr ++ (s n).flatten = onWire frames
  without : ∀ n ∉ inside tr, (s n = [] ∧ framesOf n frames = handledBy n tr) ∨
    ∃ payload, s n = buffers payload ∧ payload.length ≤ 65536 ∧
      framesOf n frames ++ [payload] = handledBy n tr
  between : inside tr = ∅ → stream tr = onWire frames

theorem tracks_init : Tracks [] init [] where
  within n hn := by cases hn
  without _ _ := Or.inl ⟨rfl, rfl⟩
  between _ := rfl

theorem Tracks.whole (h : Tracks tr s frames) : Whole tr s frames := by
  have hrest (n : Nat) (hn : s n = []) : n ∉ inside tr := fun hin => (h.within n hin).1 hn
  have hempty (hall : ∀ n, n ∉ inside tr) : stream tr = onWire frames :=
    h.between (Finset.eq_empty_of_forall_notMem hall)
  constructor
  · by_cases hall : ∀ n, n ∉ inside tr
    · rw [hempty hall]
    · obtain ⟨n, hn⟩ := not_forall.mp hall
      exact ⟨_, (h.within n (not_not.mp hn)).2.2⟩
  · intro hidle
    exact hempty fun n => hrest n (hidle n)
  · intro n
    by_cases hn : n ∈ inside tr
    · rw [(h.within n hn).2.1]
    · rcases h.without n hn with ⟨-, hall⟩ | ⟨payload, -, -, hbut⟩
      · rw [hall]
      · exact ⟨_, hbut⟩
  · intro n hn
    rcases h.without n (hrest n hn) with ⟨-, hall⟩ | ⟨payload, hbuffers, -⟩
    · exact hall
    · rw [hn] at hbuffers
      cases hbuffers

theorem Tracks.handled (h : Tracks tr s frames) {n : Nat} {payload : List UInt8} (hn : s n = [])
    (hle : payload.length ≤ 65536) :
    Tracks (tr ++ [.handled n payload]) (Function.update s n (buffers payload)) frames := by
  have hinside : inside (tr ++ [.handled n payload]) = inside tr := by
    rw [inside, List.foldl_append]
    rfl
  have hstream : stream (tr ++ [.handled n payload]) = stream tr := by
    rw [stream_append]
    exact List.append_nil _
  have hother {m : Nat} (hm : m ≠ n) : handledBy m (tr ++ [.handled n payload]) = handledBy m tr := by
    simp [handledBy, Ne.symm hm]
  constructor
  · intro m hm
    rw [hinside] at hm
    obtain ⟨hbusy, hframes, hwritten⟩ := h.within m hm
    have hne : m ≠ n := fun heq => hbusy (heq ▸ hn)
    rw [Function.update_of_ne hne, hother hne, hstream]
    exact ⟨hbusy, hframes, hwritten⟩
  · intro m hm
    rw [hinside] at hm
    rcases eq_or_ne m n with rfl | hne
    · refine Or.inr ⟨payload, Function.update_self .., hle, ?_⟩
      rcases h.without m hm with ⟨-, hall⟩ | ⟨before, hbuffers, -⟩
      · rw [hall, handledBy_append]
        simp [handledBy]
      · rw [hn] at hbuffers
        cases hbuffers
    · rw [Function.update_of_ne hne, hother hne]
      exact h.without m hm
  · rw [hinside, hstream]
    exact h.between

/-- A thread that may write has its frame among those that are on the connection, as far as it is
written. -/
theorem Tracks.begun (h : Tracks tr s frames) {n : Nat} (hexclusive : inside tr ⊆ {n})
    (hn : s n ≠ []) : ∃ frames', stream tr ++ (s n).flatten = onWire frames' ∧
      framesOf n frames' = handledBy n tr ∧ ∀ m ≠ n, framesOf m frames' = framesOf m frames := by
  by_cases hin : n ∈ inside tr
  · obtain ⟨-, hframes, hwritten⟩ := h.within n hin
    exact ⟨frames, hwritten, hframes, fun _ _ => rfl⟩
  · have hempty : inside tr = ∅ := by
      rcases Finset.subset_singleton_iff.mp hexclusive with hempty | hsingle
      · exact hempty
      · exact absurd (hsingle ▸ Finset.mem_singleton_self n) hin
    obtain ⟨payload, hbuffers, hle, hframes⟩ :=
      (h.without n hin).resolve_left fun hidle => hn hidle.1
    refine ⟨frames ++ [(n, payload)], ?_, ?_, fun m hm => ?_⟩
    · rw [onWire_snoc, ← h.between hempty, hbuffers, buffers_flatten hle]
    · rw [framesOf_snoc, if_pos rfl, hframes]
    · rw [framesOf_snoc, if_neg (Ne.symm hm), List.append_nil]

theorem Tracks.wrote (h : Tracks tr s frames) {n : Nat} (hexclusive : inside tr ⊆ {n})
    (part : List UInt8) {rest : List (List UInt8)} {es : List Event} (hn : s n ≠ [])
    (hpart : (s n).flatten = part ++ rest.flatten) (hstream : stream es = part)
    (hhandled : ∀ m, handledBy m es = [])
    (hinside : inside (tr ++ es) = if rest = [] then ∅ else {n}) :
    ∃ frames', Tracks (tr ++ es) (Function.update s n rest) frames' := by
  obtain ⟨frames', hwritten, hframes, hothers⟩ := h.begun hexclusive hn
  have hkept (m : Nat) : handledBy m (tr ++ es) = handledBy m tr := by
    rw [handledBy_append, hhandled, List.append_nil]
  have hfront : stream (tr ++ es) ++ rest.flatten = onWire frames' := by
    rw [stream_append, hstream, List.append_assoc, ← hpart, hwritten]
  refine ⟨frames', ?_, ?_, ?_⟩
  · intro m hm
    rw [hinside] at hm
    split at hm
    · cases hm
    · rename_i hrest
      obtain rfl := Finset.mem_singleton.mp hm
      rw [Function.update_self, hkept]
      exact ⟨hrest, hframes, hfront⟩
  · intro m hm
    rw [hkept]
    rcases eq_or_ne m n with rfl | hne
    · rw [hinside] at hm
      split at hm
      · rename_i hrest
        rw [Function.update_self]
        exact Or.inl ⟨hrest, hframes⟩
      · exact absurd (Finset.mem_singleton_self m) hm
    · rw [Function.update_of_ne hne, hothers m hne]
      exact h.without m fun hin => hne (Finset.mem_singleton.mp (hexclusive hin))
  · intro hempty
    rw [hinside] at hempty
    split at hempty
    · rename_i hrest
      rw [hrest] at hfront
      rw [← hfront]
      exact (List.append_nil _).symm
    · exact absurd hempty (Finset.singleton_ne_empty n)

theorem tracks_step {i : Input} {es : List Event} (h : Tracks tr s frames)
    (hguard : Exclusive tr s i) (hstep : step s i = some (s', es)) :
    ∃ frames', Tracks (tr ++ es) s' frames' := by
  cases i with
  | handle n payload =>
      simp only [step] at hstep
      split at hstep <;> cases hstep
      rename_i hhandle
      exact ⟨frames, h.handled hhandle.1 hhandle.2.2⟩
  | send n count =>
      simp only [step] at hstep
      split at hstep
      · cases hstep
      · rename_i buf rest hbuf
        have hne : s n ≠ [] := hbuf ▸ List.cons_ne_nil buf rest
        split at hstep
        · cases hstep
          refine h.wrote hguard (buf.take count) hne ?_ (List.append_nil _) (fun _ => rfl) ?_
          · rw [hbuf, List.flatten_cons, List.flatten_cons, ← List.append_assoc,
              List.take_append_drop]
          · rw [if_neg (List.cons_ne_nil _ _)]
            exact inside_wrote hguard
        · split at hstep <;> cases hstep
          refine h.wrote hguard buf hne ?_ ?_ ?_ ?_
          · rw [hbuf, List.flatten_cons]
          · split <;> exact List.append_nil _
          · intro m
            split <;> rfl
          · split
            · exact inside_completed hguard
            · exact inside_wrote hguard
  | fail n => exact absurd hguard id

/-- Threads that write their frames one after another leave whole frames on the connection. -/
theorem whole_of_exclusive (tr : List Event) (s : State) (hrun : Run step Exclusive init tr s) :
    ∃ frames, Whole tr s frames := by
  have htracks : ∃ frames, Tracks tr s frames := by
    refine hrun.invariant (I := fun tr s => ∃ frames, Tracks tr s frames) ⟨[], tracks_init⟩ ?_
    intro tr s i s' es ⟨frames, h⟩ hguard hstep
    exact tracks_step h hguard hstep
  obtain ⟨frames, h⟩ := htracks
  exact ⟨frames, h.whole⟩

/-- The stream starts with the frame of a message that was handled. -/
theorem Whole.first (h : Whole tr s frames) (hsome : stream tr ≠ []) :
    ∃ n, ∃ payload ∈ handledBy n tr,
      stream tr <+: framed payload ∨ framed payload <+: stream tr := by
  cases frames with
  | nil => exact absurd (List.prefix_nil.mp h.wire) hsome
  | cons f rest =>
      obtain ⟨n, payload⟩ := f
      refine ⟨n, payload, ?_, ?_⟩
      · apply (h.messages n).subset
        simp [framesOf]
      · exact List.prefix_or_prefix_of_prefix h.wire (List.prefix_append _ _)

end Runs

section Schedules

/-- Two messages, the first of which is written in two parts. -/
theorem whole_of_two : ∃ tr s frames, Whole tr s frames ∧
    stream tr = framed [7] ++ framed [8, 9] := by
  have hexec : (exec step init [.handle 0 [7], .handle 1 [8, 9], .send 0 4, .send 0 1,
      .send 1 3, .send 1 1, .send 1 2]).map (fun r => stream r.2) =
        some (framed [7] ++ framed [8, 9]) := by decide +kernel
  obtain ⟨tr, s, hrun, hseen⟩ := exists_run_of_exec (P := Exclusive) _ (by decide +kernel) hexec
  obtain ⟨frames, hwhole⟩ := whole_of_exclusive tr s hrun
  exact ⟨tr, s, frames, hwhole, hseen⟩

/-- The second header is written between the first one and its payload. -/
theorem not_whole_interleaved : ¬∀ tr s, Reach step init tr s → ∃ frames, Whole tr s frames := by
  intro h
  have hexec : (exec step init [.handle 0 [7], .handle 1 [8, 9], .send 0 4, .send 1 4, .send 0 1,
      .send 1 2]).map (fun r => r.2) = some [.handled 0 [7], .handled 1 [8, 9],
        .wrote 0 [1, 0, 0, 0], .wrote 1 [2, 0, 0, 0], .wrote 0 [7], .completed 0, .wrote 1 [8, 9],
        .completed 1] := by decide +kernel
  obtain ⟨tr, s, hrun, rfl⟩ := exists_reach_of_exec hexec
  obtain ⟨frames, hwhole⟩ := h _ s hrun
  obtain ⟨n, payload, hhandled, hfirst⟩ := hwhole.first (by decide)
  have hpayload : payload = [7] ∨ payload = [8, 9] := by
    rcases List.mem_filterMap.mp hhandled with ⟨e, he, hsome⟩
    simp only [List.mem_cons, List.not_mem_nil, or_false] at he
    rcases he with rfl | rfl | rfl | rfl | rfl | rfl | rfl | rfl <;> simp_all
  rcases hpayload with rfl | rfl
  · revert hfirst
    decide
  · revert hfirst
    decide

end Schedules

end MobileCore.UplinkFraming
