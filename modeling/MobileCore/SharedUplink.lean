import MobileCore.LayeredMachines
import MobileCore.UplinkFraming

/-!
# Threads that write the frames of one connection

A machine whose threads put whole messages on a connection, and the machine in which they write
them in calls of `send` that may come between each other. The reader takes whatever frame the bytes
make up. The first machine describes the second one as long as no thread writes into the frame of
another.
-/

namespace MobileCore.SharedUplink

open MobileCore.FrameTransport
open MobileCore.LabelledRuns
open MobileCore.LayeredMachines
open UplinkFraming (buffers buffers_flatten inside inside_completed inside_wrote)

universe u v w x

inductive Port where
  | aside
  | put (n : Nat)
  | take
deriving DecidableEq

/-- A machine with threads that put messages on a connection, and a node that takes them from its
other end. A message goes out as a payload that carries it, and `mayRead` says what the node makes
of a payload that nobody wrote. -/
structure Link (σ : Type u) (ι : Type v) (ε : Type w) (κ : Type x) where
  machine : Machine σ ι ε
  port : ι → Port
  put : Nat → ι
  take : ι
  handing : σ → Nat → Option κ
  queue : σ → List κ
  setQueue : List κ → σ → σ
  carries : List UInt8 → κ → Bool
  mayRead : List UInt8 → κ → Bool
  port_put : ∀ {i n}, port i = .put n → i = put n
  port_take : ∀ {i}, port i = .take → i = take
  aside_step : ∀ {s s' i es}, port i = .aside → machine s i = some (s', es) →
    queue s' = queue s ∧ ∀ n k, handing s n = some k → handing s' n = some k
  put_step : ∀ {s s' n es}, machine s (put n) = some (s', es) →
    (∃ k, handing s n = some k ∧ queue s' = queue s ++ [k]) ∧
      ∀ m ≠ n, handing s' m = handing s m
  take_step : ∀ {s s' es}, machine s take = some (s', es) →
    (∃ k, queue s = k :: queue s') ∧ handing s' = handing s

/-- What is on the connection: what each thread has still to write of the payload that it was
handed, the whole frames that wait and all bytes that do. -/
structure Wire where
  writers : UplinkFraming.State := UplinkFraming.init
  record : List UplinkFraming.Event := []
  handed : Nat → List UInt8 := fun _ => []
  frames : List (List UInt8) := []
  unread : List UInt8 := []

inductive Input (ι : Type v) (κ : Type x) where
  | aside (i : ι)
  | handOver (n : Nat) (payload : List UInt8)
  | send (n count : Nat)
  | fail (n : Nat)
  | receive (other : κ)

/-- A step of the machine with whole messages, a message that is lost, and one that nobody sent. -/
inductive Act (ι : Type v) (κ : Type x) where
  | whole (i : ι)
  | lose (n : Nat)
  | misread (k : κ)

variable {σ : Type u} {ι : Type v} {ε : Type w} {κ : Type x} (L : Link σ ι ε κ)

def act : Machine σ (Act ι κ) ε
  | s, .whole i => L.machine s i
  | s, .lose n => (L.machine s (L.put n)).map fun r => (L.setQueue (L.queue s) r.1, r.2)
  | s, .misread k => L.machine (L.setQueue (k :: L.queue s) s) L.take

def Wire.write (u : Wire) (i : UplinkFraming.Input) : Option (Wire × List UplinkFraming.Event) :=
  (UplinkFraming.step u.writers i).map fun r =>
    ({ u with
        writers := r.1
        record := u.record ++ r.2
        unread := u.unread ++ UplinkFraming.stream r.2 }, r.2)

/-- A message is on the connection when its last byte is written. The node takes the oldest one
where the frame that it reads is that of the oldest one. -/
def move (u : Wire) (s : σ) : Input ι κ → Option (Wire × Option (Act ι κ))
  | .aside i => if L.port i = .aside then some (u, some (.whole i)) else none
  | .handOver n payload =>
    if (L.handing s n).any (L.carries payload) then
      (u.write (.handle n payload)).map fun r =>
        ({ r.1 with handed := Function.update u.handed n payload }, none)
    else none
  | .send n count =>
    (u.write (.send n count)).map fun r =>
      if .completed n ∈ r.2 then
        ({ r.1 with frames := u.frames ++ [u.handed n] }, some (.whole (L.put n)))
      else (r.1, none)
  | .fail n => (u.write (.fail n)).map fun r => (r.1, some (.lose n))
  | .receive other =>
    match takeFrame u.unread with
    | none => none
    | some (payload, later) =>
      if u.frames.head? = some payload then
        some ({ u with frames := u.frames.tail, unread := later }, some (.whole L.take))
      else if L.mayRead payload other then
        some ({ u with unread := later }, some (.misread other))
      else none

def step : Machine (Layered Wire σ) (Input ι κ) ε := layer (act L) (move L)

def init (s : σ) : Layered Wire σ := ⟨{}, s⟩

/-- No thread writes while another one is inside a frame, and no write fails. -/
def Exclusive (u : Wire) : Input ι κ → Prop
  | .send n count => UplinkFraming.Exclusive u.record u.writers (.send n count)
  | .fail n => UplinkFraming.Exclusive u.record u.writers (.fail n)
  | _ => True

instance Exclusive.decidable (u : Wire) : (i : Input ι κ) → Decidable (Exclusive u i)
  | .send n count =>
    inferInstanceAs (Decidable (UplinkFraming.Exclusive u.record u.writers (.send n count)))
  | .fail n => inferInstanceAs (Decidable (UplinkFraming.Exclusive u.record u.writers (.fail n)))
  | .aside _ | .handOver _ _ | .receive _ => .isTrue trivial

def Meets (P : List ε → σ → ι → Prop) (tr : List ε) (s : Layered Wire σ) (i : Input ι κ) : Prop :=
  match move L s.upper s.lower i with
  | some (_, some (.whole j)) => P tr s.lower j
  | _ => True

def Guarded (P : List ε → σ → ι → Prop) (tr : List ε) (s : Layered Wire σ) (i : Input ι κ) :
    Prop :=
  Exclusive s.upper i ∧ Meets L P tr s i

/-- The frames that wait are those of the messages that wait, and the bytes are these frames and
as much of one more as its thread has written. -/
structure Sound (s : Layered Wire σ) : Prop where
  frames : List.Forall₂ (fun payload k => L.carries payload k = true) s.upper.frames
    (L.queue s.lower)
  sizes : ∀ payload ∈ s.upper.frames, 1 ≤ payload.length ∧ payload.length ≤ 65536
  handed : ∀ n, s.upper.writers n ≠ [] →
    (∃ k, L.handing s.lower n = some k ∧ L.carries (s.upper.handed n) k = true) ∧
      1 ≤ (s.upper.handed n).length ∧ (s.upper.handed n).length ≤ 65536
  nonempty : ∀ n, ∀ buf ∈ s.upper.writers n, buf ≠ []
  outside : ∀ n ∉ inside s.upper.record, s.upper.writers n ≠ [] →
    s.upper.writers n = buffers (s.upper.handed n)
  between : inside s.upper.record = ∅ → s.upper.unread = s.upper.frames.flatMap framed
  within : ∀ n ∈ inside s.upper.record, s.upper.writers n ≠ [] ∧
    ∃ part, s.upper.unread = s.upper.frames.flatMap framed ++ part ∧
      part ++ (s.upper.writers n).flatten = framed (s.upper.handed n)

section Writing

variable {L} {u : Wire} {s s' : σ} {n : Nat} {es : List ε}

theorem Sound.aside (h : Sound L ⟨u, s⟩) {i : ι} (hport : L.port i = .aside)
    (hstep : L.machine s i = some (s', es)) : Sound L ⟨u, s'⟩ := by
  obtain ⟨hqueue, hhanding⟩ := L.aside_step hport hstep
  refine ⟨?_, h.sizes, ?_, h.nonempty, h.outside, h.between, h.within⟩
  · show List.Forall₂ _ u.frames (L.queue s')
    rw [hqueue]
    exact h.frames
  · intro n hn
    obtain ⟨⟨k, hk, hcarries⟩, hsizes⟩ := h.handed n hn
    exact ⟨⟨k, hhanding n k hk, hcarries⟩, hsizes⟩

theorem buffers_ne_nil {payload : List UInt8} (hsome : 1 ≤ payload.length)
    (hle : payload.length ≤ 65536) : ∀ buf ∈ buffers payload, buf ≠ [] := by
  intro buf hbuf
  rw [buffers, toNat_length hle, List.take_length] at hbuf
  rcases List.mem_pair.mp hbuf with rfl | rfl
  · exact List.ne_nil_of_length_pos (by rw [TlvMessages.pu32_length]; decide)
  · exact List.ne_nil_of_length_pos hsome

theorem nonempty_update {writers : UplinkFraming.State} (h : ∀ m, ∀ buf ∈ writers m, buf ≠ [])
    {rest : List (List UInt8)} (hrest : ∀ buf ∈ rest, buf ≠ []) :
    ∀ m, ∀ buf ∈ Function.update writers n rest m, buf ≠ [] :=
  (Function.forall_update_iff writers (p := fun _ bufs => ∀ buf ∈ bufs, buf ≠ [])).mpr
    ⟨hrest, fun m _ => h m⟩

theorem Sound.handedOver (h : Sound L ⟨u, s⟩) {k : κ} {payload : List UInt8}
    (hk : L.handing s n = some k) (hcarries : L.carries payload k = true)
    (hidle : u.writers n = []) (hsome : 1 ≤ payload.length) (hle : payload.length ≤ 65536) :
    Sound L ⟨{ u with
      writers := Function.update u.writers n (buffers payload)
      record := u.record ++ [.handled n payload]
      handed := Function.update u.handed n payload }, s⟩ := by
  have hinside : inside (u.record ++ [.handled n payload]) = inside u.record := by
    rw [inside, List.foldl_append]
    rfl
  have hout : n ∉ inside u.record := fun hin => (h.within n hin).1 hidle
  refine ⟨h.frames, h.sizes, ?_, ?_, ?_, ?_, ?_⟩
  · intro m hm
    dsimp only at hm ⊢
    by_cases heq : m = n
    · subst heq
      rw [Function.update_self]
      exact ⟨⟨k, hk, hcarries⟩, hsome, hle⟩
    · rw [Function.update_of_ne heq] at hm ⊢
      exact h.handed m hm
  · exact nonempty_update h.nonempty (buffers_ne_nil hsome hle)
  · intro m hm hbusy
    dsimp only at hm hbusy ⊢
    rw [hinside] at hm
    by_cases heq : m = n
    · subst heq
      rw [Function.update_self, Function.update_self]
    · rw [Function.update_of_ne heq] at hbusy
      rw [Function.update_of_ne heq, Function.update_of_ne heq]
      exact h.outside m hm hbusy
  · intro hempty
    dsimp only at hempty
    rw [hinside] at hempty
    exact h.between hempty
  · intro m hm
    dsimp only at hm ⊢
    rw [hinside] at hm
    have hne : m ≠ n := fun heq => hout (heq ▸ hm)
    rw [Function.update_of_ne hne, Function.update_of_ne hne]
    exact h.within m hm

theorem Sound.begun (h : Sound L ⟨u, s⟩) (hexclusive : inside u.record ⊆ {n})
    (hbusy : u.writers n ≠ []) : ∃ part, u.unread = u.frames.flatMap framed ++ part ∧
      part ++ (u.writers n).flatten = framed (u.handed n) := by
  by_cases hin : n ∈ inside u.record
  · exact (h.within n hin).2
  · have hempty : inside u.record = ∅ := by
      rcases Finset.subset_singleton_iff.mp hexclusive with hempty | hsingle
      · exact hempty
      · exact absurd (hsingle ▸ Finset.mem_singleton_self n) hin
    refine ⟨[], ?_, ?_⟩
    · rw [List.append_nil]
      exact h.between hempty
    · have hbuffers : u.writers n = buffers (u.handed n) := h.outside n hin hbusy
      rw [hbuffers, buffers_flatten (h.handed n hbusy).2.2, List.nil_append]

theorem Sound.wrote (h : Sound L ⟨u, s⟩) (hexclusive : inside u.record ⊆ {n})
    (hbusy : u.writers n ≠ []) {bytes : List UInt8} {rest : List (List UInt8)}
    {fs : List UplinkFraming.Event} (hrest : rest ≠ []) (hbuffers : ∀ buf ∈ rest, buf ≠ [])
    (hpart : (u.writers n).flatten = bytes ++ rest.flatten)
    (hinside : inside (u.record ++ fs) = {n}) :
    Sound L ⟨{ u with
      writers := Function.update u.writers n rest
      record := u.record ++ fs
      unread := u.unread ++ bytes }, s⟩ := by
  obtain ⟨part, hunread, hwhole⟩ := h.begun hexclusive hbusy
  refine ⟨h.frames, h.sizes, ?_, ?_, ?_, ?_, ?_⟩
  · intro m hm
    dsimp only at hm ⊢
    by_cases heq : m = n
    · exact heq ▸ h.handed n hbusy
    · rw [Function.update_of_ne heq] at hm
      exact h.handed m hm
  · exact nonempty_update h.nonempty hbuffers
  · intro m hm hm'
    dsimp only at hm hm' ⊢
    rw [hinside] at hm
    have hne : m ≠ n := fun heq => hm (heq ▸ Finset.mem_singleton_self n)
    rw [Function.update_of_ne hne] at hm' ⊢
    exact h.outside m (fun hin => hne (Finset.mem_singleton.mp (hexclusive hin))) hm'
  · intro hempty
    dsimp only at hempty
    rw [hinside] at hempty
    exact absurd hempty (Finset.singleton_ne_empty n)
  · intro m hm
    dsimp only at hm ⊢
    rw [hinside] at hm
    obtain rfl := Finset.mem_singleton.mp hm
    rw [Function.update_self]
    refine ⟨hrest, part ++ bytes, ?_, ?_⟩
    · rw [hunread, List.append_assoc]
    · rw [List.append_assoc, ← hpart, hwhole]

theorem Sound.completed (h : Sound L ⟨u, s⟩) (hexclusive : inside u.record ⊆ {n})
    (hbusy : u.writers n ≠ []) {fs : List UplinkFraming.Event}
    (hinside : inside (u.record ++ fs) = ∅) (hstep : L.machine s (L.put n) = some (s', es)) :
    Sound L ⟨{ u with
      writers := Function.update u.writers n []
      record := u.record ++ fs
      frames := u.frames ++ [u.handed n]
      unread := u.unread ++ (u.writers n).flatten }, s'⟩ := by
  obtain ⟨part, hunread, hwhole⟩ := h.begun hexclusive hbusy
  obtain ⟨⟨k, hk, hqueue⟩, hothers⟩ := L.put_step hstep
  obtain ⟨⟨k', hk', hcarries⟩, hsizes⟩ := h.handed n hbusy
  obtain rfl : k = k' := Option.some.inj (hk.symm.trans hk')
  refine ⟨?_, ?_, ?_, ?_, ?_, ?_, ?_⟩
  · show List.Forall₂ _ (u.frames ++ [u.handed n]) (L.queue s')
    rw [hqueue]
    exact List.rel_append h.frames (.cons hcarries .nil)
  · intro payload hmem
    rcases List.mem_append.mp hmem with hold | hnew
    · exact h.sizes payload hold
    · rw [List.mem_singleton.mp hnew]
      exact hsizes
  · intro m hm
    dsimp only at hm ⊢
    have hne : m ≠ n := by
      rintro rfl
      exact hm (Function.update_self ..)
    rw [Function.update_of_ne hne] at hm
    rw [hothers m hne]
    exact h.handed m hm
  · refine nonempty_update h.nonempty ?_
    intro buf hbuf
    cases hbuf
  · intro m _ hm
    dsimp only at hm ⊢
    have hne : m ≠ n := by
      rintro rfl
      exact hm (Function.update_self ..)
    rw [Function.update_of_ne hne] at hm ⊢
    exact h.outside m (fun hin => hne (Finset.mem_singleton.mp (hexclusive hin))) hm
  · intro _
    dsimp only
    rw [hunread, List.append_assoc, hwhole, List.flatMap_append]
    exact congrArg _ (List.append_nil _).symm
  · intro m hm
    dsimp only at hm
    rw [hinside] at hm
    cases hm

end Writing

section Steps

variable {L} {u u' : Wire} {s : σ} {n count : Nat}

theorem write_send {fs : List UplinkFraming.Event}
    (hwrite : u.write (.send n count) = some (u', fs)) (hnonempty : ∀ buf ∈ u.writers n, buf ≠ []) :
    ∃ bytes rest, u.writers n ≠ [] ∧ (u.writers n).flatten = bytes ++ rest.flatten ∧
      (∀ buf ∈ rest, buf ≠ []) ∧
      u' = { u with
        writers := Function.update u.writers n rest
        record := u.record ++ fs
        unread := u.unread ++ bytes } ∧
      ((rest ≠ [] ∧ fs = [.wrote n bytes]) ∨ (rest = [] ∧ fs = [.wrote n bytes, .completed n])) := by
  obtain ⟨⟨writers, fs'⟩, hstep, hresult⟩ := Option.map_eq_some_iff.mp hwrite
  obtain ⟨rfl, rfl⟩ := Prod.mk.inj hresult
  simp only [UplinkFraming.step] at hstep
  split at hstep
  · cases hstep
  · rename_i buf rest hbuffers
    have hrest : ∀ b ∈ rest, b ≠ [] := fun b hb =>
      hnonempty b (hbuffers ▸ List.mem_cons_of_mem buf hb)
    split at hstep
    · rename_i hcount
      cases hstep
      refine ⟨buf.take count, buf.drop count :: rest, ?_, ?_, ?_, ?_, Or.inl ⟨?_, rfl⟩⟩
      · rw [hbuffers]
        exact List.cons_ne_nil buf rest
      · rw [hbuffers, List.flatten_cons, List.flatten_cons, ← List.append_assoc,
          List.take_append_drop]
      · rintro b (_ | ⟨_, hb⟩)
        · apply List.ne_nil_of_length_pos
          rw [List.length_drop]
          omega
        · exact hrest b hb
      · rw [UplinkFraming.stream, List.flatMap_singleton]
        rfl
      · exact List.cons_ne_nil _ _
    · split at hstep <;> cases hstep
      have hstream : UplinkFraming.stream (.wrote n buf :: if rest = [] then [.completed n] else []) =
          buf := by
        split <;> exact List.append_nil buf
      refine ⟨buf, rest, ?_, ?_, hrest, ?_, ?_⟩
      · rw [hbuffers]
        exact List.cons_ne_nil buf rest
      · rw [hbuffers, List.flatten_cons]
      · rw [hstream]
      · by_cases hend : rest = []
        · exact Or.inr ⟨hend, by rw [if_pos hend]⟩
        · exact Or.inl ⟨hend, by rw [if_neg hend]⟩

/-- The reader can take a frame exactly when a whole one waits, which is the oldest. -/
theorem Sound.takes (h : Sound L ⟨u, s⟩) {payload later : List UInt8}
    (htake : takeFrame u.unread = some (payload, later)) :
    ∃ rest, u.frames = payload :: rest ∧ u.unread = framed payload ++ later := by
  obtain ⟨part, hunread, hpart⟩ : ∃ part, u.unread = u.frames.flatMap framed ++ part ∧
      takeFrame part = none := by
    by_cases hempty : inside u.record = ∅
    · exact ⟨[], by rw [List.append_nil]; exact h.between hempty, rfl⟩
    · obtain ⟨n, hn⟩ := Finset.nonempty_iff_ne_empty.mpr hempty
      obtain ⟨hbusy, part, hunread, hwhole⟩ := h.within n hn
      refine ⟨part, hunread, takeFrame_part (h.handed n hbusy).2.2 hwhole ?_⟩
      obtain ⟨buf, rest, hbuffers⟩ := List.exists_cons_of_ne_nil hbusy
      have hbuf : buf ≠ [] := h.nonempty n buf (hbuffers ▸ List.mem_cons_self)
      show (u.writers n).flatten ≠ []
      rw [hbuffers, List.flatten_cons]
      exact List.append_ne_nil_of_left_ne_nil hbuf _
  cases hframes : u.frames with
  | nil =>
      rw [hframes, List.flatMap_nil, List.nil_append] at hunread
      rw [hunread, hpart] at htake
      cases htake
  | cons first rest =>
      obtain ⟨hsome, hle⟩ := h.sizes first (hframes ▸ List.mem_cons_self)
      rw [hframes, List.flatMap_cons, List.append_assoc] at hunread
      rw [hunread, takeFrame_framed hsome hle] at htake
      obtain ⟨rfl, rfl⟩ := Prod.mk.inj (Option.some.inj htake)
      exact ⟨rest, rfl, hunread⟩

theorem Sound.received (h : Sound L ⟨u, s⟩) {s' : σ} {es : List ε} {payload later : List UInt8}
    (htake : takeFrame u.unread = some (payload, later))
    (hstep : L.machine s L.take = some (s', es)) :
    Sound L ⟨{ u with frames := u.frames.tail, unread := later }, s'⟩ := by
  obtain ⟨rest, hframes, hunread⟩ := h.takes htake
  obtain ⟨⟨k, hqueue⟩, hhanding⟩ := L.take_step hstep
  have hsound := h.frames
  dsimp only at hsound
  rw [hframes, hqueue] at hsound
  have hlater (part : List UInt8) (hpart : u.unread = u.frames.flatMap framed ++ part) :
      later = rest.flatMap framed ++ part := by
    rw [hunread, hframes, List.flatMap_cons, List.append_assoc] at hpart
    exact List.append_cancel_left hpart
  refine ⟨?_, ?_, ?_, h.nonempty, h.outside, ?_, ?_⟩
  · rw [hframes]
    exact (List.forall₂_cons.mp hsound).2
  · intro payload hmem
    exact h.sizes payload (List.mem_of_mem_tail hmem)
  · rw [hhanding]
    exact h.handed
  · intro hempty
    have hall := h.between hempty
    rw [hframes, hlater [] (by rw [List.append_nil]; exact hall)]
    exact List.append_nil _
  · intro n hn
    obtain ⟨hbusy, part, hpart, hwhole⟩ := h.within n hn
    refine ⟨hbusy, part, ?_, hwhole⟩
    rw [hframes]
    exact hlater part hpart

/-- While the threads write one after another each step is one of the machine with whole messages,
or none. -/
theorem step_sound {s s' : Layered Wire σ} {i : Input ι κ} {es : List ε} (h : Sound L s)
    (hexclusive : Exclusive s.upper i) (hstep : step L s i = some (s', es)) :
    Sound L s' ∧ ((s'.lower = s.lower ∧ es = []) ∨
      ∃ j, move L s.upper s.lower i = some (s'.upper, some (.whole j)) ∧
        L.machine s.lower j = some (s'.lower, es)) := by
  obtain ⟨u, s⟩ := s
  obtain ⟨u', s'⟩ := s'
  obtain ⟨j, hmove, hact⟩ := layer_eq_some hstep
  dsimp only at hmove hact ⊢
  cases i with
  | aside i =>
      rw [move] at hmove
      split at hmove
      · rename_i hport
        cases hmove
        obtain ⟨hnone, -⟩ | ⟨i', hsome, hmachine⟩ := hact
        · cases hnone
        · cases hsome
          refine ⟨h.aside hport hmachine, Or.inr ⟨i, ?_, hmachine⟩⟩
          rw [move, if_pos hport]
      · cases hmove
  | handOver n payload =>
      rw [move] at hmove
      split at hmove
      case isFalse => cases hmove
      rename_i hany
      obtain ⟨k, hk, hcarries⟩ := (Option.any_eq_true _ _).mp hany
      obtain ⟨⟨u₁, fs⟩, hhandle, hresult⟩ := Option.map_eq_some_iff.mp hmove
      cases hresult
      obtain ⟨⟨writers, fs'⟩, hframing, hwire⟩ := Option.map_eq_some_iff.mp hhandle
      simp only [UplinkFraming.step] at hframing
      split at hframing <;> cases hframing
      rename_i hsizes
      cases hwire
      obtain ⟨-, rfl, rfl⟩ | ⟨i', hsome, -⟩ := hact
      · refine ⟨?_, Or.inl ⟨rfl, rfl⟩⟩
        have hsilent : u.unread ++ UplinkFraming.stream [.handled n payload] = u.unread :=
          List.append_nil _
        rw [hsilent]
        exact h.handedOver hk hcarries hsizes.1 hsizes.2.1 hsizes.2.2
      · cases hsome
  | send n count =>
      obtain ⟨⟨u₁, fs⟩, hwrite, hresult⟩ := Option.map_eq_some_iff.mp hmove
      obtain ⟨bytes, rest, hbusy, hflatten, hrest, rfl, hkind⟩ := write_send hwrite (h.nonempty n)
      have hexclusive : inside u.record ⊆ {n} := hexclusive
      obtain ⟨hmore, rfl⟩ | ⟨rfl, rfl⟩ := hkind
      · have hnot : .completed n ∉ [UplinkFraming.Event.wrote n bytes] := by simp
        rw [if_neg hnot] at hresult
        cases hresult
        obtain ⟨-, rfl, rfl⟩ | ⟨i', hsome, -⟩ := hact
        · exact ⟨h.wrote hexclusive hbusy hmore hrest hflatten (inside_wrote hexclusive),
            Or.inl ⟨rfl, rfl⟩⟩
        · cases hsome
      · have hend : .completed n ∈ [UplinkFraming.Event.wrote n bytes, .completed n] := by simp
        rw [if_pos hend] at hresult
        cases hresult
        obtain ⟨hnone, -⟩ | ⟨i', hsome, hmachine⟩ := hact
        · cases hnone
        · cases hsome
          rw [List.flatten_nil, List.append_nil] at hflatten
          subst hflatten
          refine ⟨h.completed hexclusive hbusy (inside_completed hexclusive) hmachine,
            Or.inr ⟨L.put n, ?_, hmachine⟩⟩
          rw [move, hwrite, Option.map_some, if_pos hend]
  | fail n => exact absurd hexclusive id
  | receive other =>
      rw [move] at hmove
      split at hmove
      · cases hmove
      · rename_i payload later htake
        obtain ⟨rest, hframes, -⟩ := h.takes htake
        have hfirst : u.frames.head? = some payload := by
          rw [hframes]
          rfl
        rw [if_pos hfirst] at hmove
        cases hmove
        obtain ⟨hnone, -⟩ | ⟨i', hsome, hmachine⟩ := hact
        · cases hnone
        · cases hsome
          refine ⟨h.received htake hmachine, Or.inr ⟨L.take, ?_, hmachine⟩⟩
          rw [move, htake]
          exact if_pos hfirst

theorem step_aside {s s' : σ} {i : ι} {es : List ε} (hport : L.port i = .aside)
    (hstep : L.machine s i = some (s', es)) :
    step L ⟨u, s⟩ (.aside i) = some (⟨u, s'⟩, es) := by
  have hmove : move L u s (.aside i) = some (u, some (.whole i)) := if_pos hport
  simp only [step, layer, hmove, act, hstep, Option.map_some]

/-- What a step shows is shown by the machine with whole messages, if in another state where a
message is lost or misread. -/
theorem step_events {s s' : Layered Wire σ} {i : Input ι κ} {es : List ε}
    (hstep : step L s i = some (s', es)) :
    (s'.lower = s.lower ∧ es = []) ∨ (∃ j, L.machine s.lower j = some (s'.lower, es)) ∨
      ∃ s₁ s₂ j, (j = L.take ∨ ∃ n, j = L.put n) ∧ L.machine s₁ j = some (s₂, es) := by
  obtain ⟨-, -, ⟨-, hsilent⟩ | ⟨act, -, hact⟩⟩ := layer_eq_some hstep
  · exact Or.inl hsilent
  · cases act with
    | whole j => exact Or.inr (Or.inl ⟨j, hact⟩)
    | lose n =>
        obtain ⟨⟨s₂, es'⟩, hput, hresult⟩ := Option.map_eq_some_iff.mp hact
        obtain ⟨-, rfl⟩ := Prod.mk.inj hresult
        exact Or.inr (Or.inr ⟨s.lower, s₂, L.put n, Or.inr ⟨n, rfl⟩, hput⟩)
    | misread k => exact Or.inr (Or.inr ⟨_, _, L.take, Or.inl rfl, hact⟩)

end Steps

section Runs

variable {L} {P : List ε → σ → ι → Prop} {s₀ s : Layered Wire σ} {tr : List ε}

theorem sound_init {s : σ} (hqueue : L.queue s = []) : Sound L (init s) where
  frames := by
    show List.Forall₂ _ [] (L.queue s)
    rw [hqueue]
    exact .nil
  sizes _ h := by cases h
  handed _ h := absurd rfl h
  nonempty _ _ h := by cases h
  outside _ _ h := absurd rfl h
  between _ := rfl
  within _ h := by cases h

/-- A run in which the threads write one after another is a run of the machine with whole
messages. -/
theorem run_whole (h : Sound L s₀) (hrun : Run (step L) (Guarded L P) s₀ tr s) :
    Run L.machine P s₀.lower tr s.lower ∧ Sound L s := by
  induction hrun with
  | nil => exact ⟨Run.nil, h⟩
  | snoc _ hguard hstep ih =>
      obtain ⟨hwhole, hsound⟩ := ih
      obtain ⟨hexclusive, hmeets⟩ := hguard
      obtain ⟨hsound', ⟨hsame, rfl⟩ | ⟨j, hmove, hmachine⟩⟩ := step_sound hsound hexclusive hstep
      · rw [hsame, List.append_nil]
        exact ⟨hwhole, hsound'⟩
      · rw [Meets, hmove] at hmeets
        exact ⟨hwhole.snoc hmeets hmachine, hsound'⟩

theorem write_buffer {u : Wire} {n : Nat} {buf : List UInt8} {rest : List (List UInt8)}
    (hbuffers : u.writers n = buf :: rest) : u.write (.send n buf.length) =
      let es := .wrote n buf :: if rest = [] then [.completed n] else []
      some ({ u with
        writers := Function.update u.writers n rest
        record := u.record ++ es
        unread := u.unread ++ UplinkFraming.stream es }, es) := by
  simp only [Wire.write, UplinkFraming.step, hbuffers, Nat.lt_irrefl, and_false, if_false, if_true,
    Option.map_some]

theorem run_silent {u u' : Wire} {s : σ} {i : Input ι κ}
    (hrun : Run (step L) (Guarded L P) s₀ tr ⟨u, s⟩) (hexclusive : Exclusive u i)
    (hmove : move L u s i = some (u', none)) : Run (step L) (Guarded L P) s₀ tr ⟨u', s⟩ := by
  have hguard : Guarded L P tr ⟨u, s⟩ i := by
    refine ⟨hexclusive, ?_⟩
    rw [Meets, hmove]
    trivial
  have hstep : step L ⟨u, s⟩ i = some (⟨u', s⟩, []) := by
    simp only [step, layer, hmove]
  have hnext := hrun.snoc hguard hstep
  rwa [List.append_nil] at hnext

theorem run_act {u u' : Wire} {s s' : σ} {i : Input ι κ} {j : ι} {es : List ε}
    (hrun : Run (step L) (Guarded L P) s₀ tr ⟨u, s⟩) (hexclusive : Exclusive u i)
    (hmove : move L u s i = some (u', some (.whole j))) (hguard : P tr s j)
    (hstep : L.machine s j = some (s', es)) :
    Run (step L) (Guarded L P) s₀ (tr ++ es) ⟨u', s'⟩ := by
  have hguard : Guarded L P tr ⟨u, s⟩ i := by
    refine ⟨hexclusive, ?_⟩
    rw [Meets, hmove]
    exact hguard
  refine hrun.snoc hguard ?_
  simp only [step, layer, hmove, act, hstep, Option.map_some]

theorem run_put {u : Wire} {s s' : σ} {n : Nat} {k : κ} {payload : List UInt8}
    {es : List ε} (hrun : Run (step L) (Guarded L P) s₀ tr ⟨u, s⟩) (hempty : inside u.record = ∅)
    (hidle : ∀ n, u.writers n = []) (hk : L.handing s n = some k)
    (hcarries : L.carries payload k = true) (hsome : 1 ≤ payload.length)
    (hle : payload.length ≤ 65536)
    (hguard : P tr s (L.put n)) (hstep : L.machine s (L.put n) = some (s', es)) :
    ∃ u', Run (step L) (Guarded L P) s₀ (tr ++ es) ⟨u', s'⟩ ∧ inside u'.record = ∅ ∧
      ∀ n, u'.writers n = [] := by
  let header := TlvMessages.pu32 (UInt32.ofNat payload.length)
  have hbuffers : buffers payload = [header, payload] := by
    rw [buffers, toNat_length hle, List.take_length]
  let u₁ : Wire := { u with
    writers := Function.update u.writers n [header, payload]
    record := u.record ++ [.handled n payload]
    unread := u.unread ++ []
    handed := Function.update u.handed n payload }
  have hinside₁ : inside u₁.record = ∅ := by
    rw [inside, List.foldl_append]
    exact hempty
  have hwriters₁ : u₁.writers n = [header, payload] := Function.update_self ..
  have hmove₁ : move L u s (.handOver n payload) = some (u₁, none) := by
    simp only [move, hk, Option.any_some, hcarries, Wire.write, UplinkFraming.step, hidle n, hsome,
      hle, and_self, if_true, Option.map_some, hbuffers]
    rfl
  let u₂ : Wire := { u₁ with
    writers := Function.update u₁.writers n [payload]
    record := u₁.record ++ [.wrote n header]
    unread := u₁.unread ++ UplinkFraming.stream [.wrote n header] }
  have hwriters₂ : u₂.writers n = [payload] := Function.update_self ..
  have hmove₂ : move L u₁ s (.send n header.length) = some (u₂, none) := by
    simp only [move, write_buffer hwriters₁, if_neg (List.cons_ne_nil payload []),
      Option.map_some, List.mem_singleton]
    rfl
  have hinside₂ : inside u₂.record = {n} := inside_wrote (by rw [hinside₁]; exact Finset.empty_subset _)
  let u₃ : Wire := { u₂ with
    writers := Function.update u₂.writers n []
    record := u₂.record ++ [.wrote n payload, .completed n]
    unread := u₂.unread ++ UplinkFraming.stream [.wrote n payload, .completed n]
    frames := u₂.frames ++ [u₂.handed n] }
  have hmove₃ : move L u₂ s (.send n payload.length) = some (u₃, some (.whole (L.put n))) := by
    simp only [move, write_buffer hwriters₂, if_true, Option.map_some, List.mem_cons, true_or,
      or_true]
    rfl
  have hrun₁ := run_silent hrun (i := .handOver n payload) trivial hmove₁
  have hrun₂ := run_silent hrun₁ (i := .send n header.length)
    (show inside u₁.record ⊆ {n} by rw [hinside₁]; exact Finset.empty_subset _) hmove₂
  refine ⟨u₃, run_act hrun₂ (i := .send n payload.length) hinside₂.subset hmove₃ hguard hstep, ?_, ?_⟩
  · exact inside_completed hinside₂.subset
  · intro m
    by_cases hm : m = n
    · subst hm
      exact Function.update_self ..
    · show Function.update (Function.update (Function.update u.writers n _) n _) n _ m = []
      rw [Function.update_of_ne hm, Function.update_of_ne hm, Function.update_of_ne hm]
      exact hidle m

variable (L) in
/-- What the thread is to put on the connection can go out with this coding. -/
def Fits (code : κ → List UInt8) (s : σ) (i : ι) : Prop :=
  ∀ n, L.port i = .put n → ∀ k ∈ L.handing s n,
    L.carries (code k) k = true ∧ 1 ≤ (code k).length ∧ (code k).length ≤ 65536

instance Fits.decidable (code : κ → List UInt8) (s : σ) (i : ι) : Decidable (Fits L code s i) :=
  match h : L.port i with
  | .put n =>
    decidable_of_iff (∀ k ∈ L.handing s n,
      L.carries (code k) k = true ∧ 1 ≤ (code k).length ∧ (code k).length ≤ 65536) (by simp [Fits, h])
  | .aside | .take => .isTrue (by simp [Fits, h])

/-- Every run of the machine with whole messages is one of threads that write them one after
another. -/
theorem run_written {Q : σ → ι → Prop} {code : κ → List UInt8}
    (hfits : ∀ s i, Q s i → Fits L code s i) (h : Sound L s₀)
    (hidle : ∀ n, s₀.upper.writers n = []) {s : σ}
    (hrun : Run L.machine (fun tr s i => P tr s i ∧ Q s i) s₀.lower tr s) :
    ∃ u, Run (step L) (Guarded L P) s₀ tr ⟨u, s⟩ ∧ ∀ n, u.writers n = [] := by
  have hwritten : ∃ u, Run (step L) (Guarded L P) s₀ tr ⟨u, s⟩ ∧ inside u.record = ∅ ∧
      ∀ n, u.writers n = [] := by
    induction hrun with
    | nil =>
        refine ⟨s₀.upper, Run.nil, ?_, hidle⟩
        exact Finset.eq_empty_of_forall_notMem fun n hn => (h.within n hn).1 (hidle n)
    | @snoc tr es s s' i _ hguard hstep ih =>
        obtain ⟨u, hbefore, hempty, hidle⟩ := ih
        obtain ⟨hP, hQ⟩ := hguard
        cases hport : L.port i with
        | aside =>
            have hmove : move L u s (.aside i) = some (u, some (.whole i)) := if_pos hport
            exact ⟨u, run_act hbefore (i := .aside i) trivial hmove hP hstep, hempty, hidle⟩
        | put n =>
            obtain rfl := L.port_put hport
            obtain ⟨⟨k, hk, -⟩, -⟩ := L.put_step hstep
            obtain ⟨hcarries, hsome, hle⟩ := hfits s _ hQ n hport k hk
            exact run_put hbefore hempty hidle hk hcarries hsome hle hP hstep
        | take =>
            obtain rfl := L.port_take hport
            obtain ⟨-, hsound⟩ := run_whole h hbefore
            obtain ⟨⟨k, hqueue⟩, -⟩ := L.take_step hstep
            have hframes := hsound.frames
            dsimp only at hframes
            rw [hqueue] at hframes
            obtain ⟨payload, rest, -, -, hpayload⟩ := List.forall₂_cons_right_iff.mp hframes
            have htake : takeFrame u.unread = some (payload, rest.flatMap framed) := by
              have hunread : u.unread = u.frames.flatMap framed := hsound.between hempty
              obtain ⟨hsome, hle⟩ := hsound.sizes payload (by rw [hpayload]; exact List.mem_cons_self)
              rw [hunread, hpayload, List.flatMap_cons, takeFrame_framed hsome hle]
            have hmove : move L u s (.receive k) =
                some ({ u with frames := u.frames.tail, unread := rest.flatMap framed },
                  some (.whole L.take)) := by
              rw [move, htake, hpayload]
              exact if_pos rfl
            exact ⟨_, run_act hbefore (i := .receive k) trivial hmove hP hstep, hempty, hidle⟩
  obtain ⟨u, hrun, -, hidle⟩ := hwritten
  exact ⟨u, hrun, hidle⟩

end Runs

section Schedules

variable {P : List ε → σ → ι → Prop} {Q : σ → ι → Prop} {s₀ s : σ} {tr : List ε}

theorem exists_written_of_exec {α : Type*} {view : σ × List ε → α} {seen : α} (is : List ι)
    {code : κ → List UInt8} (hfits : ∀ s i, Q s i → Fits L code s i) (hqueue : L.queue s₀ = [])
    (hadmits : Admits L.machine (fun tr s i => P tr s i ∧ Q s i) [] s₀ is)
    (h : (exec L.machine s₀ is).map view = some seen) :
    ∃ tr u s, Run (step L) (Guarded L P) (init s₀) tr ⟨u, s⟩ ∧ view (s, tr) = seen := by
  obtain ⟨tr, s, hrun, hseen⟩ := exists_run_of_exec is hadmits h
  obtain ⟨u, hwritten, -⟩ := run_written hfits (sound_init hqueue) (fun _ => rfl) hrun
  exact ⟨tr, u, s, hwritten, hseen⟩

end Schedules

end MobileCore.SharedUplink
