import MobileCore.LabelledRuns
import MobileCore.LastWrite

/-!
# The event store of the gateway

A publisher stores its event under one lock and hands it to the subscribers under another one. An
event is told by its place among those that entered the buffer, a channel by its place among the
subscriptions. The id of a subscription is 64-bit and wraps; `total`, the number of events ever
stored, stays below 2^63.
-/

namespace MobileCore.EventStore

open MobileCore.LabelledRuns
open MobileCore.LastWrite

def int64 (n : Nat) : Int := (n : Int).bmod (2 ^ 64)

section Store

variable {α : Type}

/-- `awaiting` are the events of the publishers that are between the locks, in the order in which
they entered the buffer. -/
structure State (α : Type) where
  buf : Nat → α
  writeIdx : Nat := 0
  total : Nat := 0
  subs : Table Int Nat := ∅
  nextSub : Nat := 0
  channels : Nat → List (Nat × α) := fun _ => []
  awaiting : List (Nat × α) := []

inductive Input (α : Type) where
  | store (e : α)
  | fanOut (i : Nat)
  | subscribe
  | unsubscribe (id : Int)
  | receive (n : Nat)

/-- A publisher that has handed on its event is done: the event is published. -/
inductive Event where
  | stored (k : Nat)
  | sent (n k : Nat)
  | dropped (n k : Nat)
  | published (k : Nat)
  | subscribed (n : Nat)
  | closed (n : Nat)
  | received (n k : Nat)
deriving DecidableEq

def State.live (s : State α) : List Nat := s.subs.entries.map (·.2)

/-- A channel that holds 64 events takes no more. -/
def offer (item : Nat × α) (channel : List (Nat × α)) : List (Nat × α) :=
  if channel.length < 64 then channel ++ [item] else channel

def offered (s : State α) (k n : Nat) : Event :=
  if (s.channels n).length < 64 then .sent n k else .dropped n k

/-- A store without capacity cannot take an event. -/
def step (capacity : Nat) : Machine (State α) (Input α) Event
  | s, .store e =>
    if capacity = 0 then none
    else
      some ({ s with
        buf := Function.update s.buf s.writeIdx e
        writeIdx := (s.writeIdx + 1) % capacity
        total := s.total + 1
        awaiting := s.awaiting ++ [(s.total, e)] }, [.stored s.total])
  | s, .fanOut i =>
    match s.awaiting[i]? with
    | none => none
    | some (k, e) =>
      some ({ s with
        awaiting := s.awaiting.eraseIdx i
        channels := fun n => if n ∈ s.live then offer (k, e) (s.channels n) else s.channels n },
        s.live.map (offered s k) ++ [.published k])
  | s, .subscribe =>
    some ({ s with
      subs := s.subs.insert (int64 s.nextSub) s.nextSub
      nextSub := s.nextSub + 1 }, [.subscribed s.nextSub])
  | s, .unsubscribe id =>
    match s.subs.lookup id with
    | none => some (s, [])
    | some n => some ({ s with subs := s.subs.erase id }, [.closed n])
  | s, .receive n =>
    match s.channels n with
    | [] => none
    | (k, _) :: rest =>
      some ({ s with channels := Function.update s.channels n rest }, [.received n k])

def init [Inhabited α] : State α := { buf := fun _ => default }

def sentTo (n : Nat) (tr : List Event) : List Nat :=
  tr.filterMap fun
    | .sent m k => if m = n then some k else none
    | _ => none

def receivedBy (n : Nat) (tr : List Event) : List Nat :=
  tr.filterMap fun
    | .received m k => if m = n then some k else none
    | _ => none

/-- A published event has been sent to every subscriber of then whose channel was not full, and
none is sent on a closed channel. -/
def Justified (before : List Event) : Event → Prop
  | .published k => ∀ n, .subscribed n ∈ before → .closed n ∉ before →
      .sent n k ∈ before ∨ .dropped n k ∈ before
  | .sent n _ => .closed n ∉ before
  | .dropped n _ => (sentTo n before).length = (receivedBy n before).length + 64
  | .stored _ | .subscribed _ | .closed _ | .received _ _ => True

/-- Every subscriber receives what was sent to it, in the order in which the events entered the
buffer and each at most once. -/
structure Delivers (tr : List Event) (s : State α) : Prop where
  order : ∀ n, (receivedBy n tr).Pairwise (· < ·)
  received : ∀ n, sentTo n tr = receivedBy n tr ++ (s.channels n).map (·.1)
  justified : Backed Justified tr

/-- While there are subscribers, events are handed to them in the order in which they entered the
buffer, and no subscriber gets the number of one that is still there. -/
def InOrder (_ : List Event) (s : State α) : Input α → Prop
  | .fanOut i => s.live ≠ [] → i = 0
  | .subscribe => s.subs.lookup (int64 s.nextSub) = none
  | .store _ | .unsubscribe _ | .receive _ => True

instance (tr : List Event) (s : State α) : DecidablePred (InOrder tr s)
  | .fanOut i => inferInstanceAs (Decidable (s.live ≠ [] → i = 0))
  | .subscribe => inferInstanceAs (Decidable (s.subs.lookup (int64 s.nextSub) = none))
  | .store _ => .isTrue trivial
  | .unsubscribe _ => .isTrue trivial
  | .receive _ => .isTrue trivial

end Store

section Traces

variable {α : Type} {tr es : List Event} {s : State α} {n k : Nat}

theorem sentTo_append (n : Nat) (tr es : List Event) :
    sentTo n (tr ++ es) = sentTo n tr ++ sentTo n es := List.filterMap_append

theorem receivedBy_append (n : Nat) (tr es : List Event) :
    receivedBy n (tr ++ es) = receivedBy n tr ++ receivedBy n es := List.filterMap_append

theorem sentTo_quiet {e : Event} (he : ∀ m j, e ≠ .sent m j) : sentTo n (tr ++ [e]) = sentTo n tr := by
  have hnone : sentTo n [e] = [] := by
    refine List.filterMap_eq_nil_iff.mpr fun e' he' => ?_
    rw [List.mem_singleton.mp he']
    split
    · exact absurd rfl (he _ _)
    · rfl
  rw [sentTo_append, hnone, List.append_nil]

theorem receivedBy_quiet {e : Event} (he : ∀ m j, e ≠ .received m j) :
    receivedBy n (tr ++ [e]) = receivedBy n tr := by
  have hnone : receivedBy n [e] = [] := by
    refine List.filterMap_eq_nil_iff.mpr fun e' he' => ?_
    rw [List.mem_singleton.mp he']
    split
    · exact absurd rfl (he _ _)
    · rfl
  rw [receivedBy_append, hnone, List.append_nil]

theorem sentTo_offered {live : List Nat} (hnodup : live.Nodup) :
    sentTo n (live.map (offered s k)) =
      if n ∈ live ∧ (s.channels n).length < 64 then [k] else [] := by
  induction live with
  | nil => simp [sentTo]
  | cons m live ih =>
      obtain ⟨hm, hnodup⟩ := List.nodup_cons.mp hnodup
      rw [List.map_cons, ← List.singleton_append, sentTo_append, ih hnodup]
      by_cases hmn : m = n
      · subst hmn
        by_cases hroom : (s.channels m).length < 64 <;> simp [sentTo, offered, hroom, hm]
      · have hnone : sentTo n [offered s k m] = [] := by
          unfold offered
          split <;> simp [sentTo, hmn]
        simp [hnone, Ne.symm hmn]

theorem receivedBy_offered (live : List Nat) : receivedBy n (live.map (offered s k)) = [] := by
  refine List.filterMap_eq_nil_iff.mpr fun e he => ?_
  obtain ⟨m, -, rfl⟩ := List.mem_map.mp he
  by_cases hroom : (s.channels m).length < 64
  · rw [offered, if_pos hroom]
  · rw [offered, if_neg hroom]

theorem mem_offered {live : List Nat} {e : Event} (h : e ∈ live.map (offered s k)) :
    ∃ m ∈ live, e = .sent m k ∨ e = .dropped m k := by
  obtain ⟨m, hm, rfl⟩ := List.mem_map.mp h
  refine ⟨m, hm, ?_⟩
  unfold offered
  split
  · exact Or.inl rfl
  · exact Or.inr rfl

theorem mem_live : n ∈ s.live ↔ ∃ id, s.subs.lookup id = some n := by
  constructor
  · intro h
    obtain ⟨⟨id, m⟩, hm, rfl⟩ := List.mem_map.mp h
    exact ⟨id, AList.mem_lookup_iff.mpr hm⟩
  · rintro ⟨id, hid⟩
    exact List.mem_map.mpr ⟨⟨id, n⟩, AList.mem_lookup_iff.mp hid, rfl⟩

end Traces

section Runs

variable {α : Type} {capacity : Nat} {tr es : List Event} {s s' : State α}

/-- How the channels and the subscribers belong to the trace. -/
structure Tracks (tr : List Event) (s : State α) : Prop where
  places : (s.awaiting.map (·.1)).Pairwise (· < ·)
  entered : ∀ k ∈ s.awaiting.map (·.1), k < s.total
  increasing : ∀ n, (sentTo n tr).Pairwise (· < ·)
  older : ∀ n, ∀ k ∈ sentTo n tr, k < s.total ∧ ∀ j ∈ s.awaiting.map (·.1), k < j
  received : ∀ n, sentTo n tr = receivedBy n tr ++ (s.channels n).map (·.1)
  room : ∀ n, (s.channels n).length ≤ 64
  ids : ∀ id n, s.subs.lookup id = some n → id = int64 n ∧ n < s.nextSub ∧ .closed n ∉ tr
  subscribed : ∀ n, .subscribed n ∈ tr → n < s.nextSub
  closed : ∀ n, .closed n ∈ tr → n < s.nextSub
  present : ∀ n < s.nextSub, .closed n ∉ tr → s.subs.lookup (int64 n) = some n
  justified : Backed Justified tr

theorem tracks_init [Inhabited α] : Tracks [] (init : State α) where
  places := List.Pairwise.nil
  entered _ h := by cases h
  increasing _ := List.Pairwise.nil
  older _ _ h := by cases h
  received _ := rfl
  room _ := Nat.zero_le 64
  ids _ _ h := by cases h
  subscribed _ h := by cases h
  closed _ h := by cases h
  present _ h := by cases h
  justified := Backed.nil _

theorem Tracks.delivers (h : Tracks tr s) : Delivers tr s where
  order n := by
    have hsent := h.increasing n
    rw [h.received n] at hsent
    exact (List.pairwise_append.mp hsent).1
  received := h.received
  justified := h.justified

theorem Tracks.live_nodup (h : Tracks tr s) : s.live.Nodup := by
  refine List.Nodup.map_on ?_ s.subs.nodupKeys.nodup
  rintro ⟨id, n⟩ hn ⟨id', n'⟩ hn' rfl
  have hid := (h.ids id n (AList.mem_lookup_iff.mpr hn)).1
  have hid' := (h.ids id' n (AList.mem_lookup_iff.mpr hn')).1
  rw [hid, hid']

theorem Tracks.stored (h : Tracks tr s) (buf : Nat → α) (writeIdx : Nat) (e : α) :
    Tracks (tr ++ [.stored s.total])
      { s with
        buf := buf
        writeIdx := writeIdx
        total := s.total + 1
        awaiting := s.awaiting ++ [(s.total, e)] } where
  places := by
    rw [List.map_append, List.pairwise_append]
    refine ⟨h.places, List.pairwise_singleton _ _, fun k hk j hj => ?_⟩
    rw [List.mem_singleton.mp hj]
    exact h.entered k hk
  entered k hk := by
    rw [List.map_append] at hk
    rcases List.mem_append.mp hk with hold | hnew
    · exact Nat.lt_succ_of_lt (h.entered k hold)
    · rw [List.mem_singleton.mp hnew]
      exact Nat.lt_succ_self s.total
  increasing n := by
    rw [sentTo_quiet (by simp)]
    exact h.increasing n
  older n k hk := by
    rw [sentTo_quiet (by simp)] at hk
    obtain ⟨htotal, hbefore⟩ := h.older n k hk
    refine ⟨Nat.lt_succ_of_lt htotal, fun j hj => ?_⟩
    rw [List.map_append] at hj
    rcases List.mem_append.mp hj with hold | hnew
    · exact hbefore j hold
    · rw [List.mem_singleton.mp hnew]
      exact htotal
  received n := by
    rw [sentTo_quiet (by simp), receivedBy_quiet (by simp)]
    exact h.received n
  room := h.room
  ids id n hid := by
    obtain ⟨hint, hlt, hopen⟩ := h.ids id n hid
    exact ⟨hint, hlt, by simpa using hopen⟩
  subscribed n hn := h.subscribed n (by simpa using hn)
  closed n hn := h.closed n (by simpa using hn)
  present n hn hopen := h.present n hn (by simpa using hopen)
  justified := h.justified.snoc trivial

theorem Tracks.offered (h : Tracks tr s) (k : Nat) :
    Backed Justified (tr ++ s.live.map (offered s k)) := by
  refine h.justified.append fun before e after hsplit => ?_
  obtain ⟨earlier, rest, hlive, hbefore, hrest⟩ := List.map_eq_append_iff.mp hsplit
  obtain ⟨n, later, rfl, rfl, -⟩ := List.map_eq_cons_iff.mp hrest
  have hnodup := h.live_nodup
  rw [hlive] at hnodup
  obtain ⟨hearlier, -, hdisjoint⟩ := List.nodup_append.mp hnodup
  have hn : n ∉ earlier := fun hn => hdisjoint n hn n List.mem_cons_self rfl
  obtain ⟨id, hid⟩ := mem_live.mp (hlive ▸ List.mem_append_right earlier List.mem_cons_self)
  subst hbefore
  rw [EventStore.offered]
  split
  · show .closed n ∉ tr ++ _
    intro hclosed
    rcases List.mem_append.mp hclosed with hold | hnew
    · exact (h.ids id n hid).2.2 hold
    · obtain ⟨m, -, hsent | hdropped⟩ := mem_offered hnew
      · cases hsent
      · cases hdropped
  · rename_i hfull
    show (sentTo n _).length = (receivedBy n _).length + 64
    rw [sentTo_append, receivedBy_append, sentTo_offered hearlier, receivedBy_offered,
      if_neg fun hboth => hn hboth.1, List.append_nil, List.append_nil, h.received n,
      List.length_append, List.length_map]
    have hroom := h.room n
    omega

theorem Tracks.fannedOut (h : Tracks tr s) {i k : Nat} {e : α}
    (hi : s.awaiting[i]? = some (k, e)) (hfirst : s.live ≠ [] → i = 0) :
    Tracks (tr ++ (s.live.map (EventStore.offered s k) ++ [.published k]))
      { s with
        awaiting := s.awaiting.eraseIdx i
        channels := fun n => if n ∈ s.live then offer (k, e) (s.channels n) else s.channels n } := by
  have hk : k ∈ s.awaiting.map (·.1) := List.mem_map_of_mem (List.mem_of_getElem? hi)
  have hrest : ((s.awaiting.eraseIdx i).map (·.1)).Sublist (s.awaiting.map (·.1)) :=
    (List.eraseIdx_sublist s.awaiting i).map _
  have hlater (hlive : s.live ≠ []) : ∀ j ∈ (s.awaiting.eraseIdx i).map (·.1), k < j := by
    obtain rfl := hfirst hlive
    have hplaces := h.places
    cases hawaiting : s.awaiting with
    | nil => simp
    | cons first rest =>
        obtain rfl : first = (k, e) := by simpa [hawaiting] using hi
        rw [hawaiting] at hplaces
        exact (List.pairwise_cons.mp hplaces).1
  have hsent (n : Nat) : sentTo n (tr ++ (s.live.map (EventStore.offered s k) ++ [.published k])) =
      sentTo n tr ++ if n ∈ s.live ∧ (s.channels n).length < 64 then [k] else [] := by
    rw [sentTo_append, sentTo_append, sentTo_offered h.live_nodup]
    exact congrArg _ (List.append_nil _)
  have hreceived (n : Nat) :
      receivedBy n (tr ++ (s.live.map (EventStore.offered s k) ++ [.published k])) =
        receivedBy n tr := by
    rw [receivedBy_append, receivedBy_append, receivedBy_offered]
    exact List.append_nil _
  have hmem {e : Event} (hne : ∀ m, e ≠ .sent m k ∧ e ≠ .dropped m k) (hpub : e ≠ .published k) :
      e ∈ tr ++ (s.live.map (EventStore.offered s k) ++ [.published k]) ↔ e ∈ tr := by
    refine ⟨fun he => ?_, List.mem_append_left _⟩
    rcases List.mem_append.mp he with hold | hnew
    · exact hold
    rcases List.mem_append.mp hnew with hoffered | hlast
    · obtain ⟨m, -, hsent | hdropped⟩ := mem_offered hoffered
      · exact absurd hsent (hne m).1
      · exact absurd hdropped (hne m).2
    · exact absurd (List.mem_singleton.mp hlast) hpub
  constructor
  · exact h.places.sublist hrest
  · exact fun j hj => h.entered j (hrest.subset hj)
  · intro n
    rw [hsent]
    split
    · rw [List.pairwise_append]
      refine ⟨h.increasing n, List.pairwise_singleton _ _, fun j hj i hi => ?_⟩
      rw [List.mem_singleton.mp hi]
      exact (h.older n j hj).2 k hk
    · rw [List.append_nil]
      exact h.increasing n
  · intro n j hj
    rw [hsent] at hj
    rcases List.mem_append.mp hj with hold | hnew
    · exact ⟨(h.older n j hold).1, fun i hi => (h.older n j hold).2 i (hrest.subset hi)⟩
    · split at hnew
      · rename_i hlive
        rw [List.mem_singleton.mp hnew]
        exact ⟨h.entered k hk, hlater (List.ne_nil_of_mem hlive.1)⟩
      · cases hnew
  · intro n
    rw [hsent, hreceived, h.received n, List.append_assoc]
    congr 1
    by_cases hn : n ∈ s.live
    · by_cases hroom : (s.channels n).length < 64
      · simp [hn, hroom, offer]
      · simp [hn, hroom, offer]
    · simp [hn]
  · intro n
    have hroom := h.room n
    dsimp only
    split
    · unfold offer
      split
      · rw [List.length_append]
        exact Nat.succ_le_of_lt (by assumption)
      · exact hroom
    · exact hroom
  · intro id n hid
    obtain ⟨hint, hlt, hopen⟩ := h.ids id n hid
    exact ⟨hint, hlt, mt (hmem (by simp) (by simp)).mp hopen⟩
  · exact fun n hn => h.subscribed n ((hmem (by simp) (by simp)).mp hn)
  · exact fun n hn => h.closed n ((hmem (by simp) (by simp)).mp hn)
  · exact fun n hn hopen => h.present n hn (mt (hmem (by simp) (by simp)).mpr hopen)
  · rw [← List.append_assoc]
    refine (h.offered k).snoc fun n hsubscribed hopen => ?_
    have hold {e : Event} (he : e ∈ tr) : e ∈ tr ++ s.live.map (EventStore.offered s k) :=
      List.mem_append_left _ he
    have hlt : n < s.nextSub := by
      rcases List.mem_append.mp hsubscribed with hsub | hnew
      · exact h.subscribed n hsub
      · obtain ⟨m, -, hbad | hbad⟩ := mem_offered hnew
        · cases hbad
        · cases hbad
    have hlive : n ∈ s.live := mem_live.mpr ⟨_, h.present n hlt (mt hold hopen)⟩
    have hoffer : EventStore.offered s k n ∈ tr ++ s.live.map (EventStore.offered s k) :=
      List.mem_append_right _ (List.mem_map_of_mem hlive)
    rw [EventStore.offered] at hoffer
    split at hoffer
    · exact Or.inl hoffer
    · exact Or.inr hoffer

theorem Tracks.joined (h : Tracks tr s) (hfree : s.subs.lookup (int64 s.nextSub) = none) :
    Tracks (tr ++ [.subscribed s.nextSub])
      { s with
        subs := s.subs.insert (int64 s.nextSub) s.nextSub
        nextSub := s.nextSub + 1 } where
  places := h.places
  entered := h.entered
  increasing n := by
    rw [sentTo_quiet (by simp)]
    exact h.increasing n
  older n := by
    rw [sentTo_quiet (by simp)]
    exact h.older n
  received n := by
    rw [sentTo_quiet (by simp), receivedBy_quiet (by simp)]
    exact h.received n
  room := h.room
  ids id n hid := by
    by_cases hnew : id = int64 s.nextSub
    · dsimp only at hid
      rw [hnew, AList.lookup_insert] at hid
      obtain rfl := Option.some.inj hid
      refine ⟨hnew, Nat.lt_succ_self _, fun hclosed => ?_⟩
      exact Nat.lt_irrefl _ (h.closed _ (by simpa using hclosed))
    · obtain ⟨hint, hlt, hopen⟩ := h.ids id n ((AList.lookup_insert_ne hnew).symm.trans hid)
      exact ⟨hint, Nat.lt_succ_of_lt hlt, by simpa using hopen⟩
  subscribed n hn := by
    rcases List.mem_append.mp hn with hold | hnew
    · exact Nat.lt_succ_of_lt (h.subscribed n hold)
    · obtain rfl := Event.subscribed.inj (List.mem_singleton.mp hnew)
      exact Nat.lt_succ_self _
  closed n hn := Nat.lt_succ_of_lt (h.closed n (by simpa using hn))
  present n hn hopen := by
    rcases Nat.lt_succ_iff_lt_or_eq.mp hn with hlt | rfl
    · have hpresent := h.present n hlt (by simpa using hopen)
      refine (AList.lookup_insert_ne fun heq => ?_).trans hpresent
      rw [heq, hfree] at hpresent
      cases hpresent
    · exact AList.lookup_insert s.subs
  justified := h.justified.snoc trivial

theorem Tracks.left (h : Tracks tr s) {id : Int} {n : Nat} (hid : s.subs.lookup id = some n) :
    Tracks (tr ++ [.closed n]) { s with subs := s.subs.erase id } where
  places := h.places
  entered := h.entered
  increasing m := by
    rw [sentTo_quiet (by simp)]
    exact h.increasing m
  older m := by
    rw [sentTo_quiet (by simp)]
    exact h.older m
  received m := by
    rw [sentTo_quiet (by simp), receivedBy_quiet (by simp)]
    exact h.received m
  room := h.room
  ids id' m hm := by
    have hne : id' ≠ id := by
      rintro rfl
      exact absurd ((AList.lookup_erase id' s.subs).symm.trans hm) (by simp)
    obtain ⟨hint, hlt, hopen⟩ := h.ids id' m ((AList.lookup_erase_ne hne).symm.trans hm)
    refine ⟨hint, hlt, fun hclosed => ?_⟩
    rcases List.mem_append.mp hclosed with hold | hnew
    · exact hopen hold
    · obtain rfl := Event.closed.inj (List.mem_singleton.mp hnew)
      exact hne (hint.trans (h.ids id m hid).1.symm)
  subscribed m hm := h.subscribed m (by simpa using hm)
  closed m hm := by
    rcases List.mem_append.mp hm with hold | hnew
    · exact h.closed m hold
    · obtain rfl := Event.closed.inj (List.mem_singleton.mp hnew)
      exact (h.ids id m hid).2.1
  present m hm hopen := by
    have hpresent := h.present m hm fun hold => hopen (List.mem_append_left _ hold)
    refine (AList.lookup_erase_ne fun heq => ?_).trans hpresent
    rw [heq, hid] at hpresent
    obtain rfl := Option.some.inj hpresent
    exact hopen (List.mem_append_right _ List.mem_cons_self)
  justified := h.justified.snoc trivial

theorem Tracks.took (h : Tracks tr s) {n k : Nat} {e : α} {rest : List (Nat × α)}
    (hchannel : s.channels n = (k, e) :: rest) :
    Tracks (tr ++ [.received n k])
      { s with channels := Function.update s.channels n rest } where
  places := h.places
  entered := h.entered
  increasing m := by
    rw [sentTo_quiet (by simp)]
    exact h.increasing m
  older m := by
    rw [sentTo_quiet (by simp)]
    exact h.older m
  received m := by
    rw [sentTo_quiet (by simp), h.received m]
    dsimp only
    by_cases hm : m = n
    · subst hm
      rw [hchannel, receivedBy_append, Function.update_self]
      simp [receivedBy]
    · rw [Function.update_of_ne hm, receivedBy_append]
      simp [receivedBy, Ne.symm hm]
  room m := by
    dsimp only
    by_cases hm : m = n
    · have hroom := h.room n
      rw [hchannel] at hroom
      rw [hm, Function.update_self]
      exact Nat.le_of_succ_le hroom
    · rw [Function.update_of_ne hm]
      exact h.room m
  ids id m hid := by
    obtain ⟨hint, hlt, hopen⟩ := h.ids id m hid
    exact ⟨hint, hlt, by simpa using hopen⟩
  subscribed m hm := h.subscribed m (by simpa using hm)
  closed m hm := h.closed m (by simpa using hm)
  present m hm hopen := h.present m hm (by simpa using hopen)
  justified := h.justified.snoc trivial

theorem tracks_step {i : Input α} (h : Tracks tr s) (hguard : InOrder tr s i)
    (hstep : step capacity s i = some (s', es)) : Tracks (tr ++ es) s' := by
  cases i with
  | store e =>
      simp only [step] at hstep
      split at hstep <;> cases hstep
      exact h.stored _ _ e
  | fanOut i =>
      simp only [step] at hstep
      split at hstep
      · cases hstep
      · rename_i k e hi
        cases hstep
        exact h.fannedOut hi hguard
  | subscribe =>
      cases hstep
      exact h.joined hguard
  | unsubscribe id =>
      simp only [step] at hstep
      split at hstep
      · cases hstep
        rw [List.append_nil]
        exact h
      · rename_i n hid
        cases hstep
        exact h.left hid
  | receive n =>
      simp only [step] at hstep
      split at hstep
      · cases hstep
      · rename_i k e rest hchannel
        cases hstep
        exact h.took hchannel

/-- When no publisher overtakes another one between the locks, every subscriber receives the events
in the order of the buffer. -/
theorem delivers_of_inOrder (α : Type) [Inhabited α] (capacity : Nat) (tr : List Event) (s : State α)
    (hrun : Run (step capacity) InOrder init tr s) : Delivers tr s := by
  have htracks : Tracks tr s := by
    refine hrun.invariant (I := fun tr s => Tracks tr s) tracks_init ?_
    intro _ _ _ _ _ h hguard hstep
    exact tracks_step h hguard hstep
  exact htracks.delivers

end Runs

section Schedules

/-- Two events that enter the buffer one after the other reach a subscriber so. -/
theorem delivers_two : ∃ tr, ∃ s : State Nat, Delivers tr s ∧ receivedBy 0 tr = [0, 1] := by
  have hexec : (exec (step 1000) (init : State Nat) [.subscribe, .store 7, .store 8, .fanOut 0,
      .receive 0, .fanOut 0, .receive 0, .unsubscribe 0]).map (fun r => receivedBy 0 r.2) =
        some [0, 1] := by decide +kernel
  obtain ⟨tr, s, hrun, hseen⟩ := exists_run_of_exec (P := InOrder) _ (by decide +kernel) hexec
  exact ⟨tr, s, delivers_of_inOrder Nat 1000 tr s hrun, hseen⟩

/-- The publisher of the second event overtakes that of the first. -/
theorem not_delivers_overtaken : ¬∀ (tr : List Event) (s : State Nat),
    Reach (step 1000) init tr s → Delivers tr s := by
  intro h
  have hexec : (exec (step 1000) (init : State Nat) [.subscribe, .store 7, .store 8, .fanOut 1,
      .fanOut 0, .receive 0, .receive 0]).map (fun r => receivedBy 0 r.2) = some [1, 0] := by
    decide +kernel
  obtain ⟨tr, s, hrun, hseen⟩ := exists_reach_of_exec hexec
  have horder := (h tr s hrun).order 0
  rw [hseen] at horder
  revert horder
  decide

end Schedules

end MobileCore.EventStore
