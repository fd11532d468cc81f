import MobileCore.KpiWindows
import MobileCore.LabelledRuns

/-!
# IDs of published events

The gateway and the simulator number their events from one at each start, and the consumer takes
equal IDs in a window for redeliveries. The topic keeps every event that was published.
-/

namespace MobileCore.EventIdentity

open MobileCore.CppText
open MobileCore.KpiWindows
open MobileCore.LabelledRuns
open MobileCore.LastWrite
open MobileCore.SimEvents

inductive Producer where
  | gateway
  | simulator
deriving DecidableEq

def idOf : Producer → Int → Str
  | .gateway, n => newID n
  | .simulator, n => lit "sim-" ++ intText n

structure Publication where
  producer : Producer
  number : Int
  message : Message

structure State where
  number : Producer → Int := fun _ => 0
  topic : List Publication := []
  consumer : Aggregator := {}

/-- An ID that is abandoned was drawn for an event that the end of the process left unpublished. -/
inductive Input where
  | restart (p : Producer)
  | abandon (p : Producer)
  | publish (p : Producer) (event : Message)
  | deliver (k : Nat)

/-- Publications are told by their places in the topic. -/
inductive Event where
  | published (k : Nat)
  | delivered (k : Nat)
  | counted (k : Nat)
deriving DecidableEq

section Steps

variable (windowSize : Int) (localOffset : Int → Int)

def counts (a : Aggregator) (m : Message) : Bool :=
  m.id ∉ ((a.windows.lookup (keyAt windowSize localOffset a.decoded m)).getD {}).seenIDs

def step : Machine State Input Event
  | s, .restart p => some ({ s with number := Function.update s.number p 0 }, [])
  | s, .abandon p =>
    some ({ s with number := Function.update s.number p (nextNumber (s.number p)) }, [])
  | s, .publish p event =>
    let n := nextNumber (s.number p)
    some ({ s with
      number := Function.update s.number p n
      topic := s.topic ++ [⟨p, n, { event with id := idOf p n }⟩] }, [.published s.topic.length])
  | s, .deliver k =>
    match s.topic[k]? with
    | none => none
    | some pub =>
      some ({ s with consumer := (ingest windowSize localOffset s.consumer (some pub.message)).1 },
        .delivered k :: if counts windowSize localOffset s.consumer pub.message then [.counted k] else [])

def init : State := {}

/-- The total and the errors of a node's windows that start at an instant. -/
def sumOver (f : WindowStats → Nat) (a : Aggregator) (w : Str × Int) : Nat :=
  (a.windows.entries.map fun e => if (e.1.node, e.1.start.instant) = w then f e.2 else 0).sum

def deliveredIn (tr : List Event) (s : State) (w : Str × Int) : Finset Nat :=
  (Finset.range s.topic.length).filter fun k =>
    .delivered k ∈ tr ∧ s.topic[k]?.map (fun pub => window windowSize pub.message) = some w

/-- Every event that has been delivered is counted once, in the window of its node and timestamp,
and no two events of a window have the same ID. -/
structure CountedOnce (tr : List Event) (s : State) : Prop where
  once : ∀ k, .delivered k ∈ tr → tr.count (.counted k) = 1
  total : ∀ w, sumOver (·.total) s.consumer w = (deliveredIn windowSize tr s w).card
  errors : ∀ w, sumOver (·.errors) s.consumer w = ((deliveredIn windowSize tr s w).filter fun k =>
    s.topic[k]?.any fun pub => pub.message.severity = lit "error").card
  distinct : s.topic.Pairwise fun pub pub' =>
    window windowSize pub.message = window windowSize pub'.message → pub.message.id ≠ pub'.message.id

/-- No event gets the number of one that an earlier start of its producer published for the same
window, and what is written neither in UTC nor with the consumer's own offset comes once. -/
def Renumbered (tr : List Event) (s : State) : Input → Prop
  | .publish p event => ∀ pub ∈ s.topic, pub.producer = p → pub.number = nextNumber (s.number p) →
      window windowSize pub.message ≠ window windowSize event
  | .deliver k => ∀ pub ∈ s.topic[k]?, .delivered k ∈ tr → ∀ offset ∈ pub.message.timestamp.offset,
      offset = localOffset pub.message.timestamp.instant
  | _ => True

instance Renumbered.decidable (windowSize : Int) (localOffset : Int → Int) (tr : List Event)
    (s : State) : (i : Input) → Decidable (Renumbered windowSize localOffset tr s i)
  | .publish _ _ => inferInstanceAs (Decidable (∀ pub ∈ s.topic, _))
  | .deliver k => inferInstanceAs (Decidable (∀ pub ∈ s.topic[k]?, _))
  | .restart _ => .isTrue trivial
  | .abandon _ => .isTrue trivial

end Steps

section Counting

variable {windowSize : Int} {localOffset : Int → Int} {a : Aggregator} {m : Message}

def statsAt (a : Aggregator) (key : WindowKey) : WindowStats := (a.windows.lookup key).getD {}

/-- What is written in UTC or with the local offset. -/
def Plain (localOffset : Int → Int) (m : Message) : Prop :=
  ∀ offset ∈ m.timestamp.offset, offset = localOffset m.timestamp.instant

theorem loc_plain (h : Plain localOffset m) (i n : Nat) :
    (keyAt windowSize localOffset i m).start.loc ≠ .fabricated n := by
  rw [keyAt, windowKey, truncate_loc]
  show locate localOffset i m.timestamp ≠ _
  rw [locate]
  cases hoffset : m.timestamp.offset with
  | none => exact fun heq => by cases heq
  | some offset =>
      dsimp only
      rw [if_pos (h offset hoffset)]
      exact fun heq => by cases heq

theorem keyAt_plain (h : Plain localOffset m) (i j : Nat) :
    keyAt windowSize localOffset i m = keyAt windowSize localOffset j m := by
  have hloc : locate localOffset i m.timestamp = locate localOffset j m.timestamp := by
    rw [locate, locate]
    cases hoffset : m.timestamp.offset with
    | none => rfl
    | some offset =>
        dsimp only
        rw [if_pos (h offset hoffset), if_pos (h offset hoffset)]
  exact congrArg (fun loc => (⟨m.node, Time.truncate ⟨m.timestamp.instant, loc⟩ windowSize⟩ : WindowKey))
    hloc

theorem loc_foreign (h : ¬Plain localOffset m) (i : Nat) :
    (keyAt windowSize localOffset i m).start.loc = .fabricated i := by
  rw [keyAt, windowKey, truncate_loc]
  show locate localOffset i m.timestamp = _
  rw [locate]
  cases hoffset : m.timestamp.offset with
  | none =>
      refine absurd (fun offset hsome => ?_) h
      rw [hoffset] at hsome
      cases hsome
  | some offset =>
      refine if_neg fun hlocal => h fun other hother => ?_
      rw [hoffset] at hother
      cases hother
      exact hlocal

theorem window_eq_of_keyAt {m' : Message} {i j : Nat}
    (h : keyAt windowSize localOffset i m = keyAt windowSize localOffset j m') :
    window windowSize m = window windowSize m' := by
  rw [Prod.ext_iff, ← (keyAt_window i).1, ← (keyAt_window i).2, h, (keyAt_window j).1,
    (keyAt_window j).2]
  exact ⟨rfl, rfl⟩

theorem windows_ingest : (ingest windowSize localOffset a (some m)).1.windows =
    a.windows.insert (keyAt windowSize localOffset a.decoded m)
      ((statsAt a (keyAt windowSize localOffset a.decoded m)).count
        (decode localOffset a.decoded m)) := rfl

theorem statsAt_ingest (key : WindowKey) :
    statsAt (ingest windowSize localOffset a (some m)).1 key =
      if key = keyAt windowSize localOffset a.decoded m then
        (statsAt a key).count (decode localOffset a.decoded m)
      else statsAt a key := by
  rw [statsAt, windows_ingest]
  split
  · rename_i hkey
    rw [hkey, AList.lookup_insert]
    rfl
  · rename_i hkey
    rw [AList.lookup_insert_ne hkey]
    rfl

theorem seenIDs_count (w : WindowStats) (e : SimEvent Time) :
    (w.count e).seenIDs = insert e.id w.seenIDs := by
  rw [WindowStats.count]
  split
  · rename_i hseen
    exact (Finset.insert_eq_of_mem hseen).symm
  · rfl

theorem count_total (w : WindowStats) (serial : Nat) :
    (w.count (decode localOffset serial m)).total = w.total + if m.id ∈ w.seenIDs then 0 else 1 := by
  rw [WindowStats.count]
  by_cases hseen : m.id ∈ w.seenIDs
  · rw [if_pos hseen]
    exact congrArg WindowStats.total (if_pos hseen)
  · rw [if_neg hseen]
    exact congrArg WindowStats.total (if_neg hseen)

theorem count_errors (w : WindowStats) (serial : Nat) :
    (w.count (decode localOffset serial m)).errors =
      w.errors + if m.id ∈ w.seenIDs then 0 else
        if decide (m.severity = lit "error") then 1 else 0 := by
  rw [WindowStats.count]
  by_cases hseen : m.id ∈ w.seenIDs
  · rw [if_pos hseen]
    exact congrArg WindowStats.errors (if_pos hseen)
  · rw [if_neg hseen]
    refine (congrArg WindowStats.errors (if_neg hseen)).trans ?_
    show (if m.severity = lit "error" then w.errors + 1 else w.errors) = _
    by_cases herror : m.severity = lit "error"
    · rw [if_pos herror, decide_eq_true herror, if_pos rfl]
    · rw [if_neg herror, decide_eq_false herror, if_neg Bool.false_ne_true, Nat.add_zero]

theorem counts_eq : counts windowSize localOffset a m = true ↔
    m.id ∉ (statsAt a (keyAt windowSize localOffset a.decoded m)).seenIDs :=
  decide_eq_true_iff

theorem sumOver_ingest {f : WindowStats → Nat} {d : Nat} (hempty : f {} = 0)
    (hcount : ∀ w : WindowStats, f (w.count (decode localOffset a.decoded m)) =
      f w + if m.id ∈ w.seenIDs then 0 else d) (w : Str × Int) :
    sumOver f (ingest windowSize localOffset a (some m)).1 w = sumOver f a w +
      if counts windowSize localOffset a m = true ∧ window windowSize m = w then d else 0 := by
  have hsum := sum_insert (fun e => if (e.1.node, e.1.start.instant) = w then f e.2 else 0) a.windows
    (keyAt windowSize localOffset a.decoded m)
    ((statsAt a (keyAt windowSize localOffset a.decoded m)).count (decode localOffset a.decoded m))
  have hwindow : ((keyAt windowSize localOffset a.decoded m).node,
      (keyAt windowSize localOffset a.decoded m).start.instant) = window windowSize m :=
    Prod.ext_iff.mpr (keyAt_window a.decoded)
  have hold : ((a.windows.lookup (keyAt windowSize localOffset a.decoded m)).elim 0 fun old =>
      if window windowSize m = w then f old else 0) =
        if window windowSize m = w then
          f (statsAt a (keyAt windowSize localOffset a.decoded m)) else 0 := by
    rw [statsAt]
    cases a.windows.lookup (keyAt windowSize localOffset a.decoded m) with
    | none =>
        rw [Option.elim_none, Option.getD_none, hempty]
        split <;> rfl
    | some old => rfl
  simp only [hwindow, hold, hcount] at hsum
  rw [sumOver, sumOver, windows_ingest]
  simp only [counts_eq]
  by_cases hw : window windowSize m = w
  · simp only [hw, if_true, and_true] at hsum ⊢
    by_cases hseen : m.id ∈ (statsAt a (keyAt windowSize localOffset a.decoded m)).seenIDs
    · rw [if_neg (not_not_intro hseen)]
      rw [if_pos hseen] at hsum
      exact Nat.add_right_cancel hsum
    · rw [if_pos hseen]
      rw [if_neg hseen, Nat.add_comm (f _) d, ← Nat.add_assoc] at hsum
      exact Nat.add_right_cancel hsum
  · simp only [hw, if_false, and_false] at hsum ⊢
    exact hsum

theorem idOf_injective {p p' : Producer} {n n' : Int} (h : idOf p n = idOf p' n') :
    p = p' ∧ n = n' := by
  cases p with
  | gateway =>
      cases p' with
      | gateway => exact ⟨rfl, intText_injective (List.append_cancel_left h)⟩
      | simulator => exact absurd (congrArg List.head? h) (by simp [idOf, newID, lit])
  | simulator =>
      cases p' with
      | gateway => exact absurd (congrArg List.head? h) (by simp [idOf, newID, lit])
      | simulator => exact ⟨rfl, intText_injective (List.append_cancel_left h)⟩

end Counting

section Runs

variable {windowSize : Int} {localOffset : Int → Int} {tr : List Event} {s s' : State}

/-- How the trace, the topic and the consumer belong together. -/
structure Tracks (windowSize : Int) (localOffset : Int → Int) (tr : List Event) (s : State) : Prop where
  counted : CountedOnce windowSize tr s
  within : ∀ k, .delivered k ∈ tr → k < s.topic.length
  pending : ∀ k, .delivered k ∉ tr → tr.count (.counted k) = 0
  ids : ∀ pub ∈ s.topic, pub.message.id = idOf pub.producer pub.number
  seen : ∀ key, (∀ n, key.start.loc ≠ .fabricated n) → ∀ id, id ∈ (statsAt s.consumer key).seenIDs ↔
    ∃ k pub, .delivered k ∈ tr ∧ s.topic[k]? = some pub ∧
      keyAt windowSize localOffset 0 pub.message = key ∧ pub.message.id = id
  fresh : ∀ key n, key.start.loc = .fabricated n → s.consumer.decoded ≤ n →
    statsAt s.consumer key = {}

theorem tracks_init : Tracks windowSize localOffset [] init where
  counted :=
    { once := fun _ hk => by cases hk
      total := fun _ => rfl
      errors := fun _ => rfl
      distinct := List.Pairwise.nil }
  within _ hk := by cases hk
  pending _ _ := rfl
  ids _ hpub := by cases hpub
  seen _ _ id := by
    constructor
    · intro hid
      exact absurd hid (Finset.notMem_empty id)
    · rintro ⟨_, _, hk, -⟩
      cases hk
  fresh _ _ _ _ := rfl

theorem Tracks.renumbered (h : Tracks windowSize localOffset tr s) (number : Producer → Int) :
    Tracks windowSize localOffset tr { s with number := number } :=
  ⟨⟨h.counted.once, h.counted.total, h.counted.errors, h.counted.distinct⟩, h.within, h.pending,
    h.ids, h.seen, h.fresh⟩

theorem topic_snoc (pub : Publication) {k : Nat} (hk : k < s.topic.length) :
    (s.topic ++ [pub])[k]? = s.topic[k]? :=
  List.getElem?_append_left hk

theorem Tracks.published (h : Tracks windowSize localOffset tr s) {p : Producer} {n : Int}
    {event : Message} (number : Producer → Int)
    (hguard : ∀ pub ∈ s.topic, pub.producer = p → pub.number = n →
      window windowSize pub.message ≠ window windowSize event) :
    Tracks windowSize localOffset (tr ++ [.published s.topic.length])
      { s with
        number := number
        topic := s.topic ++ [⟨p, n, { event with id := idOf p n }⟩] } := by
  have hmem {k : Nat} : Event.delivered k ∈ tr ++ [.published s.topic.length] ↔ .delivered k ∈ tr := by
    simp
  have hcount (k : Nat) : (tr ++ [Event.published s.topic.length]).count (.counted k) =
      tr.count (.counted k) := by
    simp [List.count_append]
  have hplaces (w : Str × Int) : deliveredIn windowSize (tr ++ [.published s.topic.length])
      { s with
        number := number
        topic := s.topic ++ [⟨p, n, { event with id := idOf p n }⟩] } w =
      deliveredIn windowSize tr s w := by
    ext k
    simp only [deliveredIn, Finset.mem_filter, Finset.mem_range, hmem, List.length_append]
    constructor
    · rintro ⟨-, hk, hw⟩
      rw [topic_snoc _ (h.within k hk)] at hw
      exact ⟨h.within k hk, hk, hw⟩
    · rintro ⟨hlt, hk, hw⟩
      rw [topic_snoc _ hlt]
      exact ⟨Nat.lt_add_right _ hlt, hk, hw⟩
  constructor
  · constructor
    · intro k hk
      rw [hcount]
      exact h.counted.once k (hmem.mp hk)
    · intro w
      rw [hplaces]
      exact h.counted.total w
    · intro w
      rw [hplaces, h.counted.errors w]
      congr 1
      apply Finset.filter_congr
      intro k hk
      rw [topic_snoc _ (Finset.mem_range.mp (Finset.mem_of_mem_filter k hk))]
    · refine List.pairwise_append.mpr ⟨h.counted.distinct, List.pairwise_singleton _ _, ?_⟩
      intro pub hpub pub' hpub' hwindow hid
      rw [List.mem_singleton.mp hpub'] at hwindow hid
      rw [h.ids pub hpub] at hid
      obtain ⟨hproducer, hnumber⟩ := idOf_injective hid
      exact hguard pub hpub hproducer hnumber hwindow
  · intro k hk
    rw [List.length_append]
    exact Nat.lt_add_right _ (h.within k (hmem.mp hk))
  · intro k hk
    rw [hcount]
    exact h.pending k (mt hmem.mpr hk)
  · intro pub hpub
    rcases List.mem_append.mp hpub with hold | hnew
    · exact h.ids pub hold
    · rw [List.mem_singleton.mp hnew]
  · intro key hkey id
    rw [h.seen key hkey]
    constructor
    · rintro ⟨k, pub, hk, htopic, hrest⟩
      exact ⟨k, pub, hmem.mpr hk, (topic_snoc _ (h.within k hk)).trans htopic, hrest⟩
    · rintro ⟨k, pub, hk, htopic, hrest⟩
      rw [topic_snoc _ (h.within k (hmem.mp hk))] at htopic
      exact ⟨k, pub, hmem.mp hk, htopic, hrest⟩
  · exact h.fresh

theorem Tracks.counts_iff (h : Tracks windowSize localOffset tr s) {k : Nat} {pub : Publication}
    (hpub : s.topic[k]? = some pub) (hplain : .delivered k ∈ tr → Plain localOffset pub.message) :
    counts windowSize localOffset s.consumer pub.message = true ↔ .delivered k ∉ tr := by
  rw [counts_eq]
  by_cases hforeign : Plain localOffset pub.message
  · rw [h.seen _ (loc_plain hforeign _), not_iff_not]
    constructor
    · rintro ⟨j, other, hj, hother, hkey, hid⟩
      have hwindow := window_eq_of_keyAt hkey
      obtain ⟨hjlt, rfl⟩ := List.getElem?_eq_some_iff.mp hother
      obtain ⟨hklt, rfl⟩ := List.getElem?_eq_some_iff.mp hpub
      have hpairwise := List.pairwise_iff_getElem.mp h.counted.distinct
      rcases Nat.lt_trichotomy j k with hlt | rfl | hlt
      · exact absurd hid (hpairwise j k hjlt hklt hlt hwindow)
      · exact hj
      · exact absurd hid.symm (hpairwise k j hklt hjlt hlt hwindow.symm)
    · exact fun hk => ⟨k, pub, hk, hpub, keyAt_plain hforeign _ _, rfl⟩
  · rw [h.fresh _ _ (loc_foreign hforeign _) (Nat.le_refl _)]
    exact iff_of_true (Finset.notMem_empty _) (mt hplain hforeign)

theorem card_delivered {es : List Event} {k : Nat} {pub : Publication} {consumer : Aggregator}
    (P : Publication → Bool) (hpub : s.topic[k]? = some pub)
    (hes : ∀ j, .delivered j ∈ es ↔ j = k) (w : Str × Int) :
    ((deliveredIn windowSize (tr ++ es) { s with consumer := consumer } w).filter fun j =>
        s.topic[j]?.any P).card =
      ((deliveredIn windowSize tr s w).filter fun j => s.topic[j]?.any P).card +
        if .delivered k ∉ tr ∧ window windowSize pub.message = w then (if P pub then 1 else 0)
        else 0 := by
  have hmem (j : Nat) : j ∈ (deliveredIn windowSize (tr ++ es) { s with consumer := consumer } w).filter
      (fun j => s.topic[j]?.any P) ↔ j ∈ (deliveredIn windowSize tr s w).filter
        (fun j => s.topic[j]?.any P) ∨ (j = k ∧ window windowSize pub.message = w ∧ P pub = true) := by
    simp only [deliveredIn, Finset.mem_filter, Finset.mem_range, List.mem_append, hes]
    constructor
    · rintro ⟨⟨hlt, hj | rfl, hw⟩, hP⟩
      · exact Or.inl ⟨⟨hlt, hj, hw⟩, hP⟩
      · rw [hpub] at hw hP
        exact Or.inr ⟨rfl, Option.some.inj hw, hP⟩
    · rintro (⟨⟨hlt, hj, hw⟩, hP⟩ | ⟨rfl, hw, hP⟩)
      · exact ⟨⟨hlt, Or.inl hj, hw⟩, hP⟩
      · obtain ⟨hlt, -⟩ := List.getElem?_eq_some_iff.mp hpub
        rw [hpub]
        exact ⟨⟨hlt, Or.inr rfl, congrArg some hw⟩, hP⟩
  by_cases hnew : .delivered k ∉ tr ∧ window windowSize pub.message = w ∧ P pub = true
  · obtain ⟨hk, hw, hP⟩ := hnew
    have hplaces : (deliveredIn windowSize (tr ++ es) { s with consumer := consumer } w).filter
        (fun j => s.topic[j]?.any P) =
        insert k ((deliveredIn windowSize tr s w).filter fun j => s.topic[j]?.any P) := by
      ext j
      rw [hmem, Finset.mem_insert, or_comm]
      exact or_congr_left (and_iff_left ⟨hw, hP⟩)
    have hnot : k ∉ (deliveredIn windowSize tr s w).filter fun j => s.topic[j]?.any P := by
      intro hmem'
      exact hk (Finset.mem_filter.mp (Finset.mem_filter.mp hmem').1).2.1
    rw [hplaces, Finset.card_insert_of_notMem hnot, if_pos ⟨hk, hw⟩, if_pos hP]
  · have hplaces : (deliveredIn windowSize (tr ++ es) { s with consumer := consumer } w).filter
        (fun j => s.topic[j]?.any P) =
        (deliveredIn windowSize tr s w).filter fun j => s.topic[j]?.any P := by
      ext j
      rw [hmem]
      refine or_iff_left_of_imp ?_
      rintro ⟨rfl, hw, hP⟩
      have hold : .delivered j ∈ tr := by
        by_contra hj
        exact hnew ⟨hj, hw, hP⟩
      obtain ⟨hlt, -⟩ := List.getElem?_eq_some_iff.mp hpub
      simp only [deliveredIn, Finset.mem_filter, Finset.mem_range]
      rw [hpub]
      exact ⟨⟨hlt, hold, congrArg some hw⟩, hP⟩
    rw [hplaces]
    split
    · rename_i hboth
      rw [if_neg fun hP => hnew ⟨hboth.1, hboth.2, hP⟩, Nat.add_zero]
    · rfl

theorem Tracks.sum_delivered (h : Tracks windowSize localOffset tr s) {es : List Event} {k : Nat}
    {pub : Publication} {f : WindowStats → Nat} {P : Publication → Bool}
    (hpub : s.topic[k]? = some pub) (hplain : .delivered k ∈ tr → Plain localOffset pub.message)
    (hes : ∀ j, .delivered j ∈ es ↔ j = k) (hempty : f {} = 0)
    (hcount : ∀ w : WindowStats, f (w.count (decode localOffset s.consumer.decoded pub.message)) =
      f w + if pub.message.id ∈ w.seenIDs then 0 else if P pub then 1 else 0) {w : Str × Int}
    (hsum : sumOver f s.consumer w =
      ((deliveredIn windowSize tr s w).filter fun j => s.topic[j]?.any P).card) :
    sumOver f (ingest windowSize localOffset s.consumer (some pub.message)).1 w =
      ((deliveredIn windowSize (tr ++ es) { s with
          consumer := (ingest windowSize localOffset s.consumer (some pub.message)).1 } w).filter
        fun j => s.topic[j]?.any P).card := by
  rw [card_delivered P hpub hes, sumOver_ingest hempty hcount, hsum]
  simp only [h.counts_iff hpub hplain]

theorem deliveredIn_all (windowSize : Int) (tr : List Event) (s : State) (w : Str × Int) :
    (deliveredIn windowSize tr s w).filter (fun j => s.topic[j]?.any fun _ => true) =
      deliveredIn windowSize tr s w := by
  refine Finset.filter_true_of_mem fun j hj => ?_
  have hlt := Finset.mem_range.mp (Finset.mem_of_mem_filter j hj)
  rw [List.getElem?_eq_getElem hlt]
  rfl

theorem Tracks.delivered (h : Tracks windowSize localOffset tr s) {k : Nat} {pub : Publication}
    (hpub : s.topic[k]? = some pub) (hplain : .delivered k ∈ tr → Plain localOffset pub.message) :
    Tracks windowSize localOffset
      (tr ++ .delivered k ::
        if counts windowSize localOffset s.consumer pub.message then [.counted k] else [])
      { s with consumer := (ingest windowSize localOffset s.consumer (some pub.message)).1 } := by
  have hcounts := h.counts_iff hpub hplain
  obtain ⟨es, hes⟩ : ∃ es : List Event, es = .delivered k ::
      if counts windowSize localOffset s.consumer pub.message then [.counted k] else [] := ⟨_, rfl⟩
  have hdelivered (j : Nat) : .delivered j ∈ es ↔ j = k := by
    rw [hes]
    split <;> simp
  have hcount (j : Nat) : es.count (.counted j) = if j = k ∧ .delivered k ∉ tr then 1 else 0 := by
    rw [hes]
    by_cases hold : .delivered k ∉ tr
    · rw [if_pos (hcounts.mpr hold)]
      by_cases hj : j = k
      · simp [hj, hold]
      · simp [hj, Ne.symm hj]
    · rw [if_neg (mt hcounts.mp hold)]
      simp [hold]
  rw [← hes]
  have hmem (j : Nat) : .delivered j ∈ tr ++ es ↔ .delivered j ∈ tr ∨ j = k := by
    rw [List.mem_append, hdelivered]
  constructor
  · constructor
    · intro j hj
      rw [List.count_append, hcount]
      by_cases hold : .delivered j ∈ tr
      · rw [h.counted.once j hold, if_neg]
        rintro ⟨rfl, hnot⟩
        exact hnot hold
      · obtain rfl := ((hmem j).mp hj).resolve_left hold
        rw [h.pending j hold, if_pos ⟨rfl, hold⟩]
    · intro w
      rw [← deliveredIn_all]
      apply h.sum_delivered hpub hplain hdelivered rfl
      · exact fun stats => count_total stats _
      · rw [deliveredIn_all]
        exact h.counted.total w
    · intro w
      apply h.sum_delivered hpub hplain hdelivered rfl
      · exact fun stats => count_errors stats _
      · exact h.counted.errors w
    · exact h.counted.distinct
  · intro j hj
    rcases (hmem j).mp hj with hold | rfl
    · exact h.within j hold
    · exact (List.getElem?_eq_some_iff.mp hpub).1
  · intro j hj
    obtain ⟨hold, hne⟩ := not_or.mp (mt (hmem j).mpr hj)
    rw [List.count_append, hcount, h.pending j hold, if_neg fun hboth => hne hboth.1]
  · exact h.ids
  · intro key hkey id
    rw [statsAt_ingest]
    split
    · rename_i hthis
      have hplain' : Plain localOffset pub.message := by
        by_contra hforeign
        exact hkey _ (hthis ▸ loc_foreign hforeign s.consumer.decoded)
      rw [seenIDs_count, Finset.mem_insert, h.seen key hkey]
      constructor
      · rintro (rfl | ⟨j, other, hj, hrest⟩)
        · exact ⟨k, pub, (hmem k).mpr (Or.inr rfl), hpub,
            (keyAt_plain hplain' _ _).trans hthis.symm, rfl⟩
        · exact ⟨j, other, (hmem j).mpr (Or.inl hj), hrest⟩
      · rintro ⟨j, other, hj, hother, hrest⟩
        rcases (hmem j).mp hj with hold | rfl
        · exact Or.inr ⟨j, other, hold, hother, hrest⟩
        · rw [hpub] at hother
          obtain rfl := Option.some.inj hother
          exact Or.inl hrest.2.symm
    · rename_i hthis
      rw [h.seen key hkey]
      constructor
      · rintro ⟨j, other, hj, hrest⟩
        exact ⟨j, other, (hmem j).mpr (Or.inl hj), hrest⟩
      · rintro ⟨j, other, hj, hother, hat, hid⟩
        rcases (hmem j).mp hj with hold | rfl
        · exact ⟨j, other, hold, hother, hat, hid⟩
        · rw [hpub] at hother
          obtain rfl := Option.some.inj hother
          by_cases hplain' : Plain localOffset pub.message
          · exact absurd (hat.symm.trans (keyAt_plain hplain' _ _)) hthis
          · exact absurd (hat ▸ loc_foreign hplain' 0) (hkey 0)
  · intro key n hloc hn
    rw [statsAt_ingest, if_neg]
    · exact h.fresh key n hloc (Nat.le_of_succ_le hn)
    · rintro rfl
      by_cases hplain' : Plain localOffset pub.message
      · exact loc_plain hplain' _ n hloc
      · rw [loc_foreign hplain'] at hloc
        exact absurd (Location.fabricated.inj hloc) (Nat.ne_of_lt hn)

theorem tracks_step {i : Input} {es : List Event} (h : Tracks windowSize localOffset tr s)
    (hguard : Renumbered windowSize localOffset tr s i)
    (hstep : step windowSize localOffset s i = some (s', es)) :
    Tracks windowSize localOffset (tr ++ es) s' := by
  cases i with
  | restart p =>
      cases hstep
      rw [List.append_nil]
      exact h.renumbered _
  | abandon p =>
      cases hstep
      rw [List.append_nil]
      exact h.renumbered _
  | publish p event =>
      cases hstep
      exact h.published _ hguard
  | deliver k =>
      rw [step] at hstep
      split at hstep
      · cases hstep
      · rename_i pub hpub
        cases hstep
        exact h.delivered hpub (hguard pub hpub)

/-- As long as restarts give no number twice within a window, every event is counted once. -/
theorem counted_of_renumbered (windowSize : Int) (localOffset : Int → Int) (tr : List Event)
    (s : State) (hrun : Run (step windowSize localOffset) (Renumbered windowSize localOffset) init tr s) :
    CountedOnce windowSize tr s := by
  have htracks : Tracks windowSize localOffset tr s := by
    refine hrun.invariant (I := fun tr s => Tracks windowSize localOffset tr s) tracks_init ?_
    intro _ _ _ _ _ h hguard hstep
    exact tracks_step h hguard hstep
  exact htracks.counted

/-- The gateway restarts in the next minute, and its first event is delivered again. -/
theorem counted_restart : ∃ tr s, CountedOnce minute tr s ∧
    sumOver (·.total) s.consumer (lit "AMF", 0) = 2 ∧
    sumOver (·.total) s.consumer (lit "AMF", minute) = 1 := by
  have hexec : (exec (step minute fun _ => 0) init [.publish .gateway (registered "" 5 "info"),
      .publish .simulator (registered "" 6 "error"), .restart .gateway,
      .publish .gateway (registered "" 65 "info"), .deliver 2, .deliver 0, .deliver 1,
      .deliver 0]).map (fun r => (sumOver (·.total) r.1.consumer (lit "AMF", 0),
        sumOver (·.total) r.1.consumer (lit "AMF", minute))) = some (2, 1) := by decide +kernel
  obtain ⟨tr, s, hrun, hseen⟩ :=
    exists_run_of_exec (P := Renumbered minute fun _ => 0) _ (by decide +kernel) hexec
  obtain ⟨hfirst, hsecond⟩ := Prod.mk.inj hseen
  exact ⟨tr, s, counted_of_renumbered _ _ tr s hrun, hfirst, hsecond⟩

/-- The gateway restarts within a minute, and its second first event is taken for a redelivery. -/
theorem not_counted_restart : ¬∀ tr s, Reach (step minute fun _ => 0) init tr s →
    CountedOnce minute tr s := by
  intro h
  have hexec : (exec (step minute fun _ => 0) init [.publish .gateway (registered "" 5 "info"),
      .deliver 0, .restart .gateway, .publish .gateway (registered "" 6 "error"),
      .deliver 1]).map (fun r => (decide (.delivered 1 ∈ r.2), r.2.count (.counted 1))) =
        some (true, 0) := by decide +kernel
  obtain ⟨tr, s, hrun, hseen⟩ := exists_reach_of_exec hexec
  obtain ⟨hdelivered, hcount⟩ := Prod.mk.inj hseen
  have honce := (h tr s hrun).once 1 (of_decide_eq_true hdelivered)
  rw [hcount] at honce
  cases honce

end Runs

end MobileCore.EventIdentity
