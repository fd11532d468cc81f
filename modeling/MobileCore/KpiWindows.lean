import Mathlib.Data.Finset.Card
import Mathlib.Data.List.AList
import Mathlib.Data.List.Induction
import MobileCore.LastWrite
import MobileCore.SimEvents

/-!
# KPI windows

One tumbling window for each node and start time. The start is a key with its location, and each
window remembers the IDs that it has counted.
-/

namespace MobileCore.KpiWindows

open MobileCore.CppText
open MobileCore.LastWrite
open MobileCore.SimEvents

structure WindowKey where
  node : Str
  start : Time
deriving DecidableEq

structure WindowStats where
  total : Nat := 0
  errors : Nat := 0
  seenIDs : Finset Str := ∅
deriving DecidableEq

/-- `decoded` numbers the locations that decoding fabricates. -/
structure Aggregator where
  windows : Table WindowKey WindowStats := ∅
  decoded : Nat := 0

def WindowStats.count (w : WindowStats) (e : SimEvent Time) : WindowStats :=
  if e.id ∈ w.seenIDs then w
  else
    { total := w.total + 1
      errors := if e.severity = lit "error" then w.errors + 1 else w.errors
      seenIDs := insert e.id w.seenIDs }

def windowKey (windowSize : Int) (e : SimEvent Time) : WindowKey :=
  ⟨e.node, e.timestamp.truncate windowSize⟩

/-- Of a message that is no event only the failure is seen. -/
def ingest (windowSize : Int) (localOffset : Int → Int) (a : Aggregator) :
    Option Message → Aggregator × Bool
  | none => (a, false)
  | some m =>
    let e := decode localOffset a.decoded m
    let key := windowKey windowSize e
    let w := (a.windows.lookup key).getD {}
    (⟨a.windows.insert key (w.count e), a.decoded + 1⟩, true)

def consume (windowSize : Int) (localOffset : Int → Int) (L : List Message) : Aggregator :=
  L.foldl (fun a m => (ingest windowSize localOffset a (some m)).1) {}

section Keys

variable {windowSize : Int} {localOffset : Int → Int} {L : List Message} {m : Message}

theorem consume_snoc : consume windowSize localOffset (L ++ [m]) =
    (ingest windowSize localOffset (consume windowSize localOffset L) (some m)).1 := by
  rw [consume, List.foldl_append]
  rfl

theorem consume_decoded : (consume windowSize localOffset L).decoded = L.length := by
  induction L using List.reverseRecOn with
  | nil => rfl
  | append_singleton L m ih =>
      rw [consume_snoc, ingest, ih, List.length_append]
      rfl

def keyAt (windowSize : Int) (localOffset : Int → Int) (i : Nat) (m : Message) : WindowKey :=
  windowKey windowSize (decode localOffset i m)

theorem windows_snoc : (consume windowSize localOffset (L ++ [m])).windows =
    (consume windowSize localOffset L).windows.insert (keyAt windowSize localOffset L.length m)
      ((((consume windowSize localOffset L).windows.lookup
        (keyAt windowSize localOffset L.length m)).getD {}).count
          (decode localOffset L.length m)) := by
  rw [consume_snoc, ingest, consume_decoded]
  rfl

theorem mem_windows (key : WindowKey) : key ∈ (consume windowSize localOffset L).windows ↔
    key ∈ L.mapIdx (keyAt windowSize localOffset) := by
  induction L using List.reverseRecOn with
  | nil => simp [consume]
  | append_singleton L m ih =>
      rw [windows_snoc, AList.mem_insert, List.mapIdx_concat, List.mem_append,
        List.mem_singleton, ih, or_comm]

theorem length_windows : (consume windowSize localOffset L).windows.entries.length =
    (L.mapIdx (keyAt windowSize localOffset)).toFinset.card := by
  have hkeys : (L.mapIdx (keyAt windowSize localOffset)).toFinset =
      (consume windowSize localOffset L).windows.keys.toFinset := by
    ext key
    rw [List.mem_toFinset, List.mem_toFinset, ← mem_windows, AList.mem_keys]
  rw [hkeys, List.toFinset_card_of_nodup (AList.keys_nodup _), AList.keys, List.keys,
    List.length_map]

end Keys

section Counts

/-- The window of a message: its node and the instant at which the interval starts. -/
def window (windowSize : Int) (m : Message) : Str × Int :=
  (m.node, (Time.truncate ⟨m.timestamp.instant, .utc⟩ windowSize).instant)

def isError (m : Message) : Prop := m.severity = lit "error"

instance isError.decidable (m : Message) : Decidable (isError m) :=
  inferInstanceAs (Decidable (_ = _))

/-- What a window holds that has counted the events of `S`. -/
def statsOf (S : Finset Message) : WindowStats :=
  ⟨S.card, (S.filter isError).card, S.image SimEvent.id⟩

/-- A message whose ID is one of those counted is itself one of them. -/
theorem statsOf_count {S : Finset Message} {m : Message} (localOffset : Int → Int) (serial : Nat)
    (hids : ∀ m' ∈ S, m'.id = m.id → m' = m) :
    (statsOf S).count (decode localOffset serial m) = statsOf (insert m S) := by
  have hseen : (decode localOffset serial m).id ∈ (statsOf S).seenIDs ↔ m ∈ S := by
    refine Finset.mem_image.trans ?_
    constructor
    · rintro ⟨m', hm', hid⟩
      exact hids m' hm' hid ▸ hm'
    · exact fun hm => ⟨m, hm, rfl⟩
  rw [WindowStats.count]
  by_cases hm : m ∈ S
  · rw [if_pos (hseen.mpr hm), Finset.insert_eq_of_mem hm]
  · rw [if_neg (mt hseen.mp hm), statsOf, statsOf, Finset.card_insert_of_notMem hm,
      Finset.image_insert, Finset.filter_insert]
    congr 1
    by_cases herror : isError m
    · rw [if_pos herror, Finset.card_insert_of_notMem]
      · exact if_pos herror
      · exact fun hmem => hm (Finset.mem_of_mem_filter m hmem)
    · rw [if_neg herror]
      exact if_neg herror

variable {windowSize : Int} {localOffset : Int → Int} {L : List Message} {m : Message}

theorem keyAt_utc (hutc : m.timestamp.offset = none) (i : Nat) :
    keyAt windowSize localOffset i m =
      ⟨m.node, Time.truncate ⟨m.timestamp.instant, .utc⟩ windowSize⟩ := by
  obtain ⟨id, ⟨instant, offset⟩, node, eventType, supi, detail, severity⟩ := m
  obtain rfl : offset = none := hutc
  rfl

def inside (windowSize : Int) (S : Finset Message) (key : WindowKey) : Finset Message :=
  S.filter fun m => key = ⟨m.node, Time.truncate ⟨m.timestamp.instant, .utc⟩ windowSize⟩

theorem lookup_consume (hids : ∀ m ∈ L, ∀ m' ∈ L, m.id = m'.id → m = m')
    (hutc : ∀ m ∈ L, m.timestamp.offset = none) (key : WindowKey) :
    (consume windowSize localOffset L).windows.lookup key =
      if inside windowSize L.toFinset key = ∅ then none
      else some (statsOf (inside windowSize L.toFinset key)) := by
  induction L using List.reverseRecOn with
  | nil => rfl
  | append_singleton L m ih =>
      have hold := ih (fun a ha b hb => hids a (List.mem_append_left [m] ha) b
        (List.mem_append_left [m] hb)) fun a ha => hutc a (List.mem_append_left [m] ha)
      have hm : m ∈ L ++ [m] := List.mem_append_right L (List.mem_singleton_self m)
      have hset : (L ++ [m]).toFinset = insert m L.toFinset := by
        rw [List.toFinset_append, Finset.union_comm]
        rfl
      rw [windows_snoc, keyAt_utc (hutc m hm), hset, inside, Finset.filter_insert]
      by_cases hkey : key = ⟨m.node, Time.truncate ⟨m.timestamp.instant, .utc⟩ windowSize⟩
      · have hstats : (((consume windowSize localOffset L).windows.lookup key).getD {}) =
            statsOf (inside windowSize L.toFinset key) := by
          rw [hold]
          split
          · rename_i hempty
            rw [hempty]
            rfl
          · rfl
        rw [← hkey, AList.lookup_insert, if_pos rfl, if_neg (Finset.insert_ne_empty _ _), hstats,
          statsOf_count]
        · rfl
        · intro m' hm' hid
          have hmem := List.mem_toFinset.mp (Finset.mem_of_mem_filter m' hm')
          exact hids m' (List.mem_append_left [m] hmem) m hm hid
      · rw [AList.lookup_insert_ne hkey, if_neg hkey]
        exact hold

/-- Deliveries in any order and any number leave one window for each node and interval that has an
event, with the distinct events counted. -/
theorem windows_of_delivered (windowSize : Int) (localOffset : Int → Int) (S : Multiset Message)
    (hids : ∀ m ∈ S, ∀ m' ∈ S, m.id = m'.id → m = m')
    (hutc : ∀ m ∈ S, m.timestamp.offset = none) (L : List Message)
    (hdelivered : L.toFinset = S.toFinset) (key : WindowKey) :
    (((consume windowSize localOffset L).windows.lookup key).map fun w => (w.total, w.errors)) =
      if inside windowSize S.toFinset key = ∅ then none
      else some ((inside windowSize S.toFinset key).card,
        ((inside windowSize S.toFinset key).filter isError).card) := by
  have hmem {m : Message} (hm : m ∈ L) : m ∈ S := by
    rw [← Multiset.mem_toFinset, ← hdelivered]
    exact List.mem_toFinset.mpr hm
  rw [lookup_consume (fun m hm m' hm' => hids m (hmem hm) m' (hmem hm'))
    (fun m hm => hutc m (hmem hm)), hdelivered]
  split
  · rfl
  · rfl

section Deliveries

def minute : Int := 60000000000

def registered (id : String) (seconds : Int) (severity : String) : Message :=
  { id := lit id, timestamp := ⟨seconds * 1000000000, none⟩, node := lit "AMF",
    eventType := lit "UE_REGISTERED", detail := [], severity := lit severity }

/-- Two events of one minute and one of the next, with a redelivery out of order. -/
theorem windows_of_three :
    (((consume minute (fun _ => 0) [registered "sim-3" 61 "info", registered "sim-2" 5 "error",
      registered "sim-1" 0 "info", registered "sim-2" 5 "error"]).windows.lookup
        ⟨lit "AMF", ⟨0, .utc⟩⟩).map fun w => (w.total, w.errors)) = some (2, 1) := by
  rw [windows_of_delivered minute (fun _ => 0)
    {registered "sim-1" 0 "info", registered "sim-2" 5 "error", registered "sim-3" 61 "info"}
    (by decide) (by decide) _ (by decide)]
  decide

end Deliveries

end Counts

section Representations

variable {windowSize : Int} {localOffset : Int → Int} {L L' : List Message} {m : Message}

/-- What is seen of a window. The rate follows from the total and the errors. -/
structure Aggregate where
  node : Str
  start : Int
  total : Nat
  errors : Nat
deriving DecidableEq

def aggregates (a : Aggregator) : Multiset Aggregate :=
  (a.windows.entries.map fun w =>
    (⟨w.1.node, w.1.start.instant, w.2.total, w.2.errors⟩ : Aggregate) : List Aggregate)

/-- The same events, their instants written with other offsets. -/
def Reencoded : List Message → List Message → Prop :=
  List.Forall₂ fun m m' => ∃ offset, m' = { m with timestamp := { m.timestamp with offset } }

theorem Reencoded.map {α : Type} {f : Message → α} (h : Reencoded L L')
    (hf : ∀ (m : Message) (offset : Option Int),
      f { m with timestamp := { m.timestamp with offset } } = f m) : L'.map f = L.map f := by
  induction h with
  | nil => rfl
  | cons hm _ ih =>
      obtain ⟨offset, rfl⟩ := hm
      rw [List.map_cons, List.map_cons, ih, hf]

def rewritten (offset : Message → Option Int) (L : List Message) : List Message :=
  L.map fun m => { m with timestamp := { m.timestamp with offset := offset m } }

theorem rewritten_reencoded (offset : Message → Option Int) (L : List Message) :
    Reencoded L (rewritten offset L) := by
  induction L with
  | nil => exact List.Forall₂.nil
  | cons m L ih => exact List.Forall₂.cons ⟨offset m, rfl⟩ ih

theorem keyAt_window (i : Nat) : (keyAt windowSize localOffset i m).node = (window windowSize m).1 ∧
    (keyAt windowSize localOffset i m).start.instant = (window windowSize m).2 :=
  ⟨rfl, truncate_instant ⟨m.timestamp.instant, .utc⟩ windowSize _⟩

def alone (windowSize : Int) (m : Message) : Aggregate :=
  ⟨(window windowSize m).1, (window windowSize m).2, 1, if isError m then 1 else 0⟩

theorem count_new (e : SimEvent Time) : ((WindowStats.count {} e).total,
    (WindowStats.count {} e).errors) = (1, if e.severity = lit "error" then 1 else 0) := by
  rw [WindowStats.count, if_neg (Finset.notMem_empty _)]

/-- Events of windows of their own are counted by themselves, whatever their offsets. -/
theorem aggregates_of_nodup (h : (L.map (window windowSize)).Nodup) :
    aggregates (consume windowSize localOffset L) = (L.map (alone windowSize) : List Aggregate) := by
  induction L using List.reverseRecOn with
  | nil => simp [aggregates, consume]
  | append_singleton L m ih =>
      rw [List.map_append, List.map_singleton] at h
      have hnew : keyAt windowSize localOffset L.length m ∉
          (consume windowSize localOffset L).windows := by
        rw [mem_windows, List.mem_mapIdx]
        rintro ⟨i, hi, hkey⟩
        have hsame : window windowSize L[i] = window windowSize m := by
          rw [Prod.ext_iff, ← (keyAt_window i).1, ← (keyAt_window i).2, hkey, (keyAt_window _).1,
            (keyAt_window _).2]
          exact ⟨rfl, rfl⟩
        apply (List.nodup_append.mp h).2.2 _ (List.mem_map_of_mem (List.getElem_mem hi)) _
          (List.mem_singleton_self _)
        exact hsame
      have hfresh : ((consume windowSize localOffset L).windows.lookup
          (keyAt windowSize localOffset L.length m)) = none := AList.lookup_eq_none.mpr hnew
      have hcounted : aggregates (consume windowSize localOffset (L ++ [m])) =
          alone windowSize m ::ₘ aggregates (consume windowSize localOffset L) := by
        rw [aggregates, windows_snoc, AList.entries_insert_of_notMem hnew, hfresh, List.map_cons,
          ← Multiset.cons_coe]
        congr 1
        exact congrArg₂ (fun start stats => (⟨m.node, start, stats.1, stats.2⟩ : Aggregate))
          (keyAt_window _).2 (count_new (decode localOffset L.length m))
      rw [hcounted, ih (List.nodup_append.mp h).1, Multiset.cons_coe, List.map_append,
        List.map_singleton]
      exact Multiset.coe_eq_coe.mpr (List.perm_append_singleton _ _).symm

theorem card_aggregates : (aggregates (consume windowSize localOffset L)).card =
    (L.mapIdx (keyAt windowSize localOffset)).toFinset.card := by
  rw [aggregates, Multiset.coe_card, List.length_map, length_windows]

theorem card_utc : (aggregates (consume windowSize localOffset (rewritten (fun _ => none) L))).card =
    (L.map (window windowSize)).toFinset.card := by
  have hkeys : (rewritten (fun _ => none) L).mapIdx (keyAt windowSize localOffset) =
      (L.map (window windowSize)).map fun w => ⟨w.1, ⟨w.2, .utc⟩⟩ := by
    apply List.ext_getElem
    · simp [rewritten]
    · intro i hi _
      simp only [rewritten, List.getElem_mapIdx, List.getElem_map]
      rw [keyAt_utc rfl]
      exact congrArg (WindowKey.mk _) (truncate_utc _ windowSize)
  have hinjective : Function.Injective fun w : Str × Int => (⟨w.1, ⟨w.2, .utc⟩⟩ : WindowKey) := by
    rintro ⟨node, start⟩ ⟨node', start'⟩ heq
    cases heq
    rfl
  have himage (S : List (Str × Int)) : (S.map fun w => (⟨w.1, ⟨w.2, .utc⟩⟩ : WindowKey)).toFinset =
      S.toFinset.image fun w => ⟨w.1, ⟨w.2, .utc⟩⟩ :=
    (Finset.image_toFinset (s := (S : Multiset (Str × Int)))).symm
  rw [card_aggregates, hkeys, himage, Finset.card_image_of_injective _ hinjective]

def foreignOffset (localOffset : Int → Int) (m : Message) : Option Int :=
  some (if localOffset m.timestamp.instant = 330 then 345 else 330)

theorem card_foreign : (aggregates (consume windowSize localOffset
    (rewritten (foreignOffset localOffset) L))).card = L.length := by
  have hloc (i : Nat) (m : Message) : (keyAt windowSize localOffset i
      { m with timestamp := { m.timestamp with offset := foreignOffset localOffset m } }).start.loc =
        .fabricated i := by
    rw [keyAt, windowKey, truncate_loc]
    refine if_neg ?_
    show (if localOffset m.timestamp.instant = 330 then (345 : Int) else 330) ≠
      localOffset m.timestamp.instant
    split
    · rename_i hlocal
      rw [hlocal]
      decide
    · rename_i hother
      exact Ne.symm hother
  have hnodup : ((rewritten (foreignOffset localOffset) L).mapIdx
      (keyAt windowSize localOffset)).Nodup := by
    refine List.pairwise_iff_getElem.mpr fun i j hi hj hij heq => ?_
    simp only [rewritten, List.getElem_mapIdx, List.getElem_map] at heq
    have hserial := (hloc i _).symm.trans ((congrArg (·.start.loc) heq).trans (hloc j _))
    exact absurd (Location.fabricated.inj hserial) (Nat.ne_of_lt hij)
  rw [card_aggregates, List.toFinset_card_of_nodup hnodup, List.length_mapIdx, rewritten,
    List.length_map]

/-- The offsets make no difference exactly where no two messages belong to one window. -/
theorem unchanged_iff (windowSize : Int) (localOffset : Int → Int) (L : List Message) :
    (∀ L', Reencoded L L' → aggregates (consume windowSize localOffset L') =
      aggregates (consume windowSize localOffset L)) ↔ (L.map (window windowSize)).Nodup := by
  constructor
  · intro h
    have hcards := congrArg Multiset.card ((h _ (rewritten_reencoded (fun _ => none) L)).trans
      (h _ (rewritten_reencoded (foreignOffset localOffset) L)).symm)
    rw [card_utc, card_foreign, ← List.length_map (window windowSize)] at hcards
    exact Multiset.toFinset_card_eq_card_iff_nodup.mp hcards
  · intro h L' hL'
    have hwindows : L'.map (window windowSize) = L.map (window windowSize) :=
      hL'.map fun _ _ => rfl
    have halone : L'.map (alone windowSize) = L.map (alone windowSize) := hL'.map fun _ _ => rfl
    rw [aggregates_of_nodup h, aggregates_of_nodup (hwindows ▸ h), halone]

/-- Two events of one minute, written at +05:30 for a consumer in UTC, are two windows. -/
theorem window_split : ∃ L', Reencoded [registered "sim-1" 0 "info", registered "sim-2" 5 "error"] L' ∧
    aggregates (consume minute (fun _ => 0) L') ≠
      aggregates (consume minute (fun _ => 0)
        [registered "sim-1" 0 "info", registered "sim-2" 5 "error"]) :=
  ⟨_, rewritten_reencoded (fun _ => some 330) _, by decide⟩

end Representations

end MobileCore.KpiWindows
