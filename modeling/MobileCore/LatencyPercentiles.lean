import Mathlib.Data.List.Perm.Subperm
import MobileCore.FastPath

/-!
# Latency percentiles

`record_latency` keeps the last samples in a reservoir that it fills and then writes from the front
again. `compute_percentiles` sorts what is filled and averages it with a sum of 64 bits.
-/

namespace MobileCore.LatencyPercentiles

open FastPath (PathStats reservoirSize)

structure Percentiles where
  p50Ns : UInt64 := 0
  p95Ns : UInt64 := 0
  p99Ns : UInt64 := 0
  avgNs : UInt64 := 0
  minNs : UInt64 := 0
  maxNs : UInt64 := 0
deriving DecidableEq, Repr

def filled (stats : PathStats) : Nat := min stats.sampleIdx reservoirSize

def retained (stats : PathStats) : List UInt64 := (List.range (filled stats)).map stats.latencies

def sorted (stats : PathStats) : List UInt64 := (retained stats).mergeSort (· ≤ ·)

def computePercentiles (stats : PathStats) : Percentiles :=
  let filled := filled stats
  let sorted := sorted stats
  if filled = 0 then {}
  else
    { minNs := sorted.headD 0
      maxNs := sorted.getLastD 0
      p50Ns := sorted.getD (filled * 50 / 100) 0
      p95Ns := sorted.getD (filled * 95 / 100) 0
      p99Ns := sorted.getD (filled * 99 / 100) 0
      avgNs := sorted.foldl (· + ·) 0 / UInt64.ofNat filled }

def recordAll (calls : List (UInt64 × UInt64)) : PathStats :=
  calls.foldl (fun stats call => stats.recordLatency call.1 call.2) {}

/-- What a call records; the clock skew guard leaves out the calls whose end is not after their
start. -/
def latency? (call : UInt64 × UInt64) : Option UInt64 :=
  if call.2 ≤ call.1 then none else some (call.2 - call.1)

def recorded (calls : List (UInt64 × UInt64)) : List UInt64 := calls.filterMap latency?

/-- The last samples, as many as the reservoir has room for. -/
def lastSamples (samples : List UInt64) : List UInt64 :=
  samples.drop (samples.length - reservoirSize)

/-- What the percentiles of a list of samples promise. -/
structure Describes (p : Percentiles) (samples : List UInt64) : Prop where
  ordered : p.minNs ≤ p.p50Ns ∧ p.p50Ns ≤ p.p95Ns ∧ p.p95Ns ≤ p.p99Ns ∧ p.p99Ns ≤ p.maxNs
  averaged : p.minNs ≤ p.avgNs ∧ p.avgNs ≤ p.maxNs
  sampled : p.p50Ns ∈ samples ∧ p.p95Ns ∈ samples ∧ p.p99Ns ∈ samples

/-- The percentiles describe the last samples. -/
def Sound (calls : List (UInt64 × UInt64)) : Prop :=
  Describes (computePercentiles (recordAll calls)) (retained (recordAll calls)) ∧
    (retained (recordAll calls)).Perm (lastSamples (recorded calls))

def total (samples : List UInt64) : Nat := (samples.map UInt64.toNat).sum

def excess (least : UInt64) (samples : List UInt64) : Nat :=
  (samples.map fun x => x.toNat - least.toNat).sum

/-- The excess over the least sample makes up for what a sum of 64 bits loses. -/
def Covered (samples : List UInt64) : Prop :=
  ∀ least ∈ samples, (∀ x ∈ samples, least ≤ x) →
    2 ^ 64 * (total samples / 2 ^ 64) ≤ excess least samples

section Sums

variable {samples : List UInt64} {a : UInt64}

theorem toNat_foldl_add (samples : List UInt64) (a : UInt64) :
    (samples.foldl (· + ·) a).toNat = (a.toNat + total samples) % 2 ^ 64 := by
  induction samples generalizing a with
  | nil => exact (Nat.mod_eq_of_lt a.toNat_lt).symm
  | cons x samples ih =>
      rw [List.foldl_cons, ih, UInt64.toNat_add, Nat.mod_add_mod, Nat.add_assoc]
      rfl

theorem excess_add (h : ∀ x ∈ samples, a ≤ x) :
    excess a samples + samples.length * a.toNat = total samples := by
  induction samples with
  | nil => simp [excess, total]
  | cons x samples ih =>
      have hrest := ih fun y hy => h y (List.mem_cons_of_mem x hy)
      have hx : a.toNat ≤ x.toNat := UInt64.le_iff_toNat_le.mp (h x List.mem_cons_self)
      simp only [excess, total, List.map_cons, List.sum_cons, List.length_cons] at hrest ⊢
      rw [Nat.succ_mul]
      omega

theorem total_le (h : ∀ x ∈ samples, x ≤ a) : total samples ≤ samples.length * a.toNat := by
  induction samples with
  | nil => simp [total]
  | cons x samples ih =>
      have hrest := ih fun y hy => h y (List.mem_cons_of_mem x hy)
      have hx : x.toNat ≤ a.toNat := UInt64.le_iff_toNat_le.mp (h x List.mem_cons_self)
      simp only [total, List.map_cons, List.sum_cons, List.length_cons] at hrest ⊢
      rw [Nat.succ_mul]
      omega

theorem least_le_average_iff (hleast : ∀ x ∈ samples, a ≤ x) :
    samples.length * a.toNat ≤ total samples % 2 ^ 64 ↔
      2 ^ 64 * (total samples / 2 ^ 64) ≤ excess a samples := by
  have hexcess := excess_add hleast
  have hsplit := Nat.div_add_mod (total samples) (2 ^ 64)
  omega

theorem Covered.perm {samples' : List UInt64} (hperm : samples.Perm samples')
    (h : Covered samples) :
    Covered samples' := by
  intro least hmem hleast
  have htotal : total samples = total samples' := (hperm.map _).sum_nat
  have hexcess : excess least samples = excess least samples' := (hperm.map _).sum_nat
  rw [← htotal, ← hexcess]
  exact h least (hperm.mem_iff.mpr hmem) fun x hx => hleast x (hperm.mem_iff.mp hx)

end Sums

section Ranks

variable {stats : PathStats} {i j : Nat}

def rank (stats : PathStats) (i : Nat) : UInt64 := (sorted stats).getD i 0

theorem length_retained (stats : PathStats) : (retained stats).length = filled stats := by
  rw [retained, List.length_map, List.length_range]

theorem length_sorted (stats : PathStats) : (sorted stats).length = filled stats := by
  rw [sorted, List.length_mergeSort, length_retained]

theorem pairwise_sorted (stats : PathStats) : (sorted stats).Pairwise (· ≤ ·) := by
  have hsorted : (sorted stats).Pairwise fun a b => decide (a ≤ b) = true := by
    refine List.pairwise_mergeSort (fun a b c hab hbc => ?_) (fun a b => ?_) (retained stats)
    · rw [decide_eq_true_eq] at hab hbc ⊢
      exact UInt64.le_trans hab hbc
    · rw [Bool.or_eq_true, decide_eq_true_eq, decide_eq_true_eq]
      exact UInt64.le_total a b
  exact hsorted.imp of_decide_eq_true

theorem rank_le (hij : i ≤ j) (hj : j < filled stats) : rank stats i ≤ rank stats j := by
  have hsorted := List.pairwise_iff_getElem.mp (pairwise_sorted stats)
  have hlength := length_sorted stats
  rw [rank, rank, List.getD_eq_getElem _ _ (by omega), List.getD_eq_getElem _ _ (by omega)]
  rcases Nat.lt_or_eq_of_le hij with hlt | rfl
  · exact hsorted i j _ _ hlt
  · exact UInt64.le_refl _

theorem rank_mem (hi : i < filled stats) : rank stats i ∈ retained stats := by
  rw [rank, List.getD_eq_getElem _ _ (by rw [length_sorted]; exact hi)]
  exact List.mem_mergeSort.mp (List.getElem_mem _)

theorem exists_rank {x : UInt64} (hx : x ∈ retained stats) :
    ∃ i < filled stats, rank stats i = x := by
  have hmem : x ∈ sorted stats := List.mem_mergeSort.mpr hx
  obtain ⟨i, hi, rfl⟩ := List.getElem_of_mem hmem
  exact ⟨i, by rwa [← length_sorted stats], List.getD_eq_getElem _ _ hi⟩

theorem first_le {x : UInt64} (hx : x ∈ retained stats) : rank stats 0 ≤ x := by
  obtain ⟨i, hi, rfl⟩ := exists_rank hx
  exact rank_le (Nat.zero_le i) hi

theorem le_final {x : UInt64} (hx : x ∈ retained stats) : x ≤ rank stats (filled stats - 1) := by
  obtain ⟨i, hi, rfl⟩ := exists_rank hx
  exact rank_le (by omega) (by omega)

theorem computePercentiles_filled (h : filled stats ≠ 0) : computePercentiles stats =
    { minNs := rank stats 0
      maxNs := rank stats (filled stats - 1)
      p50Ns := rank stats (filled stats * 50 / 100)
      p95Ns := rank stats (filled stats * 95 / 100)
      p99Ns := rank stats (filled stats * 99 / 100)
      avgNs := (sorted stats).foldl (· + ·) 0 / UInt64.ofNat (filled stats) } := by
  have hfirst : (sorted stats).headD 0 = rank stats 0 := by
    rw [rank]
    cases sorted stats <;> rfl
  have hlast : (sorted stats).getLastD 0 = rank stats (filled stats - 1) := by
    rw [rank, ← length_sorted, List.getLastD_eq_getLast?, List.getLast?_eq_getElem?,
      List.getD_eq_getElem?_getD]
  rw [computePercentiles, if_neg h, hfirst, hlast]
  rfl

theorem toNat_average (stats : PathStats) :
    ((sorted stats).foldl (· + ·) 0 / UInt64.ofNat (filled stats)).toNat =
      total (retained stats) % 2 ^ 64 / (retained stats).length := by
  have hfilled : filled stats < 2 ^ 64 :=
    Nat.lt_of_le_of_lt (Nat.min_le_right _ _) (by decide)
  have htotal : total (sorted stats) = total (retained stats) :=
    ((List.mergeSort_perm _ _).map _).sum_nat
  rw [UInt64.toNat_div, toNat_foldl_add, UInt64.toNat_ofNat_of_lt' hfilled, htotal, length_retained]
  show (0 + total (retained stats)) % 2 ^ 64 / filled stats = _
  rw [Nat.zero_add]

theorem average_le (stats : PathStats) :
    (sorted stats).foldl (· + ·) 0 / UInt64.ofNat (filled stats) ≤
      rank stats (filled stats - 1) := by
  rw [UInt64.le_iff_toNat_le, toNat_average]
  apply Nat.div_le_of_le_mul
  exact Nat.le_trans (Nat.mod_le _ _) (total_le fun x hx => le_final hx)

theorem le_average_iff (h : filled stats ≠ 0) :
    rank stats 0 ≤ (sorted stats).foldl (· + ·) 0 / UInt64.ofNat (filled stats) ↔
      Covered (retained stats) := by
  have hpos : 0 < (retained stats).length := by
    rw [length_retained]
    exact Nat.pos_of_ne_zero h
  rw [UInt64.le_iff_toNat_le, toNat_average, Nat.le_div_iff_mul_le hpos, Nat.mul_comm,
    least_le_average_iff fun x hx => first_le hx]
  constructor
  · intro hcovered least hmem hleast
    have hsame : least = rank stats 0 :=
      UInt64.le_antisymm (hleast _ (rank_mem (Nat.pos_of_ne_zero h))) (first_le hmem)
    rw [hsame]
    exact hcovered
  · intro hcovered
    exact hcovered _ (rank_mem (Nat.pos_of_ne_zero h)) fun x hx => first_le hx

/-- Ranks and extremes are right as soon as there is a sample; the average needs the sum. -/
theorem describes_iff (stats : PathStats) :
    Describes (computePercentiles stats) (retained stats) ↔
      filled stats ≠ 0 ∧ Covered (retained stats) := by
  constructor
  · intro h
    have hfilled : filled stats ≠ 0 := by
      intro hzero
      have hlength := List.length_pos_of_mem h.sampled.1
      rw [length_retained] at hlength
      omega
    refine ⟨hfilled, (le_average_iff hfilled).mp ?_⟩
    have haveraged := h.averaged.1
    rwa [computePercentiles_filled hfilled] at haveraged
  · rintro ⟨hfilled, hcovered⟩
    rw [computePercentiles_filled hfilled]
    refine ⟨⟨?_, ?_, ?_, ?_⟩, ⟨(le_average_iff hfilled).mpr hcovered, average_le stats⟩, ?_, ?_, ?_⟩
    · exact rank_le (Nat.zero_le _) (by omega)
    · exact rank_le (by omega) (by omega)
    · exact rank_le (by omega) (by omega)
    · exact rank_le (by omega) (by omega)
    · exact rank_mem (by omega)
    · exact rank_mem (by omega)
    · exact rank_mem (by omega)

end Ranks

section Reservoir

variable {stats : PathStats} {samples : List UInt64}

/-- The slots behind the index hold the last samples, the latest first. -/
structure Tracks (stats : PathStats) (samples : List UInt64) : Prop where
  index : stats.sampleIdx = samples.length % 2 ^ 64
  kept : ∀ t < filled stats, samples.reverse[t]? =
    some (stats.latencies ((stats.sampleIdx - 1 - t) % reservoirSize))

theorem tracks_start : Tracks {} [] := ⟨rfl, fun t ht => absurd ht (by simp [filled])⟩

theorem Tracks.record (h : Tracks stats samples) {arrivalNs nowNs : UInt64}
    (hlater : ¬nowNs ≤ arrivalNs) :
    Tracks (stats.recordLatency arrivalNs nowNs) (samples ++ [nowNs - arrivalNs]) := by
  have hindex := h.index
  rw [PathStats.recordLatency, if_neg hlater]
  constructor
  · show (stats.sampleIdx + 1) % 2 ^ 64 = _
    rw [hindex, Nat.mod_add_mod, List.length_append]
    rfl
  · intro t ht
    rw [List.reverse_append]
    simp only [filled, reservoirSize] at ht ⊢
    -- The index is back at the front after 2^64 samples, and then nothing is filled.
    have hnext : (stats.sampleIdx + 1) % 2 ^ 64 = stats.sampleIdx + 1 := by omega
    rw [hnext] at ht ⊢
    cases t with
    | zero =>
        show some (nowNs - arrivalNs) = _
        rw [Nat.add_sub_cancel, Nat.sub_zero, Function.update_self]
    | succ t =>
        have hslot : (stats.sampleIdx + 1 - 1 - (t + 1)) % 100000 ≠ stats.sampleIdx % 100000 := by
          omega
        have hkept := h.kept t (by simp only [filled, reservoirSize]; omega)
        rw [Function.update_of_ne hslot, show stats.sampleIdx + 1 - 1 - (t + 1) =
          stats.sampleIdx - 1 - t by omega]
        exact hkept

theorem tracks_recordAll (calls : List (UInt64 × UInt64)) :
    Tracks (recordAll calls) (recorded calls) := by
  induction calls using List.reverseRecOn with
  | nil => exact tracks_start
  | append_singleton calls call ih =>
      rw [recordAll, List.foldl_append, recorded, List.filterMap_append]
      by_cases hlater : call.2 ≤ call.1
      · have hnone : [call].filterMap latency? = [] := by simp [latency?, hlater]
        rw [hnone, List.append_nil, List.foldl_cons, List.foldl_nil, PathStats.recordLatency,
          if_pos hlater]
        exact ih
      · have hsome : [call].filterMap latency? = [call.2 - call.1] := by simp [latency?, hlater]
        rw [hsome]
        exact ih.record hlater

theorem slots_perm (index : Nat) :
    ((List.range (min index reservoirSize)).map fun t => (index - 1 - t) % reservoirSize).Perm
      (List.range (min index reservoirSize)) := by
  simp only [reservoirSize]
  have hnodup : ((List.range (min index 100000)).map fun t => (index - 1 - t) % 100000).Nodup := by
    refine List.Nodup.map_on (fun t ht t' ht' heq => ?_) List.nodup_range
    rw [List.mem_range] at ht ht'
    omega
  have hsubset : ((List.range (min index 100000)).map fun t => (index - 1 - t) % 100000) ⊆
      List.range (min index 100000) := by
    intro slot hslot
    obtain ⟨t, ht, rfl⟩ := List.mem_map.mp hslot
    rw [List.mem_range] at ht ⊢
    omega
  apply (hnodup.subperm hsubset).perm_of_length_le
  rw [List.length_map]

/-- As long as the index has not come round to the front, the last samples are retained. -/
theorem Tracks.retained_perm (h : Tracks stats samples)
    (hround : min samples.length reservoirSize ≤ samples.length % 2 ^ 64) :
    (retained stats).Perm (lastSamples samples) := by
  have hfilled : filled stats = min samples.length reservoirSize := by
    rw [filled, h.index]
    omega
  have hlast : (lastSamples samples).reverse =
      ((List.range (filled stats)).map fun t => (stats.sampleIdx - 1 - t) % reservoirSize).map
        stats.latencies := by
    rw [lastSamples, List.reverse_drop, List.map_map]
    apply List.ext_getElem?
    intro t
    rw [List.getElem?_take, List.getElem?_map,
      show samples.length - (samples.length - reservoirSize) = filled stats by omega]
    split
    · rename_i ht
      rw [h.kept t ht, List.getElem?_range ht]
      rfl
    · rename_i ht
      rw [List.getElem?_eq_none (by rw [List.length_range]; omega)]
      rfl
  refine List.Perm.trans ?_ (lastSamples samples).reverse_perm
  rw [hlast]
  exact ((slots_perm stats.sampleIdx).map stats.latencies).symm

end Reservoir

/-- The percentiles describe the last samples exactly when there is one, the index has not just
come round, and the average survives the wraps of its sum. -/
theorem percentiles_sound_iff (calls : List (UInt64 × UInt64)) :
    Sound calls ↔ recorded calls ≠ [] ∧
      min (recorded calls).length reservoirSize ≤ (recorded calls).length % 2 ^ 64 ∧
      Covered (lastSamples (recorded calls)) := by
  have htracks := tracks_recordAll calls
  have hlast : (lastSamples (recorded calls)).length =
      min (recorded calls).length reservoirSize := by
    rw [lastSamples, List.length_drop]
    omega
  constructor
  · rintro ⟨hdescribes, hperm⟩
    obtain ⟨hfilled, hcovered⟩ := (describes_iff _).mp hdescribes
    have hlength := hperm.length_eq
    rw [length_retained, hlast] at hlength
    refine ⟨?_, ?_, hcovered.perm hperm⟩
    · intro hnil
      rw [hlength, hnil] at hfilled
      exact hfilled rfl
    · rw [← hlength, filled, htracks.index]
      exact Nat.min_le_left _ _
  · rintro ⟨hsome, hround, hcovered⟩
    have hperm := htracks.retained_perm hround
    have hlength := hperm.length_eq
    rw [length_retained, hlast] at hlength
    have hpos := List.length_pos_of_ne_nil hsome
    refine ⟨(describes_iff _).mpr ⟨?_, hcovered.perm hperm.symm⟩, hperm⟩
    rw [hlength]
    exact Nat.ne_of_gt (Nat.lt_min.mpr ⟨hpos, by decide⟩)

/-- Two latencies of 2^63 ns have the average 0. -/
theorem not_sound_wrapped : ¬Sound [(0, 0x8000000000000000), (0, 0x8000000000000000)] := by
  rintro ⟨hdescribes, -⟩
  have hcovered := ((describes_iff _).mp hdescribes).2
  have hretained : retained (recordAll [(0, 0x8000000000000000), (0, 0x8000000000000000)]) =
      [0x8000000000000000, 0x8000000000000000] := by decide +kernel
  rw [hretained] at hcovered
  have hwrap := hcovered 0x8000000000000000 (by simp) (by simp)
  revert hwrap
  decide +kernel

end MobileCore.LatencyPercentiles
