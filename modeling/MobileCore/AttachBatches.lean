import MobileCore.LabelledRuns

/-!
# Batches of attaches and their metrics

A BULK command resets the metrics, starts its attaches and waits until as many have completed. An
attach that completes is counted whichever command it came from, first by its latency and then, in
a second step, by its number.
-/

namespace MobileCore.AttachBatches

open MobileCore.LabelledRuns

/-- How far an attach is: the latency is pushed before the completion is counted. -/
inductive Stage where
  | underway
  | recorded
  | counted
  | failed
deriving DecidableEq

def Stage.isRecorded : Stage → Bool
  | .recorded | .counted => true
  | _ => false

def Stage.isCounted : Stage → Bool
  | .counted => true
  | _ => false

structure Attach where
  batch : Option Nat
  stage : Stage := .underway
deriving DecidableEq

/-- Where the command loop is. `startBulk` has the mutex until it has reset the count. -/
inductive Main where
  | idle
  | resetting (n : Nat)
  | submitting (i n : Nat)
  | waiting (n : Nat)
  | returned (n : Nat) (all_done : Bool)
deriving DecidableEq

structure Latency where
  attach : Nat
  ms : Nat
deriving DecidableEq

structure State where
  main : Main := .idle
  batch : Nat := 0
  expected : Nat := 0
  completed : Nat := 0
  latencies_ms : List Latency := []
  attaches : List Attach := []

/-- The argument of a command is what `iss >> n` reads, if it reads a number. -/
inductive Input where
  | cr (arg : Option Int)
  | bulk (arg : Option Int)
  | main
  | record (i ms : Nat)
  | count (i : Nat)
  | fail (i : Nat)
deriving DecidableEq

inductive Event where
  | reported (latencies_ms : List Latency)
deriving DecidableEq

/-- The number of attaches of a command: a default where there is no positive number, and at most
a hundred. -/
def size (default : Nat) : Option Int → Nat
  | none => default
  | some n => if n < 1 then default else if 100 < n then 100 else n.toNat

def State.setStage (s : State) (i : Nat) (a : Attach) (stage : Stage) : State :=
  { s with attaches := s.attaches.set i { a with stage } }

def startBulk (s : State) (n : Nat) : State :=
  { s with main := .resetting n, batch := s.batch + 1, expected := n, latencies_ms := [] }

/-- The next step of a BULK command. The wait ends when the predicate is true or by its timeout. -/
def mainStep (s : State) : Option (State × List Event) :=
  match s.main with
  | .idle => none
  | .resetting n => some ({ s with main := .submitting 0 n, completed := 0 }, [])
  | .submitting i n =>
      if i < n then
        some
          ({ s with
              main := .submitting (i + 1) n
              attaches := s.attaches ++ [{ batch := some s.batch }] }, [])
      else some ({ s with main := .waiting n }, [])
  | .waiting n =>
      some ({ s with main := .returned n (decide (s.expected ≤ s.completed)) }, [])
  | .returned _ _ => some ({ s with main := .idle }, [.reported s.latencies_ms])

def record (s : State) (i ms : Nat) : Option (State × List Event) :=
  match s.main, s.attaches[i]? with
  | .resetting _, _ => none
  | _, some ⟨batch, .underway⟩ =>
      some
        ({ s.setStage i ⟨batch, .underway⟩ .recorded with
            latencies_ms := s.latencies_ms ++ [⟨i, ms⟩] }, [])
  | _, _ => none

def step : Machine State Input Event
  | s, .cr arg =>
      if s.main = .idle then
        some ({ s with attaches := s.attaches ++ List.replicate (size 1 arg) { batch := none } }, [])
      else none
  | s, .bulk arg => if s.main = .idle then some (startBulk s (size 5 arg), []) else none
  | s, .main => mainStep s
  | s, .record i ms => record s i ms
  | s, .count i =>
      match s.attaches[i]? with
      | some ⟨batch, .recorded⟩ =>
          some ({ s.setStage i ⟨batch, .recorded⟩ .counted with completed := s.completed + 1 }, [])
      | _ => none
  | s, .fail i =>
      match s.attaches[i]? with
      | some ⟨batch, .underway⟩ => some (s.setStage i ⟨batch, .underway⟩ .failed, [])
      | _ => none

def isPart (batch : Nat) (p : Stage → Bool) (a : Attach) : Bool :=
  a.batch = some batch && p a.stage

/-- The attaches of the current batch that are far enough. -/
def tally (p : Stage → Bool) (s : State) : Nat := s.attaches.countP (isPart s.batch p)

def State.Own (s : State) (i : Nat) (a : Attach) : Prop :=
  s.attaches[i]? = some a ∧ a.batch = some s.batch

/-- A wait that succeeded saw all attaches of its batch, as many as were asked for, and the report
is about attaches of the batch only, each of them once. -/
structure Faithful (s : State) : Prop where
  completed : ∀ n, s.main = .returned n true →
    tally (fun _ => true) s = n ∧ (∀ i a, s.Own i a → a.stage = .counted) ∧
      s.latencies_ms.length = n
  latencies : ∀ n all_done, s.main = .returned n all_done →
    (s.latencies_ms.map Latency.attach).Nodup ∧
      ∀ l ∈ s.latencies_ms, ∃ a, s.Own l.attach a ∧ a.stage.isRecorded = true

/-- The attach is one of the BULK command that runs, if one does. -/
def State.InTime (s : State) (i : Nat) : Prop :=
  s.main ≠ .idle → (s.attaches[i]?).bind Attach.batch = some s.batch

instance (s : State) (i : Nat) : Decidable (s.InTime i) :=
  inferInstanceAs (Decidable (_ → _))

/-- No attach of an earlier command completes while a BULK command runs. -/
def NoneLate (_ : List Event) (s : State) : Input → Prop
  | .record i _ | .count i => s.InTime i
  | _ => True

instance (tr : List Event) (s : State) (i : Input) : Decidable (NoneLate tr s i) :=
  match i with
  | .record i _ | .count i => inferInstanceAs (Decidable (s.InTime i))
  | .cr _ | .bulk _ | .main | .fail _ => .isTrue trivial

section Tallies

variable {s : State} {p q : Stage → Bool}

theorem isPart_iff {batch : Nat} {a : Attach} :
    isPart batch p a = true ↔ a.batch = some batch ∧ p a.stage = true := by
  rw [isPart, Bool.and_eq_true, decide_eq_true_eq]

theorem isPart_own {batch : Nat} {a : Attach} (h : a.batch = some batch) :
    isPart batch p a = p a.stage := by
  rw [isPart, decide_eq_true h, Bool.true_and]

theorem isPart_mono (hpq : ∀ stage, p stage = true → q stage = true) {batch : Nat} {a : Attach}
    (h : isPart batch p a = true) : isPart batch q a = true :=
  isPart_iff.mpr ⟨(isPart_iff.mp h).1, hpq _ (isPart_iff.mp h).2⟩

theorem tally_le (hpq : ∀ stage, p stage = true → q stage = true) : tally p s ≤ tally q s :=
  List.countP_mono_left fun _ _ => isPart_mono hpq

theorem tally_le_total : tally p s ≤ tally (fun _ => true) s := tally_le fun _ _ => rfl

/-- Where two predicates count alike, whatever has the weaker one has both. -/
theorem of_countP_eq {α : Type} {f g : α → Bool} {l : List α} (hfg : ∀ a, f a = true → g a = true)
    (h : l.countP f = l.countP g) : ∀ a ∈ l, g a = true → f a = true := by
  induction l with
  | nil =>
      intro a ha
      cases ha
  | cons b l ih =>
      have hle : l.countP f ≤ l.countP g := List.countP_mono_left fun a _ => hfg a
      rw [List.countP_cons, List.countP_cons] at h
      rw [List.forall_mem_cons]
      by_cases hf : f b = true
      · rw [if_pos hf, if_pos (hfg b hf)] at h
        exact ⟨fun _ => hf, ih (by omega)⟩
      · rw [if_neg hf] at h
        by_cases hg : g b = true
        · rw [if_pos hg] at h
          omega
        · rw [if_neg hg] at h
          exact ⟨fun hb => absurd hb hg, ih h⟩

theorem own_of_tally_eq (h : tally p s = tally (fun _ => true) s) {i : Nat} {a : Attach}
    (ha : s.Own i a) : p a.stage = true := by
  have hall := of_countP_eq (fun _ => isPart_mono fun _ _ => rfl) h a (List.mem_of_getElem? ha.1)
  exact (isPart_iff.mp (hall (isPart_iff.mpr ⟨ha.2, rfl⟩))).2

theorem tally_setStage {i : Nat} {a : Attach} (ha : s.attaches[i]? = some a) (stage : Stage) :
    tally p (s.setStage i a stage) + (isPart s.batch p a).toNat =
      tally p s + (isPart s.batch p { a with stage }).toNat := by
  obtain ⟨hi, hvalue⟩ := List.getElem?_eq_some_iff.mp ha
  have hset : tally p (s.setStage i a stage) = tally p s -
      (if isPart s.batch p a = true then 1 else 0) +
      (if isPart s.batch p { a with stage } = true then 1 else 0) := by
    show (s.attaches.set i { a with stage }).countP (isPart s.batch p) = _
    rw [List.countP_set hi, hvalue]
    rfl
  have hpos : isPart s.batch p a = true → 0 < tally p s := fun hpart =>
    List.countP_pos_iff.mpr ⟨a, List.mem_of_getElem? ha, hpart⟩
  rw [hset]
  cases hpart : isPart s.batch p a with
  | true =>
      have hfirst := hpos hpart
      cases isPart s.batch p { a with stage } <;> simp <;> omega
  | false => cases isPart s.batch p { a with stage } <;> simp

theorem tally_kept {i : Nat} {a : Attach} (ha : s.attaches[i]? = some a) (stage : Stage)
    (hp : p a.stage = p stage) : tally p (s.setStage i a stage) = tally p s := by
  have hsame : isPart s.batch p a = isPart s.batch p { a with stage } := by
    rw [isPart, isPart, hp]
  have hset := tally_setStage (p := p) ha stage
  rw [hsame] at hset
  exact Nat.add_right_cancel hset

theorem tally_moved {i : Nat} {a : Attach} (ha : s.Own i a) {stage : Stage}
    (hold : p a.stage = false) (hnew : p stage = true) :
    tally p (s.setStage i a stage) = tally p s + 1 := by
  have hset := tally_setStage (p := p) ha.1 stage
  rw [isPart_own ha.2, isPart_own (a := { a with stage }) ha.2, hold, hnew] at hset
  exact hset

end Tallies

/-- What holds from the start of a batch to its report, with the attaches that were started. -/
structure InBatch (s : State) (n started : Nat) : Prop where
  expected : s.expected = n
  total : tally (fun _ => true) s = started
  recorded : tally Stage.isRecorded s = s.latencies_ms.length
  counted : (∀ n, s.main ≠ .resetting n) → tally Stage.isCounted s = s.completed
  nodup : (s.latencies_ms.map Latency.attach).Nodup
  own : ∀ l ∈ s.latencies_ms, ∃ a, s.Own l.attach a ∧ a.stage.isRecorded = true

section Stages

variable {s : State} {n started i : Nat} {a : Attach}

theorem own_setStage (ha : s.attaches[i]? = some a) {stage : Stage}
    (hmono : a.stage.isRecorded = true → stage.isRecorded = true) {j : Nat}
    (h : ∃ b, s.Own j b ∧ b.stage.isRecorded = true) :
    ∃ b, (s.setStage i a stage).Own j b ∧ b.stage.isRecorded = true := by
  obtain ⟨b, ⟨hget, hbatch⟩, hrecorded⟩ := h
  obtain ⟨hi, _⟩ := List.getElem?_eq_some_iff.mp ha
  by_cases hij : i = j
  · subst hij
    obtain rfl := Option.some.inj (ha.symm.trans hget)
    refine ⟨{ a with stage }, ⟨?_, hbatch⟩, hmono hrecorded⟩
    exact List.getElem?_set_self hi
  · refine ⟨b, ⟨?_, hbatch⟩, hrecorded⟩
    exact (List.getElem?_set_ne hij).trans hget

theorem InBatch.record (h : InBatch s n started) {batch : Option Nat}
    (hown : s.Own i ⟨batch, .underway⟩) (ms : Nat) :
    InBatch
      { s.setStage i ⟨batch, .underway⟩ .recorded with
          latencies_ms := s.latencies_ms ++ [⟨i, ms⟩] } n started := by
  have ha := hown.1
  have hnew : i ∉ s.latencies_ms.map Latency.attach := by
    intro hmem
    obtain ⟨l, hl, rfl⟩ := List.mem_map.mp hmem
    obtain ⟨b, ⟨hb, _⟩, hrecorded⟩ := h.own l hl
    obtain rfl := Option.some.inj (ha.symm.trans hb)
    cases hrecorded
  have hi := (List.getElem?_eq_some_iff.mp ha).1
  constructor
  · exact h.expected
  · exact (tally_kept ha .recorded rfl).trans h.total
  · rw [List.length_append, List.length_singleton, ← h.recorded]
    exact tally_moved hown rfl rfl
  · intro hmain
    exact (tally_kept ha .recorded rfl).trans (h.counted hmain)
  · rw [List.map_append, List.nodup_append]
    refine ⟨h.nodup, by simp, ?_⟩
    intro j hj k hk hjk
    obtain rfl := List.mem_singleton.mp hk
    rw [hjk] at hj
    exact hnew hj
  · intro l hl
    rcases List.mem_append.mp hl with hl | hl
    · exact own_setStage ha nofun (h.own l hl)
    · rw [List.mem_singleton.mp hl]
      exact ⟨_, ⟨List.getElem?_set_self hi, hown.2⟩, rfl⟩

theorem InBatch.count (h : InBatch s n started) {batch : Option Nat}
    (hown : s.Own i ⟨batch, .recorded⟩) :
    InBatch { s.setStage i ⟨batch, .recorded⟩ .counted with completed := s.completed + 1 } n
      started := by
  constructor
  · exact h.expected
  · exact (tally_kept hown.1 .counted rfl).trans h.total
  · exact (tally_kept hown.1 .counted rfl).trans h.recorded
  · intro hmain
    show _ = s.completed + 1
    rw [← h.counted hmain]
    exact tally_moved hown rfl rfl
  · exact h.nodup
  · exact fun l hl => own_setStage hown.1 (fun _ => rfl) (h.own l hl)

theorem InBatch.fail (h : InBatch s n started) {batch : Option Nat}
    (ha : s.attaches[i]? = some ⟨batch, .underway⟩) :
    InBatch (s.setStage i ⟨batch, .underway⟩ .failed) n started where
  expected := h.expected
  total := (tally_kept ha .failed rfl).trans h.total
  recorded := (tally_kept ha .failed rfl).trans h.recorded
  counted hmain := (tally_kept ha .failed rfl).trans (h.counted hmain)
  nodup := h.nodup
  own l hl := own_setStage ha nofun (h.own l hl)

end Stages

/-- Where a BULK command is, with the attaches it has started. -/
def Phase (s : State) : Prop :=
  match s.main with
  | .idle => True
  | .resetting n => InBatch s n 0
  | .submitting i n => InBatch s n i ∧ i ≤ n
  | .waiting n => InBatch s n n
  | .returned n all_done => InBatch s n n ∧ (all_done = true → n ≤ s.completed)

structure Inv (s : State) : Prop where
  fresh : ∀ a ∈ s.attaches, ∀ b, a.batch = some b → b ≤ s.batch
  phase : Phase s

section Steps

variable {s s' : State} {es : List Event}

theorem Phase.mono (h : Phase s) (hmain : s'.main = s.main)
    (hcompleted : s.completed ≤ s'.completed)
    (hkeeps : s.main ≠ .idle → ∀ n started, InBatch s n started → InBatch s' n started) :
    Phase s' := by
  by_cases hidle : s.main = .idle
  · rw [Phase, hmain, hidle]
    trivial
  have hbatch := hkeeps hidle
  rw [Phase] at h ⊢
  rw [hmain]
  split
  · trivial
  · rename_i n hphase
    rw [hphase] at h
    exact hbatch n 0 h
  · rename_i i n hphase
    rw [hphase] at h
    exact ⟨hbatch n i h.1, h.2⟩
  · rename_i n hphase
    rw [hphase] at h
    exact hbatch n n h
  · rename_i n all_done hphase
    rw [hphase] at h
    exact ⟨hbatch n n h.1, fun hdone => Nat.le_trans (h.2 hdone) hcompleted⟩

theorem fresh_setStage {i : Nat} {a : Attach}
    (h : ∀ a ∈ s.attaches, ∀ b, a.batch = some b → b ≤ s.batch) (ha : s.attaches[i]? = some a)
    (stage : Stage) :
    ∀ a' ∈ s.attaches.set i { a with stage }, ∀ b, a'.batch = some b → b ≤ s.batch := by
  intro other hother b hb
  rcases List.mem_or_eq_of_mem_set hother with hother | rfl
  · exact h other hother b hb
  · exact h a (List.mem_of_getElem? ha) b hb

theorem startBulk_inv (h : Inv s) (n : Nat) : Inv (startBulk s n) := by
  have hnone : tally (fun _ => true) (startBulk s n) = 0 := by
    rw [tally, List.countP_eq_zero]
    intro a ha hpart
    have hle := h.fresh a ha _ (isPart_iff.mp hpart).1
    exact absurd hle (Nat.not_succ_le_self s.batch)
  have hzero (p : Stage → Bool) : tally p (startBulk s n) = 0 :=
    Nat.le_zero.mp (hnone ▸ tally_le_total)
  constructor
  · exact fun a ha b hb => Nat.le_succ_of_le (h.fresh a ha b hb)
  · constructor
    · rfl
    · exact hnone
    · exact hzero Stage.isRecorded
    · exact fun hmain => absurd rfl (hmain n)
    · exact List.nodup_nil
    · exact fun l hl => nomatch hl

theorem InBatch.start {n started : Nat} (h : InBatch s n started)
    (hmain : ∀ n, s.main ≠ .resetting n) (main : Main) :
    InBatch { s with main, attaches := s.attaches ++ [{ batch := some s.batch }] } n
      (started + 1) := by
  have htally (p : Stage → Bool) :
      tally p { s with main, attaches := s.attaches ++ [{ batch := some s.batch }] } =
        tally p s + (p .underway).toNat := by
    show (s.attaches ++ _).countP (isPart s.batch p) = _
    rw [List.countP_append, List.countP_singleton, isPart_own rfl]
    cases p Stage.underway <;> rfl
  constructor
  · exact h.expected
  · rw [htally, h.total]
    rfl
  · rw [htally, h.recorded]
    rfl
  · intro _
    rw [htally, h.counted hmain]
    rfl
  · exact h.nodup
  · intro l hl
    obtain ⟨a, ⟨hget, hbatch⟩, hrecorded⟩ := h.own l hl
    refine ⟨a, ⟨?_, hbatch⟩, hrecorded⟩
    exact (List.getElem?_append_left (List.getElem?_eq_some_iff.mp hget).1).trans hget

theorem InBatch.move {n started : Nat} (h : InBatch s n started)
    (hmain : ∀ n, s.main ≠ .resetting n) (main : Main) : InBatch { s with main } n started :=
  ⟨h.expected, h.total, h.recorded, fun _ => h.counted hmain, h.nodup, h.own⟩

theorem mainStep_inv (h : Inv s) (hstep : mainStep s = some (s', es)) : Inv s' := by
  obtain ⟨hfresh, hphase⟩ := h
  rw [mainStep] at hstep
  rw [Phase] at hphase
  split at hstep
  · cases hstep
  · rename_i n hmain
    obtain ⟨rfl, rfl⟩ := Prod.mk.inj (Option.some.inj hstep)
    rw [hmain] at hphase
    have hzero : tally Stage.isCounted s = 0 := Nat.le_zero.mp (hphase.total ▸ tally_le_total)
    refine ⟨hfresh, ⟨?_, Nat.zero_le n⟩⟩
    exact ⟨hphase.expected, hphase.total, hphase.recorded, fun _ => hzero,
      hphase.nodup, hphase.own⟩
  · rename_i i n hmain
    rw [hmain] at hphase
    have hreset : ∀ n, s.main ≠ .resetting n := by
      rw [hmain]
      exact nofun
    split at hstep
    · rename_i hlt
      obtain ⟨rfl, rfl⟩ := Prod.mk.inj (Option.some.inj hstep)
      refine ⟨?_, hphase.1.start hreset _, hlt⟩
      intro a ha b hb
      rcases List.mem_append.mp ha with ha | ha
      · exact hfresh a ha b hb
      · rw [List.mem_singleton.mp ha] at hb
        exact Nat.le_of_eq (Option.some.inj hb).symm
    · rename_i hge
      obtain ⟨rfl, rfl⟩ := Prod.mk.inj (Option.some.inj hstep)
      obtain rfl := Nat.le_antisymm hphase.2 (Nat.le_of_not_lt hge)
      exact ⟨hfresh, hphase.1.move hreset _⟩
  · rename_i n hmain
    obtain ⟨rfl, rfl⟩ := Prod.mk.inj (Option.some.inj hstep)
    rw [hmain] at hphase
    have hreset : ∀ n, s.main ≠ .resetting n := by
      rw [hmain]
      exact nofun
    refine ⟨hfresh, hphase.move hreset _, ?_⟩
    intro hdone
    have hreached := of_decide_eq_true hdone
    rwa [hphase.expected] at hreached
  · obtain ⟨rfl, rfl⟩ := Prod.mk.inj (Option.some.inj hstep)
    exact ⟨hfresh, trivial⟩

theorem own_of_inTime {i : Nat} {a : Attach} (ha : s.attaches[i]? = some a)
    (htime : (s.attaches[i]?).bind Attach.batch = some s.batch) : s.Own i a := by
  rw [ha] at htime
  exact ⟨ha, htime⟩

theorem step_inv {tr : List Event} {i : Input} (h : Inv s) (hguard : NoneLate tr s i)
    (hstep : step s i = some (s', es)) : Inv s' := by
  cases i with
  | cr arg =>
      obtain ⟨hidle, hstep⟩ := Option.ite_none_right_eq_some.mp hstep
      obtain ⟨rfl, rfl⟩ := Prod.mk.inj (Option.some.inj hstep)
      constructor
      · intro a ha b hb
        rcases List.mem_append.mp ha with ha | ha
        · exact h.fresh a ha b hb
        · rw [(List.mem_replicate.mp ha).2] at hb
          cases hb
      · rw [Phase, hidle]
        trivial
  | bulk arg =>
      obtain ⟨_, hstep⟩ := Option.ite_none_right_eq_some.mp hstep
      obtain ⟨rfl, rfl⟩ := Prod.mk.inj (Option.some.inj hstep)
      exact startBulk_inv h _
  | main => exact mainStep_inv h hstep
  | record i ms =>
      rw [step, record] at hstep
      split at hstep
      · cases hstep
      · rename_i batch ha _
        obtain ⟨rfl, rfl⟩ := Prod.mk.inj (Option.some.inj hstep)
        refine ⟨fresh_setStage h.fresh ha .recorded, ?_⟩
        refine h.phase.mono rfl (Nat.le_refl _) fun hbusy n started hin => ?_
        exact hin.record (own_of_inTime ha (hguard hbusy)) ms
      · cases hstep
  | count i =>
      rw [step] at hstep
      split at hstep
      · rename_i batch ha
        obtain ⟨rfl, rfl⟩ := Prod.mk.inj (Option.some.inj hstep)
        refine ⟨fresh_setStage h.fresh ha .counted, ?_⟩
        refine h.phase.mono rfl (Nat.le_succ _) fun hbusy n started hin => ?_
        exact hin.count (own_of_inTime ha (hguard hbusy))
      · cases hstep
  | fail i =>
      rw [step] at hstep
      split at hstep
      · rename_i batch ha
        obtain ⟨rfl, rfl⟩ := Prod.mk.inj (Option.some.inj hstep)
        refine ⟨fresh_setStage h.fresh ha .failed, ?_⟩
        exact h.phase.mono rfl (Nat.le_refl _) fun _ n started hin => hin.fail ha
      · cases hstep

end Steps

theorem Inv.faithful {s : State} (h : Inv s) : Faithful s := by
  have hphase := h.phase
  constructor
  · intro n hmain
    rw [Phase, hmain] at hphase
    obtain ⟨hbatch, hdone⟩ := hphase
    have hcounted := hbatch.counted (by rw [hmain]; exact nofun)
    have hrecorded : tally Stage.isCounted s ≤ tally Stage.isRecorded s :=
      tally_le fun stage => by cases stage <;> simp [Stage.isCounted, Stage.isRecorded]
    have htotal : tally Stage.isRecorded s ≤ tally (fun _ => true) s := tally_le_total
    have hn := hdone rfl
    rw [hbatch.total] at htotal
    rw [hbatch.recorded] at hrecorded htotal
    refine ⟨hbatch.total, ?_, by omega⟩
    intro i a ha
    have hall : tally Stage.isCounted s = tally (fun _ => true) s := by
      rw [hbatch.total]
      omega
    have hstage := own_of_tally_eq hall ha
    cases hcase : a.stage <;> rw [hcase] at hstage <;> first | rfl | cases hstage
  · intro n all_done hmain
    rw [Phase, hmain] at hphase
    exact ⟨hphase.1.nodup, hphase.1.own⟩

/-- The waits and the reports are about their own batch in every run in which no attach of an
earlier command completes while a BULK command runs. -/
theorem faithful_of_noneLate {tr : List Event} {s : State} (hrun : Run step NoneLate {} tr s) :
    Faithful s := by
  have hinv : Inv s := by
    refine hrun.invariant (I := fun _ s => Inv s) ?_ ?_
    · exact ⟨nofun, trivial⟩
    · intro tr s i s' es h hguard hstep
      exact step_inv h hguard hstep
  exact hinv.faithful

/-- Two batches, of which the second starts after the first one's attach. -/
theorem second_batch_faithful : ∃ tr s, Run step NoneLate {} tr s ∧ s.batch = 2 ∧
    s.main = .returned 1 true ∧ Faithful s := by
  have hexec : (exec step {} [.bulk (some 1), .main, .main, .main, .main, .main, .record 0 40,
      .count 0, .bulk (some 1), .main, .main, .main, .record 1 30, .count 1, .main]).map
      (fun out => (out.1.batch, out.1.main)) = some (2, .returned 1 true) := rfl
  obtain ⟨tr, s, hrun, hseen⟩ := exists_run_of_exec (P := NoneLate) _ (by decide) hexec
  obtain ⟨hbatch, hmain⟩ := Prod.mk.inj hseen
  exact ⟨tr, s, hrun, hbatch, hmain, faithful_of_noneLate hrun⟩

/-- The attach of a batch that timed out completes during the next one, and is counted there. -/
theorem late_attach_counted :
    ¬∀ (tr : List Event) (s : State), Reach step {} tr s → Faithful s := by
  intro h
  have hexec : (exec step {} [.bulk (some 1), .main, .main, .main, .main, .main,
      .bulk (some 1), .main, .main, .main, .record 0 40, .count 0, .main]).map
      (fun out => (out.1.batch, out.1.main, out.1.attaches)) =
        some (2, .returned 1 true, [⟨some 1, .counted⟩, ⟨some 2, .underway⟩]) := rfl
  obtain ⟨tr, s, hrun, hseen⟩ := exists_reach_of_exec hexec
  obtain ⟨hbatch, hmain, hattaches⟩ : s.batch = 2 ∧ s.main = .returned 1 true ∧
      s.attaches = [⟨some 1, .counted⟩, ⟨some 2, .underway⟩] := by
    simpa using hseen
  have hown : s.Own 1 ⟨some 2, .underway⟩ := by
    rw [State.Own, hattaches, hbatch]
    exact ⟨rfl, rfl⟩
  cases ((h tr s hrun).completed 1 hmain).2.1 1 _ hown

end MobileCore.AttachBatches
