import Mathlib.Data.Finset.Basic
import MobileCore.LabelledRuns

/-!
# The start and the stop of a scenario

Every call of `start` and `stop` is a thread of its own. It looks at the status under a lock, gives
the lock back, launches or ends processes, and takes the lock again to write down how it went.
-/

namespace MobileCore.ScenarioControl

open MobileCore.LabelledRuns

def nfBinaries : List String := ["nrf_sim", "udm_sim", "upf_sim", "smf_sim", "amf_sim"]

inductive Status where
  | idle
  | starting
  | running
  | stopping
deriving DecidableEq

/-- Where a call is: before it, in a start, in a stop with the list that it found, or behind it. -/
inductive Call where
  | absent
  | launchingNrf
  | failed
  | launching (cmds : List Nat) (bins : List String)
  | signalling (procs rest : List Nat)
  | waiting (procs : List Nat)
  | killing (rest : List Nat)
  | finishing
  | returned
deriving DecidableEq

/-- Processes are numbered in the order of their launch, `alive` are those that run. -/
structure State where
  status : Status := .idle
  procs : List Nat := []
  calls : Nat → Call := fun _ => .absent
  launched : Nat := 0
  alive : Finset Nat := ∅
  signalled : Finset Nat := ∅

inductive Input where
  | start (n : Nat)
  | stop (n : Nat)
  | launch (n : Nat) (ok : Bool)
  | signal (n : Nat)
  | wait (n : Nat)
  | timeout (n : Nat)
  | kill (n : Nat)
  | finish (n : Nat)
  | exit (p : Nat)

inductive Event where
  | began (n : Nat)
  | refused (n : Nat)
  | launched (n p : Nat) (bin : String)
  | notStarted (n : Nat)
  | started (n : Nat)
  | stopped (n : Nat)
deriving DecidableEq

def State.enter (s : State) (n : Nat) (call : Call) : State :=
  { s with calls := Function.update s.calls n call }

def State.run (s : State) : State :=
  { s with launched := s.launched + 1, alive := insert s.launched s.alive }

def step : Machine State Input Event
  | s, .start n =>
    if s.calls n = .absent then
      if s.status = .running ∨ s.status = .starting then some (s.enter n .returned, [.refused n])
      else some ({ s with status := .starting }.enter n .launchingNrf, [.began n])
    else none
  | s, .stop n =>
    if s.calls n = .absent then
      if s.status ≠ .running then some (s.enter n .returned, [.stopped n])
      else
        some ({ s with status := .stopping }.enter n (.signalling s.procs s.procs), [])
    else none
  | s, .launch n ok =>
    match s.calls n with
    | .launchingNrf =>
      if ok then
        some (s.run.enter n (.launching [s.launched] nfBinaries.tail),
          [.launched n s.launched "nrf_sim"])
      else some (s.enter n .failed, [])
    | .launching cmds (bin :: bins) =>
      if ok then
        some (s.run.enter n (.launching (cmds ++ [s.launched]) bins), [.launched n s.launched bin])
      else some (s.enter n (.launching cmds bins), [])
    | _ => none
  | s, .signal n =>
    match s.calls n with
    | .signalling procs (p :: rest) =>
      some ({ s with signalled := insert p s.signalled }.enter n (.signalling procs rest), [])
    | .signalling procs [] => some (s.enter n (.waiting procs), [])
    | _ => none
  | s, .wait n =>
    match s.calls n with
    | .waiting procs =>
      if ∀ p ∈ procs, p ∉ s.alive then some (s.enter n .finishing, []) else none
    | _ => none
  | s, .timeout n =>
    match s.calls n with
    | .waiting procs => some (s.enter n (.killing procs), [])
    | _ => none
  | s, .kill n =>
    match s.calls n with
    | .killing (p :: rest) =>
      some ({ s with alive := s.alive.erase p }.enter n (.killing rest), [])
    | .killing [] => some (s.enter n .finishing, [])
    | _ => none
  | s, .finish n =>
    match s.calls n with
    | .failed => some ({ s with status := .idle }.enter n .returned, [.notStarted n])
    | .launching cmds [] =>
      some ({ s with procs := cmds, status := .running }.enter n .returned, [.started n])
    | .finishing =>
      some ({ s with procs := [], status := .idle }.enter n .returned, [.stopped n])
    | _ => none
  | s, .exit p =>
    if p ∈ s.alive then some ({ s with alive := s.alive.erase p }, []) else none

def init : State := {}

def Starting : Call → Prop
  | .launchingNrf | .failed | .launching _ _ => True
  | .absent | .signalling _ _ | .waiting _ | .killing _ | .finishing | .returned => False

/-- A stop has completed since the start began. -/
def StoppedSince (tr : List Event) (n : Nat) : Prop :=
  ∃ before m after, tr = before ++ .stopped m :: after ∧ .began n ∈ before

/-- What a start has launched is on record until it is signalled to end, no two starts overlap, and
nothing that an earlier start launched is left behind a stop. -/
structure Controlled (tr : List Event) (s : State) : Prop where
  recorded : ∀ n p bin, .launched n p bin ∈ tr → .started n ∈ tr → p ∉ s.signalled →
    p ∈ s.procs ∧ (s.status = .running ∨
      ∃ m procs rest, s.calls m = .signalling procs rest ∧ p ∈ rest)
  alone : ∀ m n, Starting (s.calls m) → Starting (s.calls n) → m = n
  gone : ∀ n p bin, StoppedSince tr n → .launched n p bin ∈ tr → p ∉ s.alive

/-- No start begins during a stop, and no stop while a start or another stop is under way. -/
def Exclusive (_ : List Event) (s : State) : Input → Prop
  | .start _ => s.status ≠ .stopping
  | .stop _ => s.status ≠ .starting ∧ s.status ≠ .stopping
  | .launch _ _ | .signal _ | .wait _ | .timeout _ | .kill _ | .finish _ | .exit _ => True

instance (tr : List Event) (s : State) : DecidablePred (Exclusive tr s)
  | .start _ => inferInstanceAs (Decidable (s.status ≠ .stopping))
  | .stop _ => inferInstanceAs (Decidable (_ ∧ _))
  | .launch _ _ => .isTrue trivial
  | .signal _ => .isTrue trivial
  | .wait _ => .isTrue trivial
  | .timeout _ => .isTrue trivial
  | .kill _ => .isTrue trivial
  | .finish _ => .isTrue trivial
  | .exit _ => .isTrue trivial

section Runs

variable {tr es : List Event} {s s' : State} {n m : Nat}

/-- What holds while a call is under way. -/
def Fits (s : State) : Call → Prop
  | .absent | .returned => (s.status = .idle ∧ s.procs = [] ∧ s.alive = ∅) ∨
      (s.status = .running ∧ ∀ p ∈ s.alive, p ∈ s.procs)
  | .launchingNrf | .failed => s.status = .starting ∧ s.procs = [] ∧ s.alive = ∅
  | .launching cmds _ => s.status = .starting ∧ s.procs = [] ∧ ∀ p ∈ s.alive, p ∈ cmds
  | .signalling procs rest => s.status = .stopping ∧ s.procs = procs ∧
      (∀ p ∈ s.alive, p ∈ procs) ∧ ∀ p ∈ procs, p ∈ s.signalled ∨ p ∈ rest
  | .waiting procs => s.status = .stopping ∧ s.procs = procs ∧ (∀ p ∈ s.alive, p ∈ procs) ∧
      ∀ p ∈ procs, p ∈ s.signalled
  | .killing rest => s.status = .stopping ∧ (∀ p ∈ s.alive, p ∈ rest) ∧
      ∀ p ∈ s.procs, p ∈ s.signalled
  | .finishing => s.status = .stopping ∧ s.alive = ∅ ∧ ∀ p ∈ s.procs, p ∈ s.signalled

def Inactive (call : Call) : Prop := call = .absent ∨ call = .returned

/-- At most the call `n` is under way. -/
structure Tracks (tr : List Event) (s : State) (n : Nat) : Prop where
  others : ∀ m, m ≠ n → Inactive (s.calls m)
  fits : Fits s (s.calls n)
  numbered : ∀ m p bin, .launched m p bin ∈ tr → p < s.launched
  own : ∀ m p bin, .launched m p bin ∈ tr →
    .started m ∈ tr ∨ ∃ cmds bins, s.calls m = .launching cmds bins ∧ p ∈ cmds
  recorded : ∀ m p bin, .launched m p bin ∈ tr → .started m ∈ tr → p ∈ s.signalled ∨ p ∈ s.procs
  done : ∀ m, .started m ∈ tr → s.calls m = .returned
  current : ∀ m, Starting (s.calls m) → ¬StoppedSince tr m
  unborn : ∀ m, s.calls m = .absent → .began m ∉ tr
  gone : ∀ m p bin, StoppedSince tr m → .launched m p bin ∈ tr → p ∉ s.alive

theorem State.enter_self (s : State) (n : Nat) (call : Call) : (s.enter n call).calls n = call :=
  Function.update_self ..

theorem State.enter_of_ne (s : State) {n m : Nat} (call : Call) (h : m ≠ n) :
    (s.enter n call).calls m = s.calls m :=
  Function.update_of_ne h ..

theorem Inactive.not_starting {call : Call} (h : Inactive call) : ¬Starting call := by
  rcases h with rfl | rfl <;> exact id

theorem fits_inactive {call : Call} (h : Inactive call) (hfits : Fits s call) {call' : Call}
    (h' : Inactive call') : Fits s call' := by
  rcases h with rfl | rfl <;> rcases h' with rfl | rfl <;> exact hfits

theorem fits_status {call : Call} (hfits : Fits s call)
    (h : s.status = .idle ∨ s.status = .running) : Inactive call := by
  cases call with
  | absent => exact Or.inl rfl
  | returned => exact Or.inr rfl
  | _ =>
      have hstatus := hfits.1
      rw [hstatus] at h
      simp at h

theorem stoppedSince_snoc {e : Event} : StoppedSince (tr ++ [e]) n ↔
    StoppedSince tr n ∨ ((∃ m, e = .stopped m) ∧ .began n ∈ tr) := by
  constructor
  · rintro ⟨before, m, after, hsplit, hbegan⟩
    rcases List.eq_nil_or_concat after with rfl | ⟨after, last, rfl⟩
    · obtain ⟨rfl, he⟩ := List.append_inj' hsplit rfl
      exact Or.inr ⟨⟨m, (List.cons.inj he).1⟩, hbegan⟩
    · rw [List.concat_eq_append, ← List.cons_append, ← List.append_assoc] at hsplit
      exact Or.inl ⟨before, m, after, (List.append_inj' hsplit rfl).1, hbegan⟩
  · rintro (⟨before, m, after, rfl, hbegan⟩ | ⟨⟨m, rfl⟩, hbegan⟩)
    · exact ⟨before, m, after ++ [e], List.append_assoc before _ [e], hbegan⟩
    · exact ⟨tr, m, [], rfl, hbegan⟩

theorem StoppedSince.of_snoc {e : Event} (h : StoppedSince (tr ++ [e]) n) (he : ∀ m, e ≠ .stopped m) :
    StoppedSince tr n := by
  refine (stoppedSince_snoc.mp h).resolve_right ?_
  rintro ⟨⟨m, hm⟩, -⟩
  exact he m hm

theorem Tracks.moved (h : Tracks tr s n) (hcalls : ∀ m, m ≠ n → s'.calls m = s.calls m)
    (hfits : Fits s' (s'.calls n)) (hprocs : ∀ p ∈ s.procs, p ∈ s'.signalled ∨ p ∈ s'.procs)
    (hlaunched : s'.launched = s.launched) (hsignalled : s.signalled ⊆ s'.signalled)
    (halive : s'.alive ⊆ s.alive)
    (hcmds : ∀ cmds bins, s.calls n = .launching cmds bins →
      ∃ bins', s'.calls n = .launching cmds bins')
    (hstarting : Starting (s'.calls n) → Starting (s.calls n))
    (habsent : s'.calls n = .absent → s.calls n = .absent)
    (hreturned : s.calls n = .returned → s'.calls n = .returned) : Tracks tr s' n where
  others m hm := by
    rw [hcalls m hm]
    exact h.others m hm
  fits := hfits
  numbered m p bin hp := by
    rw [hlaunched]
    exact h.numbered m p bin hp
  own m p bin hp := by
    rcases h.own m p bin hp with hstarted | ⟨cmds, bins, hlaunching, hmem⟩
    · exact Or.inl hstarted
    · rcases eq_or_ne m n with rfl | hm
      · obtain ⟨bins', hlaunching'⟩ := hcmds cmds bins hlaunching
        exact Or.inr ⟨cmds, bins', hlaunching', hmem⟩
      · rw [← hcalls m hm] at hlaunching
        exact Or.inr ⟨cmds, bins, hlaunching, hmem⟩
  recorded m p bin hp hstarted := by
    rcases h.recorded m p bin hp hstarted with hsig | hproc
    · exact Or.inl (hsignalled hsig)
    · exact hprocs p hproc
  done m hm := by
    rcases eq_or_ne m n with rfl | hne
    · exact hreturned (h.done m hm)
    · rw [hcalls m hne]
      exact h.done m hm
  current m hm := by
    rcases eq_or_ne m n with rfl | hne
    · exact h.current m (hstarting hm)
    · rw [hcalls m hne] at hm
      exact h.current m hm
  unborn m hm := by
    rcases eq_or_ne m n with rfl | hne
    · exact h.unborn m (habsent hm)
    · rw [hcalls m hne] at hm
      exact h.unborn m hm
  gone m p bin hstopped hp hmem := h.gone m p bin hstopped hp (halive hmem)

theorem Tracks.unborn_enter (h : Tracks tr s n) {call : Call} {k : Nat} (hcall : call ≠ .absent)
    (hk : Function.update s.calls m call k = .absent) : k ≠ m ∧ .began k ∉ tr := by
  rcases eq_or_ne k m with rfl | hkm
  · rw [Function.update_self] at hk
    exact absurd hk hcall
  · rw [Function.update_of_ne hkm] at hk
    exact ⟨hkm, h.unborn k hk⟩

theorem Tracks.current_enter (h : Tracks tr s n) {call : Call} {k : Nat} (hcall : ¬Starting call)
    (hk : Starting (Function.update s.calls m call k)) : ¬StoppedSince tr k := by
  rcases eq_or_ne k m with rfl | hkm
  · rw [Function.update_self] at hk
    exact absurd hk hcall
  · rw [Function.update_of_ne hkm] at hk
    exact h.current k hk

theorem Tracks.switch (h : Tracks tr s n) (hn : Inactive (s.calls n)) (hm : Inactive (s.calls m)) :
    Tracks tr s m where
  others k _ := by
    rcases eq_or_ne k n with rfl | hk
    · exact hn
    · exact h.others k hk
  fits := fits_inactive hn h.fits hm
  numbered := h.numbered
  own := h.own
  recorded := h.recorded
  done := h.done
  current := h.current
  unborn := h.unborn
  gone := h.gone

theorem Tracks.left (h : Tracks tr s n) (hm : s.calls m = .absent) :
    Tracks tr (s.enter m .returned) n := by
  have hself := s.enter_self m .returned
  have hother {k : Nat} (hk : k ≠ m) := s.enter_of_ne .returned hk
  constructor
  · intro k hk
    rcases eq_or_ne k m with rfl | hkm
    · exact Or.inr hself
    · rw [hother hkm]
      exact h.others k hk
  · rcases eq_or_ne n m with rfl | hnm
    · rw [hself]
      exact fits_inactive (Or.inl hm) h.fits (Or.inr rfl)
    · rw [hother hnm]
      exact h.fits
  · exact h.numbered
  · intro k p bin hp
    refine (h.own k p bin hp).imp_right ?_
    rintro ⟨cmds, bins, hlaunching, hmem⟩
    have hkm : k ≠ m := by
      rintro rfl
      rw [hm] at hlaunching
      cases hlaunching
    exact ⟨cmds, bins, (hother hkm).trans hlaunching, hmem⟩
  · exact h.recorded
  · intro k hk
    rcases eq_or_ne k m with rfl | hkm
    · exact hself
    · rw [hother hkm]
      exact h.done k hk
  · exact fun k hk => h.current_enter id hk
  · exact fun k hk => (h.unborn_enter (by simp) hk).2
  · exact h.gone

theorem Tracks.shown (h : Tracks tr s n) {e : Event}
    (he : (∃ m, e = .refused m) ∨ ∃ m, e = .notStarted m) : Tracks (tr ++ [e]) s n := by
  have hmem {e' : Event} (he' : (∀ m, e' ≠ .refused m) ∧ ∀ m, e' ≠ .notStarted m) :
      e' ∈ tr ++ [e] → e' ∈ tr := by
    intro hin
    refine (List.mem_append.mp hin).resolve_right fun hlast => ?_
    obtain rfl := List.mem_singleton.mp hlast
    rcases he with ⟨m, rfl⟩ | ⟨m, rfl⟩
    · exact he'.1 m rfl
    · exact he'.2 m rfl
  have hstopped {k : Nat} (hk : StoppedSince (tr ++ [e]) k) : StoppedSince tr k := by
    refine hk.of_snoc ?_
    rcases he with ⟨m, rfl⟩ | ⟨m, rfl⟩ <;> simp
  constructor
  · exact h.others
  · exact h.fits
  · exact fun k p bin hp => h.numbered k p bin (hmem (by simp) hp)
  · exact fun k p bin hp => (h.own k p bin (hmem (by simp) hp)).imp_left (List.mem_append_left _)
  · exact fun k p bin hp hstarted => h.recorded k p bin (hmem (by simp) hp) (hmem (by simp) hstarted)
  · exact fun k hk => h.done k (hmem (by simp) hk)
  · exact fun k hk => mt hstopped (h.current k hk)
  · exact fun k hk => mt (hmem (by simp)) (h.unborn k hk)
  · exact fun k p bin hk hp => h.gone k p bin (hstopped hk) (hmem (by simp) hp)

theorem Tracks.stopped (h : Tracks tr s n) (hn : Inactive (s.calls n)) (halive : s.alive = ∅)
    (m : Nat) : Tracks (tr ++ [.stopped m]) s n where
  others := h.others
  fits := h.fits
  numbered k p bin hp := h.numbered k p bin (by simpa using hp)
  own k p bin hp := (h.own k p bin (by simpa using hp)).imp_left (List.mem_append_left _)
  recorded k p bin hp hstarted := h.recorded k p bin (by simpa using hp) (by simpa using hstarted)
  done k hk := h.done k (by simpa using hk)
  current k hk := by
    have hinactive : Inactive (s.calls k) := by
      rcases eq_or_ne k n with rfl | hkn
      · exact hn
      · exact h.others k hkn
    exact absurd hk hinactive.not_starting
  unborn k hk := by simpa using h.unborn k hk
  gone k p bin _ _ hp := by
    rw [halive] at hp
    cases hp

theorem Tracks.began (h : Tracks tr s n) (hn : s.calls n = .absent) (hidle : s.status = .idle) :
    Tracks (tr ++ [.began n]) ({ s with status := .starting }.enter n .launchingNrf) n := by
  have hfits := h.fits
  rw [hn] at hfits
  obtain ⟨-, hprocs, halive⟩ : s.status = .idle ∧ s.procs = [] ∧ s.alive = ∅ := by
    refine hfits.resolve_right fun hrunning => ?_
    rw [hidle] at hrunning
    cases hrunning.1
  have hself := State.enter_self { s with status := .starting } n .launchingNrf
  have hother {k : Nat} (hk : k ≠ n) :
      ({ s with status := .starting }.enter n .launchingNrf).calls k = s.calls k :=
    State.enter_of_ne _ _ hk
  constructor
  · intro k hk
    rw [hother hk]
    exact h.others k hk
  · rw [hself]
    exact ⟨rfl, hprocs, halive⟩
  · exact fun k p bin hp => h.numbered k p bin (by simpa using hp)
  · intro k p bin hp
    rcases h.own k p bin (by simpa using hp) with hstarted | ⟨cmds, bins, hlaunching, hmem⟩
    · exact Or.inl (List.mem_append_left _ hstarted)
    · have hk : k ≠ n := by
        rintro rfl
        rw [hn] at hlaunching
        cases hlaunching
      exact Or.inr ⟨cmds, bins, (hother hk).trans hlaunching, hmem⟩
  · exact fun k p bin hp hstarted =>
      h.recorded k p bin (by simpa using hp) (by simpa using hstarted)
  · intro k hk
    have hdone := h.done k (by simpa using hk)
    rw [hother]
    · exact hdone
    · rintro rfl
      rw [hn] at hdone
      cases hdone
  · intro k hk hstopped
    have hbefore : StoppedSince tr k := hstopped.of_snoc (by simp)
    rcases eq_or_ne k n with rfl | hkn
    · obtain ⟨before, m, after, rfl, hbegan⟩ := hbefore
      exact h.unborn k hn (List.mem_append_left _ hbegan)
    · rw [hother hkn] at hk
      exact h.current k hk hbefore
  · intro k hk hbegan
    obtain ⟨hkn, hunborn⟩ := h.unborn_enter (by simp) hk
    rcases List.mem_append.mp hbegan with hold | hnew
    · exact hunborn hold
    · exact hkn (Event.began.inj (List.mem_singleton.mp hnew))
  · intro k p bin _ _ hp
    have hnone : p ∈ (∅ : Finset Nat) := halive ▸ hp
    cases hnone

theorem Tracks.launched (h : Tracks tr s n) (cmds : List Nat) (bins : List String) (bin : String)
    (hstarting : Starting (s.calls n)) (hstatus : s.status = .starting) (hprocs : s.procs = [])
    (halive : ∀ p ∈ s.alive, p ∈ cmds)
    (hcmds : ∀ cmds' bins', s.calls n = .launching cmds' bins' → cmds' = cmds) :
    Tracks (tr ++ [.launched n s.launched bin])
      (s.run.enter n (.launching (cmds ++ [s.launched]) bins)) n := by
  have hself := s.run.enter_self n (.launching (cmds ++ [s.launched]) bins)
  have hother {k : Nat} (hk : k ≠ n) :
      (s.run.enter n (.launching (cmds ++ [s.launched]) bins)).calls k = s.calls k :=
    State.enter_of_ne _ _ hk
  have hstopped {k : Nat} (hk : StoppedSince (tr ++ [.launched n s.launched bin]) k) :
      StoppedSince tr k := hk.of_snoc (by simp)
  have hstarted {k : Nat} (hk : .started k ∈ tr ++ [.launched n s.launched bin]) : .started k ∈ tr := by
    simpa using hk
  constructor
  · intro k hk
    rw [hother hk]
    exact h.others k hk
  · rw [hself]
    refine ⟨hstatus, hprocs, fun p hp => ?_⟩
    rcases Finset.mem_insert.mp hp with rfl | hold
    · exact List.mem_append_right _ List.mem_cons_self
    · exact List.mem_append_left _ (halive p hold)
  · intro k p bin' hp
    show p < s.launched + 1
    rcases List.mem_append.mp hp with hold | hnew
    · exact Nat.lt_succ_of_lt (h.numbered k p bin' hold)
    · obtain ⟨-, rfl, -⟩ := Event.launched.inj (List.mem_singleton.mp hnew)
      exact Nat.lt_succ_self _
  · intro k p bin' hp
    rcases List.mem_append.mp hp with hold | hnew
    · rcases h.own k p bin' hold with hdone | ⟨cmds', bins', hlaunching, hmem⟩
      · exact Or.inl (List.mem_append_left _ hdone)
      · rcases eq_or_ne k n with rfl | hk
        · obtain rfl := hcmds cmds' bins' hlaunching
          exact Or.inr ⟨_, bins, hself, List.mem_append_left _ hmem⟩
        · exact Or.inr ⟨cmds', bins', (hother hk).trans hlaunching, hmem⟩
    · obtain ⟨rfl, rfl, -⟩ := Event.launched.inj (List.mem_singleton.mp hnew)
      exact Or.inr ⟨_, bins, hself, List.mem_append_right _ List.mem_cons_self⟩
  · intro k p bin' hp hdone
    rcases List.mem_append.mp hp with hold | hnew
    · exact h.recorded k p bin' hold (hstarted hdone)
    · obtain ⟨rfl, -, -⟩ := Event.launched.inj (List.mem_singleton.mp hnew)
      rw [h.done k (hstarted hdone)] at hstarting
      exact absurd hstarting id
  · intro k hk
    have hdone := h.done k (hstarted hk)
    rw [hother]
    · exact hdone
    · rintro rfl
      rw [hdone] at hstarting
      exact hstarting
  · intro k hk
    rcases eq_or_ne k n with rfl | hkn
    · exact mt hstopped (h.current k hstarting)
    · rw [hother hkn] at hk
      exact mt hstopped (h.current k hk)
  · exact fun k hk => by simpa using (h.unborn_enter (by simp) hk).2
  · intro k p bin' hk hp hmem
    rcases List.mem_append.mp hp with hold | hnew
    · rcases Finset.mem_insert.mp hmem with rfl | hlive
      · exact Nat.lt_irrefl _ (h.numbered k _ bin' hold)
      · exact h.gone k p bin' (hstopped hk) hold hlive
    · obtain ⟨rfl, -, -⟩ := Event.launched.inj (List.mem_singleton.mp hnew)
      exact h.current k hstarting (hstopped hk)

theorem Tracks.started (h : Tracks tr s n) {cmds : List Nat}
    (hn : s.calls n = .launching cmds []) :
    Tracks (tr ++ [.started n])
      ({ s with procs := cmds, status := .running }.enter n .returned) n := by
  have hfits := h.fits
  rw [hn] at hfits
  obtain ⟨-, hprocs, halive⟩ := hfits
  have hself := State.enter_self { s with procs := cmds, status := .running } n .returned
  have hother {k : Nat} (hk : k ≠ n) :
      ({ s with procs := cmds, status := .running }.enter n .returned).calls k = s.calls k :=
    State.enter_of_ne _ _ hk
  have hstopped {k : Nat} (hk : StoppedSince (tr ++ [.started n]) k) : StoppedSince tr k :=
    hk.of_snoc (by simp)
  have hlaunched {k p : Nat} {bin : String} (hp : .launched k p bin ∈ tr ++ [.started n]) :
      .launched k p bin ∈ tr := by
    simpa using hp
  constructor
  · intro k hk
    rw [hother hk]
    exact h.others k hk
  · rw [hself]
    exact Or.inr ⟨rfl, halive⟩
  · exact fun k p bin hp => h.numbered k p bin (hlaunched hp)
  · intro k p bin hp
    rcases eq_or_ne k n with rfl | hk
    · exact Or.inl (List.mem_append_right _ List.mem_cons_self)
    · rcases h.own k p bin (hlaunched hp) with hdone | ⟨cmds', bins, hlaunching, hmem⟩
      · exact Or.inl (List.mem_append_left _ hdone)
      · exact Or.inr ⟨cmds', bins, (hother hk).trans hlaunching, hmem⟩
  · intro k p bin hp hstarted
    rcases h.own k p bin (hlaunched hp) with hdone | ⟨cmds', bins, hlaunching, hmem⟩
    · have hold := h.recorded k p bin (hlaunched hp) hdone
      rw [hprocs] at hold
      exact Or.inl (hold.resolve_right List.not_mem_nil)
    · have hk : k = n := by
        by_contra hk
        have hinactive := h.others k hk
        rw [hlaunching] at hinactive
        exact hinactive.not_starting trivial
      subst hk
      obtain ⟨rfl, -⟩ := Call.launching.inj (hlaunching.symm.trans hn)
      exact Or.inr hmem
  · intro k hk
    rcases eq_or_ne k n with rfl | hkn
    · exact hself
    · rw [hother hkn]
      refine h.done k ((List.mem_append.mp hk).resolve_right fun hlast => ?_)
      exact hkn (Event.started.inj (List.mem_singleton.mp hlast))
  · exact fun k hk => mt hstopped (h.current_enter id hk)
  · exact fun k hk => by simpa using (h.unborn_enter (by simp) hk).2
  · exact fun k p bin hk hp => h.gone k p bin (hstopped hk) (hlaunched hp)

theorem Tracks.controlled (h : Tracks tr s n) : Controlled tr s where
  recorded m p bin hp hstarted hsig := by
    have hproc := (h.recorded m p bin hp hstarted).resolve_left hsig
    refine ⟨hproc, ?_⟩
    have hfits := h.fits
    cases hn : s.calls n with
    | absent | returned =>
        rw [hn] at hfits
        rcases hfits with ⟨-, hnone, -⟩ | ⟨hrunning, -⟩
        · rw [hnone] at hproc
          cases hproc
        · exact Or.inl hrunning
    | launchingNrf | failed | launching _ _ =>
        rw [hn] at hfits
        rw [hfits.2.1] at hproc
        cases hproc
    | signalling procs rest =>
        rw [hn] at hfits
        obtain ⟨-, rfl, -, hsplit⟩ := hfits
        exact Or.inr ⟨n, _, rest, hn, (hsplit p hproc).resolve_left hsig⟩
    | waiting procs =>
        rw [hn] at hfits
        obtain ⟨-, rfl, -, hall⟩ := hfits
        exact absurd (hall p hproc) hsig
    | killing _ | finishing =>
        rw [hn] at hfits
        exact absurd (hfits.2.2 p hproc) hsig
  alone m k hm hk := by
    have hall {j : Nat} (hj : Starting (s.calls j)) : j = n := by
      by_contra hne
      exact (h.others j hne).not_starting hj
    rw [hall hm, hall hk]
  gone := h.gone

theorem Tracks.entered (h : Tracks tr s n) {call : Call}
    (hcalls : s'.calls = Function.update s.calls n call) (hunreturned : s.calls n ≠ .returned)
    (hfits : Fits s' call) (hprocs : ∀ p ∈ s.procs, p ∈ s'.signalled ∨ p ∈ s'.procs)
    (hlaunched : s'.launched = s.launched) (hsignalled : s.signalled ⊆ s'.signalled)
    (halive : s'.alive ⊆ s.alive)
    (hcmds : ∀ cmds bins, s.calls n = .launching cmds bins → ∃ bins', call = .launching cmds bins')
    (hstarting : Starting call → Starting (s.calls n)) (habsent : call ≠ .absent) :
    Tracks tr s' n := by
  have hself : s'.calls n = call := by
    rw [hcalls, Function.update_self]
  refine h.moved ?_ (hself ▸ hfits) hprocs hlaunched hsignalled halive ?_ (hself ▸ hstarting) ?_ ?_
  · intro k hk
    rw [hcalls, Function.update_of_ne hk]
  · rw [hself]
    exact hcmds
  · intro habs
    exact absurd (hself.symm.trans habs) habsent
  · intro hreturned
    exact absurd hreturned hunreturned

theorem Tracks.active (h : Tracks tr s n) {k : Nat} (hk : ¬Inactive (s.calls k)) : k = n := by
  by_contra hne
  exact hk (h.others k hne)

theorem not_launching {call call' : Call} (hn : s.calls n = call)
    (hcall : ∀ cmds bins, call ≠ .launching cmds bins) (cmds : List Nat) (bins : List String)
    (hlaunching : s.calls n = .launching cmds bins) : ∃ bins', call' = .launching cmds bins' :=
  absurd (hn.symm.trans hlaunching) (hcall cmds bins)

theorem Tracks.idled (h : Tracks tr s n) {call : Call} (hn : s.calls n = call)
    (hcall : call = .failed ∨ call = .finishing) (halive : s.alive = ∅)
    (hprocs : ∀ p ∈ s.procs, p ∈ s.signalled) :
    Tracks tr ({ s with procs := [], status := .idle }.enter n .returned) n := by
  refine h.entered rfl ?_ (Or.inl ⟨rfl, rfl, halive⟩) (fun p hp => Or.inl (hprocs p hp)) rfl
    (fun _ => id) (fun _ => id) (not_launching hn ?_) (fun hstarting => absurd hstarting id) (by simp)
  · rw [hn]
    rcases hcall with rfl | rfl <;> simp
  · rcases hcall with rfl | rfl <;> simp

theorem tracks_start (h : Tracks tr s n) {k : Nat} (hstatus : s.status ≠ .stopping)
    (hstep : step s (.start k) = some (s', es)) : ∃ m, Tracks (tr ++ es) s' m := by
  simp only [step] at hstep
  split at hstep
  · rename_i hk
    split at hstep <;> cases hstep
    · exact ⟨n, (h.left hk).shown (Or.inl ⟨k, rfl⟩)⟩
    · rename_i hfree
      have hidle : s.status = .idle := by
        cases hstatus' : s.status <;> simp [hstatus'] at hfree hstatus ⊢
      exact ⟨k, (h.switch (fits_status h.fits (Or.inl hidle)) (Or.inl hk)).began hk hidle⟩
  · cases hstep

theorem tracks_stop (h : Tracks tr s n) {k : Nat}
    (hstatus : s.status ≠ .starting ∧ s.status ≠ .stopping)
    (hstep : step s (.stop k) = some (s', es)) : ∃ m, Tracks (tr ++ es) s' m := by
  simp only [step] at hstep
  split at hstep
  · rename_i hk
    split at hstep <;> cases hstep
    · rename_i hnot
      have hidle : s.status = .idle := by
        cases hstatus' : s.status <;> simp [hstatus'] at hnot hstatus ⊢
      have hleft := h.left hk
      have hinactive := fits_status hleft.fits (Or.inl hidle)
      have hfits := fits_inactive hinactive hleft.fits (Or.inl rfl)
      refine ⟨n, hleft.stopped hinactive ?_ k⟩
      rcases hfits with ⟨-, -, hnone⟩ | ⟨hrunning, -⟩
      · exact hnone
      · exact absurd hrunning hnot
    · rename_i hrunning
      rw [not_not] at hrunning
      have hswitch := h.switch (fits_status h.fits (Or.inr hrunning)) (Or.inl hk)
      have hfits := hswitch.fits
      rw [hk] at hfits
      have halive : ∀ p ∈ s.alive, p ∈ s.procs := by
        rcases hfits with ⟨hidle, -⟩ | ⟨-, halive⟩
        · rw [hrunning] at hidle
          cases hidle
        · exact halive
      refine ⟨k, ?_⟩
      rw [List.append_nil]
      exact hswitch.entered rfl (by simp [hk]) ⟨rfl, rfl, halive, fun p hp => Or.inr hp⟩
        (fun p hp => Or.inr hp) rfl (fun _ => id) (fun _ => id) (not_launching hk (by simp))
        False.elim (by simp)
  · cases hstep

theorem tracks_launch (h : Tracks tr s n) {k : Nat} {ok : Bool}
    (hstep : step s (.launch k ok) = some (s', es)) : ∃ m, Tracks (tr ++ es) s' m := by
  simp only [step] at hstep
  split at hstep
  · rename_i hk
    obtain rfl := h.active (k := k) (by simp [hk, Inactive])
    have hfits := h.fits
    rw [hk] at hfits
    obtain ⟨hstatus, hprocs, hnone⟩ := hfits
    split at hstep <;> cases hstep
    · refine ⟨k, h.launched [] _ _ (hk ▸ trivial) hstatus hprocs ?_ ?_⟩
      · rw [hnone]
        simp
      · intro cmds bins hlaunching
        rw [hk] at hlaunching
        cases hlaunching
    · refine ⟨k, ?_⟩
      rw [List.append_nil]
      exact h.entered rfl (by simp [hk]) ⟨hstatus, hprocs, hnone⟩ (fun p hp => Or.inr hp) rfl
        (fun _ => id) (fun _ => id) (not_launching hk (by simp)) (fun _ => hk ▸ trivial) (by simp)
  · rename_i cmds bin bins hk
    obtain rfl := h.active (k := k) (by simp [hk, Inactive])
    have hfits := h.fits
    rw [hk] at hfits
    obtain ⟨hstatus, hprocs, halive⟩ := hfits
    split at hstep <;> cases hstep
    · refine ⟨k, h.launched _ _ _ (hk ▸ trivial) hstatus hprocs halive ?_⟩
      intro cmds' bins' hlaunching
      exact (Call.launching.inj (hlaunching.symm.trans hk)).1
    · refine ⟨k, ?_⟩
      rw [List.append_nil]
      refine h.entered rfl (by simp [hk]) ⟨hstatus, hprocs, halive⟩ (fun p hp => Or.inr hp) rfl
        (fun _ => id) (fun _ => id) ?_ (fun _ => hk ▸ trivial) (by simp)
      intro cmds' bins' hlaunching
      obtain ⟨rfl, -⟩ := Call.launching.inj (hlaunching.symm.trans hk)
      exact ⟨bins, rfl⟩
  · cases hstep

theorem Tracks.stopping (h : Tracks tr s n) {call : Call} (hn : s.calls n = call)
    (hstop : ¬Inactive call ∧ ¬Starting call) {call' : Call} {alive signalled : Finset Nat}
    (hstop' : ¬Inactive call' ∧ ¬Starting call')
    (hfits : Fits { s with alive := alive, signalled := signalled } call')
    (hsignalled : s.signalled ⊆ signalled) (halive : alive ⊆ s.alive) :
    Tracks (tr ++ []) ({ s with alive := alive, signalled := signalled }.enter n call') n := by
  rw [List.append_nil]
  refine h.entered rfl ?_ ?_ (fun p hp => Or.inr hp) rfl hsignalled halive ?_ ?_ ?_
  · rw [hn]
    exact fun heq => hstop.1 (Or.inr heq)
  · cases call' <;> exact hfits
  · intro cmds bins hlaunching
    rw [hn] at hlaunching
    exact absurd (hlaunching ▸ trivial) hstop.2
  · exact fun hstarting => absurd hstarting hstop'.2
  · exact fun heq => hstop'.1 (Or.inl heq)

theorem tracks_signal (h : Tracks tr s n) {k : Nat} (hstep : step s (.signal k) = some (s', es)) :
    ∃ m, Tracks (tr ++ es) s' m := by
  have hfits := h.fits
  simp only [step] at hstep
  split at hstep
  · rename_i procs p rest hk
    cases hstep
    obtain rfl := h.active (k := k) (by simp [hk, Inactive])
    rw [hk] at hfits
    obtain ⟨hstatus, hprocs, halive, hsplit⟩ := hfits
    refine ⟨k, h.stopping hk (by simp [Inactive, Starting]) (by simp [Inactive, Starting])
      ⟨hstatus, hprocs, halive, fun q hq => ?_⟩ (Finset.subset_insert p _) (fun _ => id)⟩
    rcases hsplit q hq with hsig | hrest
    · exact Or.inl (Finset.mem_insert_of_mem hsig)
    · rcases List.mem_cons.mp hrest with rfl | hrest
      · exact Or.inl (Finset.mem_insert_self _ _)
      · exact Or.inr hrest
  · rename_i procs hk
    cases hstep
    obtain rfl := h.active (k := k) (by simp [hk, Inactive])
    rw [hk] at hfits
    obtain ⟨hstatus, hprocs, halive, hsplit⟩ := hfits
    exact ⟨k, h.stopping hk (by simp [Inactive, Starting]) (by simp [Inactive, Starting])
      ⟨hstatus, hprocs, halive, fun q hq => (hsplit q hq).resolve_right List.not_mem_nil⟩
      (fun _ => id) (fun _ => id)⟩
  · cases hstep

theorem tracks_wait (h : Tracks tr s n) {k : Nat} (hstep : step s (.wait k) = some (s', es)) :
    ∃ m, Tracks (tr ++ es) s' m := by
  have hfits := h.fits
  simp only [step] at hstep
  split at hstep
  · rename_i procs hk
    split at hstep <;> cases hstep
    rename_i hended
    obtain rfl := h.active (k := k) (by simp [hk, Inactive])
    rw [hk] at hfits
    obtain ⟨hstatus, rfl, halive, hall⟩ := hfits
    refine ⟨k, h.stopping hk (by simp [Inactive, Starting]) (by simp [Inactive, Starting])
      ⟨hstatus, ?_, hall⟩ (fun _ => id) (fun _ => id)⟩
    exact Finset.eq_empty_of_forall_notMem fun p hp => hended p (halive p hp) hp
  · cases hstep

theorem tracks_timeout (h : Tracks tr s n) {k : Nat} (hstep : step s (.timeout k) = some (s', es)) :
    ∃ m, Tracks (tr ++ es) s' m := by
  have hfits := h.fits
  simp only [step] at hstep
  split at hstep
  · rename_i procs hk
    cases hstep
    obtain rfl := h.active (k := k) (by simp [hk, Inactive])
    rw [hk] at hfits
    obtain ⟨hstatus, rfl, halive, hall⟩ := hfits
    exact ⟨k, h.stopping hk (by simp [Inactive, Starting]) (by simp [Inactive, Starting])
      ⟨hstatus, halive, hall⟩ (fun _ => id) (fun _ => id)⟩
  · cases hstep

theorem tracks_kill (h : Tracks tr s n) {k : Nat} (hstep : step s (.kill k) = some (s', es)) :
    ∃ m, Tracks (tr ++ es) s' m := by
  have hfits := h.fits
  simp only [step] at hstep
  split at hstep
  · rename_i p rest hk
    cases hstep
    obtain rfl := h.active (k := k) (by simp [hk, Inactive])
    rw [hk] at hfits
    obtain ⟨hstatus, halive, hall⟩ := hfits
    refine ⟨k, h.stopping hk (by simp [Inactive, Starting]) (by simp [Inactive, Starting])
      ⟨hstatus, fun q hq => ?_, hall⟩ (fun _ => id) (Finset.erase_subset p _)⟩
    obtain ⟨hne, hq⟩ := Finset.mem_erase.mp hq
    exact (List.mem_cons.mp (halive q hq)).resolve_left hne
  · rename_i hk
    cases hstep
    obtain rfl := h.active (k := k) (by simp [hk, Inactive])
    rw [hk] at hfits
    obtain ⟨hstatus, halive, hall⟩ := hfits
    refine ⟨k, h.stopping hk (by simp [Inactive, Starting]) (by simp [Inactive, Starting])
      ⟨hstatus, ?_, hall⟩ (fun _ => id) (fun _ => id)⟩
    exact Finset.eq_empty_of_forall_notMem fun p hp => List.not_mem_nil (halive p hp)
  · cases hstep

theorem tracks_finish (h : Tracks tr s n) {k : Nat} (hstep : step s (.finish k) = some (s', es)) :
    ∃ m, Tracks (tr ++ es) s' m := by
  have hfits := h.fits
  simp only [step] at hstep
  split at hstep
  · rename_i hk
    cases hstep
    obtain rfl := h.active (k := k) (by simp [hk, Inactive])
    rw [hk] at hfits
    obtain ⟨-, hprocs, hnone⟩ := hfits
    have hidled := h.idled hk (Or.inl rfl) hnone (by simp [hprocs])
    rw [← hprocs] at hidled
    exact ⟨k, hidled.shown (Or.inr ⟨k, rfl⟩)⟩
  · rename_i cmds hk
    cases hstep
    obtain rfl := h.active (k := k) (by simp [hk, Inactive])
    exact ⟨k, h.started hk⟩
  · rename_i hk
    cases hstep
    obtain rfl := h.active (k := k) (by simp [hk, Inactive])
    rw [hk] at hfits
    obtain ⟨-, hnone, hall⟩ := hfits
    exact ⟨k, (h.idled hk (Or.inr rfl) hnone hall).stopped (Or.inr (State.enter_self ..)) hnone k⟩
  · cases hstep

theorem fits_exit {call : Call} (h : Fits s call) (p : Nat) :
    Fits { s with alive := s.alive.erase p } call := by
  have hempty (hnone : s.alive = ∅) : s.alive.erase p = ∅ := by
    rw [hnone, Finset.erase_empty]
  have hmem {L : List Nat} (hall : ∀ q ∈ s.alive, q ∈ L) : ∀ q ∈ s.alive.erase p, q ∈ L :=
    fun q hq => hall q (Finset.mem_of_mem_erase hq)
  cases call with
  | absent | returned =>
      exact h.imp (fun ⟨hstatus, hprocs, hnone⟩ => ⟨hstatus, hprocs, hempty hnone⟩)
        fun ⟨hstatus, hall⟩ => ⟨hstatus, hmem hall⟩
  | launchingNrf | failed => exact ⟨h.1, h.2.1, hempty h.2.2⟩
  | launching cmds bins => exact ⟨h.1, h.2.1, hmem h.2.2⟩
  | signalling procs rest => exact ⟨h.1, h.2.1, hmem h.2.2.1, h.2.2.2⟩
  | waiting procs => exact ⟨h.1, h.2.1, hmem h.2.2.1, h.2.2.2⟩
  | killing rest => exact ⟨h.1, hmem h.2.1, h.2.2⟩
  | finishing => exact ⟨h.1, hempty h.2.1, h.2.2⟩

theorem tracks_step {i : Input} (h : Tracks tr s n) (hguard : Exclusive tr s i)
    (hstep : step s i = some (s', es)) : ∃ m, Tracks (tr ++ es) s' m := by
  cases i with
  | start k => exact tracks_start h hguard hstep
  | stop k => exact tracks_stop h hguard hstep
  | launch k ok => exact tracks_launch h hstep
  | signal k => exact tracks_signal h hstep
  | wait k => exact tracks_wait h hstep
  | timeout k => exact tracks_timeout h hstep
  | kill k => exact tracks_kill h hstep
  | finish k => exact tracks_finish h hstep
  | exit p =>
      simp only [step] at hstep
      split at hstep <;> cases hstep
      refine ⟨n, ?_⟩
      rw [List.append_nil]
      exact h.moved (fun _ _ => rfl) (fits_exit h.fits p) (fun q hq => Or.inr hq) rfl (fun _ => id)
        (Finset.erase_subset p _) (fun cmds bins hlaunching => ⟨bins, hlaunching⟩) id id id

theorem tracks_init : Tracks [] init 0 where
  others _ _ := Or.inl rfl
  fits := Or.inl ⟨rfl, rfl, rfl⟩
  numbered _ _ _ h := by cases h
  own _ _ _ h := by cases h
  recorded _ _ _ h := by cases h
  done _ h := by cases h
  current _ h := absurd h id
  unborn _ _ h := by cases h
  gone _ _ _ _ h := by cases h

/-- As long as starts and stops keep out of each other's way, no process is orphaned. -/
theorem controlled_of_exclusive (tr : List Event) (s : State)
    (hrun : Run step Exclusive init tr s) : Controlled tr s := by
  have htracks : ∃ n, Tracks tr s n := by
    refine hrun.invariant (I := fun tr s => ∃ n, Tracks tr s n) ⟨0, tracks_init⟩ ?_
    intro tr s i s' es ⟨n, h⟩ hguard hstep
    exact tracks_step h hguard hstep
  obtain ⟨n, h⟩ := htracks
  exact h.controlled

end Runs

section Schedules

/-- A start of which the last three binaries cannot be run. -/
def starts (n : Nat) : List Input :=
  .start n :: [true, true, false, false, false].map (.launch n) ++ [.finish n]

/-- A stop of two processes, one of which does not end in time. -/
def stops (n p : Nat) : List Input :=
  [.stop n, .signal n, .signal n, .signal n, .exit p, .timeout n, .kill n, .kill n, .kill n, .finish n]

/-- Two scenarios, the first of which is stopped. -/
theorem controlled_two : ∃ tr s, Controlled tr s ∧ s.procs = [2, 3] ∧ s.alive = {2, 3} := by
  have hexec : (exec step init (starts 0 ++ [.start 1] ++ stops 2 0 ++ starts 3)).map
      (fun r => (r.1.procs, r.1.alive)) = some ([2, 3], {2, 3}) := by decide +kernel
  obtain ⟨tr, s, hrun, hseen⟩ := exists_run_of_exec (P := Exclusive) _ (by decide +kernel) hexec
  obtain ⟨hprocs, halive⟩ := Prod.mk.inj hseen
  exact ⟨tr, s, controlled_of_exclusive tr s hrun, hprocs, halive⟩

/-- A start during a stop, whose end then takes its processes off the record. -/
theorem not_controlled_overlap : ¬∀ tr s, Reach step init tr s → Controlled tr s := by
  intro h
  have hexec : (exec step init (starts 0 ++ [.stop 1, .signal 1, .signal 1, .signal 1] ++ starts 2 ++
      [.exit 0, .exit 1, .wait 1, .finish 1])).map (fun r =>
        (decide (.launched 2 2 "nrf_sim" ∈ r.2 ∧ .started 2 ∈ r.2 ∧ 2 ∉ r.1.signalled ∧ 2 ∈ r.1.alive),
          r.1.procs)) = some (true, []) := by decide +kernel
  obtain ⟨tr, s, hrun, hseen⟩ := exists_reach_of_exec hexec
  obtain ⟨hshown, hprocs⟩ := Prod.mk.inj hseen
  obtain ⟨hlaunched, hstarted, hunsignalled, -⟩ := of_decide_eq_true hshown
  have hrecorded := ((h tr s hrun).recorded 2 2 "nrf_sim" hlaunched hstarted hunsignalled).1
  rw [hprocs] at hrecorded
  cases hrecorded

end Schedules

end MobileCore.ScenarioControl
