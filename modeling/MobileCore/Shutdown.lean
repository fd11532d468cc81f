import MobileCore.ConditionWaits
import MobileCore.LayeredMachines
import MobileCore.S1Link

/-!
# The shutdown of the 4G simulator

Main's shutdown sequence, the MME's two receive threads and the eNB's command thread, over the steps
of the two mutexes and condition variables. What they do between two waits is the S1 link's. Main's
joins change nothing that another thread reads.
-/

namespace MobileCore.Shutdown

open MobileCore.ConditionWaits
open MobileCore.LabelledRuns
open MobileCore.LayeredMachines
open MobileCore.MobilityManagement (AuthVectors S11Response)

/-- A command in the eNB's queue. -/
inductive Order where
  | cr (n : Nat)
  | tau (ueId : UInt32)
  | ho (ueId : UInt32)
deriving DecidableEq

def Order.messages : Order → List S1Link.Command
  | cr n => List.replicate n .attach
  | tau ueId => [.tau ueId]
  | ho ueId => [.handover ueId]

/-- Main before it stores the flag, before `requestStop`, and at its joins. -/
inductive Main where
  | running
  | flagged
  | notified
deriving DecidableEq

/-- `enbReceiveLoop` outside the wait for the vectors; `testing` reads the flag. -/
inductive MmeCode where
  | testing
  | receiving
  | handling
  | left
deriving DecidableEq

inductive HssRx where
  | testing
  | receiving
  | storing (imsi : UInt64) (av : AuthVectors)
  | notifying
  | left
deriving DecidableEq

/-- `commandLoop` outside its wait. -/
inductive EnbCode where
  | testing
  | entering
  | processing (todo : List S1Link.Command)
  | left
deriving DecidableEq

/-- `pushed` counts the calls of `submitCommand` that have still to notify the eNB. -/
structure Threads where
  stop : Bool := false
  main : Main := .running
  mme : Place MmeCode := .away .testing
  hss : HssRx := .testing
  enb : Place EnbCode := .away .testing
  commands : List Order := []
  pushed : Nat := 0

abbrev State := Layered Threads S1Link.State

inductive Input where
  | main
  | signal
  | submit (order : Order)
  | notify
  | enb
  | enbSpuriousWakeup
  | enbReceive
  | enbSend
  | mme (chaosDrop : Bool)
  | mmeNoFrame
  | mmeLost
  | mmeSpuriousWakeup
  | s11 (resp : S11Response)
  | s11Timeout
  | hss
  | hssAia (imsi : UInt64) (av : AuthVectors)
  | hssNoFrame
  | hssLost

def mainMove (t : Threads) : Option Threads :=
  match t.main with
  | .running => some { t with stop := true, main := .flagged }
  | .flagged => some { t with enb := t.enb.notified, main := .notified }
  | .notified => none

/-- The predicate of the MME's wait. -/
def authReady (t : Threads) (link : S1Link.State) : Bool :=
  t.stop ||
    match link.mme.thread with
    | .awaitAia _ _ imsi => (link.mme.pendingAuth.lookup imsi).isSome
    | _ => false

/-- The handler that the flag ends returns to a loop that reads the flag again. -/
def mmeMove (t : Threads) (link : S1Link.State) (chaosDrop : Bool) :
    Option (Threads × Option S1Link.Input) :=
  match t.mme with
  | .away .testing => some ({ t with mme := .away (if t.stop then .left else .receiving) }, none)
  | .away .receiving => some ({ t with mme := .away .handling }, some .mmeReceive)
  | .away .handling =>
    match link.mme.thread with
    | .receiving => some ({ t with mme := .away .testing }, none)
    | .awaitAia _ _ _ => some ({ t with mme := .checking }, none)
    | _ => none
  | .woken => some ({ t with mme := .checking }, none)
  | .checking =>
    if t.stop then some ({ t with mme := .away .left }, none)
    else if authReady t link then
      some ({ t with mme := .away .handling }, some (.mme (.aiaWakeup chaosDrop)))
    else some ({ t with mme := .committed }, none)
  | .committed => some ({ t with mme := .asleep }, none)
  | .asleep | .away .left => none

def hssMove (t : Threads) : Option (Threads × Option S1Link.Input) :=
  match t.hss with
  | .testing => some ({ t with hss := if t.stop then .left else .receiving }, none)
  | .storing imsi av =>
    if t.mme.hasMutex then none
    else some ({ t with hss := .notifying }, some (.mme (.aia imsi av)))
  | .notifying => some ({ t with hss := .testing, mme := t.mme.notified }, none)
  | .receiving | .left => none

/-- The look at the queue under the mutex, after `processCommand` or when the wait is over. -/
def nextOrder (t : Threads) (empty : Place EnbCode) : Threads :=
  match t.commands with
  | [] => { t with enb := empty }
  | order :: rest => { t with commands := rest, enb := .away (.processing order.messages) }

/-- The attaches of a `CR` end with the flag. -/
def enbMove (t : Threads) : Option (Threads × Option S1Link.Input) :=
  match t.enb with
  | .away .testing => some ({ t with enb := .away (if t.stop then .left else .entering) }, none)
  | .away .entering | .woken => some ({ t with enb := .checking }, none)
  | .checking => some (nextOrder t (if t.stop then .away .testing else .committed), none)
  | .committed => some ({ t with enb := .asleep }, none)
  | .away (.processing []) => some (nextOrder t (.away .testing), none)
  | .away (.processing (cmd :: todo)) =>
    if cmd = .attach ∧ t.stop = true then some ({ t with enb := .away (.processing []) }, none)
    else some ({ t with enb := .away (.processing todo) }, some (.command cmd))
  | .asleep | .away .left => none

def move (t : Threads) (link : S1Link.State) : Input → Option (Threads × Option S1Link.Input)
  | .main => (mainMove t).map fun t => (t, none)
  | .signal => some ({ t with stop := true }, none)
  | .submit order =>
    if t.enb.hasMutex then none
    else some ({ t with commands := t.commands ++ [order], pushed := t.pushed + 1 }, none)
  | .notify =>
    match t.pushed with
    | 0 => none
    | k + 1 => some ({ t with enb := t.enb.notified, pushed := k }, none)
  | .enb => enbMove t
  | .enbSpuriousWakeup => if t.enb.sleeps then some ({ t with enb := .woken }, none) else none
  | .enbReceive => some (t, some .enbReceive)
  | .enbSend => some (t, some .enbSend)
  | .mme chaosDrop => mmeMove t link chaosDrop
  | .mmeNoFrame =>
    if t.mme = .away .receiving then some ({ t with mme := .away .testing }, none) else none
  | .mmeLost => if t.mme = .away .receiving then some ({ t with mme := .away .left }, none) else none
  | .mmeSpuriousWakeup => if t.mme.sleeps then some ({ t with mme := .woken }, none) else none
  | .s11 resp => some (t, some (.mme (.s11 resp)))
  | .s11Timeout => some (t, some (.mme .s11Timeout))
  | .hss => hssMove t
  | .hssAia imsi av =>
    if t.hss = .receiving then some ({ t with hss := .storing imsi av }, none) else none
  | .hssNoFrame => if t.hss = .receiving then some ({ t with hss := .testing }, none) else none
  | .hssLost => if t.hss = .receiving then some ({ t with hss := .left }, none) else none

def step : Machine State Input S1Link.Event := layer S1Link.step move

def init : State := ⟨{}, S1Link.init⟩

/-- `hss_rx` has left its loop, or the flag ends it at the next test. -/
def HssDone (t : Threads) : Prop := t.hss = .left ∨ (t.hss = .testing ∧ t.stop = true)

instance (t : Threads) : Decidable (HssDone t) := inferInstanceAs (Decidable (_ ∨ _))

/-- Main has stored the flag and notified, and a thread sleeps that no thread will wake. -/
def Stranded (s : State) : Prop :=
  s.upper.stop = true ∧ s.upper.main = .notified ∧
    ((s.upper.mme = .asleep ∧ HssDone s.upper) ∨ (s.upper.enb = .asleep ∧ s.upper.pushed = 0))

/-- The flag and the end of a pass of `hss_rx` find the MME awake or `hss_rx` with a notification to
come; the MME does not begin to wait without `hss_rx`; and `requestStop` does not notify between the
eNB's look at the flag and its sleep. -/
def WakesSleepers (_ : List S1Link.Event) (s : State) : Input → Prop
  | .main =>
    (s.upper.main = .running → s.upper.hss = .testing → s.upper.mme.waits = false) ∧
      (s.upper.main = .flagged → s.upper.enb ≠ .committed)
  | .signal => s.upper.hss = .testing → s.upper.mme.waits = false
  | .mme _ => s.upper.mme = .checking → s.upper.hss = .left → authReady s.upper s.lower = true
  | .hss => s.upper.hss = .notifying → s.upper.stop = true → s.upper.mme ≠ .committed
  | .hssNoFrame => s.upper.stop = true → s.upper.mme.waits = false
  | .hssLost => s.upper.mme.waits = false
  | _ => True

instance WakesSleepers.decidable (tr : List S1Link.Event) (s : State) :
    (i : Input) → Decidable (WakesSleepers tr s i)
  | .main => inferInstanceAs (Decidable ((_ → _ → _) ∧ (_ → _)))
  | .signal => inferInstanceAs (Decidable (_ → _))
  | .mme _ => inferInstanceAs (Decidable (_ → _ → _))
  | .hss => inferInstanceAs (Decidable (_ → _ → _))
  | .hssNoFrame => inferInstanceAs (Decidable (_ → _))
  | .hssLost => inferInstanceAs (Decidable (_ = _))
  | .submit _ => .isTrue trivial
  | .notify => .isTrue trivial
  | .enb => .isTrue trivial
  | .enbSpuriousWakeup => .isTrue trivial
  | .enbReceive => .isTrue trivial
  | .enbSend => .isTrue trivial
  | .mmeNoFrame => .isTrue trivial
  | .mmeLost => .isTrue trivial
  | .mmeSpuriousWakeup => .isTrue trivial
  | .s11 _ => .isTrue trivial
  | .s11Timeout => .isTrue trivial
  | .hssAia _ _ => .isTrue trivial

section Moves

variable {t t' : Threads} {link : S1Link.State} {j : Option S1Link.Input}

/-- Once a thread's last notification is past, the thread does not wait. -/
structure Inv (t : Threads) : Prop where
  flagged : t.main ≠ .running → t.stop = true
  enb : t.main = .notified → t.enb.waits = false
  mme : HssDone t → t.mme.waits = false

theorem init_inv : Inv {} where
  flagged hmain := (hmain rfl).elim
  enb _ := rfl
  mme _ := rfl

theorem Inv.stopped (hinv : Inv t) (hmain : t.main = .notified) : t.stop = true := by
  apply hinv.flagged
  rw [hmain]
  exact Main.noConfusion

theorem Inv.stop (hinv : Inv t) (hguard : t.hss = .testing → t.mme.waits = false) :
    Inv { t with stop := true } where
  flagged _ := rfl
  enb := hinv.enb
  mme := by
    rintro (hleft | ⟨htesting, -⟩)
    · exact hinv.mme (Or.inl hleft)
    · exact hguard htesting

theorem Inv.withMme (hinv : Inv t) {place : Place MmeCode}
    (hplace : HssDone t → place.waits = false) : Inv { t with mme := place } where
  flagged := hinv.flagged
  enb := hinv.enb
  mme := hplace

theorem Inv.withEnb (hinv : Inv t) {place : Place EnbCode} (commands : List Order)
    (hplace : t.main = .notified → place.waits = false) :
    Inv { t with enb := place, commands := commands } where
  flagged := hinv.flagged
  enb := hplace
  mme := hinv.mme

theorem Inv.withHss (hinv : Inv t) {hss : HssRx} (hhss : hss = .left → t.mme.waits = false)
    (htesting : hss = .testing → t.stop = true → t.mme.waits = false) :
    Inv { t with hss := hss } where
  flagged := hinv.flagged
  enb := hinv.enb
  mme := by
    rintro (hleft | ⟨htest, hstop⟩)
    · exact hhss hleft
    · exact htesting htest hstop

theorem mainMove_inv (hinv : Inv t)
    (hflag : t.main = .running → t.hss = .testing → t.mme.waits = false)
    (hnotify : t.main = .flagged → t.enb ≠ .committed) (hmove : mainMove t = some t') :
    Inv t' := by
  unfold mainMove at hmove
  split at hmove
  · rename_i hrunning
    obtain rfl := Option.some.inj hmove
    have hstopped := hinv.stop (hflag hrunning)
    exact ⟨fun _ => rfl, nofun, hstopped.mme⟩
  · rename_i hflagged
    obtain rfl := Option.some.inj hmove
    refine ⟨fun _ => hinv.flagged ?_, fun _ => Place.waits_notified (hnotify hflagged), hinv.mme⟩
    rw [hflagged]
    exact Main.noConfusion
  · cases hmove

theorem mmeMove_inv {chaosDrop : Bool} (hinv : Inv t)
    (hguard : t.mme = .checking → t.hss = .left → authReady t link = true)
    (hmove : mmeMove t link chaosDrop = some (t', j)) : Inv t' := by
  unfold mmeMove at hmove
  split at hmove
  · obtain ⟨rfl, -⟩ := Prod.mk.inj (Option.some.inj hmove)
    exact hinv.withMme fun _ => rfl
  · obtain ⟨rfl, -⟩ := Prod.mk.inj (Option.some.inj hmove)
    exact hinv.withMme fun _ => rfl
  · split at hmove
    · obtain ⟨rfl, -⟩ := Prod.mk.inj (Option.some.inj hmove)
      exact hinv.withMme fun _ => rfl
    · obtain ⟨rfl, -⟩ := Prod.mk.inj (Option.some.inj hmove)
      exact hinv.withMme fun _ => rfl
    · cases hmove
  · obtain ⟨rfl, -⟩ := Prod.mk.inj (Option.some.inj hmove)
    exact hinv.withMme fun _ => rfl
  · rename_i hchecking
    split at hmove
    · obtain ⟨rfl, -⟩ := Prod.mk.inj (Option.some.inj hmove)
      exact hinv.withMme fun _ => rfl
    · rename_i hrunning
      split at hmove
      · obtain ⟨rfl, -⟩ := Prod.mk.inj (Option.some.inj hmove)
        exact hinv.withMme fun _ => rfl
      · rename_i hblocked
        obtain ⟨rfl, -⟩ := Prod.mk.inj (Option.some.inj hmove)
        apply hinv.withMme
        rintro (hleft | ⟨-, hstop⟩)
        · exact (hblocked (hguard hchecking hleft)).elim
        · exact (hrunning hstop).elim
  · rename_i hcommitted
    obtain ⟨rfl, -⟩ := Prod.mk.inj (Option.some.inj hmove)
    apply hinv.withMme
    intro hdone
    have hawake := hinv.mme hdone
    rw [hcommitted] at hawake
    cases hawake
  · cases hmove
  · cases hmove

theorem hssMove_inv (hinv : Inv t)
    (hguard : t.hss = .notifying → t.stop = true → t.mme ≠ .committed)
    (hmove : hssMove t = some (t', j)) : Inv t' := by
  unfold hssMove at hmove
  split at hmove
  · rename_i htesting
    obtain ⟨rfl, -⟩ := Prod.mk.inj (Option.some.inj hmove)
    apply hinv.withHss
    · intro hleft
      split at hleft
      · rename_i hstop
        exact hinv.mme (Or.inr ⟨htesting, hstop⟩)
      · cases hleft
    · intro htest
      split at htest
      · cases htest
      · cases htest
  · split at hmove
    · cases hmove
    · obtain ⟨rfl, -⟩ := Prod.mk.inj (Option.some.inj hmove)
      exact hinv.withHss nofun nofun
  · rename_i hnotifying
    obtain ⟨rfl, -⟩ := Prod.mk.inj (Option.some.inj hmove)
    refine ⟨hinv.flagged, hinv.enb, ?_⟩
    rintro (hleft | ⟨-, hstop⟩)
    · cases hleft
    · exact Place.waits_notified (hguard hnotifying hstop)
  · cases hmove
  · cases hmove

theorem nextOrder_inv (hinv : Inv t) {empty : Place EnbCode}
    (hempty : t.main = .notified → empty.waits = false) : Inv (nextOrder t empty) := by
  unfold nextOrder
  split
  · exact hinv.withEnb t.commands hempty
  · exact hinv.withEnb _ fun _ => rfl

theorem enbMove_inv (hinv : Inv t) (hmove : enbMove t = some (t', j)) : Inv t' := by
  unfold enbMove at hmove
  split at hmove
  · obtain ⟨rfl, -⟩ := Prod.mk.inj (Option.some.inj hmove)
    exact hinv.withEnb t.commands fun _ => rfl
  · obtain ⟨rfl, -⟩ := Prod.mk.inj (Option.some.inj hmove)
    exact hinv.withEnb t.commands fun _ => rfl
  · obtain ⟨rfl, -⟩ := Prod.mk.inj (Option.some.inj hmove)
    exact hinv.withEnb t.commands fun _ => rfl
  · obtain ⟨rfl, -⟩ := Prod.mk.inj (Option.some.inj hmove)
    apply nextOrder_inv hinv
    intro hmain
    rw [hinv.stopped hmain]
    rfl
  · rename_i hcommitted
    obtain ⟨rfl, -⟩ := Prod.mk.inj (Option.some.inj hmove)
    apply hinv.withEnb t.commands
    intro hmain
    have hawake := hinv.enb hmain
    rw [hcommitted] at hawake
    cases hawake
  · obtain ⟨rfl, -⟩ := Prod.mk.inj (Option.some.inj hmove)
    exact nextOrder_inv hinv fun _ => rfl
  · split at hmove
    · obtain ⟨rfl, -⟩ := Prod.mk.inj (Option.some.inj hmove)
      exact hinv.withEnb t.commands fun _ => rfl
    · obtain ⟨rfl, -⟩ := Prod.mk.inj (Option.some.inj hmove)
      exact hinv.withEnb t.commands fun _ => rfl
  · cases hmove
  · cases hmove

end Moves

section Steps

variable {s s' : State} {es tr : List S1Link.Event}

theorem move_inv {i : Input} {t' : Threads} {j : Option S1Link.Input} (hinv : Inv s.upper)
    (hguard : WakesSleepers tr s i) (hmove : move s.upper s.lower i = some (t', j)) : Inv t' := by
  cases i with
  | main =>
      obtain ⟨t, hmain, hpair⟩ := Option.map_eq_some_iff.mp hmove
      obtain ⟨rfl, -⟩ := Prod.mk.inj hpair
      exact mainMove_inv hinv hguard.1 hguard.2 hmain
  | signal =>
      obtain ⟨rfl, -⟩ := Prod.mk.inj (Option.some.inj hmove)
      exact hinv.stop hguard
  | submit order =>
      simp only [move] at hmove
      split at hmove
      · cases hmove
      · obtain ⟨rfl, -⟩ := Prod.mk.inj (Option.some.inj hmove)
        exact ⟨hinv.flagged, hinv.enb, hinv.mme⟩
  | notify =>
      simp only [move] at hmove
      split at hmove
      · cases hmove
      · obtain ⟨rfl, -⟩ := Prod.mk.inj (Option.some.inj hmove)
        exact ⟨hinv.flagged, fun hmain => Place.waits_notified_of_awake (hinv.enb hmain), hinv.mme⟩
  | enb => exact enbMove_inv hinv hmove
  | enbSpuriousWakeup =>
      simp only [move] at hmove
      split at hmove
      · obtain ⟨rfl, -⟩ := Prod.mk.inj (Option.some.inj hmove)
        exact hinv.withEnb s.upper.commands fun _ => rfl
      · cases hmove
  | mme chaosDrop => exact mmeMove_inv hinv hguard hmove
  | mmeNoFrame | mmeLost | mmeSpuriousWakeup =>
      simp only [move] at hmove
      split at hmove
      · obtain ⟨rfl, -⟩ := Prod.mk.inj (Option.some.inj hmove)
        exact hinv.withMme fun _ => rfl
      · cases hmove
  | hss => exact hssMove_inv hinv hguard hmove
  | hssAia imsi av =>
      simp only [move] at hmove
      split at hmove
      · obtain ⟨rfl, -⟩ := Prod.mk.inj (Option.some.inj hmove)
        exact hinv.withHss nofun nofun
      · cases hmove
  | hssNoFrame =>
      simp only [move] at hmove
      split at hmove
      · obtain ⟨rfl, -⟩ := Prod.mk.inj (Option.some.inj hmove)
        exact hinv.withHss nofun fun _ => hguard
      · cases hmove
  | hssLost =>
      simp only [move] at hmove
      split at hmove
      · obtain ⟨rfl, -⟩ := Prod.mk.inj (Option.some.inj hmove)
        exact hinv.withHss (fun _ => hguard) nofun
      · cases hmove
  | enbReceive | enbSend | s11Timeout =>
      obtain ⟨rfl, -⟩ := Prod.mk.inj (Option.some.inj hmove)
      exact hinv
  | s11 resp =>
      obtain ⟨rfl, -⟩ := Prod.mk.inj (Option.some.inj hmove)
      exact hinv

end Steps

/-- What is true of every run of the S1 link is true under the shutdown too. -/
theorem link_reached {P : List S1Link.Event → State → Input → Prop} {tr : List S1Link.Event}
    {s : State} (hrun : Run step P init tr s) : Reach S1Link.step S1Link.init tr s.lower :=
  run_refines hrun

/-- In a run whose last notifications find no thread between its predicate and its sleep, and none
of them asleep without them, the shutdown strands neither thread. -/
theorem shutdown_wakes_threads {tr : List S1Link.Event} {s : State}
    (hrun : Run step WakesSleepers init tr s) : ¬ Stranded s := by
  have hinv : Inv s.upper := by
    refine hrun.invariant (I := fun _ s => Inv s.upper) init_inv ?_
    intro tr s i s' es hinv hguard hstep
    obtain ⟨j, hmove, -⟩ := layer_eq_some hstep
    exact move_inv hinv hguard hmove
  rintro ⟨-, hmain, ⟨hasleep, hdone⟩ | ⟨hasleep, -⟩⟩
  · have hawake := hinv.mme hdone
    rw [hasleep] at hawake
    cases hawake
  · have hawake := hinv.enb hmain
    rw [hasleep] at hawake
    cases hawake

/-- One attach up to the MME's sleep, with the eNB back at its wait. -/
def attachWaits : List Input :=
  List.replicate 4 .enb ++ [.submit (.cr 1), .notify] ++ List.replicate 6 .enb ++
    List.replicate 5 (.mme false)

/-- The shutdown finds both threads asleep and the vectors on their way. -/
def orderly : List Input :=
  attachWaits ++ [.enb, .enb, .hss, .hssAia (S1Link.baseImsi + 1) {}, .main, .hss, .hss, .main, .hss,
    .mme false, .mme false, .enb, .enb, .enb]

theorem both_threads_leave :
    ∃ tr s, Run step WakesSleepers init tr s ∧ s.upper.main = .notified ∧
      s.upper.mme = .away .left ∧ s.upper.hss = .left ∧ s.upper.enb = .away .left ∧ ¬ Stranded s := by
  have hexec : (exec step init orderly).map (fun r =>
      (r.1.upper.main, r.1.upper.mme, r.1.upper.hss, r.1.upper.enb)) =
      some (.notified, .away .left, .left, .away .left) := by
    decide +kernel
  obtain ⟨tr, s, hrun, hend⟩ :=
    exists_run_of_exec (P := WakesSleepers) _ (by decide +kernel) hexec
  obtain ⟨hmain, hend⟩ := Prod.mk.inj hend
  obtain ⟨hmme, hend⟩ := Prod.mk.inj hend
  obtain ⟨hhss, henb⟩ := Prod.mk.inj hend
  exact ⟨tr, s, hrun, hmain, hmme, hhss, henb, shutdown_wakes_threads hrun⟩

/-- `hss_rx` leaves while the MME sleeps, and `requestStop` comes before the eNB sleeps. -/
theorem shutdown_strands_threads :
    ∃ tr s, Reach step init tr s ∧ s.upper.mme = .asleep ∧ s.upper.enb = .asleep ∧ Stranded s := by
  have hexec : (exec step init (attachWaits ++ [.enb, .main, .hss, .main, .enb])).map (fun r =>
      ((r.1.upper.mme, r.1.upper.hss, r.1.upper.enb, r.1.upper.pushed),
        r.1.upper.stop, r.1.upper.main)) =
      some ((.asleep, .left, .asleep, 0), true, .notified) := by
    decide +kernel
  obtain ⟨tr, s, hrun, hend⟩ := exists_reach_of_exec hexec
  obtain ⟨hthreads, hend⟩ := Prod.mk.inj hend
  obtain ⟨hstop, hmain⟩ := Prod.mk.inj hend
  obtain ⟨hmme, hthreads⟩ := Prod.mk.inj hthreads
  obtain ⟨hhss, hthreads⟩ := Prod.mk.inj hthreads
  obtain ⟨henb, -⟩ := Prod.mk.inj hthreads
  exact ⟨tr, s, hrun, hmme, henb, hstop, hmain, Or.inl ⟨hmme, Or.inl hhss⟩⟩

end MobileCore.Shutdown
