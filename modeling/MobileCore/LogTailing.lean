import MobileCore.LabelledRuns
import MobileCore.LineScanner
import MobileCore.SimEvents

/-!
# The log files that the gateway follows

The first poll of a file looks at its end only. Every later one publishes what a scanner finds from
where the last one stopped, and in between the file grows. An ID and a time are drawn for each
event, other goroutines draw IDs, too.
-/

namespace MobileCore.LogTailing

open MobileCore.CppText
open MobileCore.LabelledRuns
open MobileCore.LineScanner
open MobileCore.SimEvents

section Lines

/-- Upper case as far as it is ASCII: of the other letters only the dotless i and the long s have
such an upper case. -/
def toUpper : Str → Str
  | 0xC4 :: 0xB1 :: rest => 0x49 :: toUpper rest
  | 0xC5 :: 0xBF :: rest => 0x53 :: toUpper rest
  | c :: rest => (if 0x61 ≤ c ∧ c ≤ 0x7A then c - 0x20 else c) :: toUpper rest
  | [] => []

def contains (text : Str) (needle : String) : Bool := (find (lit needle) text).isSome

def severity (line : Str) : Str :=
  let up := toUpper line
  if contains up "ERROR" || contains up "FAIL" then lit "error"
  else if contains up "WARN" then lit "warn"
  else lit "info"

def base (path : Str) : Str :=
  let stripped := path.reverse.dropWhile (· = 0x2F)
  let last := (stripped.takeWhile (· ≠ 0x2F)).reverse
  if path = [] then lit "." else if last = [] then lit "/" else last

def nodeFromPath (path : Str) : Str :=
  let base := toUpper (base path)
  if contains base "AMF" then lit "AMF"
  else if contains base "UDM" then lit "UDM"
  else if contains base "SMF" then lit "SMF"
  else if contains base "UPF" then lit "UPF"
  else if contains base "GNB" then lit "GNB"
  else lit "NRF"

def logLine (path : Str) (draw : Int × Time) (line : Str) : SimEvent Time :=
  { id := newID draw.1, timestamp := draw.2, node := nodeFromPath path,
    eventType := lit "LOG_LINE", detail := line, severity := severity line }

end Lines

structure State where
  content : List UInt8 := []
  offset : Option Nat := none

/-- `draws` are the ID and the time that each publication draws. -/
inductive Input where
  | append (bytes : List UInt8)
  | poll (draws : Nat → Int × Time)

/-- A poll shows the size of the file. -/
inductive Event where
  | published (e : SimEvent Time)
  | polled (size : Nat)
deriving DecidableEq

def tailFile (path : Str) (s : State) (draws : Nat → Int × Time) : State × List Event :=
  match s.offset with
  | none => ({ s with offset := some s.content.length }, [.polled s.content.length])
  | some offset =>
    let (texts, sc) := (newScanner (s.content.drop offset)).texts
    ({ s with offset := some (s.content.length - sc.unread.length) },
      (texts.filter (· ≠ [])).mapIdx (fun i line => .published (logLine path (draws i) line)) ++
        [.polled s.content.length])

def step (path : Str) : Machine State Input Event
  | s, .append bytes => some ({ s with content := s.content ++ bytes }, [])
  | s, .poll draws => some (tailFile path s draws)

def init : State := {}

def published (tr : List Event) : List (SimEvent Time) :=
  tr.filterMap fun
    | .published e => some e
    | .polled _ => none

def sizes (tr : List Event) : List Nat :=
  tr.filterMap fun
    | .published _ => none
    | .polled size => some size

/-- What the file grew by between the first poll and the last one. -/
def grown (tr : List Event) (s : State) : List UInt8 :=
  (s.content.take ((sizes tr).getLast?.getD 0)).drop ((sizes tr).head?.getD 0)

/-- The lines of a text that have their newline and are not empty. -/
def linesOf (data : List UInt8) : List Str := ((completeLines data).map dropCR).filter (· ≠ [])

/-- The lines that polls have seen with their newlines have been published, each once, whole and in
order, and nothing else has. -/
def Exact (tr : List Event) (s : State) : Prop :=
  (published tr).map (·.detail) = linesOf (grown tr s)

/-- A poll finds the end of a line at the end of the file, and no line that is too long. -/
def Settled (_ : List Event) (s : State) : Input → Prop
  | .append _ => True
  | .poll _ => ∀ offset ∈ s.offset, Terminated (s.content.drop offset) ∧
      ∀ line ∈ completeLines (s.content.drop offset), line.length < maxTokenSize

instance (tr : List Event) (s : State) : DecidablePred (Settled tr s)
  | .append _ => .isTrue trivial
  | .poll _ => inferInstanceAs (Decidable (∀ offset ∈ s.offset, _ ∧ _))

section Runs

variable {path : Str} {tr es : List Event} {s s' : State}

theorem linesOf_append {front back : List UInt8} (h : Terminated front) :
    linesOf (front ++ back) = linesOf front ++ linesOf back := by
  obtain ⟨hblock, hlines⟩ := h.eq_block
  have hsplit : completeLines (front ++ back) = completeLines front ++ completeLines back := by
    conv_lhs => rw [hblock]
    exact completeLines_append hlines back
  rw [linesOf, hsplit, List.map_append, List.filter_append, linesOf, linesOf]

/-- The offset is where the last poll found the end of the file. -/
structure Tracks (tr : List Event) (s : State) (first offset : Nat) : Prop where
  known : s.offset = some offset
  firstSize : (sizes tr).head? = some first
  lastSize : (sizes tr).getLast? = some offset
  first_le : first ≤ offset
  le : offset ≤ s.content.length
  terminated : Terminated (grown tr s)
  exact : Exact tr s

/-- Nothing has been polled, or the offset is known. -/
def Followed (tr : List Event) (s : State) : Prop :=
  (s.offset = none ∧ tr = []) ∨ ∃ first offset, Tracks tr s first offset

theorem Tracks.appended {first offset : Nat} (h : Tracks tr s first offset) (bytes : List UInt8) :
    Tracks tr { s with content := s.content ++ bytes } first offset := by
  have hgrown : grown tr { s with content := s.content ++ bytes } = grown tr s := by
    rw [grown, grown, h.lastSize, Option.getD_some, List.take_append_of_le_length h.le]
  refine ⟨h.known, h.firstSize, h.lastSize, h.first_le, ?_, ?_, ?_⟩
  · rw [List.length_append]
    exact Nat.le_add_right_of_le h.le
  · rw [hgrown]
    exact h.terminated
  · rw [Exact, hgrown]
    exact h.exact

theorem observed (draws : Nat → Int × Time) (h : s.offset = none) :
    Tracks (tailFile path s draws).2 (tailFile path s draws).1 s.content.length
      s.content.length := by
  have hpoll : tailFile path s draws =
      ({ s with offset := some s.content.length }, [.polled s.content.length]) := by
    rw [tailFile, h]
  have hgrown : grown [.polled s.content.length]
      { s with offset := some s.content.length } = [] := by
    show (s.content.take s.content.length).drop s.content.length = []
    rw [List.take_length, List.drop_length]
  rw [hpoll]
  refine ⟨rfl, rfl, rfl, Nat.le_refl _, Nat.le_refl _, ?_, ?_⟩
  · rw [hgrown]
    exact fun hne => absurd rfl hne
  · rw [Exact, hgrown]
    rfl

theorem sizes_append (tr es : List Event) : sizes (tr ++ es) = sizes tr ++ sizes es :=
  List.filterMap_append

theorem published_append (tr es : List Event) : published (tr ++ es) = published tr ++ published es :=
  List.filterMap_append

theorem shown_lines (path : Str) (draws : Nat → Int × Time) (lines : List Str) (size : Nat) :
    sizes (lines.mapIdx (fun i line => .published (logLine path (draws i) line)) ++ [.polled size]) =
        [size] ∧
      (published (lines.mapIdx (fun i line => .published (logLine path (draws i) line)) ++
        [.polled size])).map (·.detail) = lines := by
  induction lines generalizing draws with
  | nil => exact ⟨rfl, rfl⟩
  | cons line lines ih =>
      obtain ⟨hsizes, hpublished⟩ := ih fun i => draws (i + 1)
      rw [List.mapIdx_cons, List.cons_append]
      exact ⟨hsizes, congrArg (line :: ·) hpublished⟩

theorem Tracks.polled {first offset : Nat} (h : Tracks tr s first offset)
    (draws : Nat → Int × Time) (hend : Terminated (s.content.drop offset))
    (hshort : ∀ line ∈ completeLines (s.content.drop offset), line.length < maxTokenSize) :
    Tracks (tr ++ (tailFile path s draws).2) (tailFile path s draws).1 first s.content.length := by
  obtain ⟨htexts, hunread⟩ := texts_newScanner hend hshort
  have hpoll : tailFile path s draws = ({ s with offset := some s.content.length },
      (linesOf (s.content.drop offset)).mapIdx
        (fun i line => .published (logLine path (draws i) line)) ++ [.polled s.content.length]) := by
    simp only [tailFile, h.known, htexts, hunread]
    rfl
  obtain ⟨hsizes, hpublished⟩ :=
    shown_lines path draws (linesOf (s.content.drop offset)) s.content.length
  have hgrown : grown (tr ++ ((linesOf (s.content.drop offset)).mapIdx
      (fun i line => .published (logLine path (draws i) line)) ++ [.polled s.content.length]))
      { s with offset := some s.content.length } = grown tr s ++ s.content.drop offset := by
    rw [grown, sizes_append, hsizes, List.getLast?_concat, List.head?_append, h.firstSize, grown,
      h.lastSize, h.firstSize]
    show (s.content.take s.content.length).drop first = (s.content.take offset).drop first ++ _
    rw [List.take_length, ← List.drop_append_of_le_length, List.take_append_drop]
    rw [List.length_take, Nat.min_eq_left h.le]
    exact h.first_le
  rw [hpoll]
  refine ⟨rfl, ?_, ?_, Nat.le_trans h.first_le h.le, Nat.le_refl _, ?_, ?_⟩
  · rw [sizes_append, List.head?_append, h.firstSize]
    rfl
  · rw [sizes_append, hsizes, List.getLast?_concat]
  · rw [hgrown]
    exact h.terminated.append hend
  · rw [Exact, hgrown, published_append, List.map_append, hpublished, h.exact,
      linesOf_append h.terminated]

theorem followed_step {i : Input} (h : Followed tr s) (hguard : Settled tr s i)
    (hstep : step path s i = some (s', es)) : Followed (tr ++ es) s' := by
  cases i with
  | append bytes =>
      cases hstep
      rw [List.append_nil]
      rcases h with hnone | ⟨first, offset, h⟩
      · exact Or.inl hnone
      · exact Or.inr ⟨first, offset, h.appended bytes⟩
  | poll draws =>
      obtain ⟨rfl, rfl⟩ := Prod.ext_iff.mp (Option.some.inj hstep)
      rcases h with ⟨hnone, rfl⟩ | ⟨first, offset, h⟩
      · exact Or.inr ⟨_, _, observed draws hnone⟩
      · obtain ⟨hend, hshort⟩ := hguard offset h.known
        exact Or.inr ⟨_, _, h.polled draws hend hshort⟩

theorem exact_nil : Exact [] s := by
  show [] = linesOf ((s.content.take 0).drop 0)
  rw [List.take_zero]
  rfl

/-- As long as every poll finds whole lines, every line is published exactly once. -/
theorem exact_of_settled (path : Str) (tr : List Event) (s : State)
    (hrun : Run (step path) Settled init tr s) : Exact tr s := by
  have hfollowed : Followed tr s := by
    refine hrun.invariant (I := fun tr s => Followed tr s) (Or.inl ⟨rfl, rfl⟩) ?_
    intro _ _ _ _ _ h hguard hstep
    exact followed_step h hguard hstep
  rcases hfollowed with ⟨-, rfl⟩ | ⟨first, offset, h⟩
  · exact exact_nil
  · exact h.exact

end Runs

section Schedules

def path : Str := lit "/tmp/g5_amf_sim.log"

def draws (n : Int) (i : Nat) : Int × Time := (n + i, ⟨0, .localZone⟩)

/-- The first line was there before, two lines come in three parts. -/
theorem exact_two : ∃ tr s, Exact tr s ∧ published tr = [
    { id := lit "ev-1", timestamp := ⟨0, .localZone⟩, node := lit "AMF", eventType := lit "LOG_LINE",
      detail := lit "UE attached", severity := lit "info" },
    { id := lit "ev-2", timestamp := ⟨0, .localZone⟩, node := lit "AMF", eventType := lit "LOG_LINE",
      detail := lit "auth Failed", severity := lit "error" }] := by
  have hexec : (exec (step path) init [.append (lit "old\n"), .poll (draws 1), .append (lit "UE atta"),
      .append (lit "ched\r\n\n"), .poll (draws 1), .append (lit "auth Failed\n"),
      .poll (draws 2)]).map (fun r => published r.2) = some [
    { id := lit "ev-1", timestamp := ⟨0, .localZone⟩, node := lit "AMF", eventType := lit "LOG_LINE",
      detail := lit "UE attached", severity := lit "info" },
    { id := lit "ev-2", timestamp := ⟨0, .localZone⟩, node := lit "AMF", eventType := lit "LOG_LINE",
      detail := lit "auth Failed", severity := lit "error" }] := by decide +kernel
  obtain ⟨tr, s, hrun, hseen⟩ := exists_run_of_exec (P := Settled) _ (by decide +kernel) hexec
  exact ⟨tr, s, exact_of_settled path tr s hrun, hseen⟩

/-- A poll that finds the first part of a line publishes two halves. -/
theorem not_exact_split : ¬∀ tr s, Reach (step path) init tr s → Exact tr s := by
  intro h
  have hexec : (exec (step path) init [.poll (draws 1), .append (lit "UE atta"), .poll (draws 1),
      .append (lit "ched\n"), .poll (draws 2)]).map
        (fun r => ((published r.2).map (·.detail), linesOf (grown r.2 r.1))) =
      some ([lit "UE atta", lit "ched"], [lit "UE attached"]) := by decide +kernel
  obtain ⟨tr, s, hrun, hseen⟩ := exists_reach_of_exec hexec
  obtain ⟨hpublished, hlines⟩ := Prod.mk.inj hseen
  have hexact := h tr s hrun
  rw [Exact, hpublished, hlines] at hexact
  revert hexact
  decide

end Schedules

end MobileCore.LogTailing
