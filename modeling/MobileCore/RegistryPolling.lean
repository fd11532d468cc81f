import Mathlib.Data.Finset.Dedup
import Mathlib.Data.Finset.SDiff
import MobileCore.FunctionRepository
import MobileCore.LabelledRuns
import MobileCore.SimEvents

/-!
# The gateway polls the NRF

A poll compares the instances that are known with those of the answer, publishes what has come and
gone and keeps the new ones. A body is given by the JSON value that it starts with. The order in which
a map is gone through is free.
-/

namespace MobileCore.RegistryPolling

open MobileCore.CppText
open MobileCore.LabelledRuns
open MobileCore.SimEvents
open FunctionRepository (handleRequest)
open SessionManagement (HttpMessage)

section Answers

inductive Json where
  | null
  | bool (b : Bool)
  | number (text : Str)
  | string (text : Str)
  | array (items : List Json)
  | object (members : List (Str × Json))

/-- Names of fields are compared without regard to case, and the long s is an s. -/
def foldName : Str → Str
  | 0xC5 :: 0xBF :: rest => 0x73 :: foldName rest
  | c :: rest => (if 0x41 ≤ c ∧ c ≤ 0x5A then c + 0x20 else c) :: foldName rest
  | [] => []

/-- The field of a profile after the members of an object; a member that is no string is an error,
and null changes nothing. -/
def nfInstanceID : Str → List (Str × Json) → Option Str
  | id, [] => some id
  | id, (name, value) :: rest =>
    if foldName name = foldName (lit "nfInstanceId") then
      match value with
      | .string text => nfInstanceID text rest
      | .null => nfInstanceID id rest
      | _ => none
    else nfInstanceID id rest

def decodeProfile : Json → Option Str
  | .object members => nfInstanceID [] members
  | .null => some []
  | _ => none

def decodeProfiles : Json → Option (List Str)
  | .array items => items.mapM decodeProfile
  | .null => some []
  | _ => none

/-- What comes of a request; a body without a JSON value is `none`. -/
inductive Reply where
  | unreachable
  | answered (status : Nat) (body : Option Json)

/-- The status is not looked at. -/
def fetchNFIDs : Reply → Option (Finset Str)
  | .unreachable => none
  | .answered _ body => (body.bind decodeProfiles).map List.toFinset

/-- A poll succeeds with the status 200 and a list of profiles. -/
def succeeds : Reply → Bool
  | .unreachable => false
  | .answered status body => status = 200 && (body.bind decodeProfiles).isSome

end Answers

def nfEvent (eventType severity : String) (draw : Int × Time) (id : Str) : SimEvent Time :=
  { id := newID draw.1, timestamp := draw.2, node := lit "NRF", eventType := lit eventType,
    detail := lit "nfInstanceId=" ++ id, severity := lit severity }

def nfRegistered : Int × Time → Str → SimEvent Time := nfEvent "NF_REGISTERED" "info"

def nfDeregistered : Int × Time → Str → SimEvent Time := nfEvent "NF_DEREGISTERED" "warn"

structure State where
  nrf : FunctionRepository.State := {}
  known : Finset Str := ∅

/-- A poll draws an ID and a time for each publication, and goes through the new instances and the
ones that are gone in some order. -/
inductive Input where
  | request (req : HttpMessage)
  | poll (reply : Reply) (draws : Nat → Int × Time) (added removed : List Str)

/-- A poll, whether it succeeded, the instances registered then and what it published. -/
structure Event where
  success : Bool
  registered : Finset Str
  published : List (SimEvent Time)

def Enumerates (ids : List Str) (S : Finset Str) : Prop := ids.Nodup ∧ ids.toFinset = S

instance (ids : List Str) (S : Finset Str) : Decidable (Enumerates ids S) :=
  inferInstanceAs (Decidable (_ ∧ _))

def registeredIDs (nrf : FunctionRepository.State) : Finset Str :=
  (nrf.profiles.entries.map (·.2.nfInstanceId)).toFinset

def publications (draws : Nat → Int × Time) (added removed : List Str) : List (SimEvent Time) :=
  added.mapIdx (fun i id => nfRegistered (draws i) id) ++
    removed.mapIdx (fun i id => nfDeregistered (draws (added.length + i)) id)

def step : Machine State Input Event
  | s, .request req => some ({ s with nrf := (handleRequest s.nrf req).1 }, [])
  | s, .poll reply draws added removed =>
    -- a failed fetch gives the nil map, which has no entries
    let current := (fetchNFIDs reply).getD ∅
    if Enumerates added (current \ s.known) ∧ Enumerates removed (s.known \ current) then
      some ({ s with known := current },
        [⟨succeeds reply, registeredIDs s.nrf, publications draws added removed⟩])
    else none

def init : State := {}

/-- The instances that were registered at the last successful poll. -/
def lastSeen (tr : List Event) : Finset Str :=
  ((tr.filter (·.success)).getLast?.map (·.registered)).getD ∅

/-- A successful poll publishes what has changed since the last one, a failed poll nothing. -/
def Changes (before : List Event) (e : Event) : Prop :=
  if e.success then
    ∃ added removed, Enumerates added (e.registered \ lastSeen before) ∧
      Enumerates removed (lastSeen before \ e.registered) ∧
      e.published.map (fun p => (p.eventType, p.detail)) =
        added.map (fun id => (lit "NF_REGISTERED", lit "nfInstanceId=" ++ id)) ++
          removed.map (fun id => (lit "NF_DEREGISTERED", lit "nfInstanceId=" ++ id))
  else e.published = []

/-- What is known is what was registered at the last successful poll. -/
structure Tracking (tr : List Event) (s : State) : Prop where
  known : s.known = lastSeen tr
  changes : Backed Changes tr

def Lists (ids : Finset Str) : Reply → Prop
  | .unreachable => False
  | .answered _ body => ∃ list ∈ body.bind decodeProfiles, list.toFinset = ids

def Useless : Reply → Prop
  | .unreachable => True
  | .answered _ body => body.bind decodeProfiles = none

/-- A successful poll is answered with the registered instances. A failed one finds nothing known,
unless it is answered with what is. -/
def Agreed (_ : List Event) (s : State) : Input → Prop
  | .request _ => True
  | .poll reply _ _ _ =>
    if succeeds reply then Lists (registeredIDs s.nrf) reply
    else Lists s.known reply ∨ (Useless reply ∧ s.known = ∅)

section Runs

variable {tr es : List Event} {s s' : State} {reply : Reply} {ids : Finset Str}

theorem fetchNFIDs_lists (h : Lists ids reply) : (fetchNFIDs reply).getD ∅ = ids := by
  cases reply with
  | unreachable => cases h
  | answered status body =>
      obtain ⟨list, hlist, rfl⟩ := h
      rw [fetchNFIDs, hlist]
      rfl

theorem fetchNFIDs_useless (h : Useless reply) : (fetchNFIDs reply).getD ∅ = ∅ := by
  cases reply with
  | unreachable => rfl
  | answered status body =>
      rw [fetchNFIDs, h]
      rfl

theorem publications_texts (draws : Nat → Int × Time) (added removed : List Str) :
    (publications draws added removed).map (fun p => (p.eventType, p.detail)) =
      added.map (fun id => (lit "NF_REGISTERED", lit "nfInstanceId=" ++ id)) ++
        removed.map (fun id => (lit "NF_DEREGISTERED", lit "nfInstanceId=" ++ id)) := by
  have htexts (eventType severity : String) (draws : Nat → Int × Time) (ids : List Str) :
      (ids.mapIdx fun i id => nfEvent eventType severity (draws i) id).map
          (fun p => (p.eventType, p.detail)) =
        ids.map fun id => (lit eventType, lit "nfInstanceId=" ++ id) := by
    induction ids generalizing draws with
    | nil => rfl
    | cons id ids ih =>
        rw [List.mapIdx_cons, List.map_cons, List.map_cons, ih fun i => draws (i + 1)]
        rfl
  rw [publications, List.map_append]
  congr 1
  · exact htexts "NF_REGISTERED" "info" draws added
  · exact htexts "NF_DEREGISTERED" "warn" (fun i => draws (added.length + i)) removed

theorem lastSeen_snoc (tr : List Event) (e : Event) :
    lastSeen (tr ++ [e]) = if e.success then e.registered else lastSeen tr := by
  rw [lastSeen, List.filter_append]
  cases hsuccess : e.success with
  | true => simp [hsuccess]
  | false => simp [hsuccess, lastSeen]

theorem enumerates_empty {ids : List Str} (h : Enumerates ids ∅) : ids = [] :=
  List.toFinset_eq_empty_iff ids |>.mp h.2

theorem tracking_step {i : Input} (h : Tracking tr s) (hguard : Agreed tr s i)
    (hstep : step s i = some (s', es)) : Tracking (tr ++ es) s' := by
  cases i with
  | request req =>
      cases hstep
      rw [List.append_nil]
      exact ⟨h.known, h.changes⟩
  | poll reply draws added removed =>
      simp only [step] at hstep
      split at hstep <;> cases hstep
      rename_i henumerated
      obtain ⟨hadded, hremoved⟩ := henumerated
      rw [Agreed] at hguard
      split at hguard
      · rename_i hsuccess
        have hcurrent := fetchNFIDs_lists hguard
        rw [hcurrent] at hadded hremoved ⊢
        refine ⟨?_, h.changes.snoc ?_⟩
        · rw [lastSeen_snoc, if_pos hsuccess]
        · rw [Changes, if_pos hsuccess, ← h.known]
          exact ⟨added, removed, hadded, hremoved, publications_texts draws added removed⟩
      · rename_i hfailed
        have hcurrent : (fetchNFIDs reply).getD ∅ = s.known := by
          rcases hguard with hlists | ⟨huseless, hempty⟩
          · exact fetchNFIDs_lists hlists
          · rw [fetchNFIDs_useless huseless, hempty]
        rw [hcurrent, Finset.sdiff_self] at hadded hremoved
        refine ⟨?_, h.changes.snoc ?_⟩
        · rw [lastSeen_snoc, if_neg hfailed]
          exact hcurrent.trans h.known
        · rw [Changes, if_neg hfailed, enumerates_empty hadded, enumerates_empty hremoved]
          rfl

/-- As long as the answers agree with the registry and failures find nothing known, the poller keeps
up with the registry. -/
theorem tracking_of_agreed (tr : List Event) (s : State) (hrun : Run step Agreed init tr s) :
    Tracking tr s := by
  refine hrun.invariant (I := fun tr s => Tracking tr s) ⟨rfl, Backed.nil _⟩ ?_
  intro _ _ _ _ _ h hguard hstep
  exact tracking_step h hguard hstep

end Runs

section Repository

variable {parse : Str → Option Json}

/-- Whatever the NRF of the repository answers is an object and no list of profiles: no poll of it
succeeds. -/
theorem nrf_unlisted (hparse : ∀ text value, parse (123 :: text) = some value →
      ∃ members, value = .object members) (nrf : FunctionRepository.State) (req : HttpMessage)
    {text : Str} (htext : .registered text ∈ (handleRequest nrf req).2 ∨
      .found text ∈ (handleRequest nrf req).2 ∨ .notFound text ∈ (handleRequest nrf req).2) :
    ∃ startLine body, text = WireJson.httpBuild startLine body [] ∧
      ∀ status, succeeds (.answered status (parse body)) = false := by
  have hobject (members : List (Str × Str)) (status : Nat) :
      succeeds (.answered status (parse (WireJson.obj members))) = false := by
    rw [succeeds]
    cases hvalue : parse (WireJson.obj members) with
    | none => exact Bool.and_false _
    | some value =>
        obtain ⟨members, rfl⟩ := hparse _ value hvalue
        exact Bool.and_false _
  have hempty : lit "\x7b\x7d" = WireJson.obj [] := rfl
  unfold handleRequest at htext
  split at htext
  · unfold FunctionRepository.handleRegister at htext
    dsimp only at htext
    split at htext
    · simp at htext
    · simp only [List.mem_singleton, FunctionRepository.Event.registered.injEq, reduceCtorEq,
        or_false] at htext
      exact ⟨_, _, htext, hobject _⟩
  · split at htext
    · unfold FunctionRepository.handleDiscover at htext
      split at htext
      · simp only [List.mem_singleton, FunctionRepository.Event.notFound.injEq, reduceCtorEq,
          false_or] at htext
        exact ⟨_, _, htext, hempty ▸ hobject []⟩
      · simp only [List.mem_singleton, FunctionRepository.Event.found.injEq, reduceCtorEq,
          false_or, or_false] at htext
        exact ⟨_, _, htext, hobject _⟩
    · simp only [List.mem_singleton, FunctionRepository.Event.notFound.injEq, reduceCtorEq,
        false_or] at htext
      exact ⟨_, _, htext, hempty ▸ hobject []⟩

end Repository

section Schedules

instance (ids : Finset Str) : DecidablePred (Lists ids)
  | .unreachable => .isFalse id
  | .answered _ body => inferInstanceAs (Decidable (∃ list ∈ body.bind decodeProfiles, _))

instance : DecidablePred Useless
  | .unreachable => .isTrue trivial
  | .answered _ body => inferInstanceAs (Decidable (body.bind decodeProfiles = none))

instance (tr : List Event) (s : State) : DecidablePred (Agreed tr s)
  | .request _ => .isTrue trivial
  | .poll reply _ _ _ =>
    inferInstanceAs (Decidable (if succeeds reply then Lists (registeredIDs s.nrf) reply
      else Lists s.known reply ∨ (Useless reply ∧ s.known = ∅)))

def registration (nfInstanceId nfType : String) : HttpMessage where
  startLine := lit "PUT /nnrf-nfm/v1/nf-instances/" ++ lit nfInstanceId ++ lit " HTTP/1.1"
  body := WireJson.obj [(lit "nfType", WireJson.str (lit nfType)),
    (lit "host", WireJson.str (lit "127.0.0.1")), (lit "port", WireJson.num 29518)]

def listing (ids : List String) : Reply :=
  .answered 200 (some (.array (ids.map fun id => .object [(lit "nfInstanceId", .string (lit id))])))

def draws (n : Int) (i : Nat) : Int × Time := (n + i, ⟨0, .localZone⟩)

/-- One AMF takes the place of another. -/
theorem tracking_replaced : ∃ tr s, Tracking tr s ∧ s.known = {lit "amf-2"} := by
  have hexec : (exec step init [.poll .unreachable (draws 1) [] [],
      .request (registration "amf-1" "AMF"), .poll (listing ["amf-1"]) (draws 1) [lit "amf-1"] [],
      .request (registration "amf-2" "AMF"),
      .poll (listing ["amf-2"]) (draws 2) [lit "amf-2"] [lit "amf-1"]]).map
        (fun r => r.1.known) = some {lit "amf-2"} := by decide +kernel
  obtain ⟨tr, s, hrun, hseen⟩ := exists_run_of_exec (P := Agreed) _ (by decide +kernel) hexec
  exact ⟨tr, s, tracking_of_agreed tr s hrun, hseen⟩

/-- A poll that cannot connect deregisters the AMF. -/
theorem not_tracking_unreachable : ¬∀ tr s, Reach step init tr s → Tracking tr s := by
  intro h
  have hexec : (exec step init [.request (registration "amf-1" "AMF"),
      .poll (listing ["amf-1"]) (draws 1) [lit "amf-1"] [],
      .poll .unreachable (draws 2) [] [lit "amf-1"]]).map
        (fun r => (r.1.known, lastSeen r.2)) = some (∅, {lit "amf-1"}) := by decide +kernel
  obtain ⟨tr, s, hrun, hseen⟩ := exists_reach_of_exec hexec
  obtain ⟨hknown, hlast⟩ := Prod.mk.inj hseen
  have htracking := (h tr s hrun).known
  rw [hknown, hlast] at htracking
  exact Finset.singleton_ne_empty _ htracking.symm

end Schedules

end MobileCore.RegistryPolling
