import MobileCore.SessionManagement
import Mathlib.Data.List.Nodup

/-!
# Identities of SM contexts

A context has two names: the reference that the SMF answers with, and the CP F-SEID that it sends
on N4. Both are derived from the request, and no context is ever released.
-/

namespace MobileCore.ContextIdentity

open CppText PfcpMessages SessionManagement WireJson

/-- One turn of the accept loop; nothing is served after a conversion has thrown. -/
def serveOne (s : State) (req : HttpMessage) : State × List Event :=
  if s.alive then handleOne s req else (s, [])

def serve (s : State) : List HttpMessage → State × List Event
  | [] => (s, [])
  | req :: reqs =>
    let (s', es) := serveOne s req
    let (s'', es') := serve s' reqs
    (s'', es ++ es')

def contextRef : Event → Option Str
  | .created location _ _ => some location
  | _ => none

/-- The CP F-SEID of an N4 message as the UPF reads it out of its buffer. -/
def n4Seid : Event → Option UInt64
  | .n4Request pkt => (parseHeader 0 (pkt.take 4096)).bind fun h => cpFSeid h (pkt.take 4096)
  | _ => none

/-- No two contexts share a reference, and no two share a CP F-SEID. -/
def DistinctContexts (es : List Event) : Prop :=
  (es.filterMap contextRef).Nodup ∧ (es.filterMap n4Seid).Nodup

/-- The last five characters of a SUPI, all of a shorter one. -/
def supiTail (req : HttpMessage) : Str :=
  let supi := get req.body (lit "supi")
  supi.drop (supi.length - 5)

/-- What the served creations name their contexts by, up to the request that ends the SMF. -/
def creations : List HttpMessage → List (Str × UInt32)
  | [] => []
  | req :: reqs =>
    if isCreate req then
      match pduSessionId req with
      | none => []
      | some psi => (supiTail req, UInt32.ofInt psi) :: creations reqs
    else creations reqs

def refOf (tail : Str) : Str := lit "/nsmf-pdusession/v1/sm-contexts/ue-" ++ tail

def cpSeidOf (psi : UInt32) : UInt64 := 0x0000000100000000 ||| psi.toUInt64

theorem refOf_injective : Function.Injective refOf := fun _ _ h => List.append_cancel_left h

theorem cpSeidOf_injective : Function.Injective cpSeidOf := by
  intro a b h
  apply UInt32.toBitVec_inj.mp
  apply BitVec.eq_of_getLsbD_eq
  intro i hi
  have hhigh : ∀ i < 32, (0x0000000100000000#64).getLsbD i = false := by decide
  have hwide : i < 64 := Nat.lt_trans hi (by decide)
  have hbit := congrArg (fun seid : UInt64 => seid.toBitVec.getLsbD i) h
  simpa [cpSeidOf, hwide, hhigh i hi, -BitVec.getLsbD_eq_getElem] using hbit

theorem n4Seid_request (seq : UInt32) (psi : UInt32) :
    n4Seid (.n4Request (buildSessionEstReq smfIp (cpSeidOf psi) seq 1 1)) = some (cpSeidOf psi) := by
  obtain ⟨h, hheader, _, _, hseid⟩ :=
    buildSessionEstReq_seids smfIp (cpSeidOf psi) seq 1 1 0
  rw [n4Seid, hheader, Option.bind_some, hseid]

theorem handleOne_creates {req : HttpMessage} {psi : Int} (s : State) (hcreate : isCreate req = true)
    (hpsi : pduSessionId req = some psi) :
    (handleOne s req).1.alive = s.alive ∧
      (handleOne s req).2.filterMap contextRef = [refOf (supiTail req)] ∧
      (handleOne s req).2.filterMap n4Seid = [cpSeidOf (UInt32.ofInt psi)] := by
  rw [handleOne, hcreate, hpsi]
  refine ⟨rfl, rfl, ?_⟩
  exact List.filterMap_cons_some (n4Seid_request s.pfcpSeq (UInt32.ofInt psi))

theorem serve_dead {s : State} (h : s.alive = false) (reqs : List HttpMessage) :
    (serve s reqs).2 = [] := by
  induction reqs with
  | nil => rfl
  | cons req reqs ih =>
      simp only [serve, serveOne, h, Bool.false_eq_true, if_false, List.nil_append]
      exact ih

theorem serve_names {s : State} (h : s.alive = true) (reqs : List HttpMessage) :
    (serve s reqs).2.filterMap contextRef = ((creations reqs).map Prod.fst).map refOf ∧
      (serve s reqs).2.filterMap n4Seid = ((creations reqs).map Prod.snd).map cpSeidOf := by
  induction reqs generalizing s with
  | nil => exact ⟨rfl, rfl⟩
  | cons req reqs ih =>
      simp only [serve, serveOne, h, if_true, List.filterMap_append, creations]
      cases hcreate : isCreate req with
      | false =>
          have hresult : (handleOne s req).1 = s ∧
              (handleOne s req).2.filterMap contextRef = [] ∧
              (handleOne s req).2.filterMap n4Seid = [] := by
            rw [handleOne, hcreate]
            exact ⟨rfl, rfl, rfl⟩
          obtain ⟨hstate, hrefs, hseids⟩ := hresult
          rw [hstate, hrefs, hseids]
          exact ih h
      | true =>
          cases hpsi : pduSessionId req with
          | none =>
              have hresult : (handleOne s req).1.alive = false ∧
                  (handleOne s req).2.filterMap contextRef = [] ∧
                  (handleOne s req).2.filterMap n4Seid = [] := by
                rw [handleOne, hcreate, hpsi]
                exact ⟨rfl, rfl, rfl⟩
              obtain ⟨hdead, hrefs, hseids⟩ := hresult
              rw [hrefs, hseids, serve_dead hdead]
              exact ⟨rfl, rfl⟩
          | some psi =>
              obtain ⟨halive, hrefs, hseids⟩ := handleOne_creates s hcreate hpsi
              obtain ⟨hrestRefs, hrestSeids⟩ := ih (halive.trans h)
              rw [hrefs, hseids, hrestRefs, hrestSeids]
              exact ⟨rfl, rfl⟩

/-- Contexts are told apart exactly when their requests differ in the last five characters of the
SUPI and in the PDU session id, pair by pair. -/
theorem distinctContexts_iff (reqs : List HttpMessage) :
    DistinctContexts (serve {} reqs).2 ↔
      ((creations reqs).map Prod.fst).Nodup ∧ ((creations reqs).map Prod.snd).Nodup := by
  obtain ⟨hrefs, hseids⟩ := serve_names (s := {}) rfl reqs
  rw [DistinctContexts, hrefs, hseids, List.nodup_map_iff refOf_injective,
    List.nodup_map_iff cpSeidOf_injective]

def createRequest (supi : String) : HttpMessage where
  startLine := lit "POST /nsmf-pdusession/v1/sm-contexts HTTP/1.1"
  body := obj [(lit "supi", str (lit supi)), (lit "pduSessionId", num 1)]

/-- Two subscribers, session 1 each: one CP F-SEID, and one reference as their SUPIs end alike. -/
theorem two_subscribers_one_context :
    (serve {} [createRequest "imsi-001010000000001", createRequest "imsi-001020000000001"]).2.filterMap
        contextRef = [lit "/nsmf-pdusession/v1/sm-contexts/ue-00001",
          lit "/nsmf-pdusession/v1/sm-contexts/ue-00001"] ∧
      (serve {} [createRequest "imsi-001010000000001", createRequest "imsi-001020000000001"]).2.filterMap
        n4Seid = [0x100000001, 0x100000001] ∧
      ¬ DistinctContexts
        (serve {} [createRequest "imsi-001010000000001", createRequest "imsi-001020000000001"]).2 := by
  have hrefs : (serve {} [createRequest "imsi-001010000000001",
      createRequest "imsi-001020000000001"]).2.filterMap contextRef =
        [lit "/nsmf-pdusession/v1/sm-contexts/ue-00001",
          lit "/nsmf-pdusession/v1/sm-contexts/ue-00001"] := by decide +kernel
  refine ⟨hrefs, by decide +kernel, ?_⟩
  intro h
  have hnodup := h.1
  rw [hrefs] at hnodup
  exact absurd hnodup (by decide)

end MobileCore.ContextIdentity
