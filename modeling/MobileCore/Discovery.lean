import MobileCore.FlatObjects
import MobileCore.FunctionRepository
import MobileCore.LabelledRuns
import Mathlib.Data.List.TakeWhile

/-!
# Registration and discovery over a history of requests

The NRF takes requests one after another. It looks for the name of the query parameter anywhere in
the query, cuts ports to sixteen bits, and has one profile for each type.
-/

namespace MobileCore.Discovery

open CppText LastWrite WireJson FlatObjects LabelledRuns
open SessionManagement (HttpMessage)
open FunctionRepository (Event handleRequest getQueryParam isRegister isDiscover method path splitPath)

/-- What follows the first question mark. -/
def query (path : Str) : Str := (path.dropWhile (· != 63)).tail

def value? (needle part : Str) : Option Str :=
  if needle.isPrefixOf part then some (part.drop needle.length) else none

/-- The value of the first parameter of the name, among the parts between the ampersands. -/
def parameter? (path key : Str) : Option Str :=
  ((query path).splitOn 38).findSome? (value? (key ++ lit "="))

structure Registration where
  nfType : Str
  host : Str
  port : Nat
deriving DecidableEq

/-- A port that a profile can have. -/
def port? (text : Str) : Option Nat :=
  match stoi text with
  | some n => if 1 ≤ n ∧ n ≤ 65535 then some n.toNat else none
  | none => none

def registration? (req : HttpMessage) : Option Registration :=
  let nfType := get req.body (lit "nfType")
  match isRegister req, port? (get req.body (lit "port")) with
  | true, some port => if nfType = [] then none else some ⟨nfType, get req.body (lit "host"), port⟩
  | _, _ => none

/-- The registration of a type that stands after the requests. -/
def standing (reqs : List HttpMessage) (nfType : Str) : Option Registration :=
  lastWhere (fun r => r.nfType = nfType) (reqs.filterMap registration?)

/-- The process with its profiles; an exception ends it. -/
def nrf : Machine (Option FunctionRepository.State) HttpMessage Event
  | none, _ => none
  | some s, req =>
    let (s', es) := handleRequest s req
    some (if .crashed ∈ es then none else some s', es)

/-- A discovery is answered with the host and the port that the client reads back. -/
def Found (r : Registration) (es : List Event) : Prop :=
  ∃ body, es = [.found (httpBuild (lit "HTTP/1.1 200 OK") body [])] ∧
    get body (lit "host") = r.host ∧ get body (lit "port") = num r.port

/-- The answer to a request after others: a discovery finds the registration that stands, and
what has no type or no port is refused. -/
structure Answered (front : List HttpMessage) (req : HttpMessage) (s : FunctionRepository.State)
    (s' : Option FunctionRepository.State) (es : List Event) : Prop where
  found : ∀ nfType r, isDiscover req = true →
    parameter? (path req) (lit "target-nf-type") = some nfType →
      standing front nfType = some r → Found r es
  notFound : ∀ nfType, isDiscover req = true →
    parameter? (path req) (lit "target-nf-type") = some nfType →
      standing front nfType = none → ∃ text, es = [.notFound text]
  unnamed : isDiscover req = true → parameter? (path req) (lit "target-nf-type") = none →
    ∀ text, .found text ∉ es
  registered : ∀ r, registration? req = some r → ∃ text, es = [.registered text]
  refused : isRegister req = true → registration? req = none →
    s' = some s ∧ ∀ text, .registered text ∉ es

/-- Every request finds the process there and is answered. -/
def Lawful (reqs : List HttpMessage) : Prop :=
  ∀ front req back, reqs = front ++ req :: back →
    ∃ s tr s' es, exec nrf (some {}) front = some (some s, tr) ∧ nrf (some s) req = some (s', es) ∧
      Answered front req s s' es

def nfInstanceId (req : HttpMessage) : Str :=
  (splitPath ((path req).takeWhile (· != 63))).getD 3 []

/-- The first occurrence of the name starts a parameter. -/
def Leads (needle query : Str) : Prop :=
  ∀ p ∈ find needle query, p = 0 ∨ query[p - 1]? = some 38

/-- A registration has a type, a port and no quotes, and the name of the parameter of a discovery
is not part of another one before it. -/
structure Proper (req : HttpMessage) : Prop where
  registers : isRegister req = true → (registration? req).isSome = true ∧
    Quoteless (nfInstanceId req) ∧ Quoteless (get req.body (lit "nfType")) ∧
    Quoteless (get req.body (lit "host"))
  discovers : isDiscover req = true → Leads (lit "target-nf-type=") (query (path req))

instance (needle query : Str) : Decidable (Leads needle query) :=
  inferInstanceAs (Decidable (∀ p ∈ find needle query, _))

instance (req : HttpMessage) : Decidable (Proper req) :=
  decidable_of_iff
    ((isRegister req = true → (registration? req).isSome = true ∧
        Quoteless (nfInstanceId req) ∧ Quoteless (get req.body (lit "nfType")) ∧
        Quoteless (get req.body (lit "host"))) ∧
      (isDiscover req = true → Leads (lit "target-nf-type=") (query (path req))))
    ⟨fun h => ⟨h.1, h.2⟩, fun h => ⟨h.registers, h.discovers⟩⟩

section Queries

variable {needle text : Str}

theorem find_drop {p k : Nat} (h : find needle text = some p) (hk : k ≤ p) :
    find needle (text.drop k) = some (p - k) := by
  induction text generalizing p k with
  | nil =>
      rw [find] at h
      split at h
      · cases h
        rw [Nat.le_zero.mp hk, List.drop_nil, find, if_pos (by assumption)]
      · cases h
  | cons c rest ih =>
      cases k with
      | zero => exact h
      | succ k =>
          rw [find] at h
          split at h
          · cases h
            exact absurd hk (Nat.not_succ_le_zero k)
          · obtain ⟨q, hq, rfl⟩ := Option.map_eq_some_iff.mp h
            rw [List.drop_succ_cons, Nat.add_sub_add_right]
            exact ih hq (Nat.le_of_succ_le_succ hk)

theorem find_of_front (h : needle <+: text) : find needle text = some 0 := by
  cases text with
  | nil =>
      rw [List.prefix_nil.mp h]
      rfl
  | cons c rest => rw [find, if_pos (List.isPrefixOf_iff_prefix.mpr h)]

theorem value?_of_front {part : Str} (h : needle <+: part) :
    value? needle part = some (part.drop needle.length) :=
  if_pos (List.isPrefixOf_iff_prefix.mpr h)

theorem value?_of_not {part : Str} (h : ¬needle <+: part) : value? needle part = none :=
  if_neg fun hfront => h (List.isPrefixOf_iff_prefix.mp hfront)

theorem prefix_part {part rest : Str} (hneedle : 38 ∉ needle)
    (h : needle <+: part ++ 38 :: rest) : needle <+: part := by
  rcases List.prefix_or_prefix_of_prefix h (List.prefix_append part (38 :: rest)) with
    hshort | ⟨tail, rfl⟩
  · exact hshort
  · cases tail with
    | nil => rw [List.append_nil]
    | cons c tail =>
        have htail := (List.prefix_append_right_inj part).mp h
        obtain ⟨rfl, -⟩ := List.cons_prefix_cons.mp htail
        exact absurd (List.mem_append_right part List.mem_cons_self) hneedle

theorem findSome?_value? (hneedle : 38 ∉ needle) (hleads : Leads needle text) :
    (text.splitOn 38).findSome? (value? needle) =
      (find needle text).map fun p => (text.drop (p + needle.length)).takeWhile (· != 38) := by
  have hwhole {part : Str} (hpart : 38 ∉ part) (rest : Str) :
      (part ++ rest).takeWhile (· != 38) = part ++ rest.takeWhile (· != 38) := by
    apply List.takeWhile_append_of_pos
    intro c hc
    exact bne_iff_ne.mpr fun heq => hpart (heq ▸ hc)
  induction hlength : text.length using Nat.strongRecOn generalizing text with
  | ind n ih =>
      by_cases hamp : 38 ∈ text
      · obtain ⟨part, rest, rfl, hpart⟩ := List.eq_append_cons_of_mem hamp
        rw [List.splitOn_append_cons_self_of_not_mem hpart, List.findSome?_cons]
        by_cases hfront : needle <+: part
        · obtain ⟨tail, rfl⟩ := hfront
          have htail : 38 ∉ tail := fun h => hpart (List.mem_append_right needle h)
          rw [value?_of_front (List.prefix_append needle tail), List.append_assoc,
            find_of_front (List.prefix_append needle _), Option.map_some, Nat.zero_add,
            List.drop_left, List.drop_left, hwhole htail,
            List.takeWhile_cons_of_neg (by decide), List.append_nil]
        · rw [value?_of_not hfront]
          dsimp only
          have hdrop : (part ++ 38 :: rest).drop (part.length + 1) = rest := by
            rw [List.drop_append, List.drop_of_length_le (Nat.le_succ _)]
            simp
          have hshort : rest.length < n := by
            rw [← hlength, List.length_append, List.length_cons]
            omega
          cases hfind : find needle (part ++ 38 :: rest) with
          | none =>
              have hnone : find needle rest = none := by
                rw [← Option.not_isSome_iff_eq_none, find_isSome_iff]
                intro hinfix
                have hwider : needle <:+: part ++ [38] ++ rest :=
                  List.infix_append_of_infix_right hinfix
                rw [List.append_assoc, List.singleton_append, ← find_isSome_iff, hfind] at hwider
                cases hwider
              rw [ih _ hshort (fun p hp => by rw [hnone] at hp; cases hp) rfl, hnone]
              rfl
          | some p =>
              have hfar : part.length + 1 ≤ p := by
                rcases hleads p hfind with rfl | hbefore
                · exact absurd (prefix_part hneedle (prefix_of_find hfind)) hfront
                · by_contra hnear
                  rcases Nat.eq_zero_or_pos p with rfl | hpos
                  · exact absurd (prefix_part hneedle (prefix_of_find hfind)) hfront
                  · rw [List.getElem?_append_left (by omega)] at hbefore
                    exact hpart (List.mem_of_getElem? hbefore)
              have hrest : find needle rest = some (p - (part.length + 1)) := by
                rw [← find_drop hfind hfar, hdrop]
              have hleads' : Leads needle rest := by
                intro q hq
                obtain rfl := Option.some.inj (hrest.symm.trans hq)
                by_cases hfirst : p = part.length + 1
                · exact Or.inl (by omega)
                · right
                  have hbefore := (hleads p hfind).resolve_left (by omega)
                  rw [List.getElem?_append_right (by omega)] at hbefore
                  have hindex : p - 1 - part.length = p - (part.length + 1) - 1 + 1 := by omega
                  rw [hindex, List.getElem?_cons_succ] at hbefore
                  exact hbefore
              rw [ih _ hshort hleads' rfl, hrest, Option.map_some, Option.map_some]
              have hsame : (part ++ 38 :: rest).drop (p + needle.length) =
                  rest.drop (p - (part.length + 1) + needle.length) := by
                rw [← hdrop, List.drop_drop, hdrop]
                congr 1
                omega
              rw [hsame]
      · rw [List.splitOn_eq_singleton hamp, List.findSome?_singleton]
        cases hfind : find needle text with
        | none =>
            rw [value?_of_not]
            · rfl
            · intro hfront
              rw [find_of_front hfront] at hfind
              cases hfind
        | some p =>
            obtain rfl : p = 0 := by
              rcases hleads p hfind with hzero | hbefore
              · exact hzero
              · exact absurd (List.mem_of_getElem? hbefore) hamp
            have hvalue : 38 ∉ text.drop needle.length := fun h => hamp (List.mem_of_mem_drop h)
            have hfront : needle <+: text := prefix_of_find hfind
            rw [value?_of_front hfront, Option.map_some, Nat.zero_add,
              ← List.append_nil (text.drop needle.length), hwhole hvalue, List.takeWhile_nil]

theorem getQueryParam_eq (path : Str) (h : Leads (lit "target-nf-type=") (query path)) :
    getQueryParam path (lit "target-nf-type") =
      (parameter? path (lit "target-nf-type")).getD [] := by
  have hneedle : lit "target-nf-type" ++ lit "=" = lit "target-nf-type=" := by decide
  rw [parameter?, hneedle, findSome?_value? (by decide) h, getQueryParam, hneedle]
  dsimp only
  split
  · rw [← query]
    split
    · rename_i hfind
      rw [hfind]
      rfl
    · rename_i p hfind
      rw [hfind]
      rfl
  · rename_i hmark
    have hnone : path.dropWhile (· != 63) = [] := by
      rw [List.dropWhile_eq_nil_iff]
      intro c hc
      exact bne_iff_ne.mpr fun heq => hmark (heq ▸ hc)
    rw [query, hnone]
    rfl

end Queries

section Requests

variable {req : HttpMessage} {front : List HttpMessage} {s : FunctionRepository.State}
  {r : Registration}

theorem registration?_eq_some (h : registration? req = some r) :
    isRegister req = true ∧ r.nfType = get req.body (lit "nfType") ∧
      r.host = get req.body (lit "host") ∧ 1 ≤ r.port ∧ r.port ≤ 65535 ∧
      stoi (get req.body (lit "port")) = some (r.port : Int) := by
  rw [registration?] at h
  split at h
  · rename_i port hregister hport
    split at h
    · cases h
    · cases h
      rw [port?] at hport
      split at hport
      · rename_i n hstoi
        split at hport
        · cases hport
          have hn : (n.toNat : Int) = n := Int.toNat_of_nonneg (by omega)
          refine ⟨hregister, rfl, rfl, by show 1 ≤ n.toNat; omega, by show n.toNat ≤ 65535; omega, ?_⟩
          rw [hstoi, ← hn]
          rfl
        · cases hport
      · cases hport
  · cases h

theorem standing_snoc_some (h : registration? req = some r) (nfType : Str) :
    standing (front ++ [req]) nfType =
      if r.nfType = nfType then some r else standing front nfType := by
  rw [standing, List.filterMap_append, List.filterMap_cons, h, List.filterMap_nil, lastWhere_snoc]
  simp only [decide_eq_true_eq]
  rfl

theorem standing_snoc_none (h : registration? req = none) (nfType : Str) :
    standing (front ++ [req]) nfType = standing front nfType := by
  rw [standing, List.filterMap_append, List.filterMap_cons, h, List.filterMap_nil, List.append_nil]
  rfl

/-- The profiles are the registrations that stand, without quotes in them. -/
structure Stands (front : List HttpMessage) (s : FunctionRepository.State) : Prop where
  standing : ∀ nfType, (s.profiles.lookup nfType).map
    (fun p => (⟨p.nfType, p.host, p.port.toNat⟩ : Registration)) = standing front nfType
  plain : ∀ nfType p, s.profiles.lookup nfType = some p →
    Quoteless p.nfInstanceId ∧ Quoteless p.nfType ∧ Quoteless p.host

theorem handleRequest_register (hreg : registration? req = some r) (s : FunctionRepository.State) :
    ∃ text, handleRequest s req =
      (⟨s.profiles.insert r.nfType
        ⟨nfInstanceId req, r.nfType, r.host, UInt16.ofInt r.port⟩⟩, [.registered text]) := by
  obtain ⟨hregister, htype, hhost, -, -, hport⟩ := registration?_eq_some hreg
  rw [handleRequest, if_pos hregister, FunctionRepository.handleRegister]
  rw [hport, htype, hhost]
  exact ⟨_, rfl⟩

theorem not_register_of_discover (h : isDiscover req = true) : isRegister req = false := by
  rw [isDiscover, decide_eq_true_eq] at h
  rw [isRegister, decide_eq_false_iff_not]
  rintro ⟨hput, -⟩
  exact absurd (h.1.symm.trans hput) (by decide)

theorem toNat_port {n : Nat} (h : n ≤ 65535) : (UInt16.ofInt n).toNat = n := by
  show (UInt16.ofNat ((n : Int) % 2 ^ 16).toNat).toNat = n
  have hmod : ((n : Int) % 2 ^ 16).toNat = n := by omega
  rw [hmod]
  exact UInt16.toNat_ofNat_of_lt' (by show n < 65536; omega)

theorem Stands.register (h : Stands front s) (hproper : Proper req)
    (hreg : registration? req = some r) :
    Stands (front ++ [req]) ⟨s.profiles.insert r.nfType
      ⟨nfInstanceId req, r.nfType, r.host, UInt16.ofInt r.port⟩⟩ := by
  obtain ⟨hregister, htype, hhost, -, hport, -⟩ := registration?_eq_some hreg
  constructor
  · intro nfType
    rw [standing_snoc_some hreg]
    split
    · rename_i hsame
      subst hsame
      rw [AList.lookup_insert, Option.map_some, toNat_port hport]
    · rename_i hother
      rw [AList.lookup_insert_ne (Ne.symm hother)]
      exact h.standing nfType
  · intro nfType p hp
    by_cases hsame : nfType = r.nfType
    · subst hsame
      rw [AList.lookup_insert] at hp
      cases hp
      obtain ⟨-, hid, htype', hhost'⟩ := hproper.registers hregister
      exact ⟨hid, htype ▸ htype', hhost ▸ hhost'⟩
    · rw [AList.lookup_insert_ne hsame] at hp
      exact h.plain nfType p hp

theorem Stands.snoc (h : Stands front s) (hproper : Proper req) :
    ∃ s' es, handleRequest s req = (s', es) ∧ .crashed ∉ es ∧ Stands (front ++ [req]) s' := by
  cases hreg : registration? req with
  | some r =>
      obtain ⟨text, htext⟩ := handleRequest_register hreg s
      exact ⟨_, _, htext, by simp, h.register hproper hreg⟩
  | none =>
      have hother : isRegister req ≠ true := by
        intro hregister
        have hsome := (hproper.registers hregister).1
        rw [hreg] at hsome
        cases hsome
      have hcrashed : .crashed ∉ (handleRequest s req).2 := by
        rw [FunctionRepository.crashed_handleRequest]
        exact fun hboth => hother hboth.1
      have hsame : (handleRequest s req).1 = s := by
        apply FunctionRepository.profiles_handleRequest
        rw [handleRequest, if_neg hother]
        intro text
        split
        · rw [FunctionRepository.handleDiscover]
          split <;> simp
        · simp
      refine ⟨s, (handleRequest s req).2, Prod.ext hsame rfl, hcrashed, ?_, h.plain⟩
      intro nfType
      rw [standing_snoc_none hreg]
      exact h.standing nfType

theorem nrf_some (s : FunctionRepository.State) (req : HttpMessage) :
    nrf (some s) req = some
      (if .crashed ∈ (handleRequest s req).2 then none else some (handleRequest s req).1,
        (handleRequest s req).2) := rfl

theorem found_of_lookup {p : FunctionRepository.NfProfile} {nfType : Str}
    (hplain : Quoteless p.nfInstanceId ∧ Quoteless p.nfType ∧ Quoteless p.host)
    (hlookup : s.profiles.lookup nfType = some p) :
    Found ⟨p.nfType, p.host, p.port.toNat⟩ (FunctionRepository.handleDiscover s nfType).2 := by
  obtain ⟨hid, htype, hhost⟩ := hplain
  rw [FunctionRepository.handleDiscover, hlookup]
  refine ⟨_, rfl, ?_, ?_⟩
  · rw [get_obj, look_plain _ (by decide) (by decide) (.quoted _ hid), if_neg (by decide),
      look_plain _ (by decide) (by decide) (.quoted _ htype), if_neg (by decide),
      look_plain _ (by decide) (by decide) (.quoted _ hhost), if_pos rfl]
  · rw [get_obj, look_plain _ (by decide) (by decide) (.quoted _ hid), if_neg (by decide),
      look_plain _ (by decide) (by decide) (.quoted _ htype), if_neg (by decide),
      look_plain _ (by decide) (by decide) (.quoted _ hhost), if_neg (by decide),
      look_plain _ (by decide) (by decide) (flat_num _), if_pos rfl]

theorem standing_nil (front : List HttpMessage) : standing front [] = none := by
  rw [standing, lastWhere_eq_none]
  intro r hr
  obtain ⟨req, -, hreg⟩ := List.mem_filterMap.mp hr
  apply decide_eq_false
  rw [registration?] at hreg
  split at hreg
  · split at hreg
    · cases hreg
    · rename_i hsome
      cases hreg
      exact hsome
  · cases hreg

theorem answered_of_proper (h : Stands front s) (hproper : Proper req) :
    ∃ s' es, nrf (some s) req = some (s', es) ∧ Answered front req s s' es := by
  refine ⟨_, _, nrf_some s req, ?_⟩
  have hdiscover (hreq : isDiscover req = true) : (handleRequest s req).2 =
      (FunctionRepository.handleDiscover s
        ((parameter? (path req) (lit "target-nf-type")).getD [])).2 := by
    rw [handleRequest, if_neg (by rw [not_register_of_discover hreq]; decide), if_pos hreq,
      getQueryParam_eq _ (hproper.discovers hreq)]
  constructor
  · intro nfType r hreq hparam hstands
    rw [← h.standing] at hstands
    obtain ⟨p, hlookup, rfl⟩ := Option.map_eq_some_iff.mp hstands
    rw [hdiscover hreq, hparam]
    exact found_of_lookup (h.plain nfType p hlookup) hlookup
  · intro nfType hreq hparam hstands
    rw [← h.standing, Option.map_eq_none_iff] at hstands
    rw [hdiscover hreq, hparam, FunctionRepository.handleDiscover]
    rw [Option.getD_some, hstands]
    exact ⟨_, rfl⟩
  · intro hreq hparam text
    have hnone := h.standing []
    rw [standing_nil, Option.map_eq_none_iff] at hnone
    rw [hdiscover hreq, hparam, FunctionRepository.handleDiscover, Option.getD_none, hnone]
    simp
  · intro r hreg
    obtain ⟨text, htext⟩ := handleRequest_register hreg s
    rw [htext]
    exact ⟨text, rfl⟩
  · intro hregister hreg
    have hsome := (hproper.registers hregister).1
    rw [hreg] at hsome
    cases hsome

theorem exec_proper (reqs : List HttpMessage) (hproper : ∀ req ∈ reqs, Proper req) :
    ∃ s tr, exec nrf (some {}) reqs = some (some s, tr) ∧ Stands reqs s := by
  induction reqs using List.reverseRecOn with
  | nil =>
      refine ⟨{}, [], rfl, fun _ => rfl, fun nfType p hp => ?_⟩
      cases hp
  | append_singleton reqs req ih =>
      obtain ⟨s, tr, hexec, hstands⟩ := ih fun r hr => hproper r (List.mem_append_left _ hr)
      obtain ⟨s', es, hstep, hcrashed, hafter⟩ :=
        hstands.snoc (hproper req (List.mem_append_right _ (List.mem_singleton_self req)))
      have hlast : exec nrf (some s) [req] = some (some s', es ++ []) := by
        simp only [exec, nrf, hstep, if_neg hcrashed]
      exact ⟨s', _, exec_append nrf reqs [req] _ _ _ _ _ hexec hlast, hafter⟩

/-- A history of proper requests is answered by the registrations that stand. -/
theorem lawful_of_proper (reqs : List HttpMessage) (hproper : ∀ req ∈ reqs, Proper req) :
    Lawful reqs := by
  rintro front req back rfl
  obtain ⟨s, tr, hexec, hstands⟩ :=
    exec_proper front fun r hr => hproper r (List.mem_append_left _ hr)
  obtain ⟨s', es, hstep, hanswered⟩ :=
    answered_of_proper hstands (hproper req (List.mem_append_right _ List.mem_cons_self))
  exact ⟨s, tr, s', es, hexec, hstep, hanswered⟩

end Requests

def registerSelf (nfInstanceId nfType selfHost : Str) (port : Int) : HttpMessage where
  startLine := lit "PUT /nnrf-nfm/v1/nf-instances/" ++ nfInstanceId ++ lit " HTTP/1.1"
  body := obj [(lit "nfInstanceId", str nfInstanceId), (lit "nfType", str nfType),
    (lit "host", str selfHost), (lit "port", num port)]

def discover (targetNfType : Str) : HttpMessage where
  startLine := lit "GET /nnrf-disc/v1/nf-instances?target-nf-type=" ++ targetNfType ++
    lit " HTTP/1.1"
  body := []

/-- Two types register, one of them again, and both are discovered. -/
theorem lawful_two : Lawful [registerSelf (lit "udm-1") (lit "UDM") (lit "127.0.0.1") 29503,
    registerSelf (lit "smf-1") (lit "SMF") (lit "127.0.0.1") 29502,
    registerSelf (lit "udm-2") (lit "UDM") (lit "10.1.0.3") 65535,
    discover (lit "UDM"), discover (lit "AUSF")] :=
  lawful_of_proper _ (by decide +kernel)

/-- A port beyond sixteen bits is registered as another one. -/
theorem not_lawful_port : ¬∀ reqs, Lawful reqs := by
  intro h
  let req := registerSelf (lit "udm-1") (lit "UDM") (lit "127.0.0.1") 70000
  have hstored : ∃ text, handleRequest {} req = (⟨AList.insert (lit "UDM")
      ⟨lit "udm-1", lit "UDM", lit "127.0.0.1", 4464⟩ ∅⟩, [.registered text]) :=
    ⟨_, by rfl⟩
  obtain ⟨s, tr, s', es, hexec, hstep, hanswered⟩ := h [req] [] req [] rfl
  obtain ⟨hs, -⟩ := Prod.mk.inj (Option.some.inj hexec)
  obtain rfl := Option.some.inj hs
  obtain ⟨text, htext⟩ := hstored
  have hnone : registration? req = none := by decide +kernel
  have hregister : isRegister req = true := by decide +kernel
  rw [nrf_some, htext] at hstep
  obtain ⟨-, rfl⟩ := Prod.mk.inj (Option.some.inj hstep)
  exact (hanswered.refused hregister hnone).2 text (List.mem_singleton_self _)

end MobileCore.Discovery
