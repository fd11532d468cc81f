import MobileCore.DomainProxy

namespace MobileCore.RecordOwnership

open CppText LabelledRuns
open NestedObjects (get)
open DomainProxy

def actor : Input → Option Nat
  | .accept => none
  | .message c _ => some c
  | .disconnect c => some c
  | .exchange c _ => some c
  | .update c => some c

def passing? : Thread → Option Str
  | .forwarding req => some req
  | _ => none

def following? : Thread → Option Str
  | .updating _ resp => some resp
  | _ => none

/-- The identifier of a registration is not in use. -/
def Fresh (s : State) (resp : Str) : Prop :=
  get resp (lit "type") = lit "RegistrationResponse" →
    success (get resp (lit "responseCode")) = true →
      get resp (lit "cbsdId") = [] ∨ s.registry.lookup (get resp (lit "cbsdId")) = none

instance (s : State) (resp : Str) : Decidable (Fresh s resp) :=
  inferInstanceAs (Decidable (_ → _ → _))

def FreshIds (s : State) : Input → Prop
  | .update c => ∀ conn ∈ s.conns[c]?, ∀ resp ∈ following? conn.thread, Fresh s resp
  | _ => True

instance FreshIds.decidable (s : State) : (i : Input) → Decidable (FreshIds s i)
  | .update c => inferInstanceAs (Decidable (∀ conn ∈ s.conns[c]?, _))
  | .accept => .isTrue trivial
  | .message _ _ => .isTrue trivial
  | .disconnect _ => .isTrue trivial
  | .exchange _ _ => .isTrue trivial

/-- A connection that has an identifier and has not ended. -/
structure Holds (s : State) (c : Nat) (conn : Conn) : Prop where
  present : s.conns[c]? = some conn
  live : conn.thread ≠ .exited
  named : conn.myCbsdId ≠ []

structure Owned (s : State) : Prop where
  held : ∀ c conn, Holds s c conn → (s.registry.lookup conn.myCbsdId).isSome = true
  distinct : ∀ c d conn other, Holds s c conn → Holds s d other →
    conn.myCbsdId = other.myCbsdId → c = d

/-- A step of the connection `c`: its own entry changes from `old` to `conn`, the other records
stay, and if it has an identifier afterwards then it had its record before or has a new one. -/
structure Acts (s : State) (c : Nat) (old conn : Conn) (s' : State) : Prop where
  before : s.conns[c]? = some old
  live : old.thread ≠ .exited
  after : ∀ d, s'.conns[d]? = if d = c then some conn else s.conns[d]?
  others : ∀ k, k ≠ [] → k ≠ old.myCbsdId → (s.registry.lookup k).isSome = true →
    s'.registry.lookup k = s.registry.lookup k
  own : conn.thread ≠ .exited → conn.myCbsdId ≠ [] →
    (conn.myCbsdId = old.myCbsdId ∧
        (s'.registry.lookup conn.myCbsdId).isSome = (s.registry.lookup conn.myCbsdId).isSome) ∨
      (s.registry.lookup conn.myCbsdId = none ∧
        (s'.registry.lookup conn.myCbsdId).isSome = true)

section Steps

variable {s s' : State} {i : Input} {es : List Event} {c d : Nat} {old conn other : Conn}

theorem Acts.of_thread {thread : Thread} (hold : s.conns[c]? = some old)
    (hlive : old.thread ≠ .exited) : Acts s c old { old with thread := thread }
      (s.setConn c { old with thread := thread }) where
  before := hold
  live := hlive
  after := conns_setConn hold
  others _ _ _ _ := rfl
  own _ _ := Or.inl ⟨rfl, rfl⟩

theorem Acts.of_update {thread : Thread} (f : CbsdInfo → CbsdInfo)
    (hold : s.conns[c]? = some old) (hlive : old.thread ≠ .exited) :
    Acts s c old { old with thread := thread }
      ({ s with registry := s.registry.update old.myCbsdId f }.setConn c
        { old with thread := thread }) where
  before := hold
  live := hlive
  after := conns_setConn hold
  others k _ hk _ := by rw [registry_setConn, lookup_update, if_neg hk]
  own _ _ := by
    refine Or.inl ⟨rfl, ?_⟩
    rw [registry_setConn, lookup_update, if_pos rfl, Option.isSome_map]

theorem Acts.of_remove {registry : CbsdRegistry} (hold : s.conns[c]? = some old)
    (hlive : old.thread ≠ .exited) (hregistry : ∀ k, k ≠ old.myCbsdId →
      registry.lookup k = s.registry.lookup k) :
    Acts s c old { old with thread := .exited }
      ({ s with registry := registry }.setConn c { old with thread := .exited }) where
  before := hold
  live := hlive
  after := conns_setConn hold
  others k _ hk _ := hregistry k hk
  own hopen := absurd rfl hopen

theorem step_acts (hstep : step s i = some (s', es)) (hfresh : FreshIds s i) :
    (i = .accept ∧ s' = { s with conns := s.conns ++ [{}] }) ∨
      ∃ c old conn, actor i = some c ∧ Acts s c old conn s' := by
  cases step_steps hstep with
  | accept => exact Or.inl ⟨rfl, rfl⟩
  | @reject c conn req err hold hthread =>
      refine Or.inr ⟨c, conn, conn, rfl, hold, ?_, ?_, fun _ _ _ _ => rfl,
        fun _ _ => Or.inl ⟨rfl, rfl⟩⟩
      · rw [hthread]
        decide
      · intro d
        split
        · rename_i heq
          rw [heq, hold]
        · rfl
  | @forward c conn req hold hthread =>
      refine Or.inr ⟨c, conn, _, rfl, .of_thread hold ?_⟩
      rw [hthread]
      decide
  | @disconnect c conn hold hthread =>
      refine Or.inr ⟨c, conn, _, rfl, .of_remove hold ?_ ?_⟩
      · rw [hthread]
        decide
      · intro k hk
        split
        · rfl
        · rw [lookup_remove, if_neg hk]
  | @exchange c id req resp hold =>
      exact Or.inr ⟨c, _, _, rfl, .of_thread hold fun hexited => by cases hexited⟩
  | @update c id id' req resp registry ended hold hupdates =>
      have hopen : Thread.updating req resp ≠ .exited := fun hexited => by cases hexited
      refine Or.inr ⟨c, ⟨id, .updating req resp⟩, ⟨id', if ended then .exited else .receiving⟩,
        rfl, ?_⟩
      cases hupdates with
      | registered htype hok =>
          have hnew := hfresh _ hold resp rfl htype hok
          refine ⟨hold, hopen, conns_setConn hold, ?_, ?_⟩
          · intro k hk _ hsome
            rw [registry_setConn, lookup_upsert, if_neg]
            intro heq
            rcases hnew with hempty | hnone
            · exact hk (heq.trans hempty)
            · rw [show k = get resp (lit "cbsdId") from heq, hnone] at hsome
              cases hsome
          · intro _ hnamed
            refine Or.inr ⟨hnew.resolve_left hnamed, ?_⟩
            rw [registry_setConn, lookup_upsert]
            exact congrArg Option.isSome (if_pos rfl)
      | granted => exact .of_update _ hold hopen
      | authorized => exact .of_update _ hold hopen
      | relinquished => exact .of_update _ hold hopen
      | deregistered => exact .of_remove hold hopen fun k hk => by rw [lookup_remove, if_neg hk]
      | unchanged => exact .of_thread hold hopen

theorem Acts.holds (h : Acts s c old conn s') (hd : d ≠ c) :
    Holds s' d other ↔ Holds s d other := by
  have hpresent : s'.conns[d]? = s.conns[d]? := (h.after d).trans (if_neg hd)
  constructor
  · intro hholds
    exact ⟨hpresent ▸ hholds.present, hholds.live, hholds.named⟩
  · intro hholds
    exact ⟨hpresent ▸ hholds.present, hholds.live, hholds.named⟩

theorem Owned.kept (hs : Owned s) (h : Acts s c old conn s') (hd : d ≠ c)
    (hother : Holds s d other) :
    s'.registry.lookup other.myCbsdId = s.registry.lookup other.myCbsdId := by
  apply h.others _ hother.named
  · intro heq
    have hold : Holds s c old := ⟨h.before, h.live, fun hempty => hother.named (heq.trans hempty)⟩
    exact hd (hs.distinct d c other old hother hold heq)
  · exact hs.held d other hother

theorem Owned.acts (hs : Owned s) (h : Acts s c old conn s') : Owned s' := by
  have hself {first : Conn} (hfirst : Holds s' c first) : first = conn := by
    have hpresent := hfirst.present
    rw [h.after, if_pos rfl] at hpresent
    exact (Option.some.inj hpresent).symm
  have hclash {d : Nat} {first second : Conn} (hd : d ≠ c) (hfirst : Holds s' d first)
      (hsecond : Holds s' c second) : first.myCbsdId ≠ second.myCbsdId := by
    intro heq
    obtain rfl := hself hsecond
    have hbefore := (h.holds hd).mp hfirst
    rcases h.own hsecond.live hsecond.named with ⟨hid, -⟩ | ⟨hnone, -⟩
    · have hold : Holds s c old := ⟨h.before, h.live, hid ▸ hsecond.named⟩
      exact hd (hs.distinct d c first old hbefore hold (heq.trans hid))
    · have hheld := hs.held d first hbefore
      rw [heq, hnone] at hheld
      cases hheld
  constructor
  · intro d first hfirst
    by_cases hd : d = c
    · subst hd
      obtain rfl := hself hfirst
      rcases h.own hfirst.live hfirst.named with ⟨hid, hsome⟩ | ⟨-, hsome⟩
      · rw [hsome, hid]
        exact hs.held d old ⟨h.before, h.live, hid ▸ hfirst.named⟩
      · exact hsome
    · have hbefore := (h.holds hd).mp hfirst
      rw [hs.kept h hd hbefore]
      exact hs.held d first hbefore
  · intro d e first second hfirst hsecond heq
    by_cases hd : d = c
    · by_cases he : e = c
      · exact hd.trans he.symm
      · subst hd
        exact absurd heq.symm (hclash he hsecond hfirst)
    · by_cases he : e = c
      · subst he
        exact absurd heq (hclash hd hfirst hsecond)
      · exact hs.distinct d e first second ((h.holds hd).mp hfirst) ((h.holds he).mp hsecond) heq

theorem holds_accept :
    Holds { s with conns := s.conns ++ [{}] } d other ↔ Holds s d other := by
  constructor
  · rintro ⟨hpresent, hlive, hnamed⟩
    rw [List.getElem?_append] at hpresent
    split at hpresent
    · exact ⟨hpresent, hlive, hnamed⟩
    · obtain rfl := List.mem_singleton.mp (List.mem_of_getElem? hpresent)
      exact absurd rfl hnamed
  · rintro ⟨hpresent, hlive, hnamed⟩
    obtain ⟨hlt, -⟩ := List.getElem?_eq_some_iff.mp hpresent
    exact ⟨(List.getElem?_append_left hlt).trans hpresent, hlive, hnamed⟩

theorem owned_step (hs : Owned s) (hfresh : FreshIds s i) (hstep : step s i = some (s', es)) :
    Owned s' := by
  rcases step_acts hstep hfresh with ⟨-, rfl⟩ | ⟨c, old, conn, -, hacts⟩
  · constructor
    · intro d first hfirst
      exact hs.held d first (holds_accept.mp hfirst)
    · intro d e first second hfirst hsecond
      exact hs.distinct d e first second (holds_accept.mp hfirst) (holds_accept.mp hsecond)
  · exact hs.acts hacts

end Steps

section Threads

variable {s s' : State} {i : Input} {es : List Event} {c d : Nat} {old conn other : Conn}
  {F : Str → CbsdInfo → Str → Prop} {U : Str → CbsdInfo → Str → Str → Prop}

theorem info_of_empty (h : conn.myCbsdId = []) : info s conn = {} := by
  rw [info, h]
  rfl

theorem info_of_ne (h : conn.myCbsdId ≠ []) : info s conn = s.registry.get conn.myCbsdId := by
  rw [info, if_neg fun hempty => h (List.isEmpty_iff.mp hempty)]

theorem Owned.info_kept (hs : Owned s) (h : Acts s c old conn s') (hd : d ≠ c)
    (hother : s.conns[d]? = some other) (hlive : other.thread ≠ .exited) :
    info s' other = info s other := by
  by_cases hid : other.myCbsdId = []
  · rw [info_of_empty hid, info_of_empty hid]
  · rw [info_of_ne hid, info_of_ne hid, CbsdRegistry.get, CbsdRegistry.get,
      hs.kept h hd ⟨hother, hlive, hid⟩]

/-- What the threads between the guard and the registry know of their identifier, the record that
they have read, the request and the response. -/
structure Carries (F : Str → CbsdInfo → Str → Prop) (U : Str → CbsdInfo → Str → Str → Prop)
    (s : State) : Prop where
  forwarding : ∀ (c : Nat) (id req : Str), s.conns[c]? = some ⟨id, .forwarding req⟩ →
    F id (info s ⟨id, .forwarding req⟩) req
  updating : ∀ (c : Nat) (id req resp : Str), s.conns[c]? = some ⟨id, .updating req resp⟩ →
    U id (info s ⟨id, .updating req resp⟩) req resp

theorem Carries.step (h : Carries F U s) (hs : Owned s) (hfresh : FreshIds s i)
    (hstep : step s i = some (s', es))
    (hforward : ∀ c conn req, i = .message c req → s.conns[c]? = some conn →
      stateMachineGuard (info s conn).state (get req (lit "type")) = none →
        F conn.myCbsdId (info s conn) req)
    (hexchange : ∀ c id req resp, i = .exchange c resp →
      s.conns[c]? = some ⟨id, .forwarding req⟩ → F id (info s ⟨id, .forwarding req⟩) req →
        U id (info s ⟨id, .forwarding req⟩) req resp) : Carries F U s' := by
  have hactor {c : Nat} {conn : Conn} (hactor : actor i = some c)
      (hconn : s'.conns[c]? = some conn) :
      (∀ req, conn.thread = .forwarding req → F conn.myCbsdId (info s' conn) req) ∧
        ∀ req resp, conn.thread = .updating req resp →
          U conn.myCbsdId (info s' conn) req resp := by
    cases step_steps hstep with
    | accept => cases hactor
    | reject _ hthread =>
        constructor
        · rintro req hreq
          obtain ⟨id, thread⟩ := conn
          cases hreq
          exact h.forwarding c id req hconn
        · rintro req resp hreq
          obtain ⟨id, thread⟩ := conn
          cases hreq
          exact h.updating c id req resp hconn
    | @forward _ old req hold hthread hnone =>
        cases hactor
        rw [conns_setConn_self hold] at hconn
        cases hconn
        constructor
        · intro req' hreq
          cases hreq
          exact hforward c old req rfl hold hnone
        · intro req' resp hreq
          cases hreq
    | disconnect hold =>
        cases hactor
        rw [handleDisconnect, conns_setConn_self hold] at hconn
        cases hconn
        constructor
        · intro req hreq
          cases hreq
        · intro req resp hreq
          cases hreq
    | @exchange _ id req resp hold =>
        cases hactor
        rw [conns_setConn_self hold] at hconn
        cases hconn
        constructor
        · intro req' hreq
          cases hreq
        · intro req' resp' hreq
          cases hreq
          exact hexchange c id req resp rfl hold (h.forwarding c id req hold)
    | @update _ _ _ _ _ _ ended hold =>
        cases hactor
        rw [conns_setConn_self hold] at hconn
        cases hconn
        constructor
        · intro req hreq
          cases ended <;> cases hreq
        · intro req resp hreq
          cases ended <;> cases hreq
  have hothers {d : Nat} {conn : Conn} (hlive : conn.thread ≠ .receiving)
      (hlive' : conn.thread ≠ .exited) (hconn : s'.conns[d]? = some conn) :
      actor i = some d ∨ (s.conns[d]? = some conn ∧ info s' conn = info s conn) := by
    rcases step_acts hstep hfresh with ⟨-, rfl⟩ | ⟨c, old, new, hactor, hacts⟩
    · rw [List.getElem?_append] at hconn
      split at hconn
      · exact Or.inr ⟨hconn, rfl⟩
      · obtain rfl := List.mem_singleton.mp (List.mem_of_getElem? hconn)
        exact absurd rfl hlive
    · by_cases hd : d = c
      · exact Or.inl (hd ▸ hactor)
      · rw [hacts.after, if_neg hd] at hconn
        exact Or.inr ⟨hconn, hs.info_kept hacts hd hconn hlive'⟩
  constructor
  · intro d id req hconn
    rcases hothers (fun h => by cases h) (fun h => by cases h) hconn with hd | ⟨hold, hinfo⟩
    · exact (hactor hd hconn).1 req rfl
    · rw [hinfo]
      exact h.forwarding d id req hold
  · intro d id req resp hconn
    rcases hothers (fun h => by cases h) (fun h => by cases h) hconn with hd | ⟨hold, hinfo⟩
    · exact (hactor hd hconn).2 req resp rfl
    · rw [hinfo]
      exact h.updating d id req resp hold

theorem carries_init : Carries F U init where
  forwarding c id req hconn := by cases hconn
  updating c id req resp hconn := by cases hconn

end Threads

theorem owned_init : Owned init where
  held c conn hconn := by cases hconn.present
  distinct c d conn other hconn := by cases hconn.present

end MobileCore.RecordOwnership
