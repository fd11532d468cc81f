import MobileCore.LabelledRuns
import MobileCore.PfcpMessages

namespace MobileCore.UserPlaneSessions

open MobileCore.LabelledRuns
open MobileCore.PfcpMessages

structure PfcpSession where
  cpSeid : UInt64
  upSeid : UInt64
  pdrCount : UInt32 := 0
  farCount : UInt32 := 0
deriving DecidableEq, Repr

structure State where
  sessions : List PfcpSession := []
  upSeidCounter : UInt64 := 0xABC0000000000001
  running : Bool := true
deriving DecidableEq

/-- What `recvfrom` returns, and what the header variable holds before it is parsed. -/
structure Datagram where
  bytes : List UInt8
  stale : UInt64 := 0
deriving DecidableEq

/-- `PcapWriter::IP_UPF`. -/
def upfIp : UInt32 := 0x0A010004

/-- The bytes that fit in the receive buffer. -/
def Datagram.pkt (d : Datagram) : List UInt8 := d.bytes.take 4096

def Datagram.header (d : Datagram) : Option Header := parseHeader d.stale d.pkt

def respond (type : UInt8) (upSeid : UInt64) (seq : UInt32) : List UInt8 :=
  (buildRsp upfIp upSeid seq).set 1 type

def establish (s : State) (h : Header) : State × List (List UInt8) :=
  ({ s with
      sessions := s.sessions ++ [{ cpSeid := h.seid, upSeid := s.upSeidCounter, pdrCount := 1,
                                   farCount := 1 }]
      upSeidCounter := s.upSeidCounter + 1 },
    [respond 51 s.upSeidCounter h.seq])

/-- One pass of the receive loop, which an empty datagram ends. -/
def step : Machine State Datagram (List UInt8) := fun s d =>
  if ¬s.running then none
  else if d.pkt = [] then some ({ s with running := false }, [])
  else
    match d.header with
    | none => some (s, [])
    | some h =>
      if h.msgType = 50 then some (establish s h)
      else if h.msgType = 52 then some (s, [respond 53 0 h.seq])
      else if h.msgType = 54 then some (s, [respond 55 0 h.seq])
      else some (s, [])

def init : State := {}

def PfcpSession.seids (x : PfcpSession) : UInt64 × UInt64 := (x.cpSeid, x.upSeid)

/-- The sessions that requests have established and not deleted, with the SEID of the request's
F-SEID and the one that the UPF gives out. -/
structure Ledger where
  sessions : List (UInt64 × UInt64) := []
  issued : UInt64 := 0xABC0000000000001
deriving DecidableEq

/-- Which sessions the header of a deletion request names. -/
abbrev Naming := Header → UInt64 × UInt64 → Bool

def Ledger.receive (names : Naming) (l : Ledger) (d : Datagram) : Ledger :=
  match d.header with
  | none => l
  | some h =>
    if h.msgType = 50 then
      match cpFSeid h d.pkt with
      | none => { l with issued := l.issued + 1 }
      | some seid => ⟨l.sessions ++ [(seid, l.issued)], l.issued + 1⟩
    else if h.msgType = 54 then { l with sessions := l.sessions.filter fun x => !names h x }
    else l

def ledger (names : Naming) (ds : List Datagram) : Ledger := ds.foldl (Ledger.receive names) {}

/-- An establishment request that repeats its F-SEID in the header, and a deletion request for no
session of the table. -/
def Kept (names : Naming) (s : State) (d : Datagram) : Prop :=
  ∀ h, d.header = some h →
    (h.msgType = 50 → cpFSeid h d.pkt = some h.seid) ∧
      (h.msgType = 54 → ∀ x ∈ s.sessions, names h x.seids = false)

theorem step_sessions {s s' : State} {d : Datagram} {es : List (List UInt8)}
    (h : step s d = some (s', es)) :
    (∃ header, d.header = some header ∧ header.msgType = 50 ∧
      s'.sessions.map PfcpSession.seids =
        s.sessions.map PfcpSession.seids ++ [(header.seid, s.upSeidCounter)] ∧
      s'.upSeidCounter = s.upSeidCounter + 1) ∨
    ((∀ header, d.header = some header → header.msgType ≠ 50) ∧ s'.sessions = s.sessions ∧
      s'.upSeidCounter = s.upSeidCounter) := by
  rw [step] at h
  split at h
  · cases h
  split at h
  · rename_i hempty
    obtain rfl := congrArg Prod.fst (Option.some.inj h)
    have hnone : d.header = none := by
      rw [Datagram.header, hempty]
      rfl
    exact .inr ⟨by simp [hnone], rfl, rfl⟩
  cases hheader : d.header with
  | none =>
      simp only [hheader] at h
      obtain rfl := congrArg Prod.fst (Option.some.inj h)
      exact .inr ⟨by simp, rfl, rfl⟩
  | some header =>
      simp only [hheader] at h
      by_cases htype : header.msgType = 50
      · rw [if_pos htype] at h
        obtain rfl := congrArg Prod.fst (Option.some.inj h)
        exact .inl ⟨header, rfl, htype, by simp [establish, PfcpSession.seids], rfl⟩
      · rw [if_neg htype] at h
        right
        refine ⟨by simpa using htype, ?_⟩
        split at h
        · obtain rfl := congrArg Prod.fst (Option.some.inj h)
          exact ⟨rfl, rfl⟩
        split at h
        · obtain rfl := congrArg Prod.fst (Option.some.inj h)
          exact ⟨rfl, rfl⟩
        · obtain rfl := congrArg Prod.fst (Option.some.inj h)
          exact ⟨rfl, rfl⟩

/-- The table of the UPF as the ledger has it. -/
def Agrees (s : State) (l : Ledger) : Prop := s.sessions.map PfcpSession.seids = l.sessions

/-- The table never has fewer sessions than the ledger, and both give out the same SEIDs. -/
def Covers (s : State) (l : Ledger) : Prop :=
  l.sessions.length ≤ s.sessions.length ∧ l.issued = s.upSeidCounter

theorem length_filter_eq {α : Type} (p : α → Bool) (xs : List α)
    (h : xs.length ≤ (xs.filter p).length) : xs.filter p = xs :=
  (List.filter_sublist).eq_of_length_le h

theorem agrees_step (names : Naming) {s s' : State} {l : Ledger} {d : Datagram}
    {es : List (List UInt8)} (h : step s d = some (s', es)) (hcovers : Covers s l) :
    Covers s' (l.receive names d) ∧
      (Agrees s' (l.receive names d) ↔ Agrees s l ∧ Kept names s d) := by
  obtain ⟨hlength, hissued⟩ := hcovers
  rcases step_sessions h with ⟨header, hheader, htype, hsessions, hcounter⟩ | ⟨hother, hsame, hcounter⟩
  · have hgrown : s'.sessions.length = s.sessions.length + 1 := by
      have hmapped := congrArg List.length hsessions
      simpa using hmapped
    have hkept : Kept names s d ↔ cpFSeid header d.pkt = some header.seid := by
      rw [Kept, hheader]
      constructor
      · intro hkept
        exact (hkept header rfl).1 htype
      · rintro hseid _ ⟨⟩
        exact ⟨fun _ => hseid, fun hdelete => by rw [htype] at hdelete; cases hdelete⟩
    rw [hkept]
    cases hseid : cpFSeid header d.pkt with
    | none =>
        have hledger : l.receive names d = { l with issued := l.issued + 1 } := by
          simp only [Ledger.receive, hheader, if_pos htype, hseid]
        rw [hledger]
        refine ⟨⟨by simp only; omega, by rw [hcounter, hissued]⟩, ?_⟩
        constructor
        · intro hagrees
          have hsize := congrArg List.length hagrees
          simp only [List.length_map] at hsize
          omega
        · rintro ⟨_, hnone⟩
          cases hnone
    | some seid =>
        have hledger : l.receive names d = ⟨l.sessions ++ [(seid, l.issued)], l.issued + 1⟩ := by
          simp only [Ledger.receive, hheader, if_pos htype, hseid]
        rw [hledger]
        refine ⟨⟨?_, by rw [hcounter, hissued]⟩, ?_⟩
        · rw [List.length_append, hgrown]
          exact Nat.succ_le_succ hlength
        · rw [Agrees, Agrees, hsessions, hissued, List.append_singleton_inj]
          simp [eq_comm]
  · have hcount := congrArg List.length hsame
    cases hheader : d.header with
    | none =>
        have hledger : l.receive names d = l := by
          simp only [Ledger.receive, hheader]
        rw [hledger, Agrees, hsame, ← Agrees]
        refine ⟨⟨by omega, hissued.trans hcounter.symm⟩, ?_⟩
        simp [Kept, hheader]
    | some header =>
        have htype := hother header hheader
        by_cases hdelete : header.msgType = 54
        · have hledger : l.receive names d =
              { l with sessions := l.sessions.filter fun x => !names header x } := by
            simp only [Ledger.receive, hheader, if_neg htype, if_pos hdelete]
          have hfilter := List.length_filter_le (fun x => !names header x) l.sessions
          rw [hledger]
          refine ⟨⟨by simp only; omega, hissued.trans hcounter.symm⟩, ?_⟩
          constructor
          · intro hagrees
            rw [Agrees, hsame] at hagrees
            simp only at hagrees
            have hsize := congrArg List.length hagrees
            rw [List.length_map] at hsize
            have hall := length_filter_eq (fun x => !names header x) l.sessions (by omega)
            rw [hall] at hagrees
            refine ⟨hagrees, ?_⟩
            rintro _ hd
            obtain rfl := Option.some.inj (hheader.symm.trans hd)
            refine ⟨fun heq => absurd heq htype, fun _ x hx => ?_⟩
            have hmem : x.seids ∈ l.sessions := by
              rw [← hagrees]
              exact List.mem_map_of_mem hx
            simpa using List.filter_eq_self.mp hall _ hmem
          · rintro ⟨hagrees, hkept⟩
            rw [Agrees, hsame, hagrees]
            symm
            apply List.filter_eq_self.mpr
            intro y hy
            rw [← hagrees] at hy
            obtain ⟨x, hx, rfl⟩ := List.mem_map.mp hy
            simp [(hkept header hheader).2 hdelete x hx]
        · have hledger : l.receive names d = l := by
            simp only [Ledger.receive, hheader, if_neg htype, if_neg hdelete]
          rw [hledger, Agrees, hsame, ← Agrees]
          refine ⟨⟨by omega, hissued.trans hcounter.symm⟩, ?_⟩
          have hkept : Kept names s d := by
            rintro _ hd
            obtain rfl := Option.some.inj (hheader.symm.trans hd)
            exact ⟨fun heq => absurd heq htype, fun heq => absurd heq hdelete⟩
          simp [hkept]

theorem ledger_snoc (names : Naming) (ds : List Datagram) (d : Datagram) :
    ledger names (ds ++ [d]) = (ledger names ds).receive names d := by
  rw [ledger, List.foldl_append, ← ledger]
  rfl

theorem exec_covers (names : Naming) (ds : List Datagram) (s : State) (tr : List (List UInt8))
    (h : exec step init ds = some (s, tr)) : Covers s (ledger names ds) := by
  induction ds using List.reverseRecOn generalizing s tr with
  | nil =>
      obtain rfl := congrArg Prod.fst (Option.some.inj h)
      exact ⟨Nat.le_refl _, rfl⟩
  | append_singleton ds d ih =>
      obtain ⟨s₀, tr₀, es, hexec, hstep, _⟩ := exec_snoc step ds d init s tr h
      rw [ledger_snoc]
      exact (agrees_step names hstep (ih s₀ tr₀ hexec)).1

/-- After every sequence of datagrams the table has the sessions of the ledger exactly when each
establishment request had the SEID of its F-SEID in the header too and no deletion request named a
session. -/
theorem session_table_agrees_iff (names : Naming) (ds : List Datagram) (s : State)
    (tr : List (List UInt8)) (h : exec step init ds = some (s, tr)) :
    s.sessions.map PfcpSession.seids = (ledger names ds).sessions ↔
      ∀ before d after s₀ tr₀, ds = before ++ d :: after →
        exec step init before = some (s₀, tr₀) → Kept names s₀ d := by
  rw [← Agrees]
  induction ds using List.reverseRecOn generalizing s tr with
  | nil =>
      obtain rfl := congrArg Prod.fst (Option.some.inj h)
      constructor
      · rintro _ before d after _ _ hsplit
        simp at hsplit
      · intro _
        rfl
  | append_singleton ds d ih =>
      obtain ⟨s₁, tr₁, es, hexec, hstep, _⟩ := exec_snoc step ds d init s tr h
      rw [ledger_snoc, (agrees_step names hstep (exec_covers names ds s₁ tr₁ hexec)).2,
        ih s₁ tr₁ hexec]
      constructor
      · rintro ⟨hbefore, hlast⟩ before e after s₀ tr₀ hsplit hreach
        rcases List.eq_nil_or_concat after with rfl | ⟨after, last, rfl⟩
        · obtain ⟨rfl, rfl⟩ := List.append_singleton_inj.mp hsplit
          obtain ⟨rfl, rfl⟩ := Prod.ext_iff.mp (Option.some.inj (hexec.symm.trans hreach))
          exact hlast
        · rw [List.concat_eq_append, ← List.cons_append, ← List.append_assoc] at hsplit
          obtain ⟨rfl, rfl⟩ := List.append_singleton_inj.mp hsplit
          exact hbefore before e after s₀ tr₀ rfl hreach
      · intro hall
        refine ⟨?_, hall ds d [] s₁ tr₁ rfl hexec⟩
        intro before e after s₀ tr₀ hsplit
        exact hall before e (after ++ [d]) s₀ tr₀ (by rw [hsplit]; simp)

/-- Deletion requests name a session by the SEID that its establishment request gave. -/
def byCpSeid : Naming := fun h x => h.seid == x.1

/-- A request whose header repeats the SEID of its F-SEID. -/
def seidInHeader : Datagram := ⟨(buildSessionEstReq 0x0A010003 5 1 1 1).set 11 5, 0⟩

theorem seid_in_header_entered :
    ∃ s tr, exec step init [seidInHeader] = some (s, tr) ∧
      s.sessions.map PfcpSession.seids = (ledger byCpSeid [seidInHeader]).sessions := by
  obtain ⟨⟨s, tr⟩, hexec⟩ := Option.isSome_iff_exists.mp
    (by decide +kernel : (exec step init [seidInHeader]).isSome)
  refine ⟨s, tr, hexec, ?_⟩
  apply (session_table_agrees_iff byCpSeid [seidInHeader] s tr hexec).mpr
  intro before d after s₀ tr₀ hsplit hreach
  cases before with
  | cons e before => simp at hsplit
  | nil =>
      obtain ⟨rfl, rfl⟩ : seidInHeader = d ∧ [] = after := by simpa using hsplit
      obtain rfl := congrArg Prod.fst (Option.some.inj hreach)
      intro header hheader
      have hparsed : seidInHeader.header = some ⟨0x21, 50, 94, 5, 1, true⟩ := by decide +kernel
      obtain rfl := Option.some.inj (hparsed.symm.trans hheader)
      constructor
      · intro _
        decide +kernel
      · intro _ x hx
        cases hx

/-- The SMF's request for a session other than zero is not kept: it has zero in the header. -/
theorem smf_request_not_kept (names : Naming) (s : State) (smfIp : UInt32) (cpSeid : UInt64)
    (seq : UInt32) (stale : UInt64) (hseid : cpSeid ≠ 0) :
    ¬Kept names s ⟨buildSessionEstReq smfIp cpSeid seq 1 1, stale⟩ := by
  intro hkept
  obtain ⟨header, hheader, htype, hzero, hfseid⟩ :=
    buildSessionEstReq_seids smfIp cpSeid seq 1 1 stale
  have hequal := (hkept header hheader).1 htype
  have hsame := Option.some.inj (hfseid.symm.trans hequal)
  exact hseid (hsame.trans hzero)

/-- The session that the SMF asks for as `0x100000001` is entered as zero. -/
theorem smf_session_entered_as_zero :
    ¬∀ (names : Naming) (ds : List Datagram) (s : State) (tr : List (List UInt8)),
      exec step init ds = some (s, tr) →
        s.sessions.map PfcpSession.seids = (ledger names ds).sessions := by
  intro h
  let request : Datagram := ⟨buildSessionEstReq 0x0A010003 0x100000001 1 1 1, 0⟩
  have hrun : (exec step init [request]).map (fun r => r.1.sessions.map PfcpSession.seids) =
      some [(0, 0xABC0000000000001)] := by decide +kernel
  obtain ⟨⟨s, tr⟩, hexec, hsessions⟩ := Option.map_eq_some_iff.mp hrun
  have hledger : (ledger byCpSeid [request]).sessions = [(0x100000001, 0xABC0000000000001)] := by
    decide +kernel
  have hagrees := h byCpSeid [request] s tr hexec
  rw [hledger] at hagrees
  have hzero := hsessions.symm.trans hagrees
  exact absurd hzero (by decide)

end MobileCore.UserPlaneSessions
