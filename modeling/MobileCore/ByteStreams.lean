import Mathlib.Data.List.Basic

/-!
# Stream connections

A connection carries symbols in order, but a read returns any part of those that have come and a
write takes any part of those it is given. What a reader over such a connection returns does not
depend on the parts.
-/

namespace MobileCore.ByteStreams

universe u v w

variable {α : Type u} {β γ : Type u}

/-- What a connection will deliver before it is closed, in the pieces in which it comes. -/
structure Inlet (α : Type u) where
  pieces : List (List α)
  nonempty : ∀ piece ∈ pieces, piece ≠ []

def Inlet.bytes (s : Inlet α) : List α := s.pieces.flatten

/-- A read of at most `n` symbols; `none` at the end of the stream. -/
def Inlet.recv (n : Nat) : Inlet α → Option (List α × Inlet α)
  | ⟨[], _⟩ => none
  | ⟨piece :: rest, h⟩ =>
    if hlong : n < piece.length then
      some (piece.take n, ⟨piece.drop n :: rest, by
        intro other hother
        rcases List.mem_cons.mp hother with rfl | hother
        · exact List.ne_nil_of_length_pos (by rw [List.length_drop]; omega)
        · exact h other (List.mem_cons_of_mem piece hother)⟩)
    else some (piece, ⟨rest, fun other hother => h other (List.mem_cons_of_mem piece hother)⟩)

theorem Inlet.bytes_eq_nil (s : Inlet α) : s.bytes = [] ↔ s.pieces = [] := by
  obtain ⟨pieces, h⟩ := s
  cases pieces with
  | nil => simp [bytes]
  | cons piece rest => simp [bytes, h piece List.mem_cons_self]

theorem Inlet.recv_bytes {n : Nat} {s s' : Inlet α} {part : List α}
    (h : s.recv n = some (part, s')) (hn : 0 < n) :
    s.bytes = part ++ s'.bytes ∧ 0 < part.length ∧ part.length ≤ n := by
  obtain ⟨pieces, hnonempty⟩ := s
  cases pieces with
  | nil => cases h
  | cons piece rest =>
      rw [recv] at h
      split at h
      · rename_i hlong
        obtain ⟨rfl, rfl⟩ := Prod.ext_iff.mp (Option.some.inj h)
        refine ⟨?_, ?_, List.length_take_le n piece⟩
        · simp [bytes, ← List.append_assoc, List.take_append_drop]
        · rw [List.length_take]
          omega
      · rename_i hshort
        obtain ⟨rfl, rfl⟩ := Prod.ext_iff.mp (Option.some.inj h)
        refine ⟨by simp [bytes], ?_, Nat.le_of_not_lt hshort⟩
        exact List.length_pos_of_ne_nil (hnonempty piece List.mem_cons_self)

theorem Inlet.recv_eq_none {n : Nat} {s : Inlet α} : s.recv n = none ↔ s.bytes = [] := by
  rw [bytes_eq_nil]
  obtain ⟨pieces, hnonempty⟩ := s
  cases pieces with
  | nil => exact iff_of_true rfl rfl
  | cons piece rest =>
      refine iff_of_false ?_ (List.cons_ne_nil piece rest)
      rw [recv]
      split <;> simp

/-- A reader of a connection; `none` when the stream or what it says is refused. -/
abbrev Receiver (α β : Type u) := StateT (Inlet α) Option β

/-- Reads until it has `n` symbols. -/
def recvAll (n : Nat) (s : Inlet α) : Option (List α × Inlet α) :=
  if n = 0 then some ([], s)
  else
    match _hrecv : s.recv n with
    | none => none
    | some (part, s') => (recvAll (n - part.length) s').map fun x => (part ++ x.1, x.2)
termination_by n
decreasing_by
  rename_i hn
  have hpart := (s.recv_bytes _hrecv (Nat.pos_of_ne_zero hn)).2
  omega

/-- `r` reads `bytes` as `v` and leaves the rest, in whatever pieces both come. -/
def Receives (r : Receiver α β) (bytes : List α) (v : β) : Prop :=
  ∀ (s : Inlet α) (rest : List α), s.bytes = bytes ++ rest →
    ∃ s', r s = some (v, s') ∧ s'.bytes = rest

theorem Receives.pure (v : β) : Receives (Pure.pure v : Receiver α β) [] v := by
  intro s rest hbytes
  exact ⟨s, rfl, hbytes⟩

theorem Receives.bind {r : Receiver α β} {f : β → Receiver α γ} {front back : List α} {v : β}
    {x : γ} (hr : Receives r front v) (hf : Receives (f v) back x) :
    Receives (r >>= f) (front ++ back) x := by
  intro s rest hbytes
  rw [List.append_assoc] at hbytes
  obtain ⟨s₁, hread, hbytes₁⟩ := hr s (back ++ rest) hbytes
  obtain ⟨s₂, hnext, hbytes₂⟩ := hf s₁ rest hbytes₁
  refine ⟨s₂, ?_, hbytes₂⟩
  show (r s).bind (fun x => f x.1 x.2) = some (x, s₂)
  rw [hread]
  exact hnext

/-- The induction is on what is still to be read, which each part makes smaller. -/
theorem recvAll_receives (bytes : List α) : Receives (recvAll bytes.length) bytes bytes := by
  intro s rest hbytes
  induction hlen : bytes.length using Nat.strongRecOn generalizing bytes s with
  | ind n ih =>
      rw [recvAll]
      split
      · rename_i hzero
        obtain rfl := List.eq_nil_of_length_eq_zero (hlen.trans hzero)
        exact ⟨s, rfl, hbytes⟩
      · rename_i hn
        have hpos := Nat.pos_of_ne_zero hn
        split
        · rename_i hnone
          rw [Inlet.recv_eq_none.mp hnone] at hbytes
          obtain ⟨rfl, -⟩ := List.append_eq_nil_iff.mp hbytes.symm
          exact absurd hlen.symm hn
        · rename_i part s₁ hrecv
          obtain ⟨hsplit, hsome, hle⟩ := s.recv_bytes hrecv hpos
          obtain ⟨back, rfl, hrest⟩ : ∃ back, bytes = part ++ back ∧ s₁.bytes = back ++ rest := by
            have hpart : part <+: s.bytes := ⟨s₁.bytes, hsplit.symm⟩
            have hprefix : part <+: bytes := by
              apply List.prefix_of_prefix_length_le hpart ⟨rest, hbytes.symm⟩
              omega
            obtain ⟨back, rfl⟩ := hprefix
            rw [hsplit, List.append_assoc] at hbytes
            exact ⟨back, rfl, List.append_cancel_left hbytes⟩
          rw [List.length_append] at hlen
          obtain ⟨s₂, hread, hbytes₂⟩ :=
            ih (n - part.length) (by omega) back s₁ hrest (by omega)
          exact ⟨s₂, by rw [hread]; rfl, hbytes₂⟩

theorem recvAll_bytes {n : Nat} {s s' : Inlet α} {bytes : List α}
    (h : recvAll n s = some (bytes, s')) : s.bytes = bytes ++ s'.bytes ∧ bytes.length = n := by
  rcases Nat.lt_or_ge s.bytes.length n with hshort | hlong
  · induction n using Nat.strongRecOn generalizing s bytes with
    | ind n ih =>
        rw [recvAll, if_neg (by omega)] at h
        split at h
        · cases h
        · rename_i part s₁ hrecv
          obtain ⟨hsplit, hsome, hle⟩ := s.recv_bytes hrecv (by omega)
          obtain ⟨x, hread, hx⟩ := Option.map_eq_some_iff.mp h
          obtain ⟨rfl, rfl⟩ := Prod.ext_iff.mp hx
          have hlength := congrArg List.length hsplit
          rw [List.length_append] at hlength
          obtain ⟨hrest, hback⟩ := ih (n - part.length) (by omega) hread (by omega)
          rw [hrest, List.length_append] at hlength
          omega
  · have hfront : (s.bytes.take n).length = n := by rw [List.length_take]; omega
    obtain ⟨s₁, hread, hrest⟩ :=
      recvAll_receives (s.bytes.take n) s (s.bytes.drop n) (List.take_append_drop n _).symm
    rw [hfront, h] at hread
    obtain ⟨rfl, rfl⟩ := Prod.mk.inj (Option.some.inj hread)
    rw [hrest, List.take_append_drop]
    exact ⟨rfl, hfront⟩

theorem recvAll_take {n : Nat} {s : Inlet α} (h : n ≤ s.bytes.length) :
    ∃ s', recvAll n s = some (s.bytes.take n, s') ∧ s'.bytes = s.bytes.drop n := by
  have hread := recvAll_receives (s.bytes.take n) s (s.bytes.drop n) (List.take_append_drop n _).symm
  rwa [List.length_take_of_le h] at hread

theorem recvAll_eq_none {n : Nat} {s : Inlet α} (h : s.bytes.length < n) : recvAll n s = none := by
  cases hread : recvAll n s with
  | none => rfl
  | some x =>
      obtain ⟨hbytes, hlength⟩ := recvAll_bytes hread
      rw [hbytes, List.length_append] at h
      omega

def recvEach (r : Receiver α β) : Nat → Receiver α (List β)
  | 0 => pure []
  | n + 1 => do
    let v ← r
    let vs ← recvEach r n
    return v :: vs

theorem recvEach_receives {ι : Type w} {r : Receiver α β} (bytes : ι → List α) (value : ι → β)
    (L : List ι) (h : ∀ i ∈ L, Receives r (bytes i) (value i)) :
    Receives (recvEach r L.length) (L.flatMap bytes) (L.map value) := by
  induction L with
  | nil => exact Receives.pure []
  | cons i L ih =>
      rw [List.flatMap_cons]
      apply Receives.bind (h i List.mem_cons_self)
      rw [← List.append_nil (L.flatMap bytes)]
      apply Receives.bind (ih fun j hj => h j (List.mem_cons_of_mem i hj))
      exact Receives.pure _

/-- What a connection has taken, and how much each further write takes at most: nothing for a
write that fails, everything when the list is used up. -/
structure Outlet (α : Type u) where
  sent : List α := []
  takes : List Nat := []

def Outlet.send (bytes : List α) (k : Outlet α) : Nat × Outlet α :=
  let n := min ((k.takes.head?).getD bytes.length) bytes.length
  (n, ⟨k.sent ++ bytes.take n, k.takes.tail⟩)

abbrev Sender (α : Type u) := Outlet α → Option (Outlet α)

/-- Writes until everything is taken. -/
def sendAll (bytes : List α) (k : Outlet α) : Option (Outlet α) :=
  if bytes = [] then some k
  else
    let (n, k') := k.send bytes
    if n = 0 then none else sendAll (bytes.drop n) k'
termination_by bytes.length
decreasing_by
  rename_i hbytes hn
  have hpos := List.length_pos_of_ne_nil hbytes
  rw [List.length_drop]
  omega

theorem sendAll_nil (k : Outlet α) : sendAll [] k = some k := by
  rw [sendAll, if_pos rfl]

theorem sendAll_write {bytes : List α} {k : Outlet α} (hbytes : bytes ≠ [])
    (hn : (k.send bytes).1 ≠ 0) :
    sendAll bytes k = sendAll (bytes.drop (k.send bytes).1) (k.send bytes).2 := by
  rw [sendAll, if_neg hbytes]
  exact if_neg hn

/-- `w` puts `bytes` on the connection whenever it succeeds. -/
def Sends (w : Sender α) (bytes : List α) : Prop :=
  ∀ k k', w k = some k' → k'.sent = k.sent ++ bytes

theorem Sends.andThen {w w' : Sender α} {front back : List α} (hw : Sends w front)
    (hw' : Sends w' back) : Sends (fun k => (w k).bind w') (front ++ back) := by
  intro k k' h
  obtain ⟨k₁, hfirst, hnext⟩ := Option.bind_eq_some_iff.mp h
  rw [hw' k₁ k' hnext, hw k k₁ hfirst, List.append_assoc]

theorem sendAll_sends (bytes : List α) : Sends (sendAll bytes) bytes := by
  intro k k' h
  induction hlen : bytes.length using Nat.strongRecOn generalizing bytes k with
  | ind n ih =>
      rw [sendAll] at h
      split at h
      · rename_i hnil
        obtain rfl := Option.some.inj h
        rw [hnil, List.append_nil]
      · rename_i hbytes
        have hpos := List.length_pos_of_ne_nil hbytes
        split at h
        rename_i m k₁ hsend
        split at h
        · cases h
        · rename_i hm
          obtain ⟨rfl, rfl⟩ := Prod.mk.inj hsend
          have hsent := ih _ (by rw [List.length_drop]; omega) _ _ h rfl
          rw [hsent, List.append_assoc, List.take_append_drop]

def Outlet.Accepts (k : Outlet α) : Prop := ∀ n ∈ k.takes, 0 < n

theorem Outlet.Accepts.send {k : Outlet α} (h : k.Accepts) {bytes : List α} (hbytes : bytes ≠ []) :
    (k.send bytes).1 ≠ 0 ∧ (k.send bytes).2.Accepts := by
  have hpos := List.length_pos_of_ne_nil hbytes
  constructor
  · have htake : 0 < k.takes.head?.getD bytes.length := by
      cases htakes : k.takes with
      | nil => exact hpos
      | cons n rest =>
          apply h n
          rw [htakes]
          exact List.mem_cons_self
    exact Nat.ne_of_gt (Nat.lt_min.mpr ⟨htake, hpos⟩)
  · intro n hn
    exact h n (List.mem_of_mem_tail hn)

def Succeeds (w : Sender α) : Prop := ∀ k, k.Accepts → ∃ k', w k = some k' ∧ k'.Accepts

theorem Succeeds.andThen {w w' : Sender α} (hw : Succeeds w) (hw' : Succeeds w') :
    Succeeds fun k => (w k).bind w' := by
  intro k haccepts
  obtain ⟨k₁, hfirst, haccepts₁⟩ := hw k haccepts
  obtain ⟨k', hnext, haccepts'⟩ := hw' k₁ haccepts₁
  exact ⟨k', Option.bind_eq_some_iff.mpr ⟨k₁, hfirst, hnext⟩, haccepts'⟩

theorem sendAll_succeeds (bytes : List α) : Succeeds (sendAll bytes) := by
  intro k haccepts
  induction hlen : bytes.length using Nat.strongRecOn generalizing bytes k with
  | ind n ih =>
      by_cases hbytes : bytes = []
      · subst hbytes
        exact ⟨k, sendAll_nil k, haccepts⟩
      · have hpos := List.length_pos_of_ne_nil hbytes
        obtain ⟨hsome, haccepts₁⟩ := haccepts.send hbytes
        rw [sendAll_write hbytes hsome]
        refine ih _ ?_ _ _ haccepts₁ rfl
        rw [List.length_drop]
        omega

def sendEach {ι : Type w} (f : ι → Sender α) : List ι → Sender α
  | [], k => some k
  | i :: L, k => (f i k).bind (sendEach f L)

theorem sendEach_sends {ι : Type w} {f : ι → Sender α} {bytes : ι → List α} (L : List ι)
    (h : ∀ i ∈ L, Sends (f i) (bytes i)) : Sends (sendEach f L) (L.flatMap bytes) := by
  induction L with
  | nil =>
      intro k k' hsent
      obtain rfl := Option.some.inj hsent
      exact (List.append_nil _).symm
  | cons i L ih =>
      rw [List.flatMap_cons]
      apply Sends.andThen (h i List.mem_cons_self)
      exact ih fun j hj => h j (List.mem_cons_of_mem i hj)

theorem sendEach_succeeds {ι : Type w} {f : ι → Sender α} (L : List ι)
    (h : ∀ i ∈ L, Succeeds (f i)) : Succeeds (sendEach f L) := by
  induction L with
  | nil =>
      intro k haccepts
      exact ⟨k, rfl, haccepts⟩
  | cons i L ih =>
      apply Succeeds.andThen (h i List.mem_cons_self)
      exact ih fun j hj => h j (List.mem_cons_of_mem i hj)

end MobileCore.ByteStreams
