import Mathlib.Data.Nat.Bitwise
import MobileCore.BoundedQueue
import MobileCore.CircularBuffer

/-!
# The single-producer single-consumer ring

`push`, `pop` and `pop_burst` as whole calls, and as the sequences of atomic loads, stores and
buffer accesses that a producer and a consumer thread interleave. A step of the machine is one
such access, and sequential consistency is in the single state that all steps read and write.
-/

namespace MobileCore.SpscRing

open MobileCore.LabelledRuns
open MobileCore.BoundedQueue
open MobileCore.CircularBuffer

universe u

variable {T : Type u}

/-- `x & (N - 1)` on `size_t`. -/
def mask (N x : Nat) : Nat := x % 2 ^ 64 &&& (N - 1)

structure Ring (T : Type u) where
  buf : Nat → T
  head : Nat := 0
  tail : Nat := 0

def push (N : Nat) (r : Ring T) (val : T) : Ring T × Bool :=
  let h := r.head
  let nextH := mask N (h + 1)
  if nextH = r.tail then (r, false)
  else ({ r with buf := Function.update r.buf h val, head := nextH }, true)

def pop (N : Nat) (r : Ring T) : Ring T × Option T :=
  let t := r.tail
  if t = r.head then (r, none)
  else ({ r with tail := mask N (t + 1) }, some (r.buf t))

/-- The elements between the indexes `t` and `h`, by subtraction on `size_t`. -/
def avail (N h t : Nat) : Nat := mask N (h + 2 ^ 64 - t)

def popBurst (N : Nat) (r : Ring T) (max : Nat) : Ring T × List T :=
  let t := r.tail
  let a := avail N r.head t
  let n := if a < max then a else max
  let out := (List.range n).map fun i => r.buf (mask N (t + i))
  (if 0 < n then { r with tail := mask N (t + n) } else r, out)

/-- The elements of a ring at rest, in order. -/
def contents (N : Nat) (r : Ring T) : List T :=
  (List.range (avail N r.head r.tail)).map fun i => r.buf (mask N (r.tail + i))

/-- The elements that `n` successive calls of `pop` return, up to the first that fails. -/
def pops (N : Nat) : Nat → Ring T → List T
  | 0, _ => []
  | n + 1, r =>
    match pop N r with
    | (_, none) => []
    | (r', some v) => v :: pops N n r'

inductive ProducerPc (T : Type u) where
  | idle
  | loadTail (val : T) (h nextH : Nat)
  | writeBuf (val : T) (h nextH : Nat)
  | storeHead (val : T) (nextH : Nat)

inductive ConsumerPc (T : Type u) where
  | idle
  | popLoadHead (t : Nat)
  | popRead (t : Nat)
  | popStoreTail (t : Nat) (out : T)
  | burstLoadHead (max t : Nat)
  | burstRead (t n i : Nat) (out : List T)

def ProducerPc.val? : ProducerPc T → Option T
  | .idle => none
  | .loadTail val _ _ => some val
  | .writeBuf val _ _ => some val
  | .storeHead val _ => some val

/-- The events with which the call under way can return. -/
def ConsumerPc.Returns : ConsumerPc T → Event T → Prop
  | .idle, _ => False
  | .popLoadHead _, e => e = .empty ∨ ∃ out, e = .popped out
  | .popRead _, e => ∃ out, e = .popped out
  | .popStoreTail _ out, e => e = .popped out
  | .burstLoadHead _ _, e => ∃ out, e = .burst out
  | .burstRead _ _ _ _, e => ∃ out, e = .burst out

def ConsumerPc.InBurst : ConsumerPc T → Prop
  | .burstLoadHead _ _ => True
  | .burstRead _ _ _ _ => True
  | _ => False

/-- At most how many accesses remain to the call under way. -/
def ProducerPc.remaining : ProducerPc T → Nat
  | .idle => 0
  | .loadTail _ _ _ => 3
  | .writeBuf _ _ _ => 2
  | .storeHead _ _ => 1

def ConsumerPc.remaining : ConsumerPc T → Nat
  | .idle => 0
  | .popLoadHead _ => 3
  | .popRead _ => 2
  | .popStoreTail _ _ => 1
  | .burstLoadHead max _ => max + 2
  | .burstRead _ n i _ => n - i + 1

structure State (T : Type u) where
  ring : Ring T
  producer : ProducerPc T := .idle
  consumer : ConsumerPc T := .idle

inductive Input (T : Type u) where
  | push (val : T)
  | pop
  | popBurst (max : Nat)
  | producer
  | consumer

def Input.isProducer : Input T → Bool
  | .producer => true
  | _ => false

def Input.isConsumer : Input T → Bool
  | .consumer => true
  | _ => false

def init (junk : Nat → T) : State T := { ring := { buf := junk } }

def producerStep (s : State T) : Option (State T × List (Event T)) :=
  match s.producer with
  | .idle => none
  | .loadTail val h nextH =>
    if nextH = s.ring.tail then some ({ s with producer := .idle }, [.full val])
    else some ({ s with producer := .writeBuf val h nextH }, [])
  | .writeBuf val h nextH =>
    some ({ s with ring := { s.ring with buf := Function.update s.ring.buf h val }
                   producer := .storeHead val nextH }, [])
  | .storeHead val nextH =>
    some ({ s with ring := { s.ring with head := nextH }, producer := .idle }, [.pushed val])

def consumerStep (N : Nat) (s : State T) : Option (State T × List (Event T)) :=
  match s.consumer with
  | .idle => none
  | .popLoadHead t =>
    if t = s.ring.head then some ({ s with consumer := .idle }, [.empty])
    else some ({ s with consumer := .popRead t }, [])
  | .popRead t => some ({ s with consumer := .popStoreTail t (s.ring.buf t) }, [])
  | .popStoreTail t out =>
    some ({ s with ring := { s.ring with tail := mask N (t + 1) }, consumer := .idle },
      [.popped out])
  | .burstLoadHead max t =>
    let a := avail N s.ring.head t
    let n := if a < max then a else max
    some ({ s with consumer := .burstRead t n 0 [] }, [])
  | .burstRead t n i out =>
    if i < n then
      some ({ s with consumer := .burstRead t n (i + 1) (out ++ [s.ring.buf (mask N (t + i))]) },
        [])
    else if 0 < n then
      some ({ s with ring := { s.ring with tail := mask N (t + n) }, consumer := .idle },
        [.burst out])
    else some ({ s with consumer := .idle }, [.burst out])

/-- A call loads the caller's own index first; the other inputs let a thread go one access on. -/
def step (N : Nat) : Machine (State T) (Input T) (Event T)
  | s, .push val =>
    match s.producer with
    | .idle => some ({ s with producer := .loadTail val s.ring.head (mask N (s.ring.head + 1)) }, [])
    | _ => none
  | s, .pop =>
    match s.consumer with
    | .idle => some ({ s with consumer := .popLoadHead s.ring.tail }, [])
    | _ => none
  | s, .popBurst max =>
    match s.consumer with
    | .idle => some ({ s with consumer := .burstLoadHead max s.ring.tail }, [])
    | _ => none
  | s, .producer => producerStep s
  | s, .consumer => consumerStep N s

section Alone

variable (N : Nat) (s : State T)

theorem exec_push_alone (hidle : s.producer = .idle) (val : T) :
    ∃ is, exec (step N) s is = some ({ s with ring := (push N s.ring val).1 },
      [if (push N s.ring val).2 then .pushed val else .full val]) := by
  obtain ⟨ring, _, consumer⟩ := s
  subst hidle
  by_cases hfull : mask N (ring.head + 1) = ring.tail
  · refine ⟨[.push val, .producer], ?_⟩
    simp [exec, step, producerStep, push, hfull]
  · refine ⟨[.push val, .producer, .producer, .producer], ?_⟩
    simp [exec, step, producerStep, push, hfull]

theorem exec_pop_alone (hidle : s.consumer = .idle) :
    ∃ is, exec (step N) s is = some ({ s with ring := (pop N s.ring).1 },
      [match (pop N s.ring).2 with | some out => .popped out | none => .empty]) := by
  obtain ⟨ring, producer, _⟩ := s
  subst hidle
  by_cases hempty : ring.tail = ring.head
  · refine ⟨[.pop, .consumer], ?_⟩
    simp [exec, step, consumerStep, pop, hempty]
  · refine ⟨[.pop, .consumer, .consumer, .consumer], ?_⟩
    simp [exec, step, consumerStep, pop, hempty]

theorem exec_burst_reads (t n d : Nat) (hd : d ≤ n) (out : List T)
    (hpc : s.consumer = .burstRead t n (n - d) out) :
    exec (step N) s (List.replicate d .consumer) =
      some ({ s with
        consumer := .burstRead t n n
          (out ++ (List.range' (n - d) d).map fun i => s.ring.buf (mask N (t + i))) }, []) := by
  obtain ⟨ring, producer, _⟩ := s
  subst hpc
  induction d generalizing out with
  | zero => simp [exec]
  | succ d ih =>
      have hlt : n - (d + 1) < n := by omega
      have hnext : n - (d + 1) + 1 = n - d := by omega
      simp only [List.replicate_succ, exec, step, consumerStep, if_pos hlt, hnext,
        ih (by omega), List.range'_succ, List.map_cons, List.append_assoc, List.singleton_append]
      rfl

theorem exec_burst_return (t n : Nat) (out : List T) (hpc : s.consumer = .burstRead t n n out) :
    exec (step N) s [.consumer] =
      some ({ s with
        ring := if 0 < n then { s.ring with tail := mask N (t + n) } else s.ring
        consumer := .idle }, [.burst out]) := by
  obtain ⟨ring, producer, _⟩ := s
  subst hpc
  by_cases hpos : 0 < n
  · simp [exec, step, consumerStep, hpos]
  · simp [exec, step, consumerStep, hpos]

theorem exec_popBurst_alone (hidle : s.consumer = .idle) (max : Nat) :
    ∃ is, exec (step N) s is = some ({ s with ring := (popBurst N s.ring max).1 },
      [.burst (popBurst N s.ring max).2]) := by
  obtain ⟨ring, producer, _⟩ := s
  subst hidle
  generalize hn : (if avail N ring.head ring.tail < max then avail N ring.head ring.tail
    else max) = n
  have hload : exec (step N) ⟨ring, producer, .idle⟩ [.popBurst max, .consumer] =
      some (⟨ring, producer, .burstRead ring.tail n 0 []⟩, []) := by
    simp only [exec, step, consumerStep, hn, List.append_nil]
  have hreads : exec (step N) ⟨ring, producer, .burstRead ring.tail n 0 []⟩
      (List.replicate n .consumer) = some (⟨ring, producer, .burstRead ring.tail n n
        ((List.range n).map fun i => ring.buf (mask N (ring.tail + i)))⟩, []) := by
    rw [exec_burst_reads N _ ring.tail n n le_rfl [] (by rw [Nat.sub_self]), List.range_eq_range',
      Nat.sub_self, List.nil_append]
  have hreturn := exec_burst_return N ⟨ring, producer, .burstRead ring.tail n n
    ((List.range n).map fun i => ring.buf (mask N (ring.tail + i)))⟩ ring.tail n _ rfl
  have hwhole := exec_append _ _ _ _ _ _ _ _ hload (exec_append _ _ _ _ _ _ _ _ hreads hreturn)
  refine ⟨_, hwhole.trans ?_⟩
  simp only [popBurst, hn, List.nil_append]

end Alone

theorem mask_eq_mod {k : Nat} (hk : k < 64) (x : Nat) : mask (2 ^ k) x = x % 2 ^ k := by
  rw [mask, Nat.and_two_pow_sub_one_eq_mod, Nat.mod_mod_of_dvd]
  exact Nat.pow_dvd_pow 2 hk.le

/-- What the ring and the threads between their accesses say about the queue's content. -/
def ProducerFact (N : Nat) (r : Ring T) (items : List T) : ProducerPc T → Prop
  | .idle => True
  | .loadTail _ h nextH => h = r.head ∧ nextH = (r.head + 1) % N
  | .writeBuf _ h nextH =>
    h = r.head ∧ nextH = (r.head + 1) % N ∧ items.length + 1 < N
  | .storeHead val nextH =>
    nextH = (r.head + 1) % N ∧ items.length + 1 < N ∧ r.buf r.head = val

def ConsumerFact (r : Ring T) (items : List T) : ConsumerPc T → Prop
  | .idle => True
  | .popLoadHead t => t = r.tail
  | .popRead t => t = r.tail ∧ items ≠ []
  | .popStoreTail t out => t = r.tail ∧ ∃ rest, items = out :: rest
  | .burstLoadHead _ t => t = r.tail
  | .burstRead t n i out => t = r.tail ∧ n ≤ items.length ∧ i ≤ n ∧ out = items.take i

structure RingHolds (N : Nat) (r : Ring T) (items : List T) : Prop where
  holds : Holds N r.buf r.tail items
  tail_lt : r.tail < N
  head_eq : r.head = (r.tail + items.length) % N

/-- The ring with both threads in mid-call stands for the queue `items`. -/
structure Refines (N : Nat) (s : State T) (items : List T) : Prop where
  ring : RingHolds N s.ring items
  producer : ProducerFact N s.ring items s.producer
  consumer : ConsumerFact s.ring items s.consumer

section RingFacts

variable {N : Nat} {r : Ring T} {items : List T}

theorem RingHolds.next_eq_tail_iff (h : RingHolds N r items) :
    (r.head + 1) % N = r.tail ↔ items.length + 1 = N := by
  have hroom := h.holds.room
  have htail : r.tail = (r.tail + 0) % N := (Nat.mod_eq_of_lt h.tail_lt).symm
  have hnext : (r.head + 1) % N = (r.tail + (items.length + 1)) % N := by
    rw [h.head_eq, Nat.mod_add_mod, Nat.add_assoc]
  constructor
  · intro hfull
    by_contra hne
    rw [hnext, htail, Nat.mod_add_mod] at hfull
    have := slot_injective (by omega : items.length + 1 < N) (by omega : 0 < N) hfull
    omega
  · intro hlen
    rw [hnext, hlen, Nat.add_mod_right, Nat.mod_eq_of_lt h.tail_lt]

theorem RingHolds.tail_eq_head_iff (h : RingHolds N r items) : r.tail = r.head ↔ items = [] := by
  have hroom := h.holds.room
  constructor
  · intro hempty
    rw [h.head_eq] at hempty
    have htail : (r.tail + 0) % N = (r.tail + items.length) % N := by
      rw [← hempty, Nat.add_zero, Nat.mod_eq_of_lt h.tail_lt]
    have := slot_injective (by omega : 0 < N) hroom htail
    exact List.length_eq_zero_iff.mp this.symm
  · rintro rfl
    rw [h.head_eq, List.length_nil, Nat.add_zero, Nat.mod_eq_of_lt h.tail_lt]

theorem RingHolds.avail_eq {k : Nat} (hk : k < 64) (h : RingHolds (2 ^ k) r items) :
    avail (2 ^ k) r.head r.tail = items.length := by
  have hroom := h.holds.room
  have htail := h.tail_lt
  obtain ⟨c, hc⟩ : 2 ^ k ∣ 2 ^ 64 := Nat.pow_dvd_pow 2 hk.le
  rw [avail, mask_eq_mod hk, h.head_eq]
  by_cases hwrap : r.tail + items.length < 2 ^ k
  · rw [Nat.mod_eq_of_lt hwrap]
    have hsum : r.tail + items.length + 2 ^ 64 - r.tail = items.length + 2 ^ k * c := by omega
    rw [hsum, Nat.add_mul_mod_self_left, Nat.mod_eq_of_lt hroom]
  · have hmod : (r.tail + items.length) % 2 ^ k = r.tail + items.length - 2 ^ k := by
      rw [Nat.mod_eq_sub_mod (by omega), Nat.mod_eq_of_lt (by omega)]
    have hpos : 2 ^ k ≤ 2 ^ 64 := Nat.pow_le_pow_right (by omega) hk.le
    have hsum : r.tail + items.length - 2 ^ k + 2 ^ 64 - r.tail + 2 ^ k =
        items.length + 2 ^ k * c := by omega
    rw [hmod, ← Nat.add_mod_right (r.tail + items.length - 2 ^ k + 2 ^ 64 - r.tail), hsum,
      Nat.add_mul_mod_self_left, Nat.mod_eq_of_lt hroom]

theorem RingHolds.contents_eq {k : Nat} (hk : k < 64) (h : RingHolds (2 ^ k) r items) :
    contents (2 ^ k) r = items := by
  rw [contents, h.avail_eq hk]
  refine List.ext_getElem (by simp) fun i hi hi' => ?_
  rw [List.getElem_map, List.getElem_range, mask_eq_mod hk, h.holds.slot i hi']

theorem RingHolds.pushed (h : RingHolds N r items) (hroom : items.length + 1 < N) :
    RingHolds N { r with head := (r.head + 1) % N } (items ++ [r.buf r.head]) := by
  refine ⟨?_, h.tail_lt, ?_⟩
  · rw [h.head_eq]
    exact h.holds.snoc hroom
  · change (r.head + 1) % N = _
    rw [h.head_eq, Nat.mod_add_mod, List.length_append, List.length_singleton, Nat.add_assoc]

theorem RingHolds.written (h : RingHolds N r items) (v : T) :
    RingHolds N { r with buf := Function.update r.buf r.head v } items := by
  refine ⟨?_, h.tail_lt, h.head_eq⟩
  rw [h.head_eq]
  exact h.holds.write v

theorem RingHolds.dropped (h : RingHolds N r items) (n : Nat) (hn : n ≤ items.length) :
    RingHolds N { r with tail := (r.tail + n) % N } (items.drop n) := by
  have hroom := h.holds.room
  refine ⟨h.holds.drop n, Nat.mod_lt _ (by omega), ?_⟩
  change r.head = _
  rw [h.head_eq, Nat.mod_add_mod, List.length_drop]
  congr 1
  omega

theorem ProducerFact.dropped {pc : ProducerPc T} (h : ProducerFact N r items pc) (n tail : Nat) :
    ProducerFact N { r with tail := tail } (items.drop n) pc := by
  cases pc with
  | idle => trivial
  | loadTail val h' nextH => exact h
  | writeBuf val h' nextH =>
      obtain ⟨hh, hnext, hroom⟩ := h
      refine ⟨hh, hnext, ?_⟩
      simp only [List.length_drop]
      omega
  | storeHead val nextH =>
      obtain ⟨hnext, hroom, hbuf⟩ := h
      refine ⟨hnext, ?_, hbuf⟩
      simp only [List.length_drop]
      omega

theorem ConsumerFact.pushed {pc : ConsumerPc T} (h : ConsumerFact r items pc) (v : T)
    (head : Nat) : ConsumerFact { r with head := head } (items ++ [v]) pc := by
  cases pc with
  | idle => trivial
  | popLoadHead t => exact h
  | popRead t => exact ⟨h.1, by simp⟩
  | popStoreTail t out =>
      obtain ⟨ht, rest, rfl⟩ := h
      exact ⟨ht, rest ++ [v], rfl⟩
  | burstLoadHead max t => exact h
  | burstRead t n i out =>
      obtain ⟨ht, hn, hi, hout⟩ := h
      refine ⟨ht, ?_, hi, ?_⟩
      · simp only [List.length_append]
        omega
      · rw [hout, List.take_append_of_le_length (by omega)]

end RingFacts

theorem init_refines {N : Nat} (hN : 0 < N) (junk : Nat → T) : Refines N (init junk) [] :=
  ⟨⟨Holds.nil hN junk 0, hN, (Nat.zero_mod N).symm⟩, trivial, trivial⟩

section Simulation

variable {k : Nat} {s s' : State T} {items : List T} {es : List (Event T)}

theorem producerStep_refines (href : Refines (2 ^ k) s items)
    (hstep : producerStep s = some (s', es)) :
    ∃ items', Reach (machine (2 ^ k - 1)) items es items' ∧ Refines (2 ^ k) s' items' := by
  obtain ⟨hring, hprod, hcons⟩ := href
  have hroom := hring.holds.room
  unfold producerStep at hstep
  cases hpc : s.producer with
  | idle => rw [hpc] at hstep; cases hstep
  | loadTail val h nextH =>
      simp only [hpc] at hstep hprod
      obtain ⟨rfl, rfl⟩ := hprod
      split at hstep
      · rename_i hfull
        cases hstep
        have hlen := hring.next_eq_tail_iff.mp hfull
        refine ⟨items, Run.single trivial (i := Op.push val) ?_, hring, trivial, hcons⟩
        exact if_neg (by omega)
      · rename_i hfree
        cases hstep
        have hlen : items.length + 1 ≠ 2 ^ k := fun hlen => hfree (hring.next_eq_tail_iff.mpr hlen)
        exact ⟨items, Run.nil, hring, ⟨rfl, rfl, by omega⟩, hcons⟩
  | writeBuf val h nextH =>
      simp only [hpc] at hstep hprod
      obtain ⟨rfl, rfl, hlen⟩ := hprod
      cases hstep
      exact ⟨items, Run.nil, hring.written val, ⟨rfl, hlen, by simp⟩, hcons⟩
  | storeHead val nextH =>
      simp only [hpc] at hstep hprod
      obtain ⟨rfl, hlen, rfl⟩ := hprod
      cases hstep
      refine ⟨items ++ [s.ring.buf s.ring.head], Run.single trivial
        (i := Op.push (s.ring.buf s.ring.head)) ?_, hring.pushed hlen, trivial, hcons.pushed _ _⟩
      exact if_pos (by omega)

theorem consumerStep_refines (hk : k < 64) (href : Refines (2 ^ k) s items)
    (hstep : consumerStep (2 ^ k) s = some (s', es)) :
    ∃ items', Reach (machine (2 ^ k - 1)) items es items' ∧ Refines (2 ^ k) s' items' := by
  obtain ⟨hring, hprod, hcons⟩ := href
  unfold consumerStep at hstep
  cases hpc : s.consumer with
  | idle => rw [hpc] at hstep; cases hstep
  | popLoadHead t =>
      simp only [hpc] at hstep hcons
      obtain rfl := hcons
      split at hstep
      · rename_i hempty
        cases hstep
        obtain rfl := hring.tail_eq_head_iff.mp hempty
        exact ⟨[], Run.single trivial (i := Op.pop) rfl, hring, hprod, trivial⟩
      · rename_i hsome
        cases hstep
        exact ⟨items, Run.nil, hring, hprod, rfl,
          fun hnil => hsome (hring.tail_eq_head_iff.mpr hnil)⟩
  | popRead t =>
      simp only [hpc] at hstep hcons
      obtain ⟨rfl, hne⟩ := hcons
      cases hstep
      obtain ⟨v, rest, rfl⟩ := List.exists_cons_of_ne_nil hne
      have hslot := hring.holds.slot 0 (by simp)
      rw [Nat.add_zero, Nat.mod_eq_of_lt hring.tail_lt] at hslot
      exact ⟨_, Run.nil, hring, hprod, rfl, rest, by simp [hslot]⟩
  | popStoreTail t out =>
      simp only [hpc] at hstep hcons
      obtain ⟨rfl, rest, rfl⟩ := hcons
      cases hstep
      rw [mask_eq_mod hk]
      exact ⟨rest, Run.single trivial (i := Op.pop) rfl, hring.dropped 1 (by simp),
        hprod.dropped 1 _, trivial⟩
  | burstLoadHead max t =>
      simp only [hpc] at hstep hcons
      obtain rfl := hcons
      cases hstep
      rw [hring.avail_eq hk]
      refine ⟨items, Run.nil, hring, hprod, rfl, ?_, Nat.zero_le _, rfl⟩
      split <;> omega
  | burstRead t n i out =>
      simp only [hpc] at hstep hcons
      obtain ⟨rfl, hn, hi, rfl⟩ := hcons
      split at hstep
      · rename_i hlt
        cases hstep
        refine ⟨items, Run.nil, hring, hprod, rfl, hn, hlt, ?_⟩
        rw [mask_eq_mod hk, hring.holds.slot i (by omega), List.take_append_getElem]
      · have hin : i = n := by omega
        subst hin
        have hburst : Reach (machine (2 ^ k - 1)) items [.burst (items.take i)] (items.drop i) :=
          Run.single trivial (i := Op.burst i) rfl
        split at hstep
        · cases hstep
          rw [mask_eq_mod hk]
          exact ⟨_, hburst, hring.dropped i hn, hprod.dropped i _, trivial⟩
        · obtain rfl : i = 0 := by omega
          cases hstep
          exact ⟨items, hburst, hring, hprod, trivial⟩

/-- Every access of either thread is nothing or one operation of the bounded queue. -/
theorem step_refines (hk : k < 64) {i : Input T} (href : Refines (2 ^ k) s items)
    (hstep : step (2 ^ k) s i = some (s', es)) :
    ∃ items', Reach (machine (2 ^ k - 1)) items es items' ∧ Refines (2 ^ k) s' items' := by
  obtain ⟨hring, hprod, hcons⟩ := href
  cases i with
  | push val =>
      simp only [step] at hstep
      split at hstep
      · cases hstep
        exact ⟨items, Run.nil, hring, ⟨rfl, mask_eq_mod hk _⟩, hcons⟩
      · cases hstep
  | pop =>
      simp only [step] at hstep
      split at hstep
      · cases hstep
        exact ⟨items, Run.nil, hring, hprod, rfl⟩
      · cases hstep
  | popBurst max =>
      simp only [step] at hstep
      split at hstep
      · cases hstep
        exact ⟨items, Run.nil, hring, hprod, rfl⟩
      · cases hstep
  | producer => exact producerStep_refines ⟨hring, hprod, hcons⟩ hstep
  | consumer => exact consumerStep_refines hk ⟨hring, hprod, hcons⟩ hstep

/-- Every history of the ring is one of a queue of capacity `N - 1`. -/
theorem reach_refines {tr : List (Event T)} (hk : k < 64) (junk : Nat → T)
    (hrun : Reach (step (2 ^ k)) (init junk) tr s) :
    ∃ items, Refines (2 ^ k) s items ∧ entered tr = left tr ++ items ∧
      items.length ≤ 2 ^ k - 1 :=
  entered_of_simulates (2 ^ k - 1) (Refines (2 ^ k)) (init_refines (Nat.two_pow_pos k) junk)
    (fun _ _ _ _ _ href hstep => step_refines hk href hstep) hrun

theorem producerStep_spec {v : T} (href : Refines (2 ^ k) s items)
    (hval : s.producer.val? = some v) (hstep : producerStep s = some (s', es)) :
    s'.consumer = s.consumer ∧
    ((es = [] ∧ s'.producer.val? = some v ∧ Refines (2 ^ k) s' items) ∨
      (es = [.full v] ∧ s'.producer = .idle ∧ Refines (2 ^ k) s' items) ∨
      (es = [.pushed v] ∧ s'.producer = .idle ∧ Refines (2 ^ k) s' (items ++ [v]))) := by
  obtain ⟨items', hreach, href'⟩ := producerStep_refines href hstep
  have hbalance := append_entered_eq _ _ _ _ hreach
  unfold producerStep at hstep
  cases hpc : s.producer with
  | idle => rw [hpc] at hstep; cases hstep
  | loadTail val h nextH =>
      simp only [hpc, ProducerPc.val?, Option.some.injEq] at hstep hval
      subst hval
      split at hstep <;> cases hstep
      · obtain rfl : items = items' := by simpa [Event.entered, Event.left] using hbalance
        exact ⟨rfl, .inr (.inl ⟨rfl, rfl, href'⟩)⟩
      · obtain rfl : items = items' := by simpa using hbalance
        exact ⟨rfl, .inl ⟨rfl, rfl, href'⟩⟩
  | writeBuf val h nextH =>
      simp only [hpc, ProducerPc.val?, Option.some.injEq] at hstep hval
      subst hval
      cases hstep
      obtain rfl : items = items' := by simpa using hbalance
      exact ⟨rfl, .inl ⟨rfl, rfl, href'⟩⟩
  | storeHead val nextH =>
      simp only [hpc, ProducerPc.val?, Option.some.injEq] at hstep hval
      subst hval
      cases hstep
      obtain rfl : items ++ [val] = items' := by simpa [Event.entered, Event.left] using hbalance
      exact ⟨rfl, .inr (.inr ⟨rfl, rfl, href'⟩)⟩

theorem burstStep_spec (hk : k < 64) (href : Refines (2 ^ k) s items)
    (hburst : s.consumer.InBurst) (hstep : consumerStep (2 ^ k) s = some (s', es)) :
    s'.producer = s.producer ∧
    ((es = [] ∧ s'.consumer.InBurst ∧ Refines (2 ^ k) s' items) ∨
      ∃ out rest, es = [.burst out] ∧ items = out ++ rest ∧ s'.consumer = .idle ∧
        Refines (2 ^ k) s' rest) := by
  obtain ⟨items', hreach, href'⟩ := consumerStep_refines hk href hstep
  have hbalance := append_entered_eq _ _ _ _ hreach
  unfold consumerStep at hstep
  cases hpc : s.consumer with
  | idle | popLoadHead | popRead | popStoreTail => rw [hpc] at hburst; exact hburst.elim
  | burstLoadHead max t =>
      simp only [hpc] at hstep
      cases hstep
      obtain rfl : items = items' := by simpa using hbalance
      exact ⟨rfl, .inl ⟨rfl, trivial, href'⟩⟩
  | burstRead t n i out =>
      simp only [hpc] at hstep
      split at hstep
      · cases hstep
        obtain rfl : items = items' := by simpa using hbalance
        exact ⟨rfl, .inl ⟨rfl, trivial, href'⟩⟩
      · split at hstep <;> cases hstep <;>
          exact ⟨rfl, .inr ⟨out, items', rfl, by simpa [Event.entered, Event.left] using hbalance,
            rfl, href'⟩⟩

end Simulation

section Calls

variable {k : Nat} {s s' : State T} {items : List T} {es : List (Event T)}

theorem step_events {N : Nat} {i : Input T} (hstep : step N s i = some (s', es)) :
    es = [] ∨ ∃ e, es = [e] := by
  cases i <;> simp only [step, producerStep, consumerStep] at hstep
  all_goals
    repeat' split at hstep
    all_goals cases hstep <;> simp

theorem reach_of_event (hk : k < 64) (href : Refines (2 ^ k) s items) {i : Input T} {e : Event T}
    (hstep : step (2 ^ k) s i = some (s', es)) (hevent : e ∈ es) :
    ∃ items', Reach (machine (2 ^ k - 1)) items [e] items' := by
  obtain ⟨items', hreach, _⟩ := step_refines hk href hstep
  rcases step_events hstep with rfl | ⟨e', rfl⟩
  · cases hevent
  · obtain rfl := List.mem_singleton.mp hevent
    exact ⟨items', hreach⟩

theorem pops_eq_take (hk : k < 64) (n : Nat) (r : Ring T) (hring : RingHolds (2 ^ k) r items)
    (hn : n ≤ items.length) : pops (2 ^ k) n r = items.take n := by
  induction n generalizing r items with
  | zero => simp [pops]
  | succ n ih =>
      cases items with
      | nil => simp at hn
      | cons v rest =>
          have hne : r.tail ≠ r.head := fun h => by simpa using hring.tail_eq_head_iff.mp h
          have hslot := hring.holds.slot 0 (by simp)
          rw [Nat.add_zero, Nat.mod_eq_of_lt hring.tail_lt] at hslot
          have hrest := ih _ (hring.dropped 1 (by simp)) (by simpa using hn)
          simp only [pops, pop, if_neg hne, mask_eq_mod hk]
          rw [hrest, hslot]
          simp

/-- A burst keeps its bounds until it returns, and meanwhile no element leaves. -/
theorem burst_under_way {N t n : Nat} {mid : List (Event T)} (hrun : Reach (step N) s mid s')
    (hpc : ∃ i out, s.consumer = .burstRead t n i out) (hopen : ∀ out, .burst out ∉ mid) :
    (∃ i out, s'.consumer = .burstRead t n i out) ∧ left mid = [] := by
  induction hrun with
  | nil => exact ⟨hpc, rfl⟩
  | @snoc tr es s₁ s₂ input hbefore _ hstep ih =>
      obtain ⟨⟨i, out, hnow⟩, hleft⟩ := ih fun out hmem => hopen out (by simp [hmem])
      have hlast : ∀ out, .burst out ∉ es := fun out hmem => hopen out (by simp [hmem])
      rw [left_append, hleft]
      cases input with
      | push val =>
          simp only [step] at hstep
          split at hstep <;> cases hstep
          exact ⟨⟨i, out, hnow⟩, rfl⟩
      | pop => simp only [step, hnow] at hstep; cases hstep
      | popBurst max => simp only [step, hnow] at hstep; cases hstep
      | producer =>
          simp only [step, producerStep] at hstep
          repeat' split at hstep
          all_goals cases hstep <;> exact ⟨⟨i, out, hnow⟩, rfl⟩
      | consumer =>
          simp only [step, consumerStep, hnow] at hstep
          split at hstep
          · cases hstep
            exact ⟨⟨_, _, rfl⟩, rfl⟩
          · split at hstep <;> cases hstep <;> exact absurd (List.mem_singleton.mpr rfl) (hlast out)

theorem burst_of_event (href : Refines (2 ^ k) s items) {t n i : Nat} {out vs : List T}
    (hpc : s.consumer = .burstRead t n i out)
    (hstep : step (2 ^ k) s .consumer = some (s', es)) (hevent : .burst vs ∈ es) :
    n ≤ items.length ∧ vs = items.take n := by
  have hcons := href.consumer
  simp only [step, consumerStep] at hstep
  simp only [hpc] at hcons hstep
  obtain ⟨rfl, hn, hi, rfl⟩ := hcons
  split at hstep
  · cases hstep
    simp at hevent
  · have hin : i = n := by omega
    subst hin
    split at hstep <;> cases hstep <;> exact ⟨hn, by simpa using hevent⟩

end Calls

/-- A burst returns as many elements as were available when it loaded the head, up to `max`, and
they are those that as many successive pops would have returned then. -/
theorem burst_eq_pops {k : Nat} (hk : k < 64) {s s₁ s₂ s₃ : State T} {items : List T}
    {es₁ es mid : List (Event T)} {max t : Nat} {out : List T}
    (href : Refines (2 ^ k) s items) (hpc : s.consumer = .burstLoadHead max t)
    (hload : step (2 ^ k) s .consumer = some (s₁, es₁)) (hmid : Reach (step (2 ^ k)) s₁ mid s₂)
    (hopen : ∀ vs, .burst vs ∉ mid) (hreturn : step (2 ^ k) s₂ .consumer = some (s₃, es))
    (hevent : .burst out ∈ es) :
    out.length = min max items.length ∧ pops (2 ^ k) out.length s.ring = out := by
  obtain ⟨items₁, hreach₁, href₁⟩ := step_refines hk href hload
  have hcons := href.consumer
  simp only [step, consumerStep, hpc] at hload hcons
  obtain rfl := hcons
  rw [href.ring.avail_eq hk] at hload
  cases hload
  have hsame : items₁ = items := by
    simpa using (append_entered_eq _ _ _ _ hreach₁).symm
  subst hsame
  obtain ⟨items₂, hqueue, href₂⟩ :=
    hmid.simulates href₁ fun _ _ _ _ _ h hstep => step_refines hk h hstep
  obtain ⟨⟨i, soFar, hnow⟩, hleft⟩ := burst_under_way hmid ⟨0, [], rfl⟩ hopen
  obtain ⟨_, rfl⟩ := burst_of_event href₂ hnow hreturn hevent
  have hgrow := append_entered_eq _ _ _ _ hqueue
  rw [hleft, List.nil_append] at hgrow
  have hmin : (if items₁.length < max then items₁.length else max) = min max items₁.length := by
    split <;> omega
  have hpre : items₂.take (min max items₁.length) = items₁.take (min max items₁.length) := by
    rw [← hgrow, List.take_append_of_le_length (Nat.min_le_right _ _)]
  have hlen : (items₁.take (min max items₁.length)).length = min max items₁.length := by
    simp
  rw [hmin, hpre, hlen]
  exact ⟨rfl, pops_eq_take hk _ _ href.ring (Nat.min_le_right _ _)⟩

section Returns

variable {N : Nat} {s s' : State T} {es : List (Event T)} {i : Input T}

/-- Each access of a `push` brings its return nearer, and nothing that the consumer does delays
it. -/
theorem push_nearer {v : T} (hval : s.producer.val? = some v)
    (hstep : step N s i = some (s', es)) :
    (∃ e ∈ es, e = .full v ∨ e = .pushed v) ∨ s'.producer.val? = some v ∧
      s'.producer.remaining + i.isProducer.toNat ≤ s.producer.remaining := by
  obtain ⟨ring, producer, consumer⟩ := s
  cases i with
  | push val =>
      cases producer with
      | idle => cases hval
      | loadTail | writeBuf | storeHead => cases hstep
  | pop | popBurst =>
      simp only [step] at hstep
      split at hstep <;> cases hstep
      exact .inr ⟨hval, le_rfl⟩
  | consumer =>
      simp only [step, consumerStep] at hstep
      repeat' split at hstep
      all_goals cases hstep <;> exact .inr ⟨hval, le_rfl⟩
  | producer =>
      cases producer with
      | idle => cases hval
      | loadTail val h nextH =>
          cases hval
          simp only [step, producerStep] at hstep
          split at hstep <;> cases hstep
          · exact .inl ⟨_, List.mem_singleton.mpr rfl, .inl rfl⟩
          · exact .inr ⟨rfl, le_rfl⟩
      | writeBuf val h nextH =>
          cases hval
          cases hstep
          exact .inr ⟨rfl, le_rfl⟩
      | storeHead val nextH =>
          cases hval
          cases hstep
          exact .inl ⟨_, List.mem_singleton.mpr rfl, .inr rfl⟩

/-- The same of a `pop` or `pop_burst`. -/
theorem pop_nearer {Goal : Event T → Prop} (hgoal : ∀ e, s.consumer.Returns e → Goal e)
    (hbusy : s.consumer ≠ .idle) (hstep : step N s i = some (s', es)) :
    (∃ e ∈ es, Goal e) ∨ ((∀ e, s'.consumer.Returns e → Goal e) ∧ s'.consumer ≠ .idle) ∧
      s'.consumer.remaining + i.isConsumer.toNat ≤ s.consumer.remaining := by
  obtain ⟨ring, producer, consumer⟩ := s
  cases i with
  | push val =>
      simp only [step] at hstep
      split at hstep <;> cases hstep
      exact .inr ⟨⟨hgoal, hbusy⟩, le_rfl⟩
  | producer =>
      simp only [step, producerStep] at hstep
      repeat' split at hstep
      all_goals cases hstep <;> exact .inr ⟨⟨hgoal, hbusy⟩, le_rfl⟩
  | pop | popBurst =>
      cases consumer with
      | idle => exact absurd rfl hbusy
      | popLoadHead | popRead | popStoreTail | burstLoadHead | burstRead => cases hstep
  | consumer =>
      cases consumer with
      | idle => exact absurd rfl hbusy
      | popLoadHead t =>
          simp only [step, consumerStep] at hstep
          split at hstep <;> cases hstep
          · exact .inl ⟨_, List.mem_singleton.mpr rfl, hgoal _ (.inl rfl)⟩
          · exact .inr ⟨⟨fun e he => hgoal e (.inr he), nofun⟩, le_rfl⟩
      | popRead t =>
          cases hstep
          exact .inr ⟨⟨fun e he => hgoal e ⟨_, he⟩, nofun⟩, le_rfl⟩
      | popStoreTail t out =>
          cases hstep
          exact .inl ⟨_, List.mem_singleton.mpr rfl, hgoal _ rfl⟩
      | burstLoadHead max t =>
          cases hstep
          refine .inr ⟨⟨fun e he => hgoal e he, nofun⟩, ?_⟩
          simp only [ConsumerPc.remaining, Input.isConsumer, Bool.toNat_true]
          split <;> omega
      | burstRead t n j out =>
          simp only [step, consumerStep] at hstep
          split at hstep
          · cases hstep
            refine .inr ⟨⟨fun e he => hgoal e he, nofun⟩, ?_⟩
            simp only [ConsumerPc.remaining, Input.isConsumer, Bool.toNat_true]
            omega
          · split at hstep <;> cases hstep <;>
              exact .inl ⟨_, List.mem_singleton.mpr rfl, hgoal _ ⟨_, rfl⟩⟩

end Returns

/-- An idle thread can start a call, a thread with a call under way can always go on, and the call
has returned after as many of its own accesses as remain to it, however the other thread's are
placed between them. -/
structure CallsReturn (N : Nat) (s : State T) : Prop where
  push_starts : s.producer = .idle → ∀ v, ∃ s', step N s (.push v) = some (s', []) ∧
    s'.producer.val? = some v
  pop_starts : s.consumer = .idle → ∃ s' t, step N s .pop = some (s', []) ∧
    s'.consumer = .popLoadHead t
  burst_starts : s.consumer = .idle → ∀ max, ∃ s' t, step N s (.popBurst max) = some (s', []) ∧
    s'.consumer = .burstLoadHead max t
  producer_goes_on : s.producer ≠ .idle → ∃ s' es, step N s .producer = some (s', es)
  consumer_goes_on : s.consumer ≠ .idle → ∃ s' es, step N s .consumer = some (s', es)
  push_returns : ∀ v is s' es, s.producer.val? = some v → exec (step N) s is = some (s', es) →
    s.producer.remaining ≤ is.countP Input.isProducer → ∃ e ∈ es, e = .full v ∨ e = .pushed v
  pop_returns : ∀ is s' es, s.consumer ≠ .idle → exec (step N) s is = some (s', es) →
    s.consumer.remaining ≤ is.countP Input.isConsumer → ∃ e ∈ es, s.consumer.Returns e

theorem callsReturn (N : Nat) (s : State T) : CallsReturn N s where
  push_starts hidle v := by
    simp only [step, hidle]
    exact ⟨_, rfl, rfl⟩
  pop_starts hidle := by
    simp only [step, hidle]
    exact ⟨_, _, rfl, rfl⟩
  burst_starts hidle max := by
    simp only [step, hidle]
    exact ⟨_, _, rfl, rfl⟩
  producer_goes_on hbusy := by
    simp only [step, producerStep]
    cases hpc : s.producer with
    | idle => exact absurd hpc hbusy
    | loadTail val h nextH =>
        dsimp only
        split <;> exact ⟨_, _, rfl⟩
    | writeBuf val h nextH => exact ⟨_, _, rfl⟩
    | storeHead val nextH => exact ⟨_, _, rfl⟩
  consumer_goes_on hbusy := by
    simp only [step, consumerStep]
    cases hpc : s.consumer with
    | idle => exact absurd hpc hbusy
    | popLoadHead t =>
        dsimp only
        split <;> exact ⟨_, _, rfl⟩
    | popRead t => exact ⟨_, _, rfl⟩
    | popStoreTail t out => exact ⟨_, _, rfl⟩
    | burstLoadHead max t => exact ⟨_, _, rfl⟩
    | burstRead t n i out =>
        dsimp only
        split
        · exact ⟨_, _, rfl⟩
        · split <;> exact ⟨_, _, rfl⟩
  push_returns v is s' es hval hexec hcount := by
    refine exists_event_of_exec (fun s => s.producer.val? = some v)
      (fun s => s.producer.remaining) ?_ ?_ hval hexec hcount
    · intro s hval
      cases hpc : s.producer with
      | idle =>
          rw [hpc] at hval
          cases hval
      | loadTail | writeBuf | storeHead => exact Nat.succ_pos _
    · intro s i s' es hval hstep
      exact push_nearer hval hstep
  pop_returns is s' es hbusy hexec hcount := by
    refine exists_event_of_exec
      (fun s₁ => (∀ e, s₁.consumer.Returns e → s.consumer.Returns e) ∧ s₁.consumer ≠ .idle)
      (fun s => s.consumer.remaining) ?_ ?_ ⟨fun _ he => he, hbusy⟩ hexec hcount
    · rintro s ⟨-, hbusy⟩
      cases hpc : s.consumer with
      | idle => exact absurd hpc hbusy
      | popLoadHead | popRead | popStoreTail | burstLoadHead | burstRead => exact Nat.succ_pos _
    · rintro s i s' es ⟨hgoal, hbusy⟩ hstep
      exact pop_nearer hgoal hbusy hstep

/-- The ring is a first-in first-out queue of capacity `N - 1` under every interleaving, and its
calls fail or return what the content at their load of the other side's index demands. -/
theorem ring_is_bounded_queue {k : Nat} (hk : k < 64) (junk : Nat → T) {tr : List (Event T)}
    {s : State T} (hrun : Reach (step (2 ^ k)) (init junk) tr s) :
    left tr <+: entered tr ∧
    (entered tr).length ≤ (left tr).length + (2 ^ k - 1) ∧
    (∀ i s' es v, step (2 ^ k) s i = some (s', es) → .full v ∈ es →
      (entered tr).length = (left tr).length + (2 ^ k - 1)) ∧
    (∀ i s' es, step (2 ^ k) s i = some (s', es) → .empty ∈ es → entered tr = left tr) ∧
    (∀ max t s₁ s₂ s₃ es₁ mid es out, s.consumer = .burstLoadHead max t →
      step (2 ^ k) s .consumer = some (s₁, es₁) → Reach (step (2 ^ k)) s₁ mid s₂ →
      (∀ vs, .burst vs ∉ mid) → step (2 ^ k) s₂ .consumer = some (s₃, es) → .burst out ∈ es →
      out.length = min max ((entered tr).length - (left tr).length) ∧
        pops (2 ^ k) out.length s.ring = out) ∧
    CallsReturn (2 ^ k) s := by
  obtain ⟨items, href, hbalance, hlen⟩ := reach_refines hk junk hrun
  have hheld : (entered tr).length = (left tr).length + items.length := by simp [hbalance]
  refine ⟨⟨items, hbalance.symm⟩, by omega, ?_, ?_, ?_, callsReturn _ s⟩
  · intro i s' es v hstep hevent
    obtain ⟨items', hfull⟩ := reach_of_event hk href hstep hevent
    have := cap_le_of_full _ _ _ _ hfull
    omega
  · intro i s' es hstep hevent
    obtain ⟨items', hempty⟩ := reach_of_event hk href hstep hevent
    rw [hbalance, eq_nil_of_empty _ _ _ hempty, List.append_nil]
  · intro max t s₁ s₂ s₃ es₁ mid es out hpc hload hmid hopen hreturn hevent
    rw [hheld, Nat.add_sub_cancel_left]
    exact burst_eq_pops hk href hpc hload hmid hopen hreturn hevent

/-- A burst that was called when one element was there, and returns it alone although the producer
has pushed a second meanwhile. -/
theorem ring_of_four_is_bounded_queue :
    let tr : List (Event Nat) := [.pushed 7, .pushed 8, .popped 7, .pushed 9, .burst [8]]
    left tr <+: entered tr ∧ (entered tr).length ≤ (left tr).length + 3 ∧
      ∀ is s' es, exec (step (2 ^ 2)) { (init fun _ => 0 : State Nat) with
        consumer := .burstLoadHead 2 0 } is = some (s', es) →
        4 ≤ is.countP Input.isConsumer → ∃ out, .burst out ∈ es := by
  have hrun := reach_of_exec (step (2 ^ 2)) (init fun _ => 0) _
    [.push 7, .producer, .producer, .producer, .push 8, .pop, .producer, .consumer, .producer,
      .consumer, .producer, .consumer, .popBurst 2, .push 9, .producer, .consumer, .producer,
      .consumer, .producer, .consumer] [.pushed 7, .pushed 8, .popped 7, .pushed 9, .burst [8]] rfl
  have hcalled := reach_of_exec (step (2 ^ 2)) (init fun _ => 0) _ [.popBurst 2] [] rfl
  obtain ⟨hpre, hheld, _⟩ := ring_is_bounded_queue (by decide : 2 < 64) (fun _ => 0) hrun
  obtain ⟨_, _, _, _, _, hreturn⟩ :=
    ring_is_bounded_queue (by decide : 2 < 64) (fun _ => (0 : Nat)) hcalled
  refine ⟨hpre, hheld, ?_⟩
  intro is s' es hexec hcount
  obtain ⟨e, he, out, rfl⟩ := hreturn.pop_returns is s' es nofun hexec hcount
  exact ⟨out, he⟩

end MobileCore.SpscRing
