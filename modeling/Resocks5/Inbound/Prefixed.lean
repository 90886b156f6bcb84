import Resocks5.Inbound.Request

namespace Resocks5.Inbound

open Resocks5.Foundation

/-! Bytes that were read too early, in front of the stream. -/

/-- A failed read yields no bytes. -/
inductive Poll where
  | pending
  | failed
  | ready (bytes : Bytes)
  deriving DecidableEq, Repr

def Poll.bytes : Poll → Bytes
  | .ready bytes => bytes
  | _ => []

/-- Serves a buffered prefix before the stream itself. -/
structure Prefixed (σ : Type u) where
  buffered : Bytes
  pos : Nat
  inner : σ
  bounded : pos ≤ buffered.length

namespace Prefixed

variable {σ : Type u}

def new (buffered : Bytes) (inner : σ) : Prefixed σ := ⟨buffered, 0, inner, Nat.zero_le _⟩

def prefixRemaining (prefixed : Prefixed σ) : Bytes := prefixed.buffered.drop prefixed.pos

def intoParts (prefixed : Prefixed σ) : Bytes × σ := (prefixed.prefixRemaining, prefixed.inner)

def advance (prefixed : Prefixed σ) (n : Nat) : Prefixed σ :=
  { prefixed with
    pos := prefixed.pos + min prefixed.prefixRemaining.length n
    bounded := by
      have hbounded := prefixed.bounded
      rw [prefixRemaining, List.length_drop]
      omega }

/-- `capacity` is what remains of the caller's buffer; a mix of both is never read. -/
def pollRead (prefixed : Prefixed σ) (capacity : Nat) (poll : Nat → σ → Poll × σ) :
    Poll × Prefixed σ :=
  if !prefixed.prefixRemaining.isEmpty then
    if capacity = 0 then (.ready [], prefixed)
    else
      (.ready (prefixed.prefixRemaining.take (min prefixed.prefixRemaining.length capacity)),
        prefixed.advance capacity)
  else
    let (polled, inner) := poll capacity prefixed.inner
    (polled, { prefixed with inner })

/-- A buffer and what the stream would do with it. -/
structure Request (σ : Type u) where
  capacity : Nat
  poll : Nat → σ → Poll × σ

def readAll : Prefixed σ → List (Request σ) → Bytes × Prefixed σ
  | prefixed, [] => ([], prefixed)
  | prefixed, request :: requests =>
    let (polled, next) := prefixed.pollRead request.capacity request.poll
    let (bytes, last) := next.readAll requests
    (polled.bytes ++ bytes, last)

end Prefixed

def IncomingRequest.intoPrefixed {σ : Type u} (request : IncomingRequest) (stream : σ) :
    Prefixed σ :=
  Prefixed.new request.pipeline stream

/-! A byte stream inside. -/

/-- A poll takes what it yields off the front of the bytes, and yields nothing into some buffer
only at their end. -/
def Faithful (poll : Nat → Bytes → Poll × Bytes) : Prop :=
  ∀ capacity left, left = (poll capacity left).1.bytes ++ (poll capacity left).2 ∧
    (0 < capacity → (poll capacity left).1 = .ready [] → left = [])

/-- While bytes are left, a poll with room for some yields some. -/
def Eager (poll : Nat → Bytes → Poll × Bytes) : Prop :=
  ∀ capacity left, 0 < capacity → left ≠ [] → (poll capacity left).1.bytes ≠ []

namespace Prefixed

section

variable {σ : Type u} {prefixed : Prefixed σ} (capacity : Nat) (poll : Nat → σ → Poll × σ)

theorem pollRead_buffered (hleft : prefixed.prefixRemaining ≠ []) :
    (prefixed.pollRead capacity poll).1 = .ready (prefixed.prefixRemaining.take capacity) ∧
      (prefixed.pollRead capacity poll).2.intoParts =
        (prefixed.prefixRemaining.drop capacity, prefixed.inner) := by
  rw [pollRead, if_pos (by simpa using hleft)]
  split
  · rename_i hfull
    rw [hfull, List.take_zero, List.drop_zero]
    exact ⟨rfl, rfl⟩
  · refine ⟨congrArg Poll.ready ?_, Prod.ext ?_ rfl⟩
    · rw [Nat.min_comm]
      exact List.take_eq_take_min.symm
    have hparts : (prefixed.advance capacity).intoParts.1 =
        prefixed.buffered.drop (prefixed.pos + min prefixed.prefixRemaining.length capacity) := rfl
    rw [hparts, ← List.drop_drop, ← prefixRemaining]
    obtain hlong | hshort := Nat.le_total capacity prefixed.prefixRemaining.length
    · rw [Nat.min_eq_right hlong]
    · rw [Nat.min_eq_left hshort, List.drop_length, List.drop_eq_nil_of_le hshort]

theorem pollRead_inner (hserved : prefixed.prefixRemaining = []) :
    (prefixed.pollRead capacity poll).1 = (poll capacity prefixed.inner).1 ∧
      (prefixed.pollRead capacity poll).2.intoParts = ([], (poll capacity prefixed.inner).2) := by
  rw [pollRead, if_neg (by simpa using hserved)]
  exact ⟨rfl, Prod.ext hserved rfl⟩

end

def unread (prefixed : Prefixed Bytes) : Bytes := prefixed.prefixRemaining ++ prefixed.inner

variable {prefixed : Prefixed Bytes}

theorem unread_intoParts : prefixed.intoParts.1 ++ prefixed.intoParts.2 = prefixed.unread := rfl

theorem pollRead_unread (capacity : Nat) {poll : Nat → Bytes → Poll × Bytes}
    (hfaithful : Faithful poll) :
    (prefixed.pollRead capacity poll).1.bytes ++ (prefixed.pollRead capacity poll).2.unread =
      prefixed.unread := by
  by_cases hserved : prefixed.prefixRemaining = []
  · obtain ⟨hpolled, hparts⟩ := pollRead_inner capacity poll hserved
    rw [← unread_intoParts, hparts, hpolled, unread, hserved]
    exact ((hfaithful capacity prefixed.inner).1).symm
  · obtain ⟨hpolled, hparts⟩ := pollRead_buffered capacity poll hserved
    rw [← unread_intoParts, hparts, hpolled, Poll.bytes, ← List.append_assoc,
      List.take_append_drop]
    rfl

theorem pollRead_end {capacity : Nat} (hcapacity : 0 < capacity)
    {poll : Nat → Bytes → Poll × Bytes} (hfaithful : Faithful poll)
    (hend : (prefixed.pollRead capacity poll).1 = .ready []) : prefixed.unread = [] := by
  by_cases hserved : prefixed.prefixRemaining = []
  · rw [(pollRead_inner capacity poll hserved).1] at hend
    rw [unread, hserved, (hfaithful capacity prefixed.inner).2 hcapacity hend]
    rfl
  · rw [(pollRead_buffered capacity poll hserved).1] at hend
    obtain hnone | hnone := List.take_eq_nil_iff.mp (Poll.ready.inj hend)
    · exact absurd hnone (Nat.ne_of_gt hcapacity)
    · exact absurd hnone hserved

theorem pollRead_some {capacity : Nat} (hcapacity : 0 < capacity)
    {poll : Nat → Bytes → Poll × Bytes} (heager : Eager poll) (hunread : prefixed.unread ≠ []) :
    (prefixed.pollRead capacity poll).1.bytes ≠ [] := by
  by_cases hserved : prefixed.prefixRemaining = []
  · rw [unread, hserved] at hunread
    rw [(pollRead_inner capacity poll hserved).1]
    exact heager capacity prefixed.inner hcapacity hunread
  · rw [(pollRead_buffered capacity poll hserved).1]
    exact fun hnone => (List.take_eq_nil_iff.mp hnone).elim (Nat.ne_of_gt hcapacity) hserved

theorem readAll_unread {requests : List (Request Bytes)}
    (hfaithful : ∀ request ∈ requests, Faithful request.poll) :
    (prefixed.readAll requests).1 ++ (prefixed.readAll requests).2.unread = prefixed.unread := by
  induction requests generalizing prefixed with
  | nil => rfl
  | cons request requests ih =>
      have hrest := @ih (prefixed.pollRead request.capacity request.poll).2 fun other hother =>
        hfaithful other (List.mem_cons_of_mem request hother)
      rw [readAll]
      dsimp only
      rw [List.append_assoc, hrest]
      exact pollRead_unread request.capacity (hfaithful request List.mem_cons_self)

theorem readAll_whole {requests : List (Request Bytes)}
    (hfaithful : ∀ request ∈ requests, Faithful request.poll)
    (heager : ∀ request ∈ requests, Eager request.poll)
    (hmany : prefixed.unread.length ≤ requests.countP (0 < ·.capacity)) :
    (prefixed.readAll requests).1 = prefixed.unread := by
  induction requests generalizing prefixed with
  | nil => exact (List.length_eq_zero_iff.mp (Nat.le_zero.mp hmany)).symm
  | cons request requests ih =>
      obtain ⟨hfirst, hfaithful⟩ := List.forall_mem_cons.mp hfaithful
      obtain ⟨hready, heager⟩ := List.forall_mem_cons.mp heager
      have hunread := prefixed.pollRead_unread request.capacity hfirst
      have hlength := congrArg List.length hunread
      rw [List.length_append] at hlength
      have hrest := @ih (prefixed.pollRead request.capacity request.poll).2 hfaithful heager ?_
      · rw [readAll]
        dsimp only
        rw [hrest, hunread]
      · by_cases hcapacity : 0 < request.capacity
        · rw [List.countP_cons_of_pos (by simpa using hcapacity)] at hmany
          by_cases hnone : prefixed.unread = []
          · rw [hnone, List.length_nil] at hlength
            omega
          · have hpos := List.length_pos_iff.mpr (prefixed.pollRead_some hcapacity hready hnone)
            omega
        · rw [List.countP_cons_of_neg (by simpa using hcapacity)] at hmany
          omega

end Prefixed

end Resocks5.Inbound
