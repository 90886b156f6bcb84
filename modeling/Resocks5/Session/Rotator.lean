import Resocks5.Types.ConnectError
import Resocks5.Rating.Ratings

namespace Resocks5.Session

open Resocks5.Foundation
open Resocks5.Rating
open Resocks5.Types

structure UpstreamHealth where
  proxy : ProxyConfig
  health : Health
  deriving DecidableEq, Repr

/-- Unique upstreams and their ratings, slot by slot. -/
structure Rotator (ρ : Type u) where
  proxies : List ProxyConfig
  ratings : Ratings ρ

inductive RotatorError where
  | empty
  | invalidPolicy (error : RatingError)
  deriving DecidableEq, Repr

namespace Rotator

variable {ρ : Type u} (arith : FloatArith)

def unique : List ProxyConfig → List ProxyConfig → List ProxyConfig
  | kept, [] => kept
  | kept, proxy :: rest =>
    if kept.any fun slot => sameNode proxy.node slot.node then unique kept rest
    else unique (kept ++ [proxy]) rest

def tryWithQuarantine (proxies : List ProxyConfig) (policy : RatingPolicy)
    (quarantine : QuarantinePolicy) (now : Instant) (rng : ρ) :
    Except RotatorError (Rotator ρ) :=
  if proxies.isEmpty then .error .empty
  else
    let unique := unique [] proxies
    match Ratings.tryWithQuarantine arith unique.length policy quarantine now rng with
    | .ok ratings => .ok ⟨unique, ratings⟩
    | .error error => .error (.invalidPolicy error)

def indexOf (rotator : Rotator ρ) (p : ProxyConfig) : Option Nat :=
  rotator.proxies.findIdx? fun slot => sameNode p.node slot.node

def recordFailure (rotator : Rotator ρ) (proxy : ProxyConfig) (now : Instant) : Rotator ρ :=
  match rotator.indexOf proxy with
  | none => rotator
  | some i => { rotator with ratings := rotator.ratings.onFailure arith i now }

def recordHardFailure (rotator : Rotator ρ) (proxy : ProxyConfig) (now : Instant) :
    Option Duration × Rotator ρ :=
  match rotator.indexOf proxy with
  | none => (none, rotator)
  | some i =>
    let (length, ratings) := rotator.ratings.onHardFailure arith i now
    (length, { rotator with ratings })

/-- Upstream-down errors count toward the quarantine, other counted ones softly. -/
def recordError (rotator : Rotator ρ) (proxy : ProxyConfig) (err : ConnectError)
    (now : Instant) : Option Duration × Rotator ρ :=
  if !err.countsAgainstUpstream then (none, rotator)
  else if err.isUpstreamDown then rotator.recordHardFailure arith proxy now
  else (none, rotator.recordFailure arith proxy now)

def recordSuccess (rotator : Rotator ρ) (proxy : ProxyConfig) (now : Instant) : Rotator ρ :=
  match rotator.indexOf proxy with
  | none => rotator
  | some i => { rotator with ratings := rotator.ratings.onSuccess arith i now }

def isQuarantined (rotator : Rotator ρ) (proxy : ProxyConfig) : Bool :=
  (rotator.indexOf proxy).any fun i => rotator.ratings.isQuarantined i

def getLinked (rotator : Rotator ρ) (linked : Option ProxyConfig) : Option ProxyConfig :=
  linked.filter fun proxy => !rotator.isQuarantined proxy

/-- `None` for an index out of bounds. -/
def pickOrder (rng : Rng ρ) (rotator : Rotator ρ) (now : Instant) :
    Option (List ProxyConfig) × Rotator ρ :=
  let (order, ratings) := rotator.ratings.pickOrder arith rng now
  (order.bind fun order => order.mapM fun i => rotator.proxies[i]?, { rotator with ratings })

def health (rotator : Rotator ρ) (now : Instant) : List UpstreamHealth :=
  List.zipWith UpstreamHealth.mk rotator.proxies (rotator.ratings.health now)

def restoreEntry (rotator : Rotator ρ) (entry : UpstreamHealth) (now : Instant) :
    Bool × Rotator ρ :=
  match rotator.indexOf entry.proxy with
  | none => (false, rotator)
  | some i =>
    let (applied, ratings) := rotator.ratings.restoreHealth i entry.health now
    (applied, { rotator with ratings })

def restoreHealth (rotator : Rotator ρ) (now : Instant) :
    List UpstreamHealth → Nat × Rotator ρ
  | [] => (0, rotator)
  | entry :: rest =>
    let (applied, rotator) := rotator.restoreEntry entry now
    let (count, rotator) := rotator.restoreHealth now rest
    (count + applied.toNat, rotator)

end Rotator

structure Slot where
  sand : Sand
  quarantine : Cell
  deriving DecidableEq, Repr

def Rotator.slot? {ρ : Type u} (rotator : Rotator ρ) (j : Nat) : Option Slot :=
  match rotator.ratings.inner.cells[j]?, rotator.ratings.inner.quarantine[j]? with
  | some sand, some quarantine => some ⟨sand, quarantine⟩
  | _, _ => none

def Slot.strike (arith : FloatArith) (policy : RatingPolicy) (quarantine : QuarantinePolicy)
    (hard : Bool) (now : Instant) (slot : Slot) : Slot where
  sand := if policy.enabled then slot.sand.observeFailure arith now policy else slot.sand
  quarantine :=
    if hard && quarantine.enabled then (slot.quarantine.hardFailure now quarantine).2
    else slot.quarantine

def Slot.lift (arith : FloatArith) (policy : RatingPolicy) (now : Instant) (slot : Slot) : Slot where
  sand := if policy.enabled then slot.sand.observeSuccess arith now policy else slot.sand
  quarantine := slot.quarantine.success

namespace Rotator

variable {ρ : Type u} {arith : FloatArith}

section

variable {proxies : List ProxyConfig} {policy : RatingPolicy} {quarantine : QuarantinePolicy}
  {now : Instant} {rng : ρ}

theorem tryWithQuarantine_accepted (haccepted : Accepted arith policy quarantine)
    (hne : proxies ≠ []) :
    tryWithQuarantine arith proxies policy quarantine now rng =
      .ok ⟨unique [] proxies,
        Ratings.fresh (unique [] proxies).length policy quarantine now rng⟩ := by
  rw [tryWithQuarantine, if_neg (by simpa using hne)]
  dsimp only
  rw [haccepted.tryWithQuarantine]

theorem tryWithQuarantine_ok {rotator : Rotator ρ}
    (hbuilt : tryWithQuarantine arith proxies policy quarantine now rng = .ok rotator) :
    Accepted arith policy quarantine ∧ proxies ≠ [] ∧ rotator = ⟨unique [] proxies,
      Ratings.fresh (unique [] proxies).length policy quarantine now rng⟩ := by
  unfold tryWithQuarantine at hbuilt
  split at hbuilt
  · cases hbuilt
  · rename_i hne
    dsimp only at hbuilt
    split at hbuilt
    · rename_i ratings hratings
      cases hbuilt
      obtain ⟨haccepted, rfl⟩ := Rating.tryWithQuarantine_ok hratings
      exact ⟨haccepted, by simpa using hne, rfl⟩
    · cases hbuilt

end

/-- Same upstreams and policies, only slots may differ. -/
structure SameShape (before after : Rotator ρ) : Prop where
  proxies : after.proxies = before.proxies
  policy : after.ratings.policy = before.ratings.policy
  quarantine : after.ratings.quarantine = before.ratings.quarantine

theorem SameShape.refl (rotator : Rotator ρ) : SameShape rotator rotator := ⟨rfl, rfl, rfl⟩

theorem SameShape.trans {a b c : Rotator ρ} (hab : SameShape a b) (hbc : SameShape b c) :
    SameShape a c :=
  ⟨hbc.proxies.trans hab.proxies, hbc.policy.trans hab.policy,
    hbc.quarantine.trans hab.quarantine⟩

theorem SameShape.indexOf {before after : Rotator ρ} (hshape : SameShape before after)
    (proxy : ProxyConfig) : after.indexOf proxy = before.indexOf proxy := by
  rw [Rotator.indexOf, Rotator.indexOf, hshape.proxies]

theorem slot?_eq (rotator : Rotator ρ) (j : Nat) :
    rotator.slot? j = rotator.ratings.inner.cells[j]?.bind fun sand =>
      rotator.ratings.inner.quarantine[j]?.map fun quarantine => ⟨sand, quarantine⟩ := by
  unfold slot?
  cases rotator.ratings.inner.cells[j]? with
  | none => rfl
  | some sand => cases rotator.ratings.inner.quarantine[j]? <;> rfl

/-- What counting a failure against `proxy` leaves in slot `j`. -/
def struck (arith : FloatArith) (rotator : Rotator ρ) (proxy : ProxyConfig) (hard : Bool)
    (now : Instant) (j : Nat) : Option Slot :=
  if rotator.indexOf proxy = some j then
    (rotator.slot? j).map
      (Slot.strike arith rotator.ratings.policy rotator.ratings.quarantine hard now)
  else rotator.slot? j

theorem mapQuarantine_slot (proxies : List ProxyConfig) (ratings : Ratings ρ) (i : Nat)
    (f : Cell → Cell) (j : Nat) :
    slot? ⟨proxies, { ratings with inner := ratings.inner.mapQuarantine i f }⟩ j =
      if i = j then
        (slot? ⟨proxies, ratings⟩ j).map fun slot => ⟨slot.sand, f slot.quarantine⟩
      else slot? ⟨proxies, ratings⟩ j := by
  rw [slot?_eq, slot?_eq]
  simp only [Inner.mapQuarantine_cells, Inner.mapQuarantine_quarantine, List.getElem?_modify]
  by_cases hij : i = j
  · cases ratings.inner.cells[j]? <;> cases ratings.inner.quarantine[j]? <;> simp [hij]
  · cases ratings.inner.cells[j]? <;> cases ratings.inner.quarantine[j]? <;> simp [hij]

theorem onFailure_slot (arith : FloatArith) (rotator : Rotator ρ) (i : Nat) (now : Instant) (j : Nat) :
    Rotator.slot? { rotator with ratings := rotator.ratings.onFailure arith i now } j =
      if i = j then
        (rotator.slot? j).map
          (Slot.strike arith rotator.ratings.policy rotator.ratings.quarantine false now)
      else rotator.slot? j := by
  rw [slot?_eq, slot?_eq]
  unfold Ratings.onFailure
  cases henabled : rotator.ratings.policy.enabled with
  | false =>
      simp only [Bool.false_eq_true, if_false]
      split
      · cases rotator.ratings.inner.cells[j]? <;>
          cases rotator.ratings.inner.quarantine[j]? <;> simp [Slot.strike, henabled]
      · rfl
  | true =>
      simp only [if_true, Inner.mapCell_cells, Inner.mapCell_quarantine, List.getElem?_modify]
      by_cases hij : i = j
      · cases rotator.ratings.inner.cells[j]? <;>
          cases rotator.ratings.inner.quarantine[j]? <;>
            simp [Slot.strike, henabled, hij]
      · cases rotator.ratings.inner.cells[j]? <;>
          cases rotator.ratings.inner.quarantine[j]? <;> simp [hij]

theorem onFailure_shape (arith : FloatArith) (rotator : Rotator ρ) (i : Nat) (now : Instant) :
    SameShape rotator { rotator with ratings := rotator.ratings.onFailure arith i now } := by
  unfold Ratings.onFailure
  split <;> exact ⟨rfl, rfl, rfl⟩

theorem recordFailure_spec (arith : FloatArith) (rotator : Rotator ρ) (proxy : ProxyConfig) (now : Instant) :
    SameShape rotator (rotator.recordFailure arith proxy now) ∧
      ∀ j, (rotator.recordFailure arith proxy now).slot? j =
        rotator.struck arith proxy false now j := by
  unfold recordFailure struck
  cases hindex : rotator.indexOf proxy with
  | none => exact ⟨SameShape.refl rotator, fun j => by simp⟩
  | some i =>
      refine ⟨onFailure_shape arith rotator i now, fun j => ?_⟩
      simp only [Option.some.injEq]
      exact onFailure_slot arith rotator i now j

theorem recordHardFailure_spec (arith : FloatArith) (rotator : Rotator ρ) (proxy : ProxyConfig) (now : Instant) :
    SameShape rotator (rotator.recordHardFailure arith proxy now).2 ∧
      ∀ j, (rotator.recordHardFailure arith proxy now).2.slot? j =
        rotator.struck arith proxy true now j := by
  unfold recordHardFailure struck
  cases hindex : rotator.indexOf proxy with
  | none => exact ⟨SameShape.refl rotator, fun j => by simp⟩
  | some i =>
      simp only [Option.some.injEq]
      unfold Ratings.onHardFailure
      have hsoft := onFailure_slot arith rotator i now
      have hshape := onFailure_shape arith rotator i now
      split
      · rename_i hnone
        refine ⟨SameShape.refl rotator, fun j => ?_⟩
        split
        · rename_i hij
          subst hij
          rw [slot?_eq, hnone]
          cases rotator.ratings.inner.cells[i]? <;> rfl
        · rfl
      · rename_i cell hcell
        dsimp only
        rw [hshape.quarantine]
        cases henabled : rotator.ratings.quarantine.enabled with
        | false =>
            simp only [Bool.false_eq_true, if_false]
            refine ⟨hshape, fun j => (hsoft j).trans ?_⟩
            split
            · congr 1
              funext slot
              simp [Slot.strike, henabled]
            · rfl
        | true =>
            simp only [if_true]
            refine ⟨⟨hshape.proxies, hshape.policy, rfl⟩, fun j => ?_⟩
            rw [← hshape.quarantine]
            refine (mapQuarantine_slot rotator.proxies _ i _ j).trans ?_
            rw [hsoft j, hshape.quarantine]
            split
            · rw [Option.map_map]
              congr 1
              funext slot
              simp [Slot.strike, henabled]
            · rfl

theorem recordError_spec (arith : FloatArith) (rotator : Rotator ρ) (proxy : ProxyConfig)
    {err : ConnectError} (hcounts : err.countsAgainstUpstream = true) (now : Instant) :
    SameShape rotator (rotator.recordError arith proxy err now).2 ∧
      ∀ j, (rotator.recordError arith proxy err now).2.slot? j =
        rotator.struck arith proxy err.isUpstreamDown now j := by
  unfold recordError
  rw [if_neg (by simp [hcounts])]
  cases hdown : err.isUpstreamDown with
  | true => exact recordHardFailure_spec arith rotator proxy now
  | false => exact recordFailure_spec arith rotator proxy now

theorem onSuccess_slot (arith : FloatArith) (rotator : Rotator ρ) (i : Nat) (now : Instant)
    (j : Nat) :
    Rotator.slot? { rotator with ratings := rotator.ratings.onSuccess arith i now } j =
      if i = j then (rotator.slot? j).map (Slot.lift arith rotator.ratings.policy now)
      else rotator.slot? j := by
  rw [slot?_eq, slot?_eq]
  unfold Ratings.onSuccess
  dsimp only
  rw [Inner.mapQuarantine_cells, Inner.mapQuarantine_quarantine]
  cases henabled : rotator.ratings.policy.enabled with
  | false =>
      simp only [Bool.false_eq_true, if_false, List.getElem?_modify]
      by_cases hij : i = j
      · cases rotator.ratings.inner.cells[j]? <;>
          cases rotator.ratings.inner.quarantine[j]? <;> simp [Slot.lift, henabled, hij]
      · cases rotator.ratings.inner.cells[j]? <;>
          cases rotator.ratings.inner.quarantine[j]? <;> simp [hij]
  | true =>
      simp only [if_true, Inner.mapCell_cells, Inner.mapCell_quarantine, List.getElem?_modify]
      by_cases hij : i = j
      · cases rotator.ratings.inner.cells[j]? <;>
          cases rotator.ratings.inner.quarantine[j]? <;> simp [Slot.lift, henabled, hij]
      · cases rotator.ratings.inner.cells[j]? <;>
          cases rotator.ratings.inner.quarantine[j]? <;> simp [hij]

theorem recordSuccess_spec (arith : FloatArith) (rotator : Rotator ρ) (proxy : ProxyConfig)
    (now : Instant) :
    SameShape rotator (rotator.recordSuccess arith proxy now) ∧
      ∀ j, (rotator.recordSuccess arith proxy now).slot? j =
        if rotator.indexOf proxy = some j then
          (rotator.slot? j).map (Slot.lift arith rotator.ratings.policy now)
        else rotator.slot? j := by
  unfold recordSuccess
  cases hindex : rotator.indexOf proxy with
  | none => exact ⟨SameShape.refl rotator, fun j => by simp⟩
  | some i =>
      refine ⟨⟨rfl, rfl, rfl⟩, fun j => ?_⟩
      simp only [Option.some.injEq]
      exact onSuccess_slot arith rotator i now j

theorem unique_nodup (kept proxies : List ProxyConfig)
    (hkept : (kept.map (·.node)).Nodup) :
    ((unique kept proxies).map (·.node)).Nodup := by
  induction proxies generalizing kept with
  | nil => exact hkept
  | cons proxy rest ih =>
      rw [unique]
      split
      · exact ih kept hkept
      · rename_i hnew
        refine ih _ ?_
        rw [List.map_append, List.nodup_append]
        refine ⟨hkept, by simp, ?_⟩
        intro node hnode other hother heq
        obtain ⟨slot, hslot, rfl⟩ := List.mem_map.mp hnode
        obtain rfl : other = proxy.node := by simpa using hother
        exact hnew (List.any_eq_true.mpr ⟨slot, hslot, sameNode_iff.mpr heq.symm⟩)

theorem indexOf_eq {rotator : Rotator ρ}
    (hnodup : (rotator.proxies.map (·.node)).Nodup) {proxy : ProxyConfig} {i : Nat}
    {slot : ProxyConfig} (hslot : rotator.proxies[i]? = some slot) :
    rotator.indexOf proxy = some i ↔ slot.node = proxy.node := by
  obtain ⟨hlt, rfl⟩ := List.getElem?_eq_some_iff.mp hslot
  rw [indexOf, List.findIdx?_eq_some_iff_getElem]
  constructor
  · rintro ⟨_, hsame, _⟩
    exact (sameNode_iff.mp hsame).symm
  · intro hsame
    refine ⟨hlt, sameNode_iff.mpr hsame.symm, fun j hj hother => ?_⟩
    have hnode := sameNode_iff.mp hother
    have hjlt : j < (rotator.proxies.map (·.node)).length := by
      simpa using hj.trans hlt
    have hilt : i < (rotator.proxies.map (·.node)).length := by simpa using hlt
    have hequal : (rotator.proxies.map (·.node))[j] = (rotator.proxies.map (·.node))[i] := by
      simp [← hnode, hsame]
    exact absurd ((List.Nodup.getElem_inj_iff hnodup).mp hequal) hj.ne

end Rotator

end Resocks5.Session
