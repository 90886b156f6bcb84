import Resocks5.Rating.Quarantine
import Resocks5.Rating.Select
import Mathlib.Data.List.Basic

namespace Resocks5.Rating

open Resocks5.Foundation

structure RatingPolicy where
  halfLifeSec : F64
  failPenalty : F64
  sandMax : F64
  minWeight : F64
  successFactor : F64
  deriving DecidableEq, Repr

namespace RatingPolicy

def enabled (policy : RatingPolicy) : Bool :=
  F64.zero.lt policy.failPenalty

def tau (arith : FloatArith) (policy : RatingPolicy) : F64 :=
  arith.div policy.halfLifeSec (arith.ln (.finite 2))

def k (arith : FloatArith) (policy : RatingPolicy) : F64 :=
  arith.div (arith.ln (arith.div (.finite 1) policy.minWeight)) policy.sandMax

def fields (policy : RatingPolicy) : List (String × F64) :=
  [("half_life_sec", policy.halfLifeSec), ("fail_penalty", policy.failPenalty),
    ("sand_max", policy.sandMax), ("min_weight", policy.minWeight),
    ("success_factor", policy.successFactor)]

end RatingPolicy

inductive RatingError where
  | notFinite (field : String)
  | halfLife
  | tau
  | sandMax
  | minWeight
  | subnormal
  | successFactor
  | failPenalty
  | k
  | freshWeight
  | saturatedWeight
  | quarantine
  deriving DecidableEq, Repr

/-- What `exp` and `ln` make of the knobs is checked as well, as `Sand::weight` computes it. -/
def RatingPolicy.validate (arith : FloatArith) (policy : RatingPolicy) : Except RatingError Unit :=
  match policy.fields.find? fun field => !field.2.isFinite with
  | some (name, _) => .error (.notFinite name)
  | none =>
    if policy.halfLifeSec.le F64.zero then .error .halfLife
    else if !(policy.tau arith).isFinite then .error .tau
    else if policy.sandMax.le F64.zero then .error .sandMax
    else if policy.minWeight.le F64.zero || F64.lt (.finite 1) policy.minWeight then
      .error .minWeight
    else if policy.minWeight.lt F64.minPositive then .error .subnormal
    else if !(F64.zero.le policy.successFactor && policy.successFactor.le (.finite 1)) then
      .error .successFactor
    else if policy.failPenalty.lt F64.zero then .error .failPenalty
    else
      let k := policy.k arith
      if !k.isFinite then .error .k
      else if !(arith.exp (arith.mul (arith.neg k) F64.zero)).isFinite then .error .freshWeight
      else if !(arith.exp (arith.mul (arith.neg k) policy.sandMax)).isFinite then
        .error .saturatedWeight
      else .ok ()

/-- Exponential-decay accumulator of one upstream. -/
structure Sand where
  level : F64
  last : Instant
  deriving DecidableEq, Repr

namespace Sand

def levelAt (arith : FloatArith) (sand : Sand) (now : Instant) (p : RatingPolicy) : F64 :=
  let dt := arith.seconds (now - sand.last)
  let decayed := arith.mul sand.level (arith.exp (arith.div (arith.neg dt) (p.tau arith)))
  if decayed.lt (arith.mul p.sandMax (.finite (1 / 1000000))) then F64.zero else decayed

def observeFailure (arith : FloatArith) (sand : Sand) (now : Instant) (p : RatingPolicy) :
    Sand :=
  ⟨(arith.add (sand.levelAt arith now p) p.failPenalty).min p.sandMax, now⟩

def observeSuccess (arith : FloatArith) (sand : Sand) (now : Instant) (p : RatingPolicy) :
    Sand :=
  ⟨arith.mul (sand.levelAt arith now p) p.successFactor, now⟩

def weight (arith : FloatArith) (sand : Sand) (now : Instant) (p : RatingPolicy) : F64 :=
  arith.exp (arith.mul (arith.neg (p.k arith)) (sand.levelAt arith now p))

end Sand

/-- The locked part: one sand cell and one quarantine cell for each upstream. -/
structure Inner (ρ : Type u) where
  cells : List Sand
  quarantine : List Cell
  rng : ρ
  sized : quarantine.length = cells.length

structure Ratings (ρ : Type u) where
  policy : RatingPolicy
  quarantine : QuarantinePolicy
  inner : Inner ρ

inductive UpstreamState where
  | alive
  | quarantined
  | probation
  deriving DecidableEq, Repr

/-- One upstream's quarantine record, as it is saved. -/
structure Health where
  state : UpstreamState
  remaining : Duration
  trips : Nat
  consecutive : Nat
  deriving DecidableEq, Repr

def State.upstream : State → UpstreamState
  | .healthy => .alive
  | .quarantined => .quarantined
  | .probation => .probation

def Cell.health (cell : Cell) (now : Instant) : Health :=
  let snapshot := cell.snapshot now
  ⟨snapshot.state.upstream, snapshot.left, snapshot.trips, snapshot.consecutive⟩

namespace Inner

variable {ρ : Type u}

def mapCell (inner : Inner ρ) (i : Nat) (f : Sand → Sand) : Inner ρ :=
  { inner with
    cells := inner.cells.modify i f
    sized := by rw [List.length_modify]; exact inner.sized }

def mapQuarantine (inner : Inner ρ) (i : Nat) (f : Cell → Cell) : Inner ρ :=
  { inner with
    quarantine := inner.quarantine.modify i f
    sized := by rw [List.length_modify]; exact inner.sized }

@[simp] theorem mapCell_quarantine (inner : Inner ρ) (i : Nat) (f : Sand → Sand) :
    (inner.mapCell i f).quarantine = inner.quarantine := rfl

@[simp] theorem mapCell_cells (inner : Inner ρ) (i : Nat) (f : Sand → Sand) :
    (inner.mapCell i f).cells = inner.cells.modify i f := rfl

@[simp] theorem mapQuarantine_cells (inner : Inner ρ) (i : Nat) (f : Cell → Cell) :
    (inner.mapQuarantine i f).cells = inner.cells := rfl

@[simp] theorem mapQuarantine_quarantine (inner : Inner ρ) (i : Nat) (f : Cell → Cell) :
    (inner.mapQuarantine i f).quarantine = inner.quarantine.modify i f := rfl

end Inner

namespace Ratings

variable {ρ : Type u} (arith : FloatArith)

/-- `n` upstreams, none of which failed yet. -/
def fresh (n : Nat) (policy : RatingPolicy) (quarantine : QuarantinePolicy) (now : Instant)
    (rng : ρ) : Ratings ρ where
  policy := policy
  quarantine := quarantine
  inner :=
    { cells := List.replicate n ⟨F64.zero, now⟩
      quarantine := List.replicate n Cell.fresh
      rng := rng
      sized := by simp }

/-- `fresh`, on policies that are valid. -/
def tryWithQuarantine (n : Nat) (policy : RatingPolicy) (quarantine : QuarantinePolicy)
    (now : Instant) (rng : ρ) : Except RatingError (Ratings ρ) :=
  match policy.validate arith with
  | .error error => .error error
  | .ok () =>
    if quarantine.validate then .ok (fresh n policy quarantine now rng) else .error .quarantine

def onFailure (ratings : Ratings ρ) (i : Nat) (now : Instant) : Ratings ρ :=
  if ratings.policy.enabled then
    { ratings with
      inner := ratings.inner.mapCell i fun sand =>
        sand.observeFailure arith now ratings.policy }
  else ratings

def onHardFailure (ratings : Ratings ρ) (i : Nat) (now : Instant) :
    Option Duration × Ratings ρ :=
  match ratings.inner.quarantine[i]? with
  | none => (none, ratings)
  | some cell =>
    let ratings := ratings.onFailure arith i now
    if ratings.quarantine.enabled then
      ((cell.hardFailure now ratings.quarantine).1,
        { ratings with
          inner := ratings.inner.mapQuarantine i fun cell =>
            (cell.hardFailure now ratings.quarantine).2 })
    else (none, ratings)

def quarantineNow (ratings : Ratings ρ) (i : Nat) (now : Instant) :
    Option Duration × Ratings ρ :=
  if ratings.quarantine.enabled then
    match ratings.inner.quarantine[i]? with
    | none => (none, ratings)
    | some cell =>
      (some (cell.tripNow now ratings.quarantine).1,
        { ratings with
          inner := ratings.inner.mapQuarantine i fun cell =>
            (cell.tripNow now ratings.quarantine).2 })
  else (none, ratings)

def onSuccess (ratings : Ratings ρ) (i : Nat) (now : Instant) : Ratings ρ :=
  let inner :=
    if ratings.policy.enabled then
      ratings.inner.mapCell i fun sand => sand.observeSuccess arith now ratings.policy
    else ratings.inner
  { ratings with inner := inner.mapQuarantine i Cell.success }

def isQuarantined (ratings : Ratings ρ) (i : Nat) : Bool :=
  ratings.inner.quarantine[i]?.any Cell.isTripped

def weights (ratings : Ratings ρ) (now : Instant) : List F64 :=
  ratings.inner.cells.map fun sand => sand.weight arith now ratings.policy

def healthyAt (ratings : Ratings ρ) (now : Instant) : List Bool :=
  ratings.inner.quarantine.map fun cell => cell.state now == .healthy

def maskUnhealthy (weights : List F64) (healthy : List Bool) : List F64 :=
  List.zipWith (fun w ok => if ok then w else F64.zero) weights healthy

/-- `None` for the panic on an empty set. -/
def pick (rng : Rng ρ) (ratings : Ratings ρ) (now : Instant) : Option Nat × Ratings ρ :=
  let weights := ratings.weights arith now
  if weights.isEmpty then (none, ratings)
  else
    let healthy := ratings.healthyAt now
    let weights :=
      if ratings.quarantine.enabled && healthy.any id then
        maskUnhealthy weights healthy
      else weights
    let (i, state) := Select.weightedIndex arith rng weights ratings.inner.rng
    (some i, { ratings with inner := { ratings.inner with rng := state } })

def eligible (ratings : Ratings ρ) (now : Instant) : List Nat :=
  let healthy := ratings.healthyAt now
  if ratings.quarantine.enabled && healthy.any id then
    (List.range ratings.inner.cells.length).filter fun i => healthy[i]?.getD false
  else
    List.range ratings.inner.cells.length

/-- `None` if an index were out of bounds. -/
def pickOrder (rng : Rng ρ) (ratings : Ratings ρ) (now : Instant) :
    Option (List Nat) × Ratings ρ :=
  let eligible := ratings.eligible now
  let weights := eligible.mapM fun i =>
    ratings.inner.cells[i]?.map fun sand => sand.weight arith now ratings.policy
  match weights with
  | none => (none, ratings)
  | some weights =>
    let (keyed, state) := Select.weightedKeys arith rng 0 weights ratings.inner.rng
    ((Select.orderKeys keyed).mapM fun j => eligible[j]?,
      { ratings with inner := { ratings.inner with rng := state } })

/-- The leases granted at `now`, and the cells that hold them. -/
def takeProbes (ratings : Ratings ρ) (now : Instant) : List Nat × Ratings ρ :=
  if ratings.quarantine.enabled then
    let leased := ratings.inner.quarantine.map fun cell => cell.tryLease now ratings.quarantine
    ((List.range leased.length).filter fun i => leased[i]?.any (·.1),
      { ratings with
        inner := { ratings.inner with
          quarantine := leased.map (·.2)
          sized := by simpa [leased] using ratings.inner.sized } })
  else ([], ratings)

def health (ratings : Ratings ρ) (now : Instant) : List Health :=
  ratings.inner.quarantine.map fun cell => cell.health now

/-- `Alive` records change nothing. -/
def restoreHealth (ratings : Ratings ρ) (i : Nat) (health : Health) (now : Instant) :
    Bool × Ratings ρ :=
  if !ratings.quarantine.enabled || health.state == .alive then (false, ratings)
  else
    match ratings.inner.quarantine[i]? with
    | none => (false, ratings)
    | some _ =>
      (true, { ratings with
        inner := ratings.inner.mapQuarantine i fun _ =>
          Cell.restore (health.state == .quarantined) health.remaining health.trips
            health.consecutive now ratings.quarantine })

end Ratings

/-! What new ratings are made on. -/

structure Accepted (arith : FloatArith) (policy : RatingPolicy) (quarantine : QuarantinePolicy) :
    Prop where
  rating : policy.validate arith = .ok ()
  quarantine : quarantine.validate = true

def Rejected (arith : FloatArith) (policy : RatingPolicy) (quarantine : QuarantinePolicy)
    (error : RatingError) : Prop :=
  policy.validate arith = .error error ∨
    policy.validate arith = .ok () ∧ quarantine.validate = false ∧ error = .quarantine

theorem accepted_or_rejected (arith : FloatArith) (policy : RatingPolicy)
    (quarantine : QuarantinePolicy) :
    Accepted arith policy quarantine ∨ ∃ error, Rejected arith policy quarantine error := by
  cases hrating : policy.validate arith with
  | error error => exact .inr ⟨error, .inl hrating⟩
  | ok _ =>
    cases hquarantine : quarantine.validate with
    | true => exact .inl ⟨hrating, hquarantine⟩
    | false => exact .inr ⟨_, .inr ⟨hrating, hquarantine, rfl⟩⟩

section

variable {ρ : Type u} {arith : FloatArith} {n : Nat} {policy : RatingPolicy}
  {quarantine : QuarantinePolicy} {now : Instant} {rng : ρ}

theorem Accepted.tryWithQuarantine (haccepted : Accepted arith policy quarantine) :
    Ratings.tryWithQuarantine arith n policy quarantine now rng =
      .ok (Ratings.fresh n policy quarantine now rng) := by
  rw [Ratings.tryWithQuarantine, haccepted.rating]
  exact if_pos haccepted.quarantine

theorem tryWithQuarantine_ok {ratings : Ratings ρ}
    (hmade : Ratings.tryWithQuarantine arith n policy quarantine now rng = .ok ratings) :
    Accepted arith policy quarantine ∧ ratings = Ratings.fresh n policy quarantine now rng := by
  unfold Ratings.tryWithQuarantine at hmade
  cases hrating : policy.validate arith with
  | error error =>
    rw [hrating] at hmade
    cases hmade
  | ok _ =>
    rw [hrating] at hmade
    dsimp only at hmade
    split at hmade
    · rename_i hquarantine
      cases hmade
      exact ⟨⟨hrating, hquarantine⟩, rfl⟩
    · cases hmade

theorem Rejected.tryWithQuarantine {error : RatingError}
    (hrejected : Rejected arith policy quarantine error) :
    Ratings.tryWithQuarantine arith n policy quarantine now rng = .error error := by
  rw [Ratings.tryWithQuarantine]
  obtain hrating | ⟨hrating, hquarantine, rfl⟩ := hrejected
  · rw [hrating]
  · rw [hrating]
    exact if_neg (Bool.eq_false_iff.mp hquarantine)

end

end Resocks5.Rating
