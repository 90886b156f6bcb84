import Resocks5.Foundation.Buckets
import Resocks5.Rating.Selection
import Resocks5.Session.Rotator

namespace Resocks5.Session

open Resocks5.Foundation
open Resocks5.Rating
open Resocks5.Types

/-! The table through which a rotator finds the slot of an upstream. -/

def sameUpstream (a b : ProxyConfig) : Bool :=
  a.node.port == b.node.port && a.node.protocol == b.node.protocol &&
    a.node.gateLevel == b.node.gateLevel && a.node.host == b.node.host &&
      a.node.user == b.node.user && a.node.password == b.node.password

/-- `RandomState::hash_one` of an identity: host, port, protocol, user, password and gate level. -/
abbrev HashOne := Bytes × UInt16 × ProxyProtocol × Option Bytes × Option Bytes × UInt8 → UInt64

def upstreamHash (state : HashOne) (proxy : ProxyConfig) : UInt64 :=
  state (proxy.node.host, proxy.node.port, proxy.node.protocol, proxy.node.user,
    proxy.node.password, proxy.node.gateLevel)

theorem sameUpstream_iff {a b : ProxyConfig} : sameUpstream a b = true ↔ a.node = b.node := by
  obtain ⟨⟨_, _, _, _, _, _⟩, _⟩ := a
  obtain ⟨⟨_, _, _, _, _, _⟩, _⟩ := b
  simp only [sameUpstream, Bool.and_eq_true, beq_iff_eq, ProxyNode.mk.injEq]
  tauto

theorem sameUpstream_respects (state : HashOne) :
    Buckets.Respects sameUpstream (upstreamHash state) where
  refl a := sameUpstream_iff.mpr rfl
  symm a b hab := sameUpstream_iff.mpr (sameUpstream_iff.mp hab).symm
  trans a b c hab hbc :=
    sameUpstream_iff.mpr ((sameUpstream_iff.mp hab).trans (sameUpstream_iff.mp hbc))
  hash a b hab := by rw [upstreamHash, upstreamHash, sameUpstream_iff.mp hab]

/-- `by_identity` with the upstreams in their slots, and the ratings of the slots. -/
structure ProxyRotator (state : HashOne) (ρ : Type u) where
  byIdentity : Buckets (upstreamHash state)
  ratings : Ratings ρ

/-- The ways to record how an upstream did. -/
inductive Recording where
  | failure
  | hardFailure
  | error (err : ConnectError)
  | success

namespace ProxyRotator

variable {ρ : Type u} {state : HashOne} (arith : FloatArith)

def proxies (rotator : ProxyRotator state ρ) : List ProxyConfig := rotator.byIdentity.slots

def tryWithQuarantine (state : HashOne) (proxies : List ProxyConfig) (policy : RatingPolicy)
    (quarantine : QuarantinePolicy) (now : Instant) (rng : ρ) :
    Except RotatorError (ProxyRotator state ρ) :=
  if proxies.isEmpty then .error .empty
  else
    let byIdentity := (Buckets.empty (upstreamHash state)).addAll sameUpstream proxies
    match Ratings.tryWithQuarantine arith byIdentity.slots.length policy quarantine now rng with
    | .ok ratings => .ok ⟨byIdentity, ratings⟩
    | .error error => .error (.invalidPolicy error)

def indexOf (rotator : ProxyRotator state ρ) (p : ProxyConfig) : Option Nat :=
  rotator.byIdentity.find? sameUpstream p

/-- What is recorded for the slot of `proxy`; nothing for an unknown one. -/
def onSlot {α : Type} (rotator : ProxyRotator state ρ) (proxy : ProxyConfig) (unknown : α)
    (update : Nat → α × Ratings ρ) : α × ProxyRotator state ρ :=
  match rotator.indexOf proxy with
  | none => (unknown, rotator)
  | some i =>
    let (result, ratings) := update i
    (result, { rotator with ratings })

def recordFailure (rotator : ProxyRotator state ρ) (proxy : ProxyConfig) (now : Instant) :
    ProxyRotator state ρ :=
  (rotator.onSlot proxy () fun i => ((), rotator.ratings.onFailure arith i now)).2

def recordHardFailure (rotator : ProxyRotator state ρ) (proxy : ProxyConfig) (now : Instant) :
    Option Duration × ProxyRotator state ρ :=
  rotator.onSlot proxy none fun i => rotator.ratings.onHardFailure arith i now

def recordError (rotator : ProxyRotator state ρ) (proxy : ProxyConfig) (err : ConnectError)
    (now : Instant) : Option Duration × ProxyRotator state ρ :=
  if !err.countsAgainstUpstream then (none, rotator)
  else if err.isUpstreamDown then rotator.recordHardFailure arith proxy now
  else (none, rotator.recordFailure arith proxy now)

def recordSuccess (rotator : ProxyRotator state ρ) (proxy : ProxyConfig) (now : Instant) :
    ProxyRotator state ρ :=
  (rotator.onSlot proxy () fun i => ((), rotator.ratings.onSuccess arith i now)).2

def record (rotator : ProxyRotator state ρ) (proxy : ProxyConfig) (now : Instant) :
    Recording → ProxyRotator state ρ
  | .failure => rotator.recordFailure arith proxy now
  | .hardFailure => (rotator.recordHardFailure arith proxy now).2
  | .error err => (rotator.recordError arith proxy err now).2
  | .success => rotator.recordSuccess arith proxy now

def toRotator (rotator : ProxyRotator state ρ) : Rotator ρ := ⟨rotator.proxies, rotator.ratings⟩

/-! The table and the search through all slots agree. -/

section

variable {arith : FloatArith} {rotator : ProxyRotator state ρ}

theorem toRotator_indexOf (hdistinct : Buckets.Distinct sameUpstream rotator.proxies)
    (p : ProxyConfig) : rotator.toRotator.indexOf p = rotator.indexOf p := by
  have hfound : ∀ i, rotator.indexOf p = some i ↔ ∃ slot, rotator.proxies[i]? = some slot ∧
      sameUpstream p slot = true := fun i =>
    Buckets.find?_eq_some (sameUpstream_respects state) hdistinct
  cases hindex : rotator.toRotator.indexOf p with
  | some i =>
      obtain ⟨hlt, hsame, -⟩ := List.findIdx?_eq_some_iff_getElem.mp hindex
      refine ((hfound i).mpr ⟨_, List.getElem?_eq_getElem hlt, ?_⟩).symm
      exact sameUpstream_iff.mpr (sameNode_iff.mp hsame)
  | none =>
      cases hother : rotator.indexOf p with
      | none => rfl
      | some i =>
          obtain ⟨slot, hslot, hsame⟩ := (hfound i).mp hother
          have hmiss := List.findIdx?_eq_none_iff.mp hindex slot (List.mem_of_getElem? hslot)
          rw [sameNode_iff.mpr (sameUpstream_iff.mp hsame)] at hmiss
          cases hmiss

theorem toRotator_recordFailure (hdistinct : Buckets.Distinct sameUpstream rotator.proxies)
    (p : ProxyConfig) (now : Instant) :
    (rotator.recordFailure arith p now).toRotator =
      rotator.toRotator.recordFailure arith p now := by
  unfold recordFailure onSlot Rotator.recordFailure
  rw [toRotator_indexOf hdistinct]
  cases rotator.indexOf p <;> rfl

theorem toRotator_recordHardFailure (hdistinct : Buckets.Distinct sameUpstream rotator.proxies)
    (p : ProxyConfig) (now : Instant) :
    (rotator.recordHardFailure arith p now).2.toRotator =
      (rotator.toRotator.recordHardFailure arith p now).2 := by
  unfold recordHardFailure onSlot Rotator.recordHardFailure
  rw [toRotator_indexOf hdistinct]
  cases rotator.indexOf p <;> rfl

theorem toRotator_recordSuccess (hdistinct : Buckets.Distinct sameUpstream rotator.proxies)
    (p : ProxyConfig) (now : Instant) :
    (rotator.recordSuccess arith p now).toRotator =
      rotator.toRotator.recordSuccess arith p now := by
  unfold recordSuccess onSlot Rotator.recordSuccess
  rw [toRotator_indexOf hdistinct]
  cases rotator.indexOf p <;> rfl

theorem onSlot_byIdentity {α : Type} (p : ProxyConfig) (unknown : α)
    (update : Nat → α × Ratings ρ) :
    (rotator.onSlot p unknown update).2.byIdentity = rotator.byIdentity := by
  unfold onSlot
  cases rotator.indexOf p <;> rfl

theorem onSlot_unknown {α : Type} {p : ProxyConfig} (hunknown : rotator.indexOf p = none)
    (unknown : α) (update : Nat → α × Ratings ρ) :
    rotator.onSlot p unknown update = (unknown, rotator) := by
  rw [onSlot, hunknown]

end

end ProxyRotator

def Recording.onSlot (arith : FloatArith) (policy : RatingPolicy) (quarantine : QuarantinePolicy)
    (now : Instant) (slot : Slot) : Recording → Slot
  | .failure => slot.strike arith policy quarantine false now
  | .hardFailure => slot.strike arith policy quarantine true now
  | .error err =>
    if err.countsAgainstUpstream then slot.strike arith policy quarantine err.isUpstreamDown now
    else slot
  | .success => slot.lift arith policy now

namespace ProxyRotator

variable {ρ : Type u} {state : HashOne} {arith : FloatArith}

theorem record_slot {rotator : ProxyRotator state ρ}
    (hdistinct : Buckets.Distinct sameUpstream rotator.proxies) (recording : Recording)
    (p : ProxyConfig) (now : Instant) (j : Nat) :
    (rotator.record arith p now recording).toRotator.slot? j =
      if rotator.indexOf p = some j then
        (rotator.toRotator.slot? j).map fun slot =>
          recording.onSlot arith rotator.ratings.policy rotator.ratings.quarantine now slot
      else rotator.toRotator.slot? j := by
  have hfailure := (Rotator.recordFailure_spec arith rotator.toRotator p now).2 j
  have hhard := (Rotator.recordHardFailure_spec arith rotator.toRotator p now).2 j
  rw [← toRotator_recordFailure hdistinct, Rotator.struck, toRotator_indexOf hdistinct] at hfailure
  rw [← toRotator_recordHardFailure hdistinct, Rotator.struck,
    toRotator_indexOf hdistinct] at hhard
  cases recording with
  | failure => exact hfailure
  | hardFailure => exact hhard
  | error err =>
      rw [record, recordError]
      cases hcounts : err.countsAgainstUpstream with
      | false => simp [Recording.onSlot, hcounts]
      | true =>
          cases hdown : err.isUpstreamDown with
          | false =>
              simp only [Recording.onSlot, hcounts, hdown, if_true, Bool.not_true,
                Bool.false_eq_true, if_false]
              exact hfailure
          | true =>
              simp only [Recording.onSlot, hcounts, hdown, if_true, Bool.not_true,
                Bool.false_eq_true, if_false]
              exact hhard
  | success =>
      have hsuccess := (Rotator.recordSuccess_spec arith rotator.toRotator p now).2 j
      rw [← toRotator_recordSuccess hdistinct, toRotator_indexOf hdistinct] at hsuccess
      exact hsuccess

theorem record_byIdentity (rotator : ProxyRotator state ρ) (recording : Recording)
    (p : ProxyConfig) (now : Instant) :
    (rotator.record arith p now recording).byIdentity = rotator.byIdentity := by
  cases recording with
  | error err =>
      rw [record, recordError]
      split
      · rfl
      · split <;> exact onSlot_byIdentity p _ _
  | _ => exact onSlot_byIdentity p _ _

theorem record_unknown {rotator : ProxyRotator state ρ} {p : ProxyConfig}
    (hunknown : rotator.indexOf p = none) (recording : Recording) (now : Instant) :
    rotator.record arith p now recording = rotator := by
  have hsoft : rotator.recordFailure arith p now = rotator := by
    rw [recordFailure, onSlot_unknown hunknown]
  have hhard : (rotator.recordHardFailure arith p now).2 = rotator := by
    rw [recordHardFailure, onSlot_unknown hunknown]
  cases recording with
  | failure => exact hsoft
  | hardFailure => exact hhard
  | error err =>
      rw [record, recordError]
      split
      · rfl
      · split
        · exact hhard
        · exact hsoft
  | success => rw [record, recordSuccess, onSlot_unknown hunknown]

theorem record_gate (rotator : ProxyRotator state ρ) (recording : Recording) (p : ProxyConfig)
    (gate : List ProxyNode) (now : Instant) :
    rotator.record arith { p with gate } now recording =
      rotator.record arith p now recording := by
  cases recording <;> rfl

/-- The slots are the first occurrences of the upstreams, whatever the hash; each upstream is found
in its slot, and what is recorded for it stays there. The ratings may have come to any state. -/
theorem rotator_slots (arith : FloatArith) (state : HashOne) (proxies : List ProxyConfig)
    (policy : RatingPolicy) (quarantine : QuarantinePolicy) (created : Instant) (seed : ρ)
    {built : ProxyRotator state ρ}
    (hbuilt : tryWithQuarantine arith state proxies policy quarantine created seed = .ok built) :
    built.proxies = Buckets.firsts sameUpstream proxies ∧
      (built.proxies.Pairwise fun early late => sameUpstream late early = false) ∧
      ∀ ratings : Ratings ρ,
        (∀ p i, { built with ratings }.indexOf p = some i ↔
          ∃ slot, built.proxies[i]? = some slot ∧ sameUpstream p slot = true) ∧
        (∀ (p a b : ProxyConfig) (i j : Nat), built.proxies[i]? = some a → built.proxies[j]? = some b →
          sameUpstream p a = true → sameUpstream p b = true → i = j) ∧
        ∀ recording p now,
          ({ built with ratings }.record arith p now recording).byIdentity = built.byIdentity ∧
          (∀ j, ({ built with ratings }.record arith p now recording).toRotator.slot? j =
            if { built with ratings }.indexOf p = some j then
              ({ built with ratings }.toRotator.slot? j).map fun slot =>
                recording.onSlot arith ratings.policy ratings.quarantine now slot
            else { built with ratings }.toRotator.slot? j) ∧
          ({ built with ratings }.indexOf p = none →
            { built with ratings }.record arith p now recording = { built with ratings }) ∧
          ∀ gate, { built with ratings }.record arith { p with gate } now recording =
            { built with ratings }.record arith p now recording := by
  have hslots : built.byIdentity =
      (Buckets.empty (upstreamHash state)).addAll sameUpstream proxies := by
    unfold tryWithQuarantine at hbuilt
    split at hbuilt
    · cases hbuilt
    · dsimp only at hbuilt
      split at hbuilt
      · cases hbuilt
        rfl
      · cases hbuilt
  have hsame := sameUpstream_respects state
  have hcollects := Buckets.collects_ofList hsame proxies
  rw [← hslots] at hcollects
  have hdistinct := hcollects.distinct
  refine ⟨hcollects.firsts, hdistinct, fun ratings => ⟨fun p i => ?_, ?_, ?_⟩⟩
  · exact Buckets.find?_eq_some hsame hdistinct
  · intro p a b i j ha hb hpa hpb
    exact hdistinct.unique hsame ha hb hpa hpb
  · intro recording p now
    refine ⟨record_byIdentity _ recording p now, fun j => ?_, fun hunknown => ?_, fun gate => ?_⟩
    · have hproxies : Buckets.Distinct sameUpstream { built with ratings }.proxies := hdistinct
      exact record_slot hproxies recording p now j
    · exact record_unknown hunknown recording now
    · exact record_gate _ recording p gate now

def twinProxies : List ProxyConfig :=
  [⟨⟨.socks5, lit "a", 1080, none, none, 0⟩, []⟩,
    ⟨⟨.socks5, lit "b", 1080, none, none, 0⟩, []⟩,
    ⟨⟨.socks5, lit "a", 1080, none, none, 0⟩, [⟨.http, lit "g", 80, none, none, 1⟩]⟩]

theorem rotator_slots_collision :
    ∃ built : ProxyRotator (fun _ => 0) UInt64,
      tryWithQuarantine Ratings.exactArith (fun _ => 0) twinProxies
        ⟨.finite 30, .finite 0, .finite 8, .finite 1, .finite 1⟩ ⟨1, 30, 600, 25, by decide⟩ 0 7 =
          .ok built ∧ built.proxies = twinProxies.take 2 := by
  have haccepted : Accepted Ratings.exactArith
      ⟨.finite 30, .finite 0, .finite 8, .finite 1, .finite 1⟩
      ⟨1, 30, 600, 25, by decide⟩ := ⟨by decide +kernel, by decide⟩
  obtain ⟨built, hbuilt⟩ : ∃ built : ProxyRotator (fun _ => 0) UInt64,
      tryWithQuarantine Ratings.exactArith (fun _ => 0) twinProxies
        ⟨.finite 30, .finite 0, .finite 8, .finite 1, .finite 1⟩ ⟨1, 30, 600, 25, by decide⟩ 0 7 =
          .ok built := by
    rw [tryWithQuarantine, if_neg (by decide)]
    dsimp only
    rw [haccepted.tryWithQuarantine]
    exact ⟨_, rfl⟩
  exact ⟨built, hbuilt,
    (rotator_slots Ratings.exactArith (fun _ => 0) twinProxies _ _ 0 7 hbuilt).1.trans (by decide)⟩

end ProxyRotator

end Resocks5.Session
