import Resocks5.Chain.Marks
import Resocks5.Connect.ConnectChain
import Resocks5.Session.Rotator
import Resocks5.Rating.Selection

namespace Resocks5.Chain

open Resocks5.Foundation
open Resocks5.Rating
open Resocks5.Session
open Resocks5.Types

abbrev Rotators (ρ : Type u) := RotatorId → Rotator ρ

structure Quarantined where
  proxy : ProxyConfig
  length : Duration
  deriving DecidableEq, Repr

section

variable {ρ : Type u} (arith : FloatArith)

def soft (rotators : Rotators ρ) (hop : Hop) (now : Instant) : Rotators ρ :=
  Function.update rotators hop.rotator
    ((rotators hop.rotator).recordFailure arith hop.proxy now)

def hard (rotators : Rotators ρ) (hop : Hop) (err : ConnectError) (now : Instant) :
    List Quarantined × Rotators ρ :=
  let (length, rotator) := (rotators hop.rotator).recordError arith hop.proxy err now
  (length.toList.map fun length => ⟨hop.proxy, length⟩,
    Function.update rotators hop.rotator rotator)

/-- Soft failures on hops `i, i + 1, ..`; `clock i` is when hop `i` is counted. -/
def softAll (clock : Nat → Instant) : Nat → Rotators ρ → List Hop → Rotators ρ
  | _, rotators, [] => rotators
  | i, rotators, hop :: rest =>
    softAll clock (i + 1) (soft arith rotators hop (clock i)) rest

def hardAndDead (plan : ChainPlan) (rotators : Rotators ρ) (hop : Hop) (err : ConnectError)
    (now : Instant) : Option (List Quarantined × ChainPlan × Rotators ρ) :=
  let (quarantined, rotators) := hard arith rotators hop err now
  (plan.markDead hop.proxy).map fun plan => (quarantined, plan, rotators)

/-- `record_failure_inner`; `None` for a panic. -/
def recordFailure (clock : Nat → Instant) (plan : ChainPlan) (rotators : Rotators ρ)
    (pick : ChainPick) (stage : ChainStage) (err : ConnectError) :
    Option (List Quarantined × ChainPlan × Rotators ρ) :=
  if !err.countsAgainstUpstream then some ([], plan, rotators)
  else
    let hops := pick.hops
    match stage with
    | .connect =>
      hops[0]?.bind fun hop => hardAndDead arith plan rotators hop err (clock 0)
    | .hop i =>
      if i + 1 < hops.length then
        if err.isUpstreamDown then
          hops[i]?.bind fun hop => hardAndDead arith plan rotators hop err (clock i)
        else
          hops[i]?.bind fun hop => hops[i + 1]?.map fun next =>
            ([], plan, soft arith (soft arith rotators hop (clock i)) next (clock (i + 1)))
      else some ([], plan, softAll arith clock 0 rotators hops)
    | .target =>
      hops.getLast?.bind fun hop =>
        hardAndDead arith plan rotators hop err (clock (hops.length - 1))

end

/-! Who is to blame: hops with the weight of the failure, and the hop that is dead. -/

structure Strike where
  hop : Nat
  hard : Bool
  deriving DecidableEq, Repr

structure Blame where
  strikes : List Strike
  dead : Option Nat
  deriving DecidableEq, Repr

def blame (length : Nat) (stage : ChainStage) (err : ConnectError) : Blame :=
  if err.countsAgainstUpstream = false then ⟨[], none⟩
  else
    match stage with
    | .connect => ⟨[⟨0, err.isUpstreamDown⟩], some 0⟩
    | .target => ⟨[⟨length - 1, err.isUpstreamDown⟩], some (length - 1)⟩
    | .hop i =>
      if i + 1 < length then
        if err.isUpstreamDown then ⟨[⟨i, true⟩], some i⟩
        else ⟨[⟨i, false⟩, ⟨i + 1, false⟩], none⟩
      else ⟨(List.range length).map fun i => ⟨i, false⟩, none⟩

section

variable {ρ : Type u}

/-- Hop `i` of the pick is upstream `j` of rotator `r`. -/
def Implicates (rotators : Rotators ρ) (hops : List Hop) (r : RotatorId) (j i : Nat) : Prop :=
  ∃ hop, hops[i]? = some hop ∧ hop.rotator = r ∧ (rotators r).indexOf hop.proxy = some j

instance (rotators : Rotators ρ) (hops : List Hop) (r : RotatorId) (j i : Nat) :
    Decidable (Implicates rotators hops r j i) :=
  match h : hops[i]? with
  | none => .isFalse fun ⟨_, hhop, _⟩ => by
      rw [h] at hhop
      cases hhop
  | some hop =>
    if hhit : hop.rotator = r ∧ (rotators r).indexOf hop.proxy = some j then
      .isTrue ⟨hop, h, hhit⟩
    else
      .isFalse fun ⟨other, hother, hhit'⟩ => by
        obtain rfl : hop = other := by simpa [h] using hother
        exact hhit hhit'

def strikeSlot (arith : FloatArith) (clock : Nat → Instant) (rotators : Rotators ρ)
    (hops : List Hop) (strikes : List Strike) (r : RotatorId) (j : Nat)
    (slot : Option Slot) : Option Slot :=
  strikes.foldl (fun slot strike =>
    if Implicates rotators hops r j strike.hop then
      slot.map (Slot.strike arith (rotators r).ratings.policy (rotators r).ratings.quarantine
        strike.hard (clock strike.hop))
    else slot) slot

/-- The rotators after some strikes, slot by slot. -/
structure Struck (arith : FloatArith) (clock : Nat → Instant) (rotators : Rotators ρ)
    (hops : List Hop) (strikes : List Strike) (after : Rotators ρ) : Prop where
  shape : ∀ r, Rotator.SameShape (rotators r) (after r)
  slots : ∀ r j, (after r).slot? j =
    strikeSlot arith clock rotators hops strikes r j ((rotators r).slot? j)

variable {arith : FloatArith} {clock : Nat → Instant} {rotators : Rotators ρ}
  {hops : List Hop}

theorem Struck.none (hops : List Hop) : Struck arith clock rotators hops [] rotators :=
  ⟨fun _ => Rotator.SameShape.refl _, fun _ _ => rfl⟩

theorem strikeSlot_append (first second : List Strike) (r : RotatorId) (j : Nat)
    (slot : Option Slot) :
    strikeSlot arith clock rotators hops (first ++ second) r j slot =
      strikeSlot arith clock rotators hops second r j
        (strikeSlot arith clock rotators hops first r j slot) := by
  simp only [strikeSlot, List.foldl_append]

theorem Struck.snoc {strikes : List Strike} {middle : Rotators ρ}
    (hstruck : Struck arith clock rotators hops strikes middle) {i : Nat} {hop : Hop}
    (hhop : hops[i]? = some hop) {hard : Bool} {rotator : Rotator ρ}
    (hshape : Rotator.SameShape (middle hop.rotator) rotator)
    (hslots : ∀ j, rotator.slot? j =
      (middle hop.rotator).struck arith hop.proxy hard (clock i) j) :
    Struck arith clock rotators hops (strikes ++ [⟨i, hard⟩])
      (Function.update middle hop.rotator rotator) where
  shape := by
    intro r
    by_cases hr : r = hop.rotator
    · subst hr
      rw [Function.update_self]
      exact (hstruck.shape _).trans hshape
    · rw [Function.update_of_ne hr]
      exact hstruck.shape r
  slots := by
    intro r j
    rw [strikeSlot_append, ← hstruck.slots r j]
    show _ = if Implicates rotators hops r j i then _ else _
    by_cases hr : r = hop.rotator
    · subst hr
      have hold := hstruck.shape hop.rotator
      rw [Function.update_self, hslots j, Rotator.struck, hold.indexOf, hold.policy,
        hold.quarantine]
      by_cases hindex : (rotators hop.rotator).indexOf hop.proxy = some j
      · rw [if_pos hindex, if_pos ⟨hop, hhop, rfl, hindex⟩]
      · rw [if_neg hindex, if_neg]
        rintro ⟨other, hother, _, hindex'⟩
        obtain rfl : hop = other := by simpa [hhop] using hother
        exact hindex hindex'
    · rw [Function.update_of_ne hr, if_neg]
      rintro ⟨other, hother, hr', _⟩
      obtain rfl : hop = other := by simpa [hhop] using hother
      exact hr hr'.symm

theorem Struck.soft {strikes : List Strike} {middle : Rotators ρ}
    (hstruck : Struck arith clock rotators hops strikes middle) {i : Nat} {hop : Hop}
    (hhop : hops[i]? = some hop) :
    Struck arith clock rotators hops (strikes ++ [⟨i, false⟩])
      (soft arith middle hop (clock i)) := by
  obtain ⟨hshape, hslots⟩ := Rotator.recordFailure_spec arith (middle hop.rotator) hop.proxy
    (clock i)
  exact hstruck.snoc hhop hshape hslots

theorem Struck.hard {err : ConnectError} (hcounts : err.countsAgainstUpstream = true) {i : Nat}
    {hop : Hop} (hhop : hops[i]? = some hop) :
    Struck arith clock rotators hops [⟨i, err.isUpstreamDown⟩]
      (hard arith rotators hop err (clock i)).2 := by
  obtain ⟨hshape, hslots⟩ := Rotator.recordError_spec arith (rotators hop.rotator) hop.proxy
    hcounts (clock i)
  exact (Struck.none hops).snoc hhop hshape hslots

theorem Struck.softAll {strikes : List Strike} {middle : Rotators ρ} {front back : List Hop}
    (hstruck : Struck arith clock rotators (front ++ back) strikes middle) :
    Struck arith clock rotators (front ++ back)
      (strikes ++ (List.range' front.length back.length).map fun i => ⟨i, false⟩)
      (softAll arith clock front.length middle back) := by
  induction back generalizing front strikes middle with
  | nil => simpa [Chain.softAll] using hstruck
  | cons hop rest ih =>
      have hhop : (front ++ hop :: rest)[front.length]? = some hop := by simp
      have hsplit : front ++ hop :: rest = (front ++ [hop]) ++ rest := by simp
      have hnext := hstruck.soft hhop
      rw [hsplit] at hnext ⊢
      have hrest := ih hnext
      simpa [Chain.softAll, List.range'_succ] using hrest

theorem strikeSlot_untouched {strikes : List Strike} {r : RotatorId} {j : Nat}
    (hnone : ∀ strike ∈ strikes, ¬ Implicates rotators hops r j strike.hop)
    (slot : Option Slot) :
    strikeSlot arith clock rotators hops strikes r j slot = slot := by
  induction strikes generalizing slot with
  | nil => rfl
  | cons strike rest ih =>
      rw [strikeSlot, List.foldl_cons, if_neg (hnone strike List.mem_cons_self)]
      exact ih (fun other hother => hnone other (List.mem_cons_of_mem _ hother)) slot

def DeadBy (plan plan' : ChainPlan) (hops : List Hop) (dead : Option Nat) : Prop :=
  ∀ key, key ∈ plan'.dead ↔ key ∈ plan.dead ∨
    ∃ i hop, dead = some i ∧ hops[i]? = some hop ∧ singletonKey hop.proxy = key

/-- Marks, counts and exclusions that blaming may not touch. -/
structure Kept (plan plan' : ChainPlan) : Prop where
  candidates : plan'.layers.map (·.candidates) = plan.layers.map (·.candidates)
  seen : plan'.seen = plan.seen
  counted : plan'.Counted

theorem deadBy_none (plan : ChainPlan) (hops : List Hop) : DeadBy plan plan hops none := by
  intro key
  simp

theorem hardAndDead_blame {plan : ChainPlan} (hcounted : plan.Counted) {err : ConnectError}
    (hcounts : err.countsAgainstUpstream = true) {i : Nat} {hop : Hop}
    (hhop : hops[i]? = some hop) :
    ∃ quarantined plan' rotators',
      hardAndDead arith plan rotators hop err (clock i) =
        some (quarantined, plan', rotators') ∧
      Struck arith clock rotators hops [⟨i, err.isUpstreamDown⟩] rotators' ∧
      DeadBy plan plan' hops (some i) ∧ Kept plan plan' := by
  obtain ⟨plan', hmark, hcounted', hcandidates, hdead, hseen⟩ :=
    ChainPlan.markDead_counted hcounted hop.proxy
  refine ⟨(hard arith rotators hop err (clock i)).1, plan',
    (hard arith rotators hop err (clock i)).2, ?_, Struck.hard hcounts hhop, ?_,
    ⟨hcandidates, hseen, hcounted'⟩⟩
  · rw [hardAndDead, hmark]
    rfl
  · intro key
    rw [hdead, List.mem_insert_iff, or_comm]
    refine or_congr_right ⟨?_, ?_⟩
    · rintro rfl
      exact ⟨i, hop, rfl, hhop, rfl⟩
    · rintro ⟨_, other, ⟨⟩, hother, rfl⟩
      obtain rfl : hop = other := by simpa [hhop] using hother
      rfl

theorem recordFailure_blame (arith : FloatArith) (clock : Nat → Instant)
    {plan : ChainPlan} (hcounted : plan.Counted) (rotators : Rotators ρ) (pick : ChainPick) (stage : ChainStage) (err : ConnectError) :
    ∃ quarantined plan' rotators',
      recordFailure arith clock plan rotators pick stage err =
        some (quarantined, plan', rotators') ∧
      Struck arith clock rotators pick.hops (blame pick.hops.length stage err).strikes
        rotators' ∧
      DeadBy plan plan' pick.hops (blame pick.hops.length stage err).dead ∧
      Kept plan plan' := by
  have hpos := List.length_pos_iff.mpr pick.nonempty
  unfold recordFailure blame
  cases hcounts : err.countsAgainstUpstream with
  | false =>
      exact ⟨[], plan, rotators, rfl, Struck.none _, deadBy_none plan _, rfl, rfl, hcounted⟩
  | true =>
      simp only [Bool.not_true, Bool.false_eq_true, if_false, Bool.true_eq_false]
      cases stage with
      | connect =>
          have hhop := List.getElem?_eq_getElem hpos
          simp only [hhop, Option.bind_some]
          exact hardAndDead_blame hcounted hcounts hhop
      | target =>
          have hhop := List.getElem?_eq_getElem (show pick.hops.length - 1 <
            pick.hops.length by omega)
          simp only [List.getLast?_eq_getElem?, hhop, Option.bind_some]
          exact hardAndDead_blame hcounted hcounts hhop
      | hop i =>
          simp only
          split
          · rename_i hnext
            have hhop := List.getElem?_eq_getElem (Nat.lt_of_succ_lt hnext)
            have hhop' := List.getElem?_eq_getElem hnext
            simp only [hhop, hhop', Option.bind_some, Option.map_some]
            cases hdown : err.isUpstreamDown with
            | true =>
                simp only [if_true]
                rw [show (⟨i, true⟩ : Strike) = ⟨i, err.isUpstreamDown⟩ by rw [hdown]]
                exact hardAndDead_blame hcounted hcounts hhop
            | false =>
                exact ⟨[], plan, _, rfl, ((Struck.none _).soft hhop).soft hhop',
                  deadBy_none plan _, rfl, rfl, hcounted⟩
          · refine ⟨[], plan, _, rfl, ?_, deadBy_none plan _, rfl, rfl, hcounted⟩
            have hnone : Struck arith clock rotators ([] ++ pick.hops) [] rotators :=
              Struck.none _
            rw [List.range_eq_range']
            simpa using hnone.softAll

end

theorem ChainPlan.session_counted {fuel : Nat} {plan plan' : ChainPlan}
    {calls : List PlanCall} {events : List PlanEvent} (hcounted : plan.Counted)
    (hsession : plan.session fuel calls = some (events, plan')) : plan'.Counted := by
  induction calls generalizing plan events with
  | nil =>
      cases hsession
      exact hcounted
  | cons request calls ih =>
      rw [session] at hsession
      split at hsession
      · cases hsession
      · rename_i event moved hcall
        obtain ⟨⟨_, _⟩, hrest, heq⟩ := Option.map_eq_some_iff.mp hsession
        cases heq
        refine ih ?_ hrest
        cases request with
        | nextPick =>
            obtain ⟨⟨_, _⟩, hnext, heq⟩ := Option.map_eq_some_iff.mp hcall
            obtain ⟨hstock, hdead, _⟩ := nextPick_frame hnext
            dsimp only at heq
            split at heq <;> (cases heq; exact hcounted.of_frame hstock hdead)
        | markDead proxy =>
            obtain ⟨_, hmark, heq⟩ := Option.map_eq_some_iff.mp hcall
            obtain ⟨_, hmark', hcounted', _⟩ := markDead_counted hcounted proxy
            cases heq
            rw [hmark] at hmark'
            cases hmark'
            exact hcounted'
        | exclude key =>
            cases hcall
            exact hcounted

open Connect in
/-- Failure blame reaches exactly the implicated nodes: the dialer takes the steps of the chain one
after the other, the first that fails ends the attempt and is what its label names, and what is recorded for a pick strikes the hops that the label blames, marks
dead at most the one that is down, and leaves every other upstream as it was. -/
theorem failure_blame_exact {ρ : Type u} (arith : FloatArith) (clock : Nat → Instant)
    (gates exits : List PickOrder) (fuel : Nat) (calls : List PlanCall)
    (events : List PlanEvent) (plan : ChainPlan)
    (hplan : (ChainPlan.new gates exits).session fuel calls = some (events, plan))
    (rotators : Rotators ρ) :
    (∀ (network : Network) (tlsConnector : Bool) (chain : ProxyConfig) (targetAddr : Bytes),
      (Net.HostPort.parse targetAddr = none →
        connectChain network tlsConnector chain targetAddr =
          .fail .target (.invalidTarget targetAddr)) ∧
      ∀ target, Net.HostPort.parse targetAddr = some target →
        (∀ cause, checkTls chain.nodes tlsConnector = .error cause →
          connectChain network tlsConnector chain targetAddr = .fail .connect cause) ∧
        (checkTls chain.nodes tlsConnector = .ok () →
          (connectChain network tlsConnector chain targetAddr).Walks network chain.nodes
            (route chain.nodes (targetText chain.nodes targetAddr target)))) ∧
    ∀ (pick : ChainPick) (stage : ChainStage) (err : ConnectError),
      ∃ quarantined plan' rotators',
        recordFailure arith clock plan rotators pick stage err =
          some (quarantined, plan', rotators') ∧
        Struck arith clock rotators pick.hops (blame pick.hops.length stage err).strikes
          rotators' ∧
        DeadBy plan plan' pick.hops (blame pick.hops.length stage err).dead ∧
        Kept plan plan' ∧
        (∀ r j, (∀ strike ∈ (blame pick.hops.length stage err).strikes,
          ¬ Implicates rotators pick.hops r j strike.hop) →
          (rotators' r).slot? j = (rotators r).slot? j) ∧
        (err.countsAgainstUpstream = false →
          quarantined = [] ∧ plan' = plan ∧ rotators' = rotators) := by
  have hcounted := ChainPlan.session_counted (ChainPlan.new_counted gates exits) hplan
  refine ⟨fun network tlsConnector chain targetAddr => ⟨fun hnone => ?_, fun target htarget =>
    ⟨fun cause htls => ?_, connectChain_walks htarget⟩⟩, fun pick stage err => ?_⟩
  · rw [connectChain, hnone]
  · simp only [connectChain, htarget, htls]
  obtain ⟨quarantined, plan', rotators', hrecord, hstruck, hdead, hkept⟩ :=
    recordFailure_blame arith clock hcounted rotators pick stage err
  refine ⟨quarantined, plan', rotators', hrecord, hstruck, hdead, hkept, ?_, ?_⟩
  · intro r j hnone
    rw [hstruck.slots r j]
    exact strikeSlot_untouched hnone _
  · intro hcapacity
    rw [recordFailure, if_pos (by simp [hcapacity])] at hrecord
    cases hrecord
    exact ⟨rfl, rfl, rfl⟩

def sampleNode (host gateLevel : UInt8) : ProxyConfig :=
  ⟨⟨.socks5, [host], 1080, none, none, gateLevel⟩, []⟩

def sampleRotators : Rotators UInt64 := fun r =>
  let proxies := if r = 0 then [sampleNode 1 1] else [sampleNode 2 0, sampleNode 3 0]
  ⟨proxies, Ratings.fresh proxies.length
    ⟨.finite 30, .finite 1, .finite 8, .finite 1, .finite 1⟩ ⟨3, 30, 600, 25, three_le_u32Max⟩ 0 7⟩

def samplePick : ChainPick where
  hops := [⟨0, sampleNode 1 1⟩, ⟨1, sampleNode 2 0⟩]
  key := ⟨⟨(sampleNode 2 0).node, [(sampleNode 1 1).node]⟩⟩
  keyed := rfl

def refusingNetwork : Connect.Network where
  acquire := .ok ()
  reserve _ := true
  tunnel _ := .error (.proxyRejected .socks5 (some 4) [])

open Connect in
/-- The refusal is labelled with the gate's hop: both nodes are struck softly, the other exit is
not. -/
theorem failure_blame_exact_refused :
    connectChain refusingNetwork false ⟨(sampleNode 2 0).node, [(sampleNode 1 1).node]⟩
        (lit "h:80") =
      ⟨[.acquire, .reserve 1, .tunnel 0 (Net.HostPort.format [2] 1080)],
        .error ⟨.hop 0, .proxyRejected .socks5 (some 4) []⟩⟩ ∧
    ∃ quarantined plan' rotators',
      recordFailure Ratings.exactArith (fun _ => 5) (ChainPlan.new [] []) sampleRotators samplePick
        (.hop 0) (.proxyRejected .socks5 (some 4) []) = some (quarantined, plan', rotators') ∧
      plan'.dead = [] ∧ (rotators' 1).slot? 1 = (sampleRotators 1).slot? 1 ∧
      (rotators' 1).slot? 0 = ((sampleRotators 1).slot? 0).map
        (Slot.strike Ratings.exactArith ⟨.finite 30, .finite 1, .finite 8, .finite 1, .finite 1⟩
          ⟨3, 30, 600, 25, by decide⟩ false 5) := by
  obtain ⟨hdialer, hrecorder⟩ := failure_blame_exact Ratings.exactArith (fun _ => 5) [] [] 0 [] []
    (ChainPlan.new [] []) rfl sampleRotators
  refine ⟨?_, ?_⟩
  · have htarget : Net.HostPort.parse (lit "h:80") = some ⟨lit "h", 80⟩ := by decide +kernel
    exact ((hdialer refusingNetwork false _ _).2 _ htarget).2 rfl |>.failed [.acquire, .reserve 1] _
      [.tunnel 1 (Net.HostPort.format (lit "h") 80)] _ rfl (by decide) rfl
  · obtain ⟨quarantined, plan', rotators', hrecord, hstruck, hdead, _, huntouched, _⟩ :=
      hrecorder samplePick (.hop 0) (.proxyRejected .socks5 (some 4) [])
    refine ⟨quarantined, plan', rotators', hrecord, ?_, huntouched 1 1 (by decide), ?_⟩
    · refine List.eq_nil_iff_forall_not_mem.mpr fun key hkey => ?_
      obtain hold | ⟨i, hop, hsome, _⟩ := (hdead key).mp hkey
      · cases hold
      · cases hsome
    · exact hstruck.slots 1 0

end Resocks5.Chain
