import Resocks5.Auth.ClaimStep
import Resocks5.Auth.Dropped

namespace Resocks5.Auth

open Resocks5.Foundation

/-! What one step of a call does to the permits, the gates and the claim mutex. -/

/-- Only futures wait for permits and gates. -/
def Phase.fits : Mode → Phase → Bool
  | .verify, .waitVerifySlot | .verify, .waitGate _ | .verify, .recheckGate _
  | .verify, .waitClaimSlot _ | .verify, .waitReverify _ => false
  | _, _ => true

def Phase.rank : Phase → Nat
  | .start => 0
  | .waitVerifySlot => 1
  | .prepare => 2
  | .readHash _ => 3
  | .prepareClaim => 4
  | .fastPath _ => 5
  | .waitGate _ => 6
  | .recheckGate _ => 7
  | .waitClaimSlot _ => 8
  | .waitClaimLock _ => 9
  | .recheckLocked _ => 10
  | .fallback _ => 11
  | .persist _ _ => 12
  | .publish _ _ => 13
  | .cacheClaim _ => 14
  | .waitReverify _ => 15
  | .verifyStored _ => 16
  | .done _ => 17

def Grip.none : Grip := ⟨false, false, false, false⟩

theorem Phase.rank_le (phase : Phase) : phase.rank ≤ 17 := by
  cases phase with
  | _ => simp [rank]

/-- A step of `call`: what it takes was free, what it gives back it had. -/
structure Exchange {Tid Digest : Type} (roster : Tid → Request) (call : Tid)
    (world next : World Tid Digest) : Prop where
  others : ∀ other, other ≠ call → next.phase other = world.phase other
  hashing : Trade (world.grip roster call).verifySlot (next.grip roster call).verifySlot
    world.verifySlots next.verifySlots
  claiming : Trade (world.grip roster call).claimSlot (next.grip roster call).claimSlot
    world.claimSlots next.claimSlots
  gate : Handover call (world.grip roster call).gate (next.grip roster call).gate
    (world.gates (roster call).name) (next.gates (roster call).name)
  gates : ∀ name, name ≠ (roster call).name → next.gates name = world.gates name
  lock : Handover call (world.grip roster call).lock (next.grip roster call).lock
    world.claimLock next.claimLock
  rank : (world.phase call).rank < (next.phase call).rank
  fits : (next.phase call).fits (roster call).mode = true
  users : next.users.length = world.users.length
  closure : (world.phase call).inClosure = true →
    (next.phase call).inClosure = true ∨ next.grip roster call = Grip.none

section

variable {Tid Digest : Type} {roster : Tid → Request} {call : Tid}
  {world next : World Tid Digest} {workers : Nat}

theorem Exchange.accounted (hexchange : Exchange roster call world next)
    (haccounted : Accounted roster workers world) : Accounted roster workers next where
  hashing := haccounted.hashing.trade hexchange.hashing fun other hother => by
    rw [World.grip, World.grip, hexchange.others other hother]
  claiming := haccounted.claiming.trade hexchange.claiming fun other hother => by
    rw [World.grip, World.grip, hexchange.others other hother]
  gates := fun name => by
    have hothers : ∀ other, other ≠ call →
        (decide ((roster other).name = name) && (next.grip roster other).gate) =
          (decide ((roster other).name = name) && (world.grip roster other).gate) := by
      intro other hother
      rw [World.grip, World.grip, hexchange.others other hother]
    by_cases hname : (roster call).name = name
    · refine (haccounted.gates name).handover (t := call) ?_ hothers
      simp only [hname, decide_true, Bool.true_and]
      exact hname ▸ hexchange.gate
    · refine (haccounted.gates name).handover (t := call) ?_ hothers
      simp only [hname, decide_false, Bool.false_and]
      rw [hexchange.gates name (Ne.symm hname)]
      exact .keep _ _
  lock := haccounted.lock.handover hexchange.lock fun other hother => by
    rw [World.grip, World.grip, hexchange.others other hother]

theorem Exchange.caching (hexchange : Exchange roster call world next)
    (cache : String → Option Digest) : Exchange roster call world { next with cache } :=
  ⟨hexchange.others, hexchange.hashing, hexchange.claiming, hexchange.gate, hexchange.gates,
    hexchange.lock, hexchange.rank, hexchange.fits, hexchange.users, hexchange.closure⟩

end

section

variable {Tid Digest : Type} [DecidableEq Tid] {roster : Tid → Request} {call : Tid}
  {world base : World Tid Digest} {phase : Phase}

theorem World.goto_grip (world : World Tid Digest) (call : Tid) (phase : Phase) :
    (world.goto call phase).grip roster call = phase.grip (roster call).mode := by
  rw [grip, goto_phase_self]

theorem Exchange.goto (hphase : base.phase = world.phase)
    (hhashing : Trade (world.grip roster call).verifySlot
      (phase.grip (roster call).mode).verifySlot world.verifySlots base.verifySlots)
    (hclaiming : Trade (world.grip roster call).claimSlot
      (phase.grip (roster call).mode).claimSlot world.claimSlots base.claimSlots)
    (hgate : Handover call (world.grip roster call).gate (phase.grip (roster call).mode).gate
      (world.gates (roster call).name) (base.gates (roster call).name))
    (hgates : ∀ name, name ≠ (roster call).name → base.gates name = world.gates name)
    (hlock : Handover call (world.grip roster call).lock (phase.grip (roster call).mode).lock
      world.claimLock base.claimLock)
    (hrank : (world.phase call).rank < phase.rank)
    (hfits : phase.fits (roster call).mode = true)
    (husers : base.users.length = world.users.length)
    (hclosure : (world.phase call).inClosure = true →
      phase.inClosure = true ∨ phase.grip (roster call).mode = Grip.none) :
    Exchange roster call world (base.goto call phase) where
  others := fun other hother => by
    rw [World.goto_phase_other _ _ _ hother, hphase]
  hashing := by rwa [World.goto_grip]
  claiming := by rwa [World.goto_grip]
  gate := by rwa [World.goto_grip]
  gates := hgates
  lock := by rwa [World.goto_grip]
  rank := by rwa [World.goto_phase_self]
  fits := by rwa [World.goto_phase_self]
  users := husers
  closure := by rwa [World.goto_phase_self, World.goto_grip]

theorem Exchange.quiet (hphase : base.phase = world.phase)
    (hhashing : base.verifySlots = world.verifySlots)
    (hclaiming : base.claimSlots = world.claimSlots) (hgates : base.gates = world.gates)
    (hlock : base.claimLock = world.claimLock) (husers : base.users.length = world.users.length)
    (hgrip : phase.grip (roster call).mode = world.grip roster call)
    (hrank : (world.phase call).rank < phase.rank)
    (hfits : phase.fits (roster call).mode = true)
    (hclosure : (world.phase call).inClosure = true →
      phase.inClosure = true ∨ phase.grip (roster call).mode = Grip.none) :
    Exchange roster call world (base.goto call phase) := by
  refine .goto hphase ?_ ?_ ?_ (fun name _ => congrFun hgates name) ?_ hrank hfits husers hclosure
  · rw [hgrip, hhashing]
    exact .keep _ _
  · rw [hgrip, hclaiming]
    exact .keep _ _
  · rw [hgrip, hgates]
    exact .keep _ _
  · rw [hgrip, hlock]
    exact .keep _ _

theorem Exchange.hashed (hheld : world.grip roster call = Phase.grip (roster call).mode .prepare)
    (hgrip : phase.grip (roster call).mode = Grip.none)
    (hrank : (world.phase call).rank < phase.rank)
    (hfits : phase.fits (roster call).mode = true) :
    Exchange roster call world
      ((world.dropVerifySlot (roster call).mode).goto call phase) := by
  refine .goto (World.dropVerifySlot_phase _ _) ?_ ?_ ?_ (fun name _ => ?_) ?_ hrank hfits ?_
    (fun _ => .inr hgrip)
  · rw [hgrip, hheld]
    cases (roster call).mode with
    | verify => exact .keep _ _
    | verifyAsync => exact .give _
  · rw [hgrip, hheld]
    cases (roster call).mode with
    | verify => exact .keep _ _
    | verifyAsync => exact .keep _ _
  · rw [hgrip, hheld]
    cases (roster call).mode with
    | verify => exact .keep _ _
    | verifyAsync => exact .keep _ _
  · cases (roster call).mode with
    | verify => rfl
    | verifyAsync => rfl
  · rw [hgrip, hheld, World.dropVerifySlot_claimLock]
    cases (roster call).mode with
    | verify => exact .keep _ _
    | verifyAsync => exact .keep _ _
  · rw [World.dropVerifySlot_users]

theorem Exchange.committed (hphase : base.phase = world.phase)
    (hhashing : base.verifySlots = world.verifySlots)
    (hclaiming : base.claimSlots = world.claimSlots) (hgates : base.gates = world.gates)
    (husers : base.users.length = world.users.length) {work : ClaimWork}
    (hheld : world.grip roster call = Phase.grip (roster call).mode (.recheckLocked work))
    (hgrip : phase.grip (roster call).mode = Grip.none)
    (hrank : (world.phase call).rank < phase.rank)
    (hfits : phase.fits (roster call).mode = true) :
    Exchange roster call world ((base.leaveCommit (roster call)).goto call phase) := by
  refine .goto ((World.leaveCommit_phase _ _).trans hphase) ?_ ?_ ?_ (fun name hname => ?_) ?_
    hrank hfits ?_ (fun _ => .inr hgrip)
  · rw [hgrip, hheld, World.leaveCommit]
    cases (roster call).mode with
    | verify => exact hhashing ▸ .keep _ _
    | verifyAsync => exact hhashing ▸ .keep _ _
  · rw [hgrip, hheld, World.leaveCommit]
    cases (roster call).mode with
    | verify => exact hclaiming ▸ .keep _ _
    | verifyAsync => exact hclaiming ▸ .give _
  · rw [hgrip, hheld, World.leaveCommit]
    cases (roster call).mode with
    | verify => exact hgates ▸ .keep _ _
    | verifyAsync =>
        dsimp only
        rw [Function.update_self]
        exact .unlock _
  · rw [World.leaveCommit]
    cases (roster call).mode with
    | verify => exact congrFun hgates name
    | verifyAsync =>
        dsimp only
        rw [Function.update_of_ne hname]
        exact congrFun hgates name
  · rw [hgrip, hheld, World.leaveCommit]
    cases (roster call).mode with
    | verify => exact .unlock _
    | verifyAsync => exact .unlock _
  · rw [World.leaveCommit_users, husers]

theorem Phase.fits_async {phase : Phase} {mode : Mode} (hfits : phase.fits mode = true)
    (hnever : phase.fits .verify = false) : mode = .verifyAsync := by
  cases mode with
  | verify => exact absurd (hfits.symm.trans hnever) (fun heq => by cases heq)
  | verifyAsync => rfl

end

section

variable {Tid Digest : Type} [DecidableEq Tid] [DecidableEq Digest] {crypto : Crypto Digest}
  {entries : String → Option UserEntry} {roster : Tid → Request} {call : Tid}
  {world next : World Tid Digest}

omit [DecidableEq Tid] [DecidableEq Digest] in
theorem World.grip_of {phase : Phase} (hphase : world.phase call = phase) :
    world.grip roster call = phase.grip (roster call).mode := by
  rw [grip, hphase]

omit [DecidableEq Tid] [DecidableEq Digest] in
theorem Phase.fits_any {phase : Phase} (hfits : phase.fits .verify = true) (mode : Mode) :
    phase.fits mode = true := by
  cases mode with
  | verify => exact hfits
  | verifyAsync => rfl

omit [DecidableEq Digest] in
theorem hashed_exchange {before phase : Phase} (hphase : world.phase call = before)
    (hbefore : ∀ mode, before.grip mode = Phase.grip mode .prepare)
    (hgrip : ∀ mode, phase.grip mode = Grip.none) (hrank : before.rank < phase.rank)
    (hfits : phase.fits (roster call).mode = true) :
    Exchange roster call world
      ((world.dropVerifySlot (roster call).mode).goto call phase) :=
  .hashed ((World.grip_of hphase).trans (hbefore _)) (hgrip _) (hphase ▸ hrank) hfits

omit [DecidableEq Digest] in
theorem inside_exchange {before phase : Phase} {base : World Tid Digest}
    (hphase : world.phase call = before)
    (hbase : base.phase = world.phase ∧ base.verifySlots = world.verifySlots ∧
      base.claimSlots = world.claimSlots ∧ base.gates = world.gates ∧
      base.claimLock = world.claimLock ∧ base.users.length = world.users.length)
    (hgrip : ∀ mode, phase.grip mode = before.grip mode) (hrank : before.rank < phase.rank)
    (hfits : phase.fits .verify = true) (hinside : phase.inClosure = true) :
    Exchange roster call world (base.goto call phase) := by
  obtain ⟨hsame, hhashing, hclaiming, hgates, hlock, husers⟩ := hbase
  exact .quiet hsame hhashing hclaiming hgates hlock husers
    ((hgrip _).trans (World.grip_of hphase).symm) (hphase ▸ hrank) (Phase.fits_any hfits _)
    fun _ => .inl hinside

omit [DecidableEq Digest] in
theorem rejected_exchange {before : Phase} (hphase : world.phase call = before)
    (hbefore : ∀ mode, before.grip mode = Phase.grip mode .prepare) (hrank : before.rank < 17)
    (accepted : Bool) :
    Exchange roster call world
      ((world.dropVerifySlot (roster call).mode).goto call (.done accepted)) := by
  refine hashed_exchange hphase hbefore (fun mode => ?_) hrank (Phase.fits_any rfl _)
  cases mode <;> rfl

theorem begin_exchange (hphase : world.phase call = .start) :
    Exchange roster call world (begin crypto entries roster world call) := by
  have hmove {phase : Phase} (hgrip : phase.grip (roster call).mode = Grip.none)
      (hrank : (Phase.start).rank < phase.rank) (hfits : phase.fits (roster call).mode = true) :
      Exchange roster call world (world.goto call phase) := by
    refine .quiet rfl rfl rfl rfl rfl rfl ?_ (hphase ▸ hrank) hfits (fun _ => .inr hgrip)
    rw [hgrip, World.grip_of hphase]
    cases (roster call).mode <;> rfl
  unfold begin
  dsimp only
  split
  · rename_i hmode
    exact hmove (by rw [hmode]; rfl) (by simp [Phase.rank]) (by rw [hmode]; rfl)
  · rename_i hmode
    split
    · exact hmove (by rw [hmode]; rfl) (by simp [Phase.rank]) (by rw [hmode]; rfl)
    · split
      · exact hmove (by rw [hmode]; rfl) (by simp [Phase.rank]) (by rw [hmode]; rfl)
      · exact hmove (by rw [hmode]; rfl) (by simp [Phase.rank]) (by rw [hmode]; rfl)

theorem verifyPrepare_exchange (hphase : world.phase call = .prepare) :
    Exchange roster call world (verifyPrepare crypto entries roster world call) := by
  unfold verifyPrepare
  dsimp only
  split
  · exact rejected_exchange hphase (fun _ => rfl) (by decide) false
  · split
    · exact rejected_exchange hphase (fun _ => rfl) (by decide) true
    · refine inside_exchange hphase ⟨rfl, rfl, rfl, rfl, rfl, rfl⟩ (fun mode => ?_)
        (Nat.lt_succ_self 2) rfl rfl
      cases mode <;> rfl

omit [DecidableEq Digest] in
theorem readHash_exchange {index : Nat} (hphase : world.phase call = .readHash index)
    (hash : String) :
    Exchange roster call world
      (world.goto call (if hash ≠ initHash then .verifyStored hash else .prepareClaim)) := by
  split
  · refine inside_exchange hphase ⟨rfl, rfl, rfl, rfl, rfl, rfl⟩ (fun mode => ?_)
      (by simp [Phase.rank]) rfl rfl
    cases mode <;> rfl
  · refine inside_exchange hphase ⟨rfl, rfl, rfl, rfl, rfl, rfl⟩ (fun mode => ?_)
      (by simp [Phase.rank]) rfl rfl
    cases mode <;> rfl

omit [DecidableEq Digest] in
theorem prepareClaim_exchange (hphase : world.phase call = .prepareClaim)
    (salt : Option (List UInt8)) :
    Exchange roster call world (prepareClaim crypto roster world call salt) := by
  have hreject : Exchange roster call world
      ((world.dropVerifySlot (roster call).mode).goto call (.done false)) :=
    rejected_exchange hphase (fun mode => by cases mode <;> rfl) (by decide) false
  unfold prepareClaim
  dsimp only
  split
  · exact hreject
  · split
    · exact hreject
    · split
      · exact hreject
      · refine inside_exchange hphase ⟨rfl, rfl, rfl, rfl, rfl, rfl⟩ (fun mode => ?_)
          (by simp [Phase.rank]) rfl rfl
        cases mode <;> rfl

omit [DecidableEq Digest] in
theorem claimFastPath_exchange {newHash : String} (hphase : world.phase call = .fastPath newHash) :
    Exchange roster call world (claimFastPath entries roster world call newHash) := by
  have hheld (mode : Mode) : (Phase.fastPath newHash).grip mode = Phase.grip mode .prepare := by
    cases mode <;> rfl
  unfold claimFastPath
  dsimp only
  split
  · exact rejected_exchange hphase hheld (by simp [Phase.rank]) false
  · rename_i entry _
    split
    · rename_i hash _
      refine inside_exchange hphase ⟨rfl, rfl, rfl, rfl, rfl, rfl⟩ (fun mode => ?_)
        (by simp [Phase.rank]) rfl rfl
      cases mode <;> rfl
    · refine .hashed ((World.grip_of hphase).trans (hheld _)) ?_ ?_ ?_
      · cases (roster call).mode <;> rfl
      · rw [hphase]
        cases (roster call).mode <;> simp [Phase.rank]
      · cases (roster call).mode <;> rfl

omit [DecidableEq Digest] in
theorem recheckGate_exchange {work : ClaimWork} (hphase : world.phase call = .recheckGate work)
    (hmode : (roster call).mode = .verifyAsync) :
    Exchange roster call world (recheckGate roster world call work) := by
  have hgrip : world.grip roster call = Phase.grip (roster call).mode (.recheckGate work) :=
    World.grip_of hphase
  rw [hmode] at hgrip
  have houtside : (world.phase call).inClosure ≠ true := by
    rw [hphase]
    exact Bool.false_ne_true
  unfold recheckGate
  split
  · refine .goto rfl ?_ ?_ ?_ (fun name hname => Function.update_of_ne hname _ _) ?_ ?_ ?_ rfl
      (absurd · houtside)
    · rw [hgrip, hmode]
      exact .keep _ _
    · rw [hgrip, hmode]
      exact .keep _ _
    · rw [hgrip, hmode]
      dsimp only
      rw [Function.update_self]
      exact .unlock _
    · rw [hgrip, hmode]
      exact .keep _ _
    · rw [hphase]
      simp [Phase.rank]
    · rw [hmode]
      rfl
  · refine .quiet rfl rfl rfl rfl rfl rfl ?_ ?_ ?_ (absurd · houtside)
    · rw [hgrip, hmode]
      rfl
    · rw [hphase]
      simp [Phase.rank]
    · rw [hmode]
      rfl

omit [DecidableEq Digest] in
theorem committed_exchange {before phase : Phase} {base : World Tid Digest} {work : ClaimWork}
    (hphase : world.phase call = before)
    (hbase : base.phase = world.phase ∧ base.verifySlots = world.verifySlots ∧
      base.claimSlots = world.claimSlots ∧ base.gates = world.gates ∧
      base.users.length = world.users.length)
    (hbefore : ∀ mode, before.grip mode = Phase.grip mode (.recheckLocked work))
    (hgrip : phase.grip (roster call).mode = Grip.none) (hrank : before.rank < phase.rank)
    (hfits : phase.fits (roster call).mode = true) :
    Exchange roster call world ((base.leaveCommit (roster call)).goto call phase) := by
  obtain ⟨hsame, hhashing, hclaiming, hgates, husers⟩ := hbase
  exact .committed hsame hhashing hclaiming hgates husers
    ((World.grip_of hphase).trans (hbefore _)) hgrip (hphase ▸ hrank) hfits

omit [DecidableEq Digest] in
theorem afterCommit_exchange {before : Phase} {base : World Tid Digest} {work : ClaimWork}
    (hphase : world.phase call = before)
    (hbase : base.phase = world.phase ∧ base.verifySlots = world.verifySlots ∧
      base.claimSlots = world.claimSlots ∧ base.gates = world.gates ∧
      base.users.length = world.users.length)
    (hbefore : ∀ mode, before.grip mode = Phase.grip mode (.recheckLocked work))
    (hrank : before.rank < 15) (hash : String) :
    Exchange roster call world ((base.leaveCommit (roster call)).goto call
      (World.afterCommit (roster call) hash)) := by
  refine committed_exchange hphase hbase hbefore ?_ (Nat.lt_of_lt_of_le hrank ?_) ?_
  · unfold World.afterCommit
    cases (roster call).mode <;> rfl
  · unfold World.afterCommit
    cases (roster call).mode <;> simp [Phase.rank]
  · unfold World.afterCommit
    cases (roster call).mode <;> rfl

omit [DecidableEq Digest] in
theorem left_exchange {before : Phase} {base : World Tid Digest} {work : ClaimWork}
    (hphase : world.phase call = before)
    (hbase : base.phase = world.phase ∧ base.verifySlots = world.verifySlots ∧
      base.claimSlots = world.claimSlots ∧ base.gates = world.gates ∧
      base.users.length = world.users.length)
    (hbefore : ∀ mode, before.grip mode = Phase.grip mode (.recheckLocked work))
    (hrank : before.rank < 17) (accepted : Bool) :
    Exchange roster call world ((base.leaveCommit (roster call)).goto call (.done accepted)) := by
  refine committed_exchange hphase hbase hbefore ?_ hrank (Phase.fits_any rfl _)
  cases (roster call).mode <;> rfl

omit [DecidableEq Digest] in
theorem recheckLocked_exchange {work : ClaimWork}
    (hphase : world.phase call = .recheckLocked work) :
    Exchange roster call world (recheckLocked roster world call work) := by
  unfold recheckLocked
  split
  · exact afterCommit_exchange hphase ⟨rfl, rfl, rfl, rfl, rfl⟩ (fun _ => rfl)
      (by simp [Phase.rank]) _
  · refine inside_exchange hphase ⟨rfl, rfl, rfl, rfl, rfl, rfl⟩ (fun mode => ?_)
      (by simp [Phase.rank]) rfl rfl
    cases mode <;> rfl

theorem publishHash_length (users : List User) (index : Nat) (hash : String) :
    (publishHash users index hash).length = users.length :=
  List.length_modify _ _ _

omit [DecidableEq Digest] in
theorem claimPublish_exchange {work : ClaimWork} {outcome : ClaimPersist}
    (hphase : world.phase call = .publish work outcome) :
    Exchange roster call world (claimPublish roster world call work outcome) := by
  have hheld (mode : Mode) :
      (Phase.publish work outcome).grip mode = Phase.grip mode (.recheckLocked work) := by
    cases mode <;> rfl
  unfold claimPublish
  cases outcome with
  | written =>
      refine inside_exchange hphase ⟨rfl, rfl, rfl, rfl, rfl, publishHash_length _ _ _⟩
        (fun mode => ?_) (by simp [Phase.rank]) rfl rfl
      cases mode <;> rfl
  | diskHashChanged hash =>
      refine afterCommit_exchange hphase ?_ hheld (by simp [Phase.rank]) hash
      exact ⟨rfl, rfl, rfl, rfl, publishHash_length _ _ _⟩
  | failed reason =>
      refine left_exchange hphase ?_ hheld (by simp [Phase.rank]) false
      exact ⟨rfl, rfl, rfl, rfl, publishHash_length _ _ _⟩

omit [DecidableEq Digest] in
theorem cacheClaim_exchange {work : ClaimWork} (hphase : world.phase call = .cacheClaim work) :
    Exchange roster call world (cacheClaim crypto roster world call) := by
  have hheld (mode : Mode) :
      (Phase.cacheClaim work).grip mode = Phase.grip mode (.recheckLocked work) := by
    cases mode <;> rfl
  unfold cacheClaim
  refine left_exchange hphase ?_ hheld (by simp [Phase.rank]) true
  exact ⟨rfl, rfl, rfl, rfl, rfl⟩

omit [DecidableEq Digest] in
theorem verifyAgainstCommitted_exchange {hash : String}
    (hphase : world.phase call = .verifyStored hash) :
    Exchange roster call world (verifyAgainstCommitted crypto roster world call hash) := by
  have hheld (mode : Mode) : (Phase.verifyStored hash).grip mode = Phase.grip mode .prepare := by
    cases mode <;> rfl
  unfold verifyAgainstCommitted
  dsimp only
  split
  · exact (rejected_exchange hphase hheld (by simp [Phase.rank]) true).caching _
  · exact rejected_exchange hphase hheld (by simp [Phase.rank]) false

omit [DecidableEq Digest] in
theorem waited_exchange {base : World Tid Digest} {before phase : Phase}
    (hphase : world.phase call = before) (hmode : (roster call).mode = .verifyAsync)
    (hbase : base.phase = world.phase)
    (hhashing : Trade (before.grip .verifyAsync).verifySlot (phase.grip .verifyAsync).verifySlot
      world.verifySlots base.verifySlots)
    (hclaiming : Trade (before.grip .verifyAsync).claimSlot (phase.grip .verifyAsync).claimSlot
      world.claimSlots base.claimSlots)
    (hgate : Handover call (before.grip .verifyAsync).gate (phase.grip .verifyAsync).gate
      (world.gates (roster call).name) (base.gates (roster call).name))
    (hgates : ∀ name, name ≠ (roster call).name → base.gates name = world.gates name)
    (hlock : Handover call (before.grip .verifyAsync).lock (phase.grip .verifyAsync).lock
      world.claimLock base.claimLock)
    (hrank : before.rank < phase.rank) (husers : base.users.length = world.users.length)
    (houtside : before.inClosure ≠ true) :
    Exchange roster call world (base.goto call phase) := by
  have hgrip : world.grip roster call = before.grip (roster call).mode := World.grip_of hphase
  rw [← hmode] at hhashing hclaiming hgate hlock
  rw [← hgrip] at hhashing hclaiming hgate hlock
  exact .goto hbase hhashing hclaiming hgate hgates hlock (hphase ▸ hrank) (hmode ▸ rfl) husers
    fun hinside => absurd (hphase ▸ hinside) houtside

omit [DecidableEq Digest] in
theorem claimLock_exchange {work : ClaimWork} (hphase : world.phase call = .waitClaimLock work)
    (hfree : world.claimLock = none) :
    Exchange roster call world
      ({ world with claimLock := some call }.goto call (.recheckLocked work)) := by
  refine .goto rfl ?_ ?_ ?_ (fun _ _ => rfl) ?_ ?_ (Phase.fits_any rfl _) rfl fun _ => .inl rfl
  · rw [World.grip_of hphase]
    cases (roster call).mode <;> exact .keep _ _
  · rw [World.grip_of hphase]
    cases (roster call).mode <;> exact .keep _ _
  · rw [World.grip_of hphase]
    cases (roster call).mode <;> exact .keep _ _
  · rw [World.grip_of hphase, hfree]
    cases (roster call).mode <;> exact .lock
  · rw [hphase]
    simp [Phase.rank]

theorem advance_exchange {surroundings : Surroundings}
    (hfits : (world.phase call).fits (roster call).mode = true)
    (hstep : advance crypto entries roster world call surroundings = some next) :
    Exchange roster call world next := by
  unfold advance at hstep
  cases hphase : world.phase call with
  | start =>
      rw [hphase] at hstep
      exact Option.some.inj hstep ▸ begin_exchange hphase
  | waitVerifySlot =>
      rw [hphase] at hfits
      simp only [hphase, Option.ite_none_left_eq_some] at hstep
      obtain ⟨hfree, rfl⟩ := hstep.imp id Option.some.inj
      exact waited_exchange hphase (Phase.fits_async hfits rfl) rfl (.take hfree) (.keep _ _)
        (.keep _ _) (fun _ _ => rfl) (.keep _ _) (by simp [Phase.rank]) rfl Bool.false_ne_true
  | prepare =>
      rw [hphase] at hstep
      exact Option.some.inj hstep ▸ verifyPrepare_exchange hphase
  | readHash index =>
      rw [hphase] at hstep
      obtain ⟨hash, -, rfl⟩ := Option.map_eq_some_iff.mp hstep
      exact readHash_exchange hphase hash
  | prepareClaim =>
      rw [hphase] at hstep
      exact Option.some.inj hstep ▸ prepareClaim_exchange hphase _
  | fastPath newHash =>
      rw [hphase] at hstep
      exact Option.some.inj hstep ▸ claimFastPath_exchange hphase
  | waitGate work =>
      rw [hphase] at hfits
      simp only [hphase, Option.ite_none_left_eq_some] at hstep
      obtain ⟨hfree, rfl⟩ := hstep.imp id Option.some.inj
      refine waited_exchange hphase (Phase.fits_async hfits rfl) rfl (.keep _ _) (.keep _ _) ?_
        (fun name hname => Function.update_of_ne hname _ _) (.keep _ _) (by simp [Phase.rank]) rfl
        Bool.false_ne_true
      dsimp only
      rw [Function.update_self, Option.not_isSome_iff_eq_none.mp hfree]
      exact .lock
  | recheckGate work =>
      rw [hphase] at hstep hfits
      exact Option.some.inj hstep ▸ recheckGate_exchange hphase (Phase.fits_async hfits rfl)
  | waitClaimSlot work =>
      rw [hphase] at hfits
      simp only [hphase, Option.ite_none_left_eq_some] at hstep
      obtain ⟨hfree, rfl⟩ := hstep.imp id Option.some.inj
      exact waited_exchange hphase (Phase.fits_async hfits rfl) rfl (.keep _ _) (.take hfree)
        (.keep _ _) (fun _ _ => rfl) (.keep _ _) (by simp [Phase.rank]) rfl Bool.false_ne_true
  | waitClaimLock work =>
      simp only [hphase, Option.ite_none_left_eq_some] at hstep
      obtain ⟨hfree, rfl⟩ := hstep.imp id Option.some.inj
      exact claimLock_exchange hphase (Option.not_isSome_iff_eq_none.mp hfree)
  | recheckLocked work =>
      rw [hphase] at hstep
      exact Option.some.inj hstep ▸ recheckLocked_exchange hphase
  | fallback work =>
      rw [hphase] at hstep
      obtain rfl := Option.some.inj hstep
      refine inside_exchange hphase ⟨rfl, rfl, rfl, rfl, rfl, rfl⟩ (fun mode => ?_)
        (by simp [Phase.rank]) rfl rfl
      cases mode <;> rfl
  | persist work fallbackUsers =>
      rw [hphase] at hstep
      obtain rfl := Option.some.inj hstep
      refine inside_exchange hphase ⟨rfl, rfl, rfl, rfl, rfl, rfl⟩ (fun mode => ?_)
        (by simp [Phase.rank]) rfl rfl
      cases mode <;> rfl
  | publish work outcome =>
      rw [hphase] at hstep
      exact Option.some.inj hstep ▸ claimPublish_exchange hphase
  | cacheClaim work =>
      rw [hphase] at hstep
      exact Option.some.inj hstep ▸ cacheClaim_exchange hphase
  | waitReverify hash =>
      rw [hphase] at hfits
      simp only [hphase, Option.ite_none_left_eq_some] at hstep
      obtain ⟨hfree, rfl⟩ := hstep.imp id Option.some.inj
      exact waited_exchange hphase (Phase.fits_async hfits rfl) rfl (.take hfree) (.keep _ _)
        (.keep _ _) (fun _ _ => rfl) (.keep _ _) (by simp [Phase.rank]) rfl Bool.false_ne_true
  | verifyStored hash =>
      rw [hphase] at hstep
      exact Option.some.inj hstep ▸ verifyAgainstCommitted_exchange hphase
  | done accepted =>
      rw [hphase] at hstep
      cases hstep

end

end Resocks5.Auth
