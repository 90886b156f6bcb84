import Mathlib.Algebra.Order.BigOperators.Group.Finset
import Resocks5.Auth.Accounts
import Resocks5.Auth.ClaimSafety

namespace Resocks5.Auth

open Resocks5.Foundation

/-! Verifications come to an end, and leave nothing behind. -/

/-- What every reachable server keeps, apart from passwords. -/
structure Orderly {Tid Digest : Type} (users : List User) (roster : Tid → Request) (workers : Nat)
    (server : Server Tid Digest) : Prop where
  accounted : Accounted roster workers server.world
  fits : ∀ call, (server.world.phase call).fits (roster call).mode = true
  length : server.world.users.length = users.length
  reads : ∀ call index, server.world.phase call = .readHash index → index < users.length
  dropped : ∀ call, server.dropped call = true →
    (server.world.phase call).inClosure = true ∨
      ∃ accepted, server.world.phase call = .done accepted

section

variable {Tid Digest : Type} [DecidableEq Tid] [DecidableEq Digest] {crypto : Crypto Digest}
  {users : List User} {roster : Tid → Request} {disk : Option (List User)} {workers : Nat}
  {world next : World Tid Digest} {server after : Server Tid Digest} {call : Tid}

omit [DecidableEq Tid] [DecidableEq Digest] in
theorem buildEntries_index {name : String} {entry : UserEntry}
    (hentry : buildEntries users name = some entry) : entry.index < users.length := by
  unfold buildEntries at hentry
  obtain ⟨index, hindex, hrest⟩ := Option.bind_eq_some_iff.mp hentry
  obtain ⟨user, -, hfound⟩ := Option.bind_eq_some_iff.mp hrest
  obtain rfl := Option.some.inj hfound
  exact (List.findIdx?_eq_some_iff_getElem.mp hindex).1

theorem advance_reads {surroundings : Surroundings} {index : Nat}
    (hfits : (world.phase call).fits (roster call).mode = true)
    (hstep : advance crypto (buildEntries users) roster world call surroundings = some next)
    (hreads : next.phase call = .readHash index) : index < users.length := by
  have hrank := (advance_exchange hfits hstep).rank
  rw [hreads] at hrank
  unfold advance at hstep
  cases hphase : world.phase call with
  | start =>
      rw [hphase] at hstep
      obtain rfl := Option.some.inj hstep
      unfold begin at hreads
      dsimp only at hreads
      split at hreads
      · rw [World.goto_phase_self] at hreads
        cases hreads
      · split at hreads
        · rw [World.goto_phase_self] at hreads
          cases hreads
        · split at hreads
          · rw [World.goto_phase_self] at hreads
            cases hreads
          · rw [World.goto_phase_self] at hreads
            cases hreads
  | waitVerifySlot =>
      simp only [hphase, Option.ite_none_left_eq_some] at hstep
      obtain ⟨-, rfl⟩ := hstep.imp id Option.some.inj
      rw [World.goto_phase_self] at hreads
      cases hreads
  | prepare =>
      rw [hphase] at hstep
      obtain rfl := Option.some.inj hstep
      unfold verifyPrepare at hreads
      dsimp only at hreads
      split at hreads
      · rw [World.goto_phase_self] at hreads
        cases hreads
      · rename_i entry hentry
        split at hreads
        · rw [World.goto_phase_self] at hreads
          cases hreads
        · rw [World.goto_phase_self] at hreads
          cases hreads
          exact buildEntries_index (Option.filter_eq_some_iff.mp hentry).1
  | _ => simp [hphase, Phase.rank] at hrank

omit [DecidableEq Digest] in
theorem Accounted.goto_done (haccounted : Accounted roster workers world)
    (hgrip : world.grip roster call = Grip.none) (accepted : Bool) :
    Accounted roster workers (world.goto call (.done accepted)) := by
  have hsame : (world.goto call (.done accepted)).grip roster = world.grip roster := by
    funext other
    by_cases hother : other = call
    · rw [hother, World.goto_grip, hgrip]
      cases (roster call).mode <;> rfl
    · rw [World.grip, World.goto_phase_other _ _ _ hother, World.grip]
  constructor
  · rw [hsame]
    exact haccounted.hashing
  · rw [hsame]
    exact haccounted.claiming
  · rw [hsame]
    exact haccounted.gates
  · rw [hsame]
    exact haccounted.lock

omit [DecidableEq Digest] in
theorem dropFrame_exchange (hmode : (roster call).mode = .verifyAsync)
    (hawaits : (world.phase call).awaits = true) :
    Exchange roster call world (world.dropFrame roster call) := by
  unfold World.dropFrame
  cases hphase : world.phase call with
  | waitClaimSlot work =>
      refine waited_exchange hphase hmode rfl (.keep _ _) (.keep _ _) ?_
        (fun name hname => Function.update_of_ne hname _ _) (.keep _ _) (by simp [Phase.rank]) rfl
        Bool.false_ne_true
      dsimp only
      rw [Function.update_self]
      exact .unlock _
  | start | waitVerifySlot | waitGate work | waitReverify hash =>
      exact waited_exchange hphase hmode rfl (.keep _ _) (.keep _ _) (.keep _ _)
        (fun _ _ => rfl) (.keep _ _) (by simp [Phase.rank]) rfl Bool.false_ne_true
  | _ =>
      rw [hphase] at hawaits
      cases hawaits

omit [DecidableEq Digest] in
theorem dropFrame_phase : (world.dropFrame roster call).phase call = .done false := by
  unfold World.dropFrame
  split <;> exact World.goto_phase_self _ _ _

omit [DecidableEq Digest] in
theorem Orderly.moved (call : Tid) {base : World Tid Digest}
    (horderly : Orderly users roster workers server) (haccounted : Accounted roster workers base)
    (hothers : ∀ other, other ≠ call → base.phase other = server.world.phase other)
    (hfits : (base.phase call).fits (roster call).mode = true)
    (hlength : base.users.length = server.world.users.length)
    (hreads : ∀ index, base.phase call = .readHash index → index < users.length)
    {dropped : Tid → Bool} (hsame : ∀ other, other ≠ call → dropped other = server.dropped other)
    (hdropped : dropped call = true →
      (base.phase call).inClosure = true ∨ ∃ accepted, base.phase call = .done accepted) :
    Orderly users roster workers ⟨base, dropped⟩ where
  accounted := haccounted
  fits := fun other => by
    by_cases hother : other = call
    · exact hother ▸ hfits
    · exact hothers other hother ▸ horderly.fits other
  length := hlength.trans horderly.length
  reads := fun other index hphase => by
    by_cases hother : other = call
    · exact hreads index (hother ▸ hphase)
    · exact horderly.reads other index (hothers other hother ▸ hphase)
  dropped := fun other hgone => by
    by_cases hother : other = call
    · exact hother ▸ hdropped (hother ▸ hgone)
    · exact hothers other hother ▸ horderly.dropped other (hsame other hother ▸ hgone)

theorem advance_orderly {surroundings : Surroundings}
    (horderly : Orderly users roster workers server)
    (hstep : advance crypto (buildEntries users) roster server.world call surroundings =
      some next) :
    Orderly users roster workers { server with world := server.returned call next } := by
  have hexchange := advance_exchange (horderly.fits call) hstep
  have haccounted := hexchange.accounted horderly.accounted
  unfold Server.returned
  split
  · rename_i hgone
    obtain ⟨hdropped, houtside⟩ := Bool.and_eq_true_iff.mp hgone
    have hgrip : next.grip roster call = Grip.none := by
      obtain hinside | ⟨accepted, hdone⟩ := horderly.dropped call hdropped
      · refine (hexchange.closure hinside).resolve_left fun hstill => ?_
        rw [hstill] at houtside
        cases houtside
      · rw [advance, hdone] at hstep
        cases hstep
    refine horderly.moved call (haccounted.goto_done hgrip false) (fun other hother => ?_)
      ?_ hexchange.users (fun index hreads => ?_) (fun _ _ => rfl) fun _ => .inr ⟨false, ?_⟩
    · rw [World.goto_phase_other _ _ _ hother, hexchange.others other hother]
    · rw [World.goto_phase_self]
      exact Phase.fits_any rfl _
    · rw [World.goto_phase_self] at hreads
      cases hreads
    · exact World.goto_phase_self _ _ _
  · rename_i hheld
    refine horderly.moved call haccounted hexchange.others hexchange.fits hexchange.users
      (fun index hreads => advance_reads (horderly.fits call) hstep hreads) (fun _ _ => rfl)
      fun hdropped => .inl ?_
    rw [hdropped, Bool.true_and, Bool.not_eq_true', Bool.not_eq_false] at hheld
    exact hheld

theorem step_orderly {action : ServerAction Tid}
    (hstep : server.step crypto (buildEntries users) roster action = some after)
    (horderly : Orderly users roster workers server) :
    Orderly users roster workers after := by
  cases action with
  | advance call surroundings =>
      obtain ⟨next, hnext, rfl⟩ := Option.map_eq_some_iff.mp hstep
      exact advance_orderly horderly hnext
  | drop call =>
      rw [Server.step] at hstep
      split at hstep
      · cases hstep
      · rename_i hfuture
        have hmode : (roster call).mode = .verifyAsync := by
          cases hmode : (roster call).mode with
          | verify => exact absurd (.inl hmode) hfuture
          | verifyAsync => rfl
        split at hstep
        · rename_i hawaits
          obtain rfl := Option.some.inj hstep
          have hexchange := dropFrame_exchange hmode hawaits
          have hdone : (server.world.dropFrame roster call).phase call = .done false :=
            dropFrame_phase
          refine horderly.moved call (hexchange.accounted horderly.accounted)
            hexchange.others hexchange.fits hexchange.users (fun index hreads => ?_)
            (fun _ _ => rfl) fun _ => .inr ⟨false, hdone⟩
          rw [hdone] at hreads
          cases hreads
        · split at hstep
          · rename_i hinside
            obtain rfl := Option.some.inj hstep
            exact horderly.moved call horderly.accounted (fun _ _ => rfl)
              (horderly.fits call) rfl (horderly.reads call)
              (fun other hother => Function.update_of_ne hother _ _) fun _ => .inl hinside
          · cases hstep
  | editDisk content =>
      obtain rfl := Option.some.inj hstep
      exact ⟨⟨horderly.accounted.hashing, horderly.accounted.claiming, horderly.accounted.gates,
        horderly.accounted.lock⟩, horderly.fits, horderly.length, horderly.reads,
        horderly.dropped⟩

omit [DecidableEq Tid] [DecidableEq Digest] in
theorem initialServer_orderly :
    Orderly users roster workers (initialServer users disk workers : Server Tid Digest) where
  accounted := by
    have hnone (call : Tid) :
        (initialServer users disk workers : Server Tid Digest).world.grip roster call =
          Grip.none := by
      rw [World.grip, initialServer, initialWorld]
      cases (roster call).mode <;> rfl
    refine ⟨.none_held fun call => ?_, .none_held fun call => ?_,
      fun name => .none_held fun call => ?_, .none_held fun call => ?_⟩
    · rw [hnone]
      rfl
    · rw [hnone]
      rfl
    · rw [hnone]
      exact Bool.and_false _
    · rw [hnone]
      rfl
  fits := fun _ => Phase.fits_any rfl _
  length := rfl
  reads := fun _ _ hphase => by cases hphase
  dropped := fun _ hgone => by cases hgone

theorem reachable_orderly
    (hreach : Reaches (Server.step crypto (buildEntries users) roster)
      (initialServer users disk workers) server) :
    Orderly users roster workers server :=
  hreach.preserves (fun _ _ _ hstep horderly => step_orderly hstep horderly) initialServer_orderly

end

/-! What the accounts say about the calls. -/

def Phase.commits : Phase → Bool
  | .waitClaimLock _ | .recheckLocked _ | .fallback _ | .persist _ _ | .publish _ _
  | .cacheClaim _ => true
  | _ => false

def Phase.hashes : Phase → Bool
  | .prepare | .readHash _ | .prepareClaim | .fastPath _ | .verifyStored _ => true
  | _ => false

def Phase.idle : Phase → Bool
  | .start | .done _ => true
  | _ => false

theorem Phase.grip_hashes (phase : Phase) :
    (phase.grip .verifyAsync).verifySlot = phase.hashes := by
  cases phase <;> rfl

theorem Phase.grip_commits (phase : Phase) :
    (phase.grip .verifyAsync).claimSlot = phase.commits := by
  cases phase <;> rfl

theorem Phase.grip_gate {phase : Phase} (hcommits : phase.commits = true) :
    (phase.grip .verifyAsync).gate = true := by
  cases phase <;> first | rfl | cases hcommits

theorem Phase.grip_idle {phase : Phase} (hidle : phase.idle = true) (mode : Mode) :
    phase.grip mode = Grip.none := by
  cases phase <;> first | cases hidle; done | cases mode <;> rfl

section

variable {Tid Digest : Type} [DecidableEq Tid] [DecidableEq Digest] {crypto : Crypto Digest}
  {users : List User} {roster : Tid → Request} {disk : Option (List User)} {workers : Nat}
  {server : Server Tid Digest}

/-- However clients come and go, no more than `workers` passwords are hashed and no more than two
claims committed at a time, of one account no more than one. -/
theorem blocking_work_bounded
    (hreach : Reaches (Server.step crypto (buildEntries users) roster)
      (initialServer users disk workers) server) :
    {call | (roster call).mode = .verifyAsync ∧
        (server.world.phase call).hashes = true}.encard ≤ workers ∧
      {call | (roster call).mode = .verifyAsync ∧
        (server.world.phase call).commits = true}.encard ≤ 2 ∧
      ∀ first second, (roster first).mode = .verifyAsync → (roster second).mode = .verifyAsync →
        (roster first).name = (roster second).name →
        (server.world.phase first).commits = true → (server.world.phase second).commits = true →
        first = second := by
  have horderly := reachable_orderly hreach
  have hgrip {call : Tid} (hmode : (roster call).mode = .verifyAsync) :
      server.world.grip roster call = (server.world.phase call).grip .verifyAsync := by
    rw [World.grip, hmode]
  refine ⟨?_, ?_, fun first second hfirst hsecond hname hcommits hcommits' => ?_⟩
  · refine le_trans (Set.encard_le_encard fun call hcall => ?_) horderly.accounted.hashing.le
    rw [Set.mem_ofPred_eq, hgrip hcall.1, Phase.grip_hashes]
    exact hcall.2
  · refine le_trans (Set.encard_le_encard fun call hcall => ?_) horderly.accounted.claiming.le
    rw [Set.mem_ofPred_eq, hgrip hcall.1, Phase.grip_commits]
    exact hcall.2
  · refine (horderly.accounted.gates (roster second).name).unique ?_ ?_
    · rw [decide_eq_true hname, Bool.true_and, hgrip hfirst, Phase.grip_gate hcommits]
    · rw [decide_eq_true rfl, Bool.true_and, hgrip hsecond, Phase.grip_gate hcommits']

/-- Two first logins to one account; the client of the first goes away while it commits. -/
def twinLogins : Fin 2 → Request := fun _ => ⟨.verifyAsync, "alice", "first"⟩

def unclaimedUsers : List User := [⟨"alice", "init", true, false, none⟩]

def twinSchedule : List (ServerAction (Fin 2)) :=
  List.replicate 10 (.advance 0 { salt := some [] }) ++ [.drop 0] ++
  List.replicate 6 (.advance 1 { salt := some [] })

theorem blocking_work_bounded_twins :
    ∃ server, Reaches (Server.step plainCrypto (buildEntries unclaimedUsers) twinLogins)
        (initialServer unclaimedUsers (some unclaimedUsers) 1) server ∧
      server.dropped 0 = true ∧ (server.world.phase 0).commits = true ∧
      server.world.phase 1 = .waitGate ⟨0, "$first"⟩ ∧
      {call | (twinLogins call).mode = .verifyAsync ∧
        (server.world.phase call).commits = true}.encard ≤ 2 := by
  obtain ⟨server, hserver⟩ : ∃ server,
      run (Server.step plainCrypto (buildEntries unclaimedUsers) twinLogins)
        (initialServer unclaimedUsers (some unclaimedUsers) 1) twinSchedule = some server :=
    ⟨_, rfl⟩
  have hreach : Reaches (Server.step plainCrypto (buildEntries unclaimedUsers) twinLogins)
      (initialServer unclaimedUsers (some unclaimedUsers) 1) server := ⟨twinSchedule, hserver⟩
  have hstands : server.dropped 0 = true ∧ (server.world.phase 0).commits = true ∧
      server.world.phase 1 = .waitGate ⟨0, "$first"⟩ := by
    obtain rfl := Option.some.inj hserver
    decide
  exact ⟨server, hreach, hstands.1, hstands.2.1, hstands.2.2,
    (blocking_work_bounded hreach).2.1⟩

/-- Once no call is under way every permit is back, every gate open and the mutex free. -/
theorem nothing_leaks
    (hreach : Reaches (Server.step crypto (buildEntries users) roster)
      (initialServer users disk workers) server)
    (hidle : ∀ call, (server.world.phase call).idle = true) :
    server.world.verifySlots = workers ∧ server.world.claimSlots = 2 ∧
      (∀ name, server.world.gates name = none) ∧ server.world.claimLock = none := by
  have haccounted := (reachable_orderly hreach).accounted
  have hgrip (call : Tid) : server.world.grip roster call = Grip.none :=
    Phase.grip_idle (hidle call) _
  refine ⟨haccounted.hashing.all_free fun call => ?_, haccounted.claiming.all_free fun call => ?_,
    fun name => (haccounted.gates name).free fun call => ?_, haccounted.lock.free fun call => ?_⟩
  · rw [hgrip]
    rfl
  · rw [hgrip]
    rfl
  · rw [hgrip]
    exact Bool.and_false _
  · rw [hgrip]
    rfl

def twinEnd : List (ServerAction (Fin 2)) :=
  twinSchedule ++ List.replicate 5 (.advance 0 {}) ++ List.replicate 4 (.advance 1 {})

theorem nothing_leaks_twins :
    ∃ server, Reaches (Server.step plainCrypto (buildEntries unclaimedUsers) twinLogins)
        (initialServer unclaimedUsers (some unclaimedUsers) 1) server ∧
      server.world.phase 0 = .done false ∧ server.world.phase 1 = .done true ∧
      server.world.verifySlots = 1 ∧ server.world.claimSlots = 2 := by
  obtain ⟨server, hserver⟩ : ∃ server,
      run (Server.step plainCrypto (buildEntries unclaimedUsers) twinLogins)
        (initialServer unclaimedUsers (some unclaimedUsers) 1) twinEnd = some server :=
    ⟨_, rfl⟩
  have hreach : Reaches (Server.step plainCrypto (buildEntries unclaimedUsers) twinLogins)
      (initialServer unclaimedUsers (some unclaimedUsers) 1) server := ⟨twinEnd, hserver⟩
  have hdone : server.world.phase 0 = .done false ∧ server.world.phase 1 = .done true := by
    obtain rfl := Option.some.inj hserver
    decide
  have hidle : ∀ call, (server.world.phase call).idle = true :=
    Fin.forall_fin_two.mpr ⟨congrArg Phase.idle hdone.1, congrArg Phase.idle hdone.2⟩
  have hfree := nothing_leaks hreach hidle
  exact ⟨server, hreach, hdone.1, hdone.2, hfree.1, hfree.2.1⟩

end

/-! Progress, whatever else happens to the users file. -/

def Server.Moves {Tid Digest : Type} [DecidableEq Tid] [DecidableEq Digest]
    (crypto : Crypto Digest) (entries : String → Option UserEntry) (roster : Tid → Request)
    (calls : Finset Tid) (server after : Server Tid Digest) : Prop :=
  ∃ content, ∃ call ∈ calls, ∃ action,
    (action = .drop call ∨ ∃ surroundings, action = .advance call surroundings) ∧
      Server.step crypto entries roster
        { server with world := { server.world with disk := content } } action = some after

def Server.work {Tid Digest : Type} (server : Server Tid Digest) (call : Tid) : Nat :=
  2 * (17 - (server.world.phase call).rank) + (!server.dropped call).toNat

/-- In the order in which a call acquires: who waits for something waits for a higher one. -/
def Phase.height : Phase → Nat
  | .waitVerifySlot | .waitReverify _ => 0
  | .waitGate _ => 1
  | .waitClaimSlot _ => 2
  | .waitClaimLock _ => 3
  | _ => 4

section

variable {Tid Digest : Type} [DecidableEq Tid] [DecidableEq Digest] {crypto : Crypto Digest}
  {users : List User} {roster : Tid → Request} {disk : Option (List User)} {workers : Nat}
  {server after : Server Tid Digest} {call : Tid} {calls : Finset Tid}

omit [DecidableEq Tid] [DecidableEq Digest] in
theorem height_le (phase : Phase) : phase.height ≤ 4 := by
  cases phase <;> simp [Phase.height]

omit [DecidableEq Tid] [DecidableEq Digest] in
theorem height_of_verifySlot {phase : Phase} {mode : Mode}
    (hheld : (phase.grip mode).verifySlot = true) : phase.height = 4 := by
  cases mode <;> cases phase <;> first | rfl | cases hheld

omit [DecidableEq Tid] [DecidableEq Digest] in
theorem height_of_gate {phase : Phase} {mode : Mode} (hheld : (phase.grip mode).gate = true) :
    1 < phase.height := by
  cases mode <;> cases phase <;> first | cases hheld; done | simp [Phase.height]

omit [DecidableEq Tid] [DecidableEq Digest] in
theorem height_of_claimSlot {phase : Phase} {mode : Mode}
    (hheld : (phase.grip mode).claimSlot = true) : 2 < phase.height := by
  cases mode <;> cases phase <;> first | cases hheld; done | simp [Phase.height]

omit [DecidableEq Tid] [DecidableEq Digest] in
theorem height_of_lock {phase : Phase} {mode : Mode} (hheld : (phase.grip mode).lock = true) :
    phase.height = 4 := by
  cases mode <;> cases phase <;> first | rfl | cases hheld

theorem advance_or_waits (hworkers : 0 < workers) (horderly : Orderly users roster workers server)
    (hbusy : (server.world.phase call).idle = false) :
    (∃ next, advance crypto (buildEntries users) roster server.world call {} = some next) ∨
      ∃ other, (server.world.phase other).idle = false ∧
        (server.world.phase call).height < (server.world.phase other).height := by
  have haccounted := horderly.accounted
  have hheld {other : Tid} (hgrip : server.world.grip roster other ≠ Grip.none) :
      (server.world.phase other).idle = false := by
    cases hidle : (server.world.phase other).idle with
    | false => rfl
    | true => exact absurd (Phase.grip_idle hidle _) hgrip
  have hslot (hnone : server.world.verifySlots = 0) :
      ∃ other, (server.world.phase other).idle = false ∧ (server.world.phase other).height = 4 := by
    obtain ⟨other, hother⟩ := (hnone ▸ haccounted.hashing).exists_holder hworkers
    refine ⟨other, hheld fun hgrip => ?_, height_of_verifySlot hother⟩
    rw [hgrip] at hother
    cases hother
  unfold advance
  cases hphase : server.world.phase call with
  | start =>
      rw [hphase] at hbusy
      cases hbusy
  | done accepted =>
      rw [hphase] at hbusy
      cases hbusy
  | readHash index =>
      have hindex := horderly.length ▸ horderly.reads call index hphase
      refine .inl ⟨_, Option.map_eq_some_iff.mpr ⟨server.world.users[index].hash, ?_, rfl⟩⟩
      rw [storedHash, List.getElem?_eq_getElem hindex, Option.map_some]
  | waitVerifySlot =>
      dsimp only
      split
      · rename_i hnone
        obtain ⟨other, hother, hheight⟩ := hslot hnone
        exact .inr ⟨other, hother, hheight ▸ Nat.zero_lt_succ 3⟩
      · exact .inl ⟨_, rfl⟩
  | waitGate work =>
      dsimp only
      split
      · rename_i htaken
        obtain ⟨other, howner⟩ := Option.isSome_iff_exists.mp htaken
        have hgate := (Bool.and_eq_true_iff.mp
          ((haccounted.gates (roster call).name other).mp howner)).2
        refine .inr ⟨other, hheld fun hgrip => ?_, height_of_gate hgate⟩
        rw [hgrip] at hgate
        cases hgate
      · exact .inl ⟨_, rfl⟩
  | waitClaimSlot work =>
      dsimp only
      split
      · rename_i hnone
        obtain ⟨other, hother⟩ := (hnone ▸ haccounted.claiming).exists_holder Nat.two_pos
        refine .inr ⟨other, hheld fun hgrip => ?_, height_of_claimSlot hother⟩
        rw [hgrip] at hother
        cases hother
      · exact .inl ⟨_, rfl⟩
  | waitClaimLock work =>
      dsimp only
      split
      · rename_i htaken
        obtain ⟨other, howner⟩ := Option.isSome_iff_exists.mp htaken
        have hlock : (server.world.grip roster other).lock = true :=
        (haccounted.lock other).mp howner
        refine .inr ⟨other, hheld fun hgrip => ?_, height_of_lock hlock ▸ Nat.lt_succ_self 3⟩
        rw [hgrip] at hlock
        cases hlock
      · exact .inl ⟨_, rfl⟩
  | waitReverify hash =>
      dsimp only
      split
      · rename_i hnone
        obtain ⟨other, hother, hheight⟩ := hslot hnone
        exact .inr ⟨other, hother, hheight ▸ Nat.zero_lt_succ 3⟩
      · exact .inl ⟨_, rfl⟩
  | _ => exact .inl ⟨_, rfl⟩

omit [DecidableEq Digest] in
theorem returned_phase (server : Server Tid Digest) (call : Tid) (next : World Tid Digest) :
    (next.phase call).rank ≤ ((server.returned call next).phase call).rank ∧
      ∀ other, other ≠ call → (server.returned call next).phase other = next.phase other := by
  unfold Server.returned
  split
  · refine ⟨?_, fun other hother => World.goto_phase_other _ _ _ hother⟩
    rw [World.goto_phase_self]
    exact Phase.rank_le _
  · exact ⟨le_rfl, fun _ _ => rfl⟩

theorem step_work {action : ServerAction Tid}
    (haction : action = .drop call ∨ ∃ surroundings, action = .advance call surroundings)
    (hstep : server.step crypto (buildEntries users) roster action = some after)
    (horderly : Orderly users roster workers server) :
    after.work call < server.work call ∧ ∀ other, other ≠ call →
      after.work other = server.work other ∧
        after.world.phase other = server.world.phase other := by
  obtain rfl | ⟨surroundings, rfl⟩ := haction
  · rw [Server.step] at hstep
    split at hstep
    · cases hstep
    · rename_i hfuture
      split at hstep
      · rename_i hawaits
        obtain rfl := Option.some.inj hstep
        have hphase {other : Tid} (hother : other ≠ call) :
            (server.world.dropFrame roster call).phase other = server.world.phase other := by
          unfold World.dropFrame
          split <;> exact World.goto_phase_other _ _ _ hother
        refine ⟨?_, fun other hother => ⟨?_, hphase hother⟩⟩
        · have hrank : (server.world.phase call).rank < 17 := by
            cases hbefore : server.world.phase call with
            | done accepted =>
                rw [hbefore] at hawaits
                cases hawaits
            | _ => simp [Phase.rank]
          have hdone : ((server.world.dropFrame roster call).phase call).rank = 17 := by
            rw [dropFrame_phase]
            rfl
          rw [Server.work, Server.work]
          dsimp only
          omega
        · rw [Server.work, Server.work, hphase hother]
      · split at hstep
        · obtain rfl := Option.some.inj hstep
          have hkept : server.dropped call = false :=
            Bool.eq_false_iff.mpr fun hgone => hfuture (.inr hgone)
          refine ⟨?_, fun other hother => ⟨?_, rfl⟩⟩
          · rw [Server.work, Server.work]
            dsimp only
            rw [Function.update_self, hkept]
            exact Nat.lt_succ_self _
          · rw [Server.work, Server.work]
            dsimp only
            rw [Function.update_of_ne hother]
        · cases hstep
  · obtain ⟨next, hnext, rfl⟩ := Option.map_eq_some_iff.mp hstep
    have hexchange := advance_exchange (horderly.fits call) hnext
    obtain ⟨hfurther, hothers⟩ := returned_phase server call next
    have hrank := hexchange.rank
    have hle := Phase.rank_le ((server.returned call next).phase call)
    refine ⟨?_, fun other hother => ?_⟩
    · rw [Server.work, Server.work]
      dsimp only
      omega
    · have hphase := (hothers other hother).trans (hexchange.others other hother)
      exact ⟨by rw [Server.work, Server.work, hphase], hphase⟩

/-- Calls that have begun end, dropped or not, whatever the order in which they go on. -/
theorem verifications_end (hworkers : 0 < workers)
    (hreach : Reaches (Server.step crypto (buildEntries users) roster)
      (initialServer users disk workers) server)
    (hothers : ∀ call, call ∉ calls → (server.world.phase call).idle = true) :
    Inevitably (Server.Moves crypto (buildEntries users) roster calls)
      (fun server => ∀ call ∈ calls, ∃ accepted, server.world.phase call = .done accepted)
      server := by
  let Work (work : Nat) (server : Server Tid Digest) : Prop :=
    Orderly users roster workers server ∧
      (∀ call, call ∉ calls → (server.world.phase call).idle = true) ∧
      ∑ call ∈ calls, server.work call = work
  have hwork : Work _ server := ⟨reachable_orderly hreach, hothers, rfl⟩
  refine .of_work ?_ ?_ hwork
  · rintro work server ⟨horderly, houtside, -⟩
    have hmoves {call : Tid} (hcall : call ∈ calls) {next : World Tid Digest}
        (hnext : advance crypto (buildEntries users) roster server.world call {} = some next) :
        ∃ after, Server.Moves crypto (buildEntries users) roster calls server after :=
      ⟨_, server.world.disk, call, hcall, .advance call {}, .inr ⟨{}, rfl⟩,
        Option.map_eq_some_iff.mpr ⟨next, hnext, rfl⟩⟩
    by_cases hbusy : ∃ call, (server.world.phase call).idle = false
    · obtain ⟨call, hcall⟩ := hbusy
      obtain ⟨other, hother, next, hnext⟩ := exists_ready
        (fun call => height_le (server.world.phase call))
        (fun _ hbusy => advance_or_waits hworkers horderly hbusy) hcall
      have hmem : other ∈ calls := by
        by_contra hout
        rw [houtside other hout] at hother
        cases hother
      exact .inr (hmoves hmem hnext)
    · by_cases hnew : ∃ call ∈ calls, server.world.phase call = .start
      · obtain ⟨call, hcall, hstart⟩ := hnew
        have hnext : advance crypto (buildEntries users) roster server.world call {} =
            some (begin crypto (buildEntries users) roster server.world call) := by
          rw [advance, hstart]
        exact .inr (hmoves hcall hnext)
      · refine .inl fun call hcall => ?_
        cases hphase : server.world.phase call with
        | done accepted => exact ⟨accepted, rfl⟩
        | start => exact absurd ⟨call, hcall, hphase⟩ hnew
        | _ => exact absurd ⟨call, by rw [hphase]; rfl⟩ hbusy
  · rintro work server after ⟨horderly, houtside, rfl⟩
      ⟨content, call, hcall, action, haction, hstep⟩
    have hedit : server.step crypto (buildEntries users) roster (.editDisk content) =
        some { server with world := { server.world with disk := content } } := rfl
    have hedited := step_orderly hedit horderly
    obtain ⟨hless, hsame⟩ := step_work haction hstep hedited
    refine ⟨_, Finset.sum_lt_sum (fun other hother => ?_) ⟨call, hcall, hless⟩,
      step_orderly hstep hedited, fun other hother => ?_, rfl⟩
    · by_cases heq : other = call
      · exact heq ▸ hless.le
      · exact (hsame other heq).1.le
    · have hne : other ≠ call := fun heq => hother (heq ▸ hcall)
      rw [(hsame other hne).2]
      exact houtside other hother

end

theorem verifications_end_twins :
    ∃ server, Reaches (Server.step plainCrypto (buildEntries unclaimedUsers) twinLogins)
        (initialServer unclaimedUsers (some unclaimedUsers) 1) server ∧
      server.world.phase 1 = .waitGate ⟨0, "$first"⟩ ∧
      Inevitably (Server.Moves plainCrypto (buildEntries unclaimedUsers) twinLogins Finset.univ)
        (fun server => ∀ call ∈ Finset.univ, ∃ accepted, server.world.phase call = .done accepted)
        server := by
  obtain ⟨server, hserver⟩ : ∃ server,
      run (Server.step plainCrypto (buildEntries unclaimedUsers) twinLogins)
        (initialServer unclaimedUsers (some unclaimedUsers) 1) twinSchedule = some server :=
    ⟨_, rfl⟩
  have hreach : Reaches (Server.step plainCrypto (buildEntries unclaimedUsers) twinLogins)
      (initialServer unclaimedUsers (some unclaimedUsers) 1) server := ⟨twinSchedule, hserver⟩
  have hwaits : server.world.phase 1 = .waitGate ⟨0, "$first"⟩ := by
    obtain rfl := Option.some.inj hserver
    decide
  exact ⟨server, hreach, hwaits, verifications_end Nat.one_pos hreach
    fun call hcall => absurd (Finset.mem_univ call) hcall⟩

end Resocks5.Auth
